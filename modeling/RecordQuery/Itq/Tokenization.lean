import RecordQuery.Itq.StringLiteral
import RecordQuery.Itq.Token
import RecordQuery.Text.Digit

/-!
# From text to tokens

A text is read from left to right into tokens. Blanks, tabs, line feeds and comments, which run from
two hyphens to the end of the line, stand between tokens. Only line feeds outside tokens count as
lines. Reading ends at the first place where nothing fits.
-/

namespace RecordQuery.Itq

variable [CharacterNames]

/-- Why a text could not be read as a statement. -/
inductive StatementError where
  /-- A character where nothing fits. -/
  | illegalCharacter (c : Char) (position : Nat)
  /-- A malformed escape in a string literal; places are counted within the literal. -/
  | badEscape (fault : StringLiteral.BadEscape)
  /-- A token where it cannot stand. -/
  | unexpectedToken (token : Token) (position : Nat)
  /-- More tokens are needed. -/
  | unexpectedEnd
  /-- Conditions on one field with others between them. -/
  | notAdjacent (field : String)
  /-- Two conditions on one field with one operator. -/
  | duplicate (field operator : String)
  deriving DecidableEq, Repr, Inhabited

/-! ## What stands at the front of a text -/

/-- What stands at the front of a text: how many characters it takes after the first one, and the
token, unless it is a gap, which may hold line feeds. -/
inductive Piece where
  | gap (more lineFeeds : Nat)
  | token (t : Token) (more : Nat)
  | illegal
  | badString (fault : StringLiteral.BadEscape)
  deriving DecidableEq, Repr

namespace Piece

/-- The number whose digits begin a text, if there are any: with digits on both sides of a point it
is a float. The count is that of the characters taken. -/
def number? (negative : Bool) (cs : List Char) : Option (Token × Nat) :=
  let whole := cs.takeWhile Text.isDigit
  if whole.isEmpty then none
  else
    let fraction := match cs.dropWhile Text.isDigit with
      | '.' :: rest => rest.takeWhile Text.isDigit
      | _ => []
    if fraction.isEmpty then
      let n : Int := Text.digitsValue whole
      some (.integer (if negative then -n else n), whole.length)
    else
      let decimal := ⟨Text.digitsValue (whole ++ fraction), -(fraction.length : Int)⟩
      some (.float (.ofDecimal negative decimal), whole.length + 1 + fraction.length)

/-- The body of a string literal after its opening quote, if there is a closing one: a backslash
takes the character after it along, which is no line feed. -/
def stringBody? : List Char → Option (List Char)
  | [] => none
  | '"' :: _ => some []
  | '\\' :: c :: rest => if c = '\n' then none else (stringBody? rest).map ('\\' :: c :: ·)
  | '\\' :: [] => none
  | c :: rest => (stringBody? rest).map (c :: ·)

/-- The string literal after its opening quote. -/
def ofString (rest : List Char) : Piece :=
  match stringBody? rest with
  | none => .illegal
  | some body => match StringLiteral.decode body with
    | .ok s => .token (.string s) (body.length + 1)
    | .error fault => .badString fault

/-- The mark around a name that may hold any characters but the mark. -/
def nameMark : Char := '\x60'

/-- The marked name after its opening mark; it is not empty. -/
def ofMarkedName (rest : List Char) : Piece :=
  let name := rest.takeWhile (· != nameMark)
  if name.isEmpty ∨ name.length = rest.length then .illegal
  else .token (.identifier (String.ofList name)) (name.length + 1)

/-- Whether a character may begin a plain name. -/
def beginsName (c : Char) : Bool := c.isAlpha || c == '_'

/-- Whether a character may go on with a plain name. -/
def continuesName (c : Char) : Bool := c.isAlphanum || c == '_'

/-- The plain name or keyword that begins with a character. -/
def ofWord (c : Char) (rest : List Char) : Piece :=
  let more := rest.takeWhile continuesName
  let word := String.ofList (c :: more)
  match Keyword.ofWord? word with
  | some k => .token (.keyword k word) more.length
  | none => .token (.identifier word) more.length

/-- The symbol at the front, if there is one. -/
def ofSymbol (cs : List Char) : Piece :=
  match Symbol.atFront? cs with
  | some s => .token (.symbol s) (s.spelling.length - 1)
  | none => .illegal

/-- What begins with a hyphen: a negative number or a comment. -/
def ofHyphen (rest : List Char) : Piece :=
  match number? true rest with
  | some (t, length) => .token t length
  | none => match rest with
    | '-' :: comment => .gap ((comment.takeWhile (· != '\n')).length + 1) 0
    | _ => .illegal

/-- What stands at the front of a text that begins with a character. -/
def atFront (c : Char) (rest : List Char) : Piece :=
  if c = ' ' ∨ c = '\t' then .gap 0 0
  else if c = '\n' then
    let more := (rest.takeWhile (· == '\n')).length
    .gap more (more + 1)
  else if c = '-' then ofHyphen rest
  else if c = '"' then ofString rest
  else if c = nameMark then ofMarkedName rest
  else if beginsName c then ofWord c rest
  else match number? false (c :: rest) with
    | some (t, length) => .token t (length - 1)
    | none => ofSymbol (c :: rest)

end Piece

/-! ## All tokens -/

/-- The tokens of a text, and why reading ended before its end, if it did. -/
structure Tokenization where
  tokens : List PlacedToken
  failure? : Option StatementError
  deriving DecidableEq, Repr

namespace Tokenization

/-- The tokens of the rest of a text, whose first `skip` characters belong to what is before. -/
def ofRest (skip position line : Nat) : List Char → Tokenization
  | [] => ⟨[], none⟩
  | c :: rest =>
    match skip with
    | skip + 1 => ofRest skip (position + 1) line rest
    | 0 => match Piece.atFront c rest with
      | .gap more lineFeeds => ofRest more (position + 1) (line + lineFeeds) rest
      | .token t more =>
        let later := ofRest more (position + 1) line rest
        { later with tokens := ⟨t, line, position⟩ :: later.tokens }
      | .illegal => ⟨[], some (.illegalCharacter c position)⟩
      | .badString fault => ⟨[], some (.badEscape fault)⟩

/-- The tokens of a text. -/
def ofText (text : String) : Tokenization := ofRest 0 0 1 text.toList

/-- All tokens, or why there are not all. -/
def all (tokenization : Tokenization) : Except StatementError (List PlacedToken) :=
  match tokenization.failure? with
  | some e => .error e
  | none => .ok tokenization.tokens

end Tokenization

/-! ## Wording of errors -/

namespace StatementError

/-- Whether the error counts as one of syntax; a malformed escape is an error of text. -/
def isSyntactic : StatementError → Bool
  | .badEscape _ => false
  | _ => true

/-- The wording of a malformed escape. -/
def escapeMessage (fault : StringLiteral.BadEscape) : String :=
  let place :=
    if fault.length = 1 then "byte 0x5c in position " ++ Nat.repr fault.start
    else "bytes in position " ++ Nat.repr fault.start ++ "-" ++
      Nat.repr (fault.start + fault.length - 1)
  "'unicodeescape' codec can't decode " ++ place ++ ": " ++ fault.fault.message

/-- The wording of an error. -/
def message : StatementError → String
  | .illegalCharacter c position =>
    "Illegal character '" ++ c.toString ++ "' at position " ++ Nat.repr position
  | .badEscape fault => escapeMessage fault
  | .unexpectedToken token position =>
    "Syntax error at '" ++ token.value.text ++ "' (position " ++ Nat.repr position ++ ")"
  | .unexpectedEnd => "Syntax error at end of input"
  | .notAdjacent field => "Conditions on '" ++ field ++ "' must be adjacent"
  | .duplicate field operator => "Duplicate condition '" ++ field ++ " " ++ operator ++ "'"

end StatementError

end RecordQuery.Itq
