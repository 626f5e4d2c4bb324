import RecordQuery.Number.Decimal
import RecordQuery.Text.Digit
import RecordQuery.Value.Equality

/-!
# JSON text

Reading JSON text into values. Objects keep the order of their keys; a number with a fraction or an
exponent is a float; the constants for not-a-number and the infinities are allowed. A failure tells
what is wrong and where, by line, column and position.
-/

namespace RecordQuery.Json

/-! ## Problems -/

/-- What is wrong with a text. -/
inductive Problem where
  | expectingValue
  | expectingName
  | expectingColon
  | expectingComma
  | extraData
  | unterminatedString
  | controlCharacter
  | invalidEscape
  | invalidUnicodeEscape
  | byteOrderMark
  deriving DecidableEq, Repr, Inhabited

/-- The wording of a problem. -/
def Problem.message : Problem → String
  | .expectingValue => "Expecting value"
  | .expectingName => "Expecting property name enclosed in double quotes"
  | .expectingColon => "Expecting ':' delimiter"
  | .expectingComma => "Expecting ',' delimiter"
  | .extraData => "Extra data"
  | .unterminatedString => "Unterminated string starting at"
  | .controlCharacter => "Invalid control character at"
  | .invalidEscape => "Invalid \\escape"
  | .invalidUnicodeEscape => "Invalid \\uXXXX escape"
  | .byteOrderMark => "Unexpected UTF-8 BOM (decode using utf-8-sig)"

/-- What was read and the text after it, or a problem and the text from where it is. -/
abbrev ReadResult (α : Type) := Except (Problem × List Char) (α × List Char)

/-- Whether the character may stand between the parts of a text. -/
def isSpace (c : Char) : Bool := c == ' ' || c == '\t' || c == '\n' || c == '\r'

/-- The text without the space in front. -/
def skipSpace (cs : List Char) : List Char := cs.dropWhile isSpace

/-! ## Strings -/

/-- The value of four hexadecimal digits. -/
def hexUnit? (a b c d : Char) : Option Nat := do
  let a ← Text.hexValue? a
  let b ← Text.hexValue? b
  let c ← Text.hexValue? c
  let d ← Text.hexValue? d
  return ((a * 16 + b) * 16 + c) * 16 + d

/-- Whether a unit is the first of a pair that stands for one character. -/
def isHighUnit (unit : Nat) : Bool := 0xD800 ≤ unit && unit ≤ 0xDBFF

/-- Whether a unit is the second of a pair that stands for one character. -/
def isLowUnit (unit : Nat) : Bool := 0xDC00 ≤ unit && unit ≤ 0xDFFF

/-- The character that a pair of units stands for. -/
def pairChar (high low : Nat) : Char :=
  Char.ofNat (0x10000 + (high - 0xD800) * 0x400 + (low - 0xDC00))

/-- The character of a unit that stands alone; half of a pair has none of its own. -/
def unitChar (unit : Nat) : Char :=
  if isHighUnit unit || isLowUnit unit then '\uFFFD' else Char.ofNat unit

/-- The second unit of a pair, if the first one begins a pair and an escape of such a unit follows,
which is not the last thing in the text. -/
def lowUnitAfter (first : Nat) (rest : List Char) : Except (Problem × List Char) (Option Nat) :=
  match isHighUnit first, rest with
  | true, '\\' :: 'u' :: a :: b :: c :: d :: next :: rest => match hexUnit? a b c d with
    | none => .error (.invalidUnicodeEscape, 'u' :: a :: b :: c :: d :: next :: rest)
    | some unit => .ok (if isLowUnit unit then some unit else none)
  | _, _ => .ok none

/-- The character that an escape of one letter stands for. -/
def shortEscape? : Char → Option Char
  | '"' => some '"'
  | '\\' => some '\\'
  | '/' => some '/'
  | 'b' => some '\x08'
  | 'f' => some '\x0c'
  | 'n' => some '\n'
  | 'r' => some '\r'
  | 't' => some '\t'
  | _ => none

/-- Reads a string after its opening quote; `start` is the text from that quote, and what was read
so far is held in reverse. -/
def stringFrom (start : List Char) (read : List Char) : List Char → ReadResult String
  | [] => .error (.unterminatedString, start)
  | '"' :: rest => .ok (String.ofList read.reverse, rest)
  | '\\' :: [] => .error (.unterminatedString, start)
  | '\\' :: 'u' :: a :: b :: c :: d :: next :: rest =>
    match hexUnit? a b c d with
    | none => .error (.invalidUnicodeEscape, 'u' :: a :: b :: c :: d :: next :: rest)
    | some unit => match lowUnitAfter unit (next :: rest) with
      | .error problem => .error problem
      | .ok none => stringFrom start (unitChar unit :: read) (next :: rest)
      | .ok (some low) => stringFrom start (pairChar unit low :: read) ((next :: rest).drop 6)
  | '\\' :: 'u' :: rest => .error (.invalidUnicodeEscape, 'u' :: rest)
  | '\\' :: c :: rest =>
    match shortEscape? c with
    | some e => stringFrom start (e :: read) rest
    | none => .error (.invalidEscape, '\\' :: c :: rest)
  | c :: rest =>
    if c.toNat ≤ 0x1F then .error (.controlCharacter, c :: rest)
    else stringFrom start (c :: read) rest
termination_by cs => cs.length
decreasing_by all_goals (simp only [List.length_cons, List.length_drop]; omega)

/-! ## Numbers and constants -/

/-- The digits of an exponent part at the front of a text, with its sign, and the text after it. -/
def exponent? (cs : List Char) : Option (Int × List Char) :=
  match cs with
  | c :: rest =>
    if c = 'e' ∨ c = 'E' then
      let (negative, rest) := match rest with
        | '-' :: rest => (true, rest)
        | '+' :: rest => (false, rest)
        | rest => (false, rest)
      let digits := rest.takeWhile Char.isDigit
      if digits.isEmpty then none
      else
        let n : Int := Text.digitsValue digits
        some (if negative then -n else n, rest.dropWhile Char.isDigit)
    else none
  | [] => none

/-- The digits after a point at the front of a text, and the text after them; none without both. -/
def fraction (cs : List Char) : List Char × List Char :=
  match cs with
  | '.' :: rest =>
    let digits := rest.takeWhile Char.isDigit
    if digits.isEmpty then ([], cs) else (digits, rest.dropWhile Char.isDigit)
  | _ => ([], cs)

/-- The number after its sign at the front of a text: a zero or digits that do not begin with one,
then perhaps a fraction and an exponent. -/
def magnitude? (negative : Bool) (cs : List Char) : Option (Value × List Char) :=
  let whole := match cs with
    | '0' :: _ => ['0']
    | cs => cs.takeWhile Char.isDigit
  if whole.isEmpty then none
  else
    let (decimals, rest) := fraction (cs.drop whole.length)
    match decimals, exponent? rest with
    | [], none =>
      let n : Int := Text.digitsValue whole
      some (.int (if negative then -n else n), rest)
    | decimals, found =>
      let (e, rest) := found.getD (0, rest)
      let decimal := ⟨Text.digitsValue (whole ++ decimals), e - (decimals.length : Int)⟩
      some (.float (.ofDecimal negative decimal), rest)

/-- The number at the front of a text. -/
def number? : List Char → Option (Value × List Char)
  | '-' :: rest => magnitude? true rest
  | cs => magnitude? false cs

/-- The constants by name. -/
def constants : List (String × Value) := [
  ("null", .null), ("true", .bool true), ("false", .bool false), ("NaN", .float (.nan 0)),
  ("Infinity", .float (.infinite false)), ("-Infinity", .float (.infinite true))]

/-- The constant at the front of a text. -/
def constant? (cs : List Char) : Option (Value × List Char) :=
  (constants.find? fun (name, _) => name.toList.isPrefixOf cs).map fun (name, v) =>
    (v, cs.drop name.length)

/-! ## Values -/

mutual
/-- Reads a value; `fuel` bounds the nesting and the length. -/
def valueWithin : Nat → List Char → ReadResult Value
  | 0, cs => .error (.expectingValue, cs)
  | fuel + 1, cs =>
    match cs with
    | '"' :: rest => (stringFrom cs [] rest).map fun (s, rest) => (.str s, rest)
    | '\x7b' :: rest =>
      match skipSpace rest with
      | '\x7d' :: rest => .ok (.map [], rest)
      | rest => (entriesWithin fuel rest).map fun (entries, rest) =>
        (.map (Entries.ofPairs entries), rest)
    | '[' :: rest =>
      match skipSpace rest with
      | ']' :: rest => .ok (.list [], rest)
      | rest => (itemsWithin fuel rest).map fun (items, rest) => (.list items, rest)
    | cs => match (constant? cs).or (number? cs) with
      | some (v, rest) => .ok (v, rest)
      | none => .error (.expectingValue, cs)

/-- Reads the items of an array up to its closing bracket. -/
def itemsWithin : Nat → List Char → ReadResult (List Value)
  | 0, cs => .error (.expectingValue, cs)
  | fuel + 1, cs =>
    match valueWithin fuel cs with
    | .error problem => .error problem
    | .ok (v, rest) => match skipSpace rest with
      | ']' :: rest => .ok ([v], rest)
      | ',' :: rest => (itemsWithin fuel (skipSpace rest)).map fun (vs, rest) => (v :: vs, rest)
      | rest => .error (.expectingComma, rest)

/-- Reads the entries of an object up to its closing brace. -/
def entriesWithin : Nat → List Char → ReadResult (List (Value × Value))
  | 0, cs => .error (.expectingName, cs)
  | fuel + 1, cs =>
    match cs with
    | '"' :: rest => match stringFrom cs [] rest with
      | .error problem => .error problem
      | .ok (name, rest) => match skipSpace rest with
        | ':' :: rest => match valueWithin fuel (skipSpace rest) with
          | .error problem => .error problem
          | .ok (v, rest) => match skipSpace rest with
            | '\x7d' :: rest => .ok ([(.str name, v)], rest)
            | ',' :: rest => (entriesWithin fuel (skipSpace rest)).map fun (entries, rest) =>
              ((.str name, v) :: entries, rest)
            | rest => .error (.expectingComma, rest)
        | rest => .error (.expectingColon, rest)
    | cs => .error (.expectingName, cs)
end

/-! ## Whole texts -/

/-- Reads a whole text: a value with nothing but space around it. -/
def readChars (cs : List Char) : Except (Problem × List Char) Value :=
  if cs.head? = some '\uFEFF' then .error (.byteOrderMark, cs)
  else match valueWithin (2 * cs.length + 2) (skipSpace cs) with
    | .error problem => .error problem
    | .ok (v, rest) => match skipSpace rest with
      | [] => .ok v
      | rest => .error (.extraData, rest)

/-- The wording of a problem at a position of a text, with its line and column. -/
def failureMessage (cs : List Char) (problem : Problem) (position : Nat) : String :=
  let before := cs.take position
  let line := before.count '\n' + 1
  let column := (before.reverse.takeWhile (· != '\n')).length + 1
  problem.message ++ ": line " ++ Nat.repr line ++ " column " ++ Nat.repr column ++
    " (char " ++ Nat.repr position ++ ")"

/-- The value that a text spells, or the wording of what is wrong with it. -/
def read (cs : List Char) : Except String Value :=
  (readChars cs).mapError fun (problem, rest) =>
    failureMessage cs problem (cs.length - rest.length)

end RecordQuery.Json
