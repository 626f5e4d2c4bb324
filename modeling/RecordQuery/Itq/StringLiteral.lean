import RecordQuery.Text.CodePoint
import RecordQuery.Text.Digit
import RecordQuery.Text.Quoted

/-!
# String literals

Between the quotes of a string literal a backslash begins an escape: short names of controls, octal
and hexadecimal code points, names of characters. A backslash before any other character stands for
itself. The body is read as one unit per character up to code point 255, and beyond that as the
hexadecimal escape of the character; the places of malformed escapes are counted in these units.
-/

namespace RecordQuery.Itq.StringLiteral

variable [CharacterNames]

/-- What is wrong with an escape. -/
inductive EscapeFault where
  | loneBackslash
  | shortHex
  | shortUnicode
  | shortLongUnicode
  | beyondUnicode
  | malformedName
  | unknownName
  deriving DecidableEq, Repr, Inhabited

/-- The wording of a fault. -/
def EscapeFault.message : EscapeFault → String
  | .loneBackslash => "\\ at end of string"
  | .shortHex => "truncated \\xXX escape"
  | .shortUnicode => "truncated \\uXXXX escape"
  | .shortLongUnicode => "truncated \\UXXXXXXXX escape"
  | .beyondUnicode => "illegal Unicode character"
  | .malformedName => "malformed \\N character escape"
  | .unknownName => "unknown Unicode character name"

/-- A malformed escape: its first unit, the number of its units, and what is wrong with it. -/
structure BadEscape where
  start : Nat
  length : Nat
  fault : EscapeFault
  deriving DecidableEq, Repr, Inhabited

/-- The units of a body: characters up to code point 255 as they are, others as escapes. -/
def units (body : List Char) : List Char :=
  body.flatMap fun c => if c.toNat ≤ 0xFF then [c] else Text.codeEscape c.toNat

/-- Whether a character is an octal digit. -/
def isOctal (c : Char) : Bool := '0' ≤ c && c ≤ '7'

/-- The number that digits of a base spell, given their values. -/
def numberOf (base : Nat) (digits : List Nat) : Nat :=
  digits.foldl (fun n d => base * n + d) 0

/-- What an escape stands for and how many units it has after the backslash; or its fault and how
many units after the backslash belong to it. -/
abbrev EscapeResult := Except (EscapeFault × Nat) (List CodePoint × Nat)

/-- The escape of `count` hexadecimal digits after its letter. -/
def hexEscape (count : Nat) (fault : EscapeFault) (rest : List Char) : EscapeResult :=
  let digits := ((rest.take count).map Text.hexValue?).takeWhile Option.isSome
  if digits.length < count then .error (fault, digits.length + 1)
  else
    let code := numberOf 16 (digits.filterMap id)
    if bounded : code < 0x110000 then .ok ([⟨code, bounded⟩], count + 1)
    else .error (.beyondUnicode, count + 1)

/-- The escape of up to three octal digits, the first of them included. -/
def octalEscape (digits : List Char) : EscapeResult :=
  let octal := (digits.take 3).takeWhile isOctal
  let code := numberOf 8 (octal.map fun c => c.toNat - 48)
  .ok ([.ofChar (Char.ofNat code)], octal.length)

/-- The escape by name: after the letter, a name in braces. -/
def nameEscape (rest : List Char) : EscapeResult :=
  match rest with
  | '\x7b' :: named =>
    let name := named.takeWhile (· != '\x7d')
    if name.length = named.length then .error (.malformedName, named.length + 2)
    else if name.isEmpty then .error (.malformedName, 2)
    else match CharacterNames.named? name with
      | some c => .ok ([.ofChar c], name.length + 3)
      | none => .error (.unknownName, name.length + 3)
  | _ => .error (.malformedName, 1)

/-- The escape whose units after the backslash begin a text. -/
def escape : List Char → EscapeResult
  | [] => .error (.loneBackslash, 0)
  | c :: rest =>
    match c with
    | '\n' => .ok ([], 1)
    | '\\' => .ok ([.ofChar '\\'], 1)
    | '\'' => .ok ([.ofChar '\''], 1)
    | '"' => .ok ([.ofChar '"'], 1)
    | 'b' => .ok ([.ofChar '\x08'], 1)
    | 't' => .ok ([.ofChar '\t'], 1)
    | 'n' => .ok ([.ofChar '\n'], 1)
    | 'r' => .ok ([.ofChar '\r'], 1)
    | 'f' => .ok ([.ofChar '\x0c'], 1)
    | 'v' => .ok ([.ofChar '\x0b'], 1)
    | 'a' => .ok ([.ofChar '\x07'], 1)
    | 'x' => hexEscape 2 .shortHex rest
    | 'u' => hexEscape 4 .shortUnicode rest
    | 'U' => hexEscape 8 .shortLongUnicode rest
    | 'N' => nameEscape rest
    | c =>
      if isOctal c then octalEscape (c :: rest) else .ok ([.ofChar '\\', .ofChar c], 1)

/-- The code points that units stand for, after some units that are already read; `skip` of the
units at the front belong to the escape before them. -/
def decodeUnits (skip position : Nat) : List Char → Except BadEscape (List CodePoint)
  | [] => .ok []
  | c :: rest =>
    match skip with
    | skip + 1 => decodeUnits skip (position + 1) rest
    | 0 =>
      if c = '\\' then
        match escape rest with
        | .error (fault, length) => .error ⟨position, length + 1, fault⟩
        | .ok (cs, length) => (decodeUnits length (position + 1) rest).map (cs ++ ·)
      else (decodeUnits 0 (position + 1) rest).map (.ofChar c :: ·)

/-- The text that the body of a literal stands for. -/
def decode (body : List Char) : Except BadEscape CodeText :=
  (decodeUnits 0 0 (units body)).map CodeText.mk

end RecordQuery.Itq.StringLiteral
