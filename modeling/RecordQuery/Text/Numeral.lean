import RecordQuery.Number.Decimal
import RecordQuery.Text.Blank
import RecordQuery.Text.Digit

/-!
# Numerals

Reading whole numbers and binary64 numbers from free text. Both kinds allow blanks around them, a
sign, digits of any script, and single underscores between two digits. A binary64 number may also
have a point with digits on at least one side of it, an exponent, or be one of the names `inf`,
`infinity` and `nan` in any case.
-/

namespace RecordQuery.Text

/-- The blanks that may surround a numeral: of the characters below 128 only six count. -/
def isNumeralBlank (c : Char) : Bool :=
  if c.toNat < 0x80 then c == ' ' || (0x9 ≤ c.toNat && c.toNat ≤ 0xD) else isBlank c

/-- The text without the blanks that may surround a numeral. -/
def stripNumeral (cs : List Char) : List Char :=
  ((cs.dropWhile isNumeralBlank).reverse.dropWhile isNumeralBlank).reverse

/-- A digit of any script as the ASCII digit; other characters stay. -/
def plainDigit (c : Char) : Char :=
  match digitValue? c with
  | some d => Nat.digitChar d
  | none => c

/-- The text without its underscores, if each of them stands between two digits. -/
def dropUnderscores? : Option Char → List Char → Option (List Char)
  | _, [] => some []
  | before, '_' :: rest =>
    if (before.map Char.isDigit).getD false && (rest.head?.map Char.isDigit).getD false then
      dropUnderscores? (some '_') rest
    else none
  | _, c :: rest => (dropUnderscores? (some c) rest).map (c :: ·)

/-- The sign in front of a numeral, and what follows it. -/
def splitSign : List Char → Bool × List Char
  | '-' :: rest => (true, rest)
  | '+' :: rest => (false, rest)
  | cs => (false, cs)

/-- The natural spelled by a non-empty text of ASCII digits. -/
def readDigits? (cs : List Char) : Option Nat :=
  if !cs.isEmpty && cs.all Char.isDigit then some (digitsValue cs) else none

/-- The whole number that a text spells. -/
def readInt? (s : String) : Option Int := do
  let plain ← dropUnderscores? none ((stripNumeral s.toList).map plainDigit)
  let (negative, digits) := splitSign plain
  let n ← readDigits? digits
  return if negative then -(n : Int) else (n : Int)

/-- The power of ten that an exponent part stands for; no exponent part stands for zero. -/
def readExponent? : List Char → Option Int
  | [] => some 0
  | c :: rest =>
    if c = 'e' ∨ c = 'E' then
      let (negative, digits) := splitSign rest
      (readDigits? digits).map fun n => if negative then -(n : Int) else (n : Int)
    else none

/-- The decimal spelled by digits, an optional point with digits, and an optional exponent part. -/
def readDecimal? (cs : List Char) : Option Decimal :=
  let whole := cs.takeWhile Char.isDigit
  let rest := cs.dropWhile Char.isDigit
  let (fraction, rest) :=
    match rest with
    | '.' :: after => (after.takeWhile Char.isDigit, after.dropWhile Char.isDigit)
    | _ => ([], rest)
  if whole.isEmpty && fraction.isEmpty then none
  else (readExponent? rest).map fun e =>
    ⟨digitsValue (whole ++ fraction), e - (fraction.length : Int)⟩

/-- The binary64 number that a text spells. -/
def readBinary64? (s : String) : Option Binary64 := do
  let plain ← dropUnderscores? none ((stripNumeral s.toList).map plainDigit)
  let (negative, magnitude) := splitSign plain
  let name := magnitude.map Char.toLower
  if name = "inf".toList ∨ name = "infinity".toList then return .infinite negative
  if name = "nan".toList then return .nan 0
  let d ← readDecimal? magnitude
  return .ofDecimal negative d

end RecordQuery.Text
