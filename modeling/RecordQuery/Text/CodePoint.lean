/-!
# Code points

A code point is a character or half of a surrogate pair. An escape can spell either, so what a
literal stands for is a text of code points. An escape can also give a character by its name; which
names there are is left open, since every edition of Unicode adds to them.
-/

namespace RecordQuery

/-- A code point: a character, or half of a surrogate pair. -/
structure CodePoint where
  number : Nat
  bounded : number < 0x110000
  deriving DecidableEq, Repr

namespace CodePoint

/-- The code point of a character. -/
def ofChar (c : Char) : CodePoint where
  number := c.toNat
  bounded := c.valid.elim (fun low => Nat.lt_trans low (by decide)) And.right

/-- The character of a code point; half of a surrogate pair is none. -/
def char? (code : CodePoint) : Option Char :=
  if code.number.isValidChar then some (Char.ofNat code.number) else none

end CodePoint

/-- A text of code points. -/
structure CodeText where
  codes : List CodePoint
  deriving DecidableEq, Repr, Inhabited

namespace CodeText

/-- The code points of a text of characters. -/
def ofString (s : String) : CodeText := ⟨s.toList.map .ofChar⟩

instance : Coe String CodeText := ⟨ofString⟩

/-- The characters of a text; in place of half of a surrogate pair stands the replacement
character. -/
def text (codeText : CodeText) : String :=
  String.ofList (codeText.codes.map fun code => code.char?.getD '\uFFFD')

end CodeText

/-- The characters by their names, in none of which a backslash stands. -/
class CharacterNames where
  named? : List Char → Option Char
  noBackslash : ∀ name c, named? name = some c → '\\' ∉ name

namespace CharacterNames

/-- Names of some marks of print. -/
def marks : List (String × Char) := [
  ("NO-BREAK SPACE", '\u00A0'), ("EN DASH", '\u2013'), ("EM DASH", '\u2014'),
  ("LEFT SINGLE QUOTATION MARK", '\u2018'), ("RIGHT SINGLE QUOTATION MARK", '\u2019'),
  ("LEFT DOUBLE QUOTATION MARK", '\u201C'), ("RIGHT DOUBLE QUOTATION MARK", '\u201D'),
  ("BULLET", '\u2022'), ("HORIZONTAL ELLIPSIS", '\u2026'), ("EURO SIGN", '\u20AC')]

/-- A program that brings no table of its own knows some marks of print, in letters of any case. -/
scoped instance : CharacterNames where
  named? name :=
    if '\\' ∈ name then none
    else
      let known := marks.find? fun mark => mark.1.toList == name.map Char.toUpper
      known.map (·.2)
  noBackslash _ _ found := (Option.ite_none_left_eq_some.mp found).left

end CharacterNames

end RecordQuery
