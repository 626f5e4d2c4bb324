import RecordQuery.Text.CodePoint
import RecordQuery.Value.Text

/-!
# Tokens of query statements

A statement is read as tokens: names, literals, keywords in any case, and symbols. A placed token
also tells the line and the position in the text where it begins.
-/

namespace RecordQuery.Itq

/-- The reserved words. -/
inductive Keyword where
  | get
  | between
  | usingIndex
  | inclusive
  | exclusive
  | condition
  | and
  | or
  | not
  | isIn
  | contains
  | like
  | ilike
  | intersects
  | sort
  | sortBy
  | ascending
  | descending
  | offset
  | limit
  | true
  | false
  | null
  deriving DecidableEq, Repr, Inhabited

namespace Keyword

/-- The reserved words in lower case. -/
def words : List (String × Keyword) := [
  ("get", .get), ("between", .between), ("using", .usingIndex), ("inclusive", .inclusive),
  ("exclusive", .exclusive), ("where", .condition), ("and", .and), ("or", .or), ("not", .not),
  ("in", .isIn), ("contains", .contains), ("like", .like), ("ilike", .ilike),
  ("intersects", .intersects), ("sort", .sort), ("by", .sortBy), ("asc", .ascending),
  ("desc", .descending), ("offset", .offset), ("limit", .limit), ("true", .true),
  ("false", .false), ("null", .null)]

/-- The keyword that a word of ASCII letters stands for, in any case. -/
def ofWord? (word : String) : Option Keyword :=
  words.lookup (String.ofList (word.toList.map Char.toLower))

end Keyword

/-- The symbols. -/
inductive Symbol where
  | comma
  | dot
  | leftBracket
  | rightBracket
  | semicolon
  | assign
  | equal
  | strictEqual
  | notEqual
  | strictNotEqual
  | less
  | lessOrEqual
  | greater
  | greaterOrEqual
  deriving DecidableEq, Repr, Inhabited

namespace Symbol

/-- The spelling of a symbol. -/
def spelling : Symbol → String
  | .comma => ","
  | .dot => "."
  | .leftBracket => "["
  | .rightBracket => "]"
  | .semicolon => ";"
  | .assign => "="
  | .equal => "=="
  | .strictEqual => "==="
  | .notEqual => "!="
  | .strictNotEqual => "!=="
  | .less => "<"
  | .lessOrEqual => "<="
  | .greater => ">"
  | .greaterOrEqual => ">="

/-- The symbol at the front of a text, the longest one that is there. -/
def atFront? : List Char → Option Symbol
  | '=' :: '=' :: '=' :: _ => some .strictEqual
  | '!' :: '=' :: '=' :: _ => some .strictNotEqual
  | '=' :: '=' :: _ => some .equal
  | '!' :: '=' :: _ => some .notEqual
  | '<' :: '=' :: _ => some .lessOrEqual
  | '>' :: '=' :: _ => some .greaterOrEqual
  | '=' :: _ => some .assign
  | '<' :: _ => some .less
  | '>' :: _ => some .greater
  | ',' :: _ => some .comma
  | '.' :: _ => some .dot
  | '[' :: _ => some .leftBracket
  | ']' :: _ => some .rightBracket
  | ';' :: _ => some .semicolon
  | _ => none

end Symbol

/-- A token. -/
inductive Token where
  | identifier (name : String)
  | integer (n : Int)
  | float (x : Binary64)
  | string (s : CodeText)
  /-- A reserved word, with the word as it was written. -/
  | keyword (k : Keyword) (word : String)
  | symbol (s : Symbol)
  deriving DecidableEq, Repr, Inhabited

/-- What a token holds: the value of a literal, and the text of any other token. The value of a string
literal is a text of characters. -/
def Token.value : Token → Value
  | .identifier name => .str name
  | .integer n => .int n
  | .float x => .float x
  | .string s => .str s.text
  | .keyword _ word => .str word
  | .symbol s => .str s.spelling

/-- A token with the place where it begins; lines count from one and positions from zero. -/
structure PlacedToken where
  token : Token
  line : Nat
  position : Nat
  deriving DecidableEq, Repr, Inhabited

end RecordQuery.Itq
