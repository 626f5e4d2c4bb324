import RecordQuery.Operator.Basic
import RecordQuery.Text.Case

/-!
# Patterns

In a pattern a percent sign stands for any run of characters and an underscore for any one
character; every other character stands for itself. A text matches if all of it does, or, per line,
if a stretch from the start of a line to the end of a line does.
-/

namespace RecordQuery

/-- One item of a pattern. -/
inductive LikeItem where
  | anyRun
  | anyChar
  | literal (c : Char)
  deriving DecidableEq, Repr, Inhabited

/-- The items that a pattern's text spells. -/
def LikeItem.ofText (pattern : String) : List LikeItem :=
  pattern.toList.map fun c =>
    if c = '%' then .anyRun else if c = '_' then .anyChar else .literal c

namespace LikeFlags

/-- Whether a wildcard may stand for the character. -/
def covers (flags : LikeFlags) (c : Char) : Bool := flags.acrossLines || c != '\n'

/-- Whether a character of the pattern stands for the character. -/
def same (flags : LikeFlags) (wanted c : Char) : Bool :=
  if flags.ignoreCase then Text.matchesIgnoringCase wanted c else c == wanted

/-- Whether some run of covered characters at the front leaves a rest that goes on as wanted. -/
def runThen (flags : LikeFlags) (goesOn : List Char → Bool) : List Char → Bool
  | [] => goesOn []
  | c :: rest => goesOn (c :: rest) || (flags.covers c && runThen flags goesOn rest)

/-- Whether the items match the front of a text and leave a rest that goes on as wanted. -/
def matchThen (flags : LikeFlags) (goesOn : List Char → Bool) :
    List LikeItem → List Char → Bool
  | [], cs => goesOn cs
  | .anyRun :: items, cs => runThen flags (matchThen flags goesOn items) cs
  | .anyChar :: items, cs => match cs with
    | c :: rest => flags.covers c && matchThen flags goesOn items rest
    | [] => false
  | .literal wanted :: items, cs => match cs with
    | c :: rest => flags.same wanted c && matchThen flags goesOn items rest
    | [] => false

/-- Whether a rest begins where a line ends. -/
def atLineEnd : List Char → Bool
  | [] => true
  | c :: _ => c == '\n'

/-- The rests of a text after each of its line feeds. -/
def laterLines : List Char → List (List Char)
  | [] => []
  | c :: rest => if c = '\n' then rest :: laterLines rest else laterLines rest

/-- Whether a text matches the items under the flags. -/
def textMatches (flags : LikeFlags) (items : List LikeItem) (cs : List Char) : Bool :=
  if flags.perLine then
    (cs :: laterLines cs).any (matchThen flags atLineEnd items)
  else matchThen flags List.isEmpty items cs

end LikeFlags

end RecordQuery
