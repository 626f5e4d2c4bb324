import RecordQuery.Text.Split

/-!
# Folders and file names

The shell finds its files in a folder, by name. A name is read as segments between slashes, without
empty segments and single dots; two dots lead out of the folder.
-/

namespace RecordQuery

/-- The name of a file. -/
structure FileName where
  /-- The slashes that an absolute name begins with. -/
  root : String
  segments : List String
  deriving DecidableEq, Repr, Inhabited

namespace FileName

/-- The root of a name: one slash for any number of slashes but two. -/
def rootOf (cs : List Char) : String :=
  match (cs.takeWhile (· == '/')).length with
  | 0 => ""
  | 2 => "//"
  | _ => "/"

/-- The name that a text stands for. -/
def ofText (text : String) : FileName where
  root := rootOf text.toList
  segments := (Text.splitString '/' text).filter fun segment => segment != "" && segment != "."

/-- The text of a name; the folder itself is a dot. -/
def text (name : FileName) : String :=
  if name.root.isEmpty && name.segments.isEmpty then "."
  else name.root ++ Text.join "/" name.segments

/-- Whether anything can have a name: none holds a null character. -/
def isPossible (name : FileName) : Bool := !name.text.toList.contains '\x00'

/-- The ending of the last segment from its last dot on, unless that dot is the first or the last
character. -/
def suffix (name : FileName) : String :=
  let reversed := (name.segments.getLast?.getD "").toList.reverse
  let ending := reversed.takeWhile (· != '.')
  let before := reversed.drop (ending.length + 1)
  if ending.isEmpty || before.isEmpty then "" else String.ofList ('.' :: ending.reverse)

end FileName

/-- What a name leads to. -/
inductive Folder.Node where
  | file (text : String)
  | directory
  deriving DecidableEq, Repr, Inhabited

/-- A folder: what it holds, by name. -/
abbrev Folder := List (String × Folder.Node)

namespace Folder

/-- The folder of files with texts; a later file replaces an earlier one of the same name, however
the names are written. -/
def ofFiles (files : List (String × String)) : Folder :=
  files.reverse.map fun (name, text) => ((FileName.ofText name).text, .file text)

/-- Whether a name leads to the folder itself or out of it by dots alone. -/
def isOutside (name : FileName) : Bool := name.segments.all (· == "..")

/-- What a name leads to in a folder, if to anything; whatever something lies in is a directory. -/
def find? (folder : Folder) (name : FileName) : Option Node :=
  if !name.isPossible then none
  else if isOutside name then some .directory
  else match folder.lookup name.text with
    | some node => some node
    | none =>
      if folder.any fun entry => (name.text ++ "/").toList.isPrefixOf entry.1.toList
      then some .directory
      else none

/-- The greatest number of bytes in a segment of a name. -/
def segmentLimit : Nat := 255

/-- The greatest number of bytes in a name. -/
def nameLimit : Nat := 4095

/-- Whether a possible name is too long for anything in a folder: as a whole, or in a segment that
would stand in a directory. -/
def isTooLong (folder : Folder) (name : FileName) : Bool :=
  let before := name.segments.takeWhile fun segment => segment.utf8ByteSize ≤ segmentLimit
  name.isPossible && (nameLimit < name.text.utf8ByteSize ||
    (before.length < name.segments.length &&
      folder.find? { name with segments := before } == some .directory))

end Folder

end RecordQuery
