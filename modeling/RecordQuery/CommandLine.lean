import RecordQuery.Text.Digit

/-!
# The command line

The shell takes the name of a records file and options. An option that takes a value finds it in the
next argument, or behind an equals sign, or behind its single letter. Long options may be shortened
as long as only one begins so; letters of options without a value may be written together. A value
of two hyphens counts as none.
-/

namespace RecordQuery

/-- What the shell is asked to do. -/
structure CommandLine where
  records : String
  /-- The specifications of indexes. -/
  indexes : List (Option String)
  idField : Option String
  command : Option String
  file : Option String
  verbose : Bool
  deriving DecidableEq, Repr, Inhabited

namespace CommandLine

/-! ## Options -/

/-- Why the shell only tells how it is used: it was asked to, or the arguments are not usable. -/
inductive Usage where
  | asked
  | refused
  deriving DecidableEq, Repr, Inhabited

/-- The status that the shell ends with. -/
def Usage.status : Usage → Nat
  | .asked => 0
  | .refused => 2

/-- The options. -/
inductive Name where
  | help
  | index
  | idField
  | command
  | file
  | verbose
  deriving DecidableEq, Repr, Inhabited

/-- Whether the option takes a value. -/
def Name.takesValue : Name → Bool
  | .help | .verbose => false
  | _ => true

/-- The options by letter. -/
def letters : List (Char × Name) :=
  [('h', .help), ('i', .index), ('c', .command), ('f', .file), ('v', .verbose)]

/-- The options by long name. -/
def longNames : List (String × Name) := [
  ("help", .help), ("index", .index), ("id-attribute", .idField), ("command", .command),
  ("file", .file), ("verbose", .verbose)]

/-! ## Arguments by their looks -/

/-- One argument, by its looks. -/
inductive Item where
  /-- Not an option. -/
  | value (s : String)
  /-- Two hyphens alone: no option follows. -/
  | separator
  /-- A long option, with the value behind its equals sign. -/
  | long (name : Name) (value : Option String)
  /-- A letter, with what is written behind it. -/
  | short (name : Name) (behind : List Char)
  /-- Looks like an option but is none. -/
  | unknown
  deriving DecidableEq, Repr, Inhabited

/-- The text before the first equals sign and the text after it, if there is one. -/
def splitEquals (cs : List Char) : List Char × Option String :=
  (cs.takeWhile (· != '='),
    match cs.dropWhile (· != '=') with
    | [] => none
    | _ :: value => some (String.ofList value))

/-- The text without one line feed at its end. -/
def dropFinalNewline (cs : List Char) : List Char :=
  if cs.getLast? = some '\n' then cs.dropLast else cs

/-- Whether a text is digits of any script with at most one point among them, and a digit at its
end; a line feed may follow. -/
def isUnsigned (text : List Char) : Bool :=
  let cs := dropFinalNewline text
  match cs.dropWhile Text.isDigit with
  | [] => !cs.isEmpty
  | '.' :: decimals => !decimals.isEmpty && decimals.all Text.isDigit
  | _ => false

/-- An argument after two hyphens: the option of that name or of the only name that begins so; none
if several do. -/
def longItem (cs : List Char) : Except Usage Item :=
  let (name, value) := splitEquals cs
  match longNames.lookup (String.ofList name) with
  | some option => .ok (.long option value)
  | none => match longNames.filter fun entry => name.isPrefixOf entry.1.toList with
    | [] => .ok (if cs.contains ' ' then .value (String.ofList ('-' :: '-' :: cs)) else .unknown)
    | [(_, option)] => .ok (.long option value)
    | _ => .error .refused

/-- An argument by its looks. -/
def classify (argument : String) : Except Usage Item :=
  match argument.toList with
  | '-' :: '-' :: [] => .ok .separator
  | '-' :: '-' :: cs => longItem cs
  | '-' :: c :: behind => match letters.lookup c with
    | some option => .ok (.short option behind)
    | none => .ok (if isUnsigned (c :: behind) || (c :: behind).contains ' '
        then .value argument else .unknown)
  | _ => .ok (.value argument)

/-- All arguments by their looks; after the separator there are only values. -/
def classifyAll : List String → Except Usage (List Item)
  | [] => .ok []
  | argument :: rest => do
    match ← classify argument with
    | .separator => return .separator :: rest.map .value
    | item => return item :: (← classifyAll rest)

/-! ## Groups of letters -/

/-- What a group of letters amounts to: options without a value, then perhaps one with its value or
one whose value is the next argument. -/
structure Group where
  flags : List Name
  valued : Option (Name × Option String)
  deriving DecidableEq, Repr, Inhabited

/-- Puts an option without a value in front of a group. -/
def Group.addFlag (name : Name) (group : Group) : Group :=
  { group with flags := name :: group.flags }

/-- The group of an option's letter and the letters behind it. All that is behind an option that
takes a value is its value, and only letters of options may be behind one that takes none. -/
def groupOf (name : Name) : List Char → Except Usage Group
  | [] => .ok (if name.takesValue then ⟨[], some (name, none)⟩ else ⟨[name], none⟩)
  | c :: behind =>
    if name.takesValue then .ok ⟨[], some (name, some (String.ofList (c :: behind)))⟩
    else match letters.lookup c with
      | some next => (groupOf next behind).map (Group.addFlag name)
      | none => .error .refused

/-- The group of an argument's first letter and what is written behind it, where an equals sign at
once behind the letter does not count; but an option that takes no value needs something behind
it. -/
def shortGroup (name : Name) (behind : List Char) : Except Usage Group :=
  match behind with
  | ['='] => if name.takesValue then .ok ⟨[], some (name, some "")⟩ else .error .refused
  | '=' :: rest => groupOf name rest
  | behind => groupOf name behind

/-! ## Reading the arguments -/

/-- What has been read of the arguments. -/
structure Progress where
  records : Option String
  given : CommandLine
  /-- Whether some argument was of no use. -/
  extra : Bool

/-- Nothing read yet. -/
def Progress.start : Progress := ⟨none, ⟨"", [], some "id", none, none, false⟩, false⟩

/-- The value that a text gives to an option. -/
def valueOf (text : String) : Option String := if text = "--" then none else some text

/-- Takes an option with the text of its value. -/
def Progress.setValue (p : Progress) (name : Name) (text : String) : Progress :=
  let value := valueOf text
  match name with
  | .index => { p with given := { p.given with indexes := p.given.indexes ++ [value] } }
  | .idField => { p with given := { p.given with idField := value } }
  | .command => { p with given := { p.given with command := value } }
  | .file => { p with given := { p.given with file := value } }
  | .help | .verbose => p

/-- Takes options without a value; help ends the reading. -/
def Progress.setFlags (p : Progress) : List Name → Except Usage Progress
  | [] => .ok p
  | .help :: _ => .error .asked
  | _ :: rest => ({ p with given := { p.given with verbose := true } }).setFlags rest

/-- Takes a value that belongs to no option: the records file, if there is none yet. -/
def Progress.addValue (p : Progress) (s : String) : Progress :=
  match p.records with
  | none => { p with records := some s }
  | some _ => { p with extra := true }

/-- Reads the arguments one by one. A separator is of use right before the records file and right
after it. -/
def readItems (p : Progress) : List Item → Except Usage Progress
  | [] => .ok p
  | .value s :: .separator :: rest =>
    if p.records.isNone then readItems (p.addValue s) rest
    else readItems { p with extra := true } rest
  | .value s :: rest => readItems (p.addValue s) rest
  | .separator :: .value s :: rest =>
    if p.records.isNone then readItems (p.addValue s) rest
    else readItems { p with extra := true } rest
  | .separator :: rest => readItems { p with extra := true } rest
  | .unknown :: rest => readItems { p with extra := true } rest
  | .long name value :: rest =>
    match name.takesValue, value, rest with
    | true, some v, rest => readItems (p.setValue name v) rest
    | true, none, .value v :: rest => readItems (p.setValue name v) rest
    | true, none, _ => .error .refused
    | false, some _, _ => .error .refused
    | false, none, rest => do
      let p ← p.setFlags [name]
      readItems p rest
  | .short name behind :: rest =>
    match shortGroup name behind, rest with
    | .error usage, _ => .error usage
    | .ok ⟨flags, none⟩, rest => do
      let p ← p.setFlags flags
      readItems p rest
    | .ok ⟨flags, some (name, some v)⟩, rest => do
      let p ← p.setFlags flags
      readItems (p.setValue name v) rest
    | .ok ⟨flags, some (name, none)⟩, .value v :: rest => do
      let p ← p.setFlags flags
      readItems (p.setValue name v) rest
    | .ok ⟨_, some (_, none)⟩, _ => .error .refused

/-- The command line that arguments make up. -/
def ofArguments (arguments : List String) : Except Usage CommandLine := do
  let p ← readItems .start (← classifyAll arguments)
  match p.records, p.extra with
  | some records, false => return { p.given with records }
  | _, _ => throw .refused

end CommandLine

end RecordQuery
