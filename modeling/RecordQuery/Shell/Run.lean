import RecordQuery.CommandLine
import RecordQuery.Shell.RecordFile
import RecordQuery.Shell.Session

/-!
# Running the shell

The shell loads the records file and then runs a script, a single command, or an interactive
session, in this order of preference. A command or a script that fails ends with the status one.
-/

namespace RecordQuery.Shell

open Table (unlines)

variable [CharacterNames]

/-- How a run of the shell ends. -/
inductive Outcome where
  | finished (status : Nat) (output errors : String)
  /-- The arguments ask for help, or are not usable; the way of use is shown. -/
  | usage (status : Nat)
  /-- A fault breaks the run off after some output. -/
  | broken (fault : Fault) (output : String)
  deriving DecidableEq, Repr, Inhabited

/-- What the shell does with a collection. -/
inductive Task where
  | done (outcome : Outcome)
  /-- An interactive session, with what it shows first. -/
  | session (collection : Collection) (greeting : String)

/-- A run that ends with an error. -/
def failed (output message : String) : Outcome := .finished 1 output (unlines [message])

/-- The wording for a file that is not there. -/
def missing (name : FileName) : String := "Error: File not found: " ++ name.text

/-- The wording for records that cannot be loaded. -/
def loadingError (message : String) : String := "Error loading records: " ++ message

/-- Goes on with what a name leads to, which has to be there. -/
def withNode (folder : Folder) (name : FileName) (next : Folder.Node → Task) : Task :=
  if folder.isTooLong name then .done (.broken (.nameTooLong name) "")
  else match folder.find? name with
    | none => .done (failed "" (missing name))
    | some node => next node

/-- Runs the statements of a script. -/
def runScript (collection : Collection) (text : String) (verbose : Bool) : Outcome :=
  let script := String.ofList (Text.unifyNewlines text.toList)
  match runStatements collection verbose (statementsOf script) with
  | (output, none) => .finished 0 output ""
  | (output, some message) => failed output message

/-- Runs a single statement; a result with a message counts as a failure. -/
def runCommand (collection : Collection) (text : String) : Outcome :=
  match executeText collection text with
  | .error message => failed "" message
  | .ok result =>
    .finished (if result.message.isNone then 0 else 1) (Table.renderResult result) ""

/-- What to do with the collection of the records file. -/
def taskFor (folder : Folder) (line : CommandLine) (collection : Collection) : Task :=
  match line.file, line.command with
  | some file, _ =>
    let name := FileName.ofText file
    withNode folder name fun
      | .directory => .done (.broken (.scriptIsDirectory name) "")
      | .file text => .done (runScript collection text line.verbose)
  | none, some command =>
    if command.isEmpty then interactive else .done (runCommand collection command)
  | none, none => interactive
where
  /-- An interactive session over the collection. -/
  interactive : Task :=
    .session collection (greeting collection (FileName.ofText line.records).text)

/-- What to do for a command line. -/
def start (folder : Folder) (line : CommandLine) : Task :=
  let name := FileName.ofText line.records
  withNode folder name fun
    | .directory => .done (failed "" (loadingError (directoryMessage name)))
    | .file text => match RecordFile.load name text line.idField line.indexes with
      | .error (.reported message) => .done (failed "" (loadingError message))
      | .error (.broken fault) => .done (.broken fault "")
      | .ok collection => taskFor folder line collection

/-- Runs the shell over a folder with arguments and the text of its input. -/
def run (folder : Folder) (arguments : List String) (input : String) : Outcome :=
  match CommandLine.ofArguments arguments with
  | .error usage => .usage usage.status
  | .ok line => match start folder line with
    | .done outcome => outcome
    | .session collection greeting =>
      match transcript collection (inputLines input) with
      | (text, none) => .finished 0 (greeting ++ text) ""
      | (text, some fault) => .broken fault (greeting ++ text)

end RecordQuery.Shell
