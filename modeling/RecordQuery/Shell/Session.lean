import RecordQuery.Itq.Execution
import RecordQuery.Script
import RecordQuery.Shell.Fault
import RecordQuery.Table

/-!
# Statements and commands in the shell

A statement is read and executed, and its result is shown as a table. A line of the interactive
session is a command or a number of statements; each statement is answered on its own.
-/

namespace RecordQuery.Shell

open Table (unlines)

variable [CharacterNames]

/-! ## Statements -/

/-- The outcome of a statement: a result, or the wording of what went wrong. -/
def executeText (collection : Collection) (text : String) : Except String Itq.Result :=
  match Itq.Statement.ofText text with
  | .error e =>
    .error ((if e.isSyntactic then "Syntax error: " else "Error: ") ++ e.message)
  | .ok statement =>
    (statement.execute collection).mapError fun e => "Error: " ++ e.message

/-- A statement answered on its own: its table, or what went wrong. -/
def answer (collection : Collection) (text : String) : String :=
  match executeText collection text with
  | .ok result => Table.renderResult result
  | .error message => unlines [message]

/-! ## Commands -/

/-- The texts of a list of fields, the first of which has the given place; fields have to be texts. -/
def fieldTexts (place : Nat) : List Value → Except Fault (List String)
  | [] => .ok []
  | .str field :: rest => (fieldTexts (place + 1) rest).map (field :: ·)
  | v :: _ => .error (.fieldNotText place v.kindName)

/-- A name and the fields of its index as they are listed. -/
def indexLine (name : String) (index : Index) : Except Fault String :=
  (fieldTexts 0 index.fields).map fun fields => name ++ ": " ++ Text.join ", " fields

/-- The indexes of a collection, the primary one first and the others sorted by name. -/
def indexLines (collection : Collection) : Except Fault (List String) :=
  let named := collection.secondary.map fun (name, index) => (name.text, index)
  let sorted := named.mergeSort fun a b => (Ord.compare a.1 b.1).isLE
  (("(primary)", collection.primary) :: sorted).mapM fun (name, index) => indexLine name index

/-- What the help command shows. -/
def helpLines : List String := [
  "",
  "ITQ - Indexed Tables Query Language",
  "",
  "Retrieval (optional, at most one):",
  "  get KEY [, KEY ...] [using INDEX]",
  "  between KEY and KEY [using INDEX] [inclusive | exclusive]",
  "",
  "  A KEY is a literal or a composite key like [18, \"Alice\"].",
  "",
  "Filtering, sorting and paging (each optional, in this order):",
  "  where COND [and|or COND ...]      Evaluated strictly left to right",
  "  sort by FIELD [asc|desc], ...",
  "  offset N",
  "  limit N",
  "",
  "Conditions:",
  "  FIELD = VALUE, ==, ===, !=, !==, <, <=, >, >=",
  "  FIELD [not] in [V, ...]",
  "  FIELD [not] contains VALUE",
  "  FIELD [not] like \"pat%_\"          % any run, _ one character",
  "  FIELD [not] ilike \"pat%\"          Case-insensitive like",
  "  FIELD [not] intersects [V, ...]",
  "",
  "Commands:",
  "  indexes                           List indexes",
  "  help                              Show this help",
  "  exit, quit                        Leave the REPL",
  "",
  "Examples:",
  "  get 25",
  "  get \"draft\", \"review\" using status",
  "  between 18 and 30 using age where name like \"A%\" sort by name limit 10",
  ""]

/-- What a line asks for. -/
inductive Request where
  | nothing
  | leave
  | help
  | indexes
  | statements (texts : List String)
  deriving DecidableEq, Repr, Inhabited

/-- The word of a line that may be a command: in lower case, without semicolons at its end. -/
def commandWord (line : List Char) : String :=
  String.ofList (((line.map Char.toLower).reverse.dropWhile (· == ';')).reverse)

/-- The statements of a text that are not blank. -/
def statementsOf (text : String) : List String :=
  (Script.statements text).filter fun statement => !Script.isBlank statement

/-- What a line asks for. -/
def Request.ofLine (line : String) : Request :=
  let line := Text.strip line.toList
  let text := String.ofList line
  if line.isEmpty || Script.isBlank text then .nothing
  else match commandWord line with
    | "exit" | "quit" => .leave
    | "help" => .help
    | "indexes" => .indexes
    | _ => .statements (statementsOf text)

/-- How the session goes on after a line. -/
inductive Next where
  | another
  | leave
  | breakOff (fault : Fault)
  deriving DecidableEq, Repr, Inhabited

/-- The answer to a line, and how the session goes on. -/
def reply (collection : Collection) (line : String) : String × Next :=
  match Request.ofLine line with
  | .nothing => ("", .another)
  | .leave => ("", .leave)
  | .help => (unlines helpLines, .another)
  | .indexes => match indexLines collection with
    | .ok lines => (unlines lines, .another)
    | .error fault => ("", .breakOff fault)
  | .statements texts => (String.join (texts.map (answer collection)) ++ "\n", .another)

/-! ## Interactive sessions -/

/-- What the session asks for a line with. -/
def prompt : String := "itq> "

/-- What a session shows in answer to lines, the prompts included, and the fault that breaks it off,
if there is one; where the lines end, so does the session. -/
def transcript (collection : Collection) : List String → String × Option Fault
  | [] => (prompt ++ "\n", none)
  | line :: rest =>
    let (text, next) := reply collection line
    let shown := prompt ++ text
    match next with
    | .another =>
      let (later, fault?) := transcript collection rest
      (shown ++ later, fault?)
    | .leave => (shown, none)
    | .breakOff fault => (shown, some fault)

/-- What a session shows first. -/
def greeting (collection : Collection) (source : String) : String :=
  unlines [
    "ITQ REPL - Indexed Tables Query Language",
    "Loaded " ++ Nat.repr collection.size ++ " record(s) from " ++ source,
    "Type 'help' for commands, 'exit' to quit.",
    ""]

/-- The lines of a text; a line feed at the end opens no further line. -/
def inputLines (text : String) : List String :=
  let parts := Text.splitString '\n' text
  if parts.getLast? = some "" then parts.dropLast else parts

/-! ## Scripts -/

/-- A statement as it is shown before it is executed: the first line behind one mark and the further
lines behind another. -/
def echo (statement : String) : String :=
  match Text.splitString '\n' statement with
  | [] => ""
  | first :: rest => unlines ((">>> " ++ first) :: rest.map ("... " ++ ·))

/-- What a run of statements shows up to its first error, and that error. -/
def runStatements (collection : Collection) (verbose : Bool) :
    List String → String × Option String
  | [] => ("", none)
  | text :: rest =>
    let shown := if verbose then echo text else ""
    match executeText collection text with
    | .error message => (shown, some message)
    | .ok result =>
      let (later, failure) := runStatements collection verbose rest
      (shown ++ Table.renderResult result ++ later, failure)

end RecordQuery.Shell
