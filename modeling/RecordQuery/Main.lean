import RecordQuery.Shell.Run

/-!
# The program

Reads the files that the command line names, runs the shell and shows what it answers. An interactive
session is answered line by line.
-/

namespace RecordQuery.Program

variable [CharacterNames]

/-- How the program is used. -/
def usage : String :=
  "usage: record-query [-h] [-i NAME=FIELD[,FIELD]] [--id-attribute FIELD] [-c COMMAND]\n" ++
  "                    [-f FILE] [-v] records\n"

/-- The system's code for reading a directory as a file. -/
def directoryCode : UInt32 := 21

/-- What a name leads to in the file system; a name that goes on behind a file leads nowhere. -/
def nodeAt? (name : FileName) : IO (Option Folder.Node) := do
  try
    return some (.file (← IO.FS.readFile name.text))
  catch failure =>
    match failure with
    | .noFileOrDirectory .. | .invalidArgument .. => return none
    | .inappropriateType _ code _ =>
      return if code = directoryCode then some .directory else none
    | _ => throw failure

/-- The folder of the files that a command line names. -/
def folderFor (line : CommandLine) : IO Folder := do
  let mut folder : Folder := []
  for text in line.records :: line.file.toList do
    let name := FileName.ofText text
    match ← nodeAt? name with
    | some node => folder := (name.text, node) :: folder
    | none => pure ()
  return folder

/-- Asks for lines and answers them until the session is left, and tells its status. -/
partial def converse (collection : Collection) (input output : IO.FS.Stream) : IO UInt32 := do
  output.putStr Shell.prompt
  output.flush
  let line ← input.getLine
  if line.isEmpty then
    output.putStrLn ""
    return 0
  else
    let (text, next) := Shell.reply collection line
    output.putStr text
    output.flush
    match next with
    | .another => converse collection input output
    | .leave => return 0
    | .breakOff fault => do
      IO.eprintln fault.message
      return 1

/-- Shows how a run ended, and its status. -/
def conclude : Shell.Outcome → IO UInt32
  | .finished status shown errors => do
    IO.print shown
    IO.eprint errors
    return status.toUInt32
  | .usage status => do
    if status = 0 then IO.print usage else IO.eprint usage
    return status.toUInt32
  | .broken fault shown => do
    IO.print shown
    IO.eprintln fault.message
    return 1

/-- Runs the program with arguments. -/
def run (arguments : List String) : IO UInt32 := do
  match CommandLine.ofArguments arguments with
  | .error refusal => conclude (.usage refusal.status)
  | .ok line =>
    match Shell.start (← folderFor line) line with
    | .done outcome => conclude outcome
    | .session collection greeting =>
      IO.print greeting
      converse collection (← IO.getStdin) (← IO.getStdout)

end RecordQuery.Program

open scoped RecordQuery.CharacterNames

/-- The program. -/
def main (arguments : List String) : IO UInt32 := RecordQuery.Program.run arguments
