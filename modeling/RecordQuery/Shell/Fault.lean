import RecordQuery.Shell.Folder
import RecordQuery.Text.Quoted

/-!
# Faults of the shell

The shell reports what is wrong with records and statements and ends with a status. A fault is what it
does not provide for: it breaks the run off, after what was shown before.
-/

namespace RecordQuery.Shell

/-- Why the shell breaks off. -/
inductive Fault where
  /-- A script that is a directory. -/
  | scriptIsDirectory (name : FileName)
  /-- The name of a file that no file can have. -/
  | nameTooLong (name : FileName)
  /-- A specification of an index without a text. -/
  | noSpecification
  /-- A field to be listed that is no text: its place in the list, and its kind. -/
  | fieldNotText (place : Nat) (kind : String)
  deriving DecidableEq, Repr, Inhabited

/-- The wording for a file that is a directory. -/
def directoryMessage (name : FileName) : String :=
  "[Errno 21] Is a directory: " ++ Text.quoted name.text

/-- The wording of a fault. -/
def Fault.message : Fault → String
  | .scriptIsDirectory name => directoryMessage name
  | .nameTooLong name => "[Errno 36] File name too long: " ++ Text.quoted name.text
  | .noSpecification => "'list' object has no attribute 'partition'"
  | .fieldNotText place kind =>
    "sequence item " ++ Nat.repr place ++ ": expected str instance, " ++ kind ++ " found"

end RecordQuery.Shell
