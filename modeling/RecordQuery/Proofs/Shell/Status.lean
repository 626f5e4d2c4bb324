import Mathlib
import RecordQuery.Proofs.CommandLine
import RecordQuery.Proofs.Script.Splitting
import RecordQuery.Shell.Run

/-!
# The status of a run

A statement may be given to the shell as a command or as a script that holds nothing else. Either
way it is read and executed alike (`statementsOf_of_isAlone`), and the status tells whether that
succeeded. They differ in a result with a message, which only the status of the command counts as
a failure (`status_command_script`).
-/

namespace RecordQuery.Shell

/-- The status that a run ends with, unless a fault breaks it off. -/
def Outcome.status? : Outcome → Option Nat
  | .finished status _ _ | .usage status => some status
  | .broken _ _ => none

/-- The statement of a text is executed with the result. -/
def Executes [CharacterNames] (collection : Collection) (text : String) (result : Itq.Result) :
    Prop :=
  ∃ statement, Itq.Statement.ofText text = .ok statement ∧ statement.execute collection = .ok result

/-- The name leads to a file with the text. -/
structure Holds (folder : Folder) (name : FileName) (text : String) : Prop where
  possible : folder.isTooLong name = false
  found : folder.find? name = some (.file text)

/-- The records that a command line names are loaded into the collection. -/
def Loads (folder : Folder) (line : CommandLine) (collection : Collection) : Prop :=
  ∃ text, Holds folder (.ofText line.records) text ∧
    RecordFile.load (.ofText line.records) text line.idField line.indexes = .ok collection

/-- The text is a single statement, without blanks around it, and it can be given as a value on the
command line. -/
structure IsAlone (text : String) : Prop where
  notBlank : Script.isBlank text = false
  noSemicolon : ';' ∉ text.toList
  noQuote : '"' ∉ text.toList
  noReturn : '\r' ∉ text.toList
  stripped : Text.strip text.toList = text.toList
  noHyphen : text.toList.head? ≠ some '-'

variable {folder : Folder} {line : CommandLine} {collection : Collection} {text : String}

/-! ## Scripts of one statement -/

theorem unifyNewlines_eq {cs : List Char} (noReturn : '\r' ∉ cs) :
    Text.unifyNewlines cs = cs := by
  induction cs with
  | nil => rfl
  | cons c cs ih =>
    obtain ⟨other, later⟩ := not_or.mp (mt List.mem_cons.mpr noReturn)
    rw [Text.unifyNewlines, ih later]
    · exact fun _ same _ => other same.symm
    · exact fun same => other same.symm

theorem IsAlone.ne_nil (alone : IsAlone text) : text.toList ≠ [] := by
  intro blank
  have notBlank := alone.notBlank
  unfold Script.isBlank at notBlank
  rw [blank] at notBlank
  cases notBlank

/-- A script of one statement is cut into this statement alone. -/
theorem statementsOf_of_isAlone (alone : IsAlone text) : statementsOf text = [text] := by
  have plain : ∀ c ∈ text.toList, Script.IsPlain c := fun c member =>
    ⟨fun same => alone.noSemicolon (same ▸ member), fun same => alone.noQuote (same ▸ member)⟩
  have parts : Script.parts text.toList = [text.toList] := by
    have whole := Script.isPassed_of_isPlain plain [] []
    rw [List.append_nil, List.append_nil] at whole
    rw [Script.parts, whole, Script.partsFrom, List.reverse_reverse]
  have statements : Script.statements text = [text] := by
    unfold Script.statements
    rw [parts, List.map_singleton, alone.stripped, List.filter_cons_of_pos, List.filter_nil,
      List.map_singleton, String.ofList_toList]
    rw [List.isEmpty_eq_false_iff.mpr alone.ne_nil]
    rfl
  unfold statementsOf
  rw [statements, List.filter_cons_of_pos, List.filter_nil]
  rw [alone.notBlank]
  rfl

/-! ## Statements -/

section

variable [CharacterNames]

theorem executeText_eq_ok {result : Itq.Result} :
    executeText collection text = .ok result ↔ Executes collection text result := by
  unfold executeText Executes
  cases Itq.Statement.ofText text with
  | error e => simp
  | ok statement =>
    cases told : statement.execute collection with
    | error e => simp [told, Except.mapError]
    | ok other => simp [told, Except.mapError]

/-- The status of a command tells whether its statement gives a result without a message. -/
theorem status_runCommand (collection : Collection) (text : String) :
    ∃ status, (runCommand collection text).status? = some status ∧ status ≤ 1 ∧
      (status = 0 ↔ ∃ result, Executes collection text result ∧ result.message = none) := by
  unfold runCommand
  cases told : executeText collection text with
  | error message =>
    refine ⟨1, rfl, Nat.le_refl 1, iff_of_false (by decide) ?_⟩
    rintro ⟨result, executes, -⟩
    cases told.symm.trans (executeText_eq_ok.mpr executes)
  | ok result =>
    cases message : result.message with
    | none =>
      refine ⟨0, by simp [Outcome.status?, message], Nat.zero_le 1, iff_of_true rfl ?_⟩
      exact ⟨result, executeText_eq_ok.mp told, message⟩
    | some text =>
      refine ⟨1, by simp [Outcome.status?, message], Nat.le_refl 1, iff_of_false (by decide) ?_⟩
      rintro ⟨other, executes, none⟩
      cases told.symm.trans (executeText_eq_ok.mpr executes)
      cases message.symm.trans none

/-- The status of a script of one statement tells whether the statement gives a result. -/
theorem status_runScript (collection : Collection) (alone : IsAlone text) (verbose : Bool) :
    ∃ status, (runScript collection text verbose).status? = some status ∧ status ≤ 1 ∧
      (status = 0 ↔ ∃ result, Executes collection text result) := by
  have script : String.ofList (Text.unifyNewlines text.toList) = text := by
    rw [unifyNewlines_eq alone.noReturn, String.ofList_toList]
  unfold runScript
  dsimp only
  rw [script, statementsOf_of_isAlone alone]
  cases told : executeText collection text with
  | error message =>
    refine ⟨1, by simp [runStatements, told, failed, Outcome.status?], Nat.le_refl 1,
      iff_of_false (by decide) ?_⟩
    rintro ⟨result, executes⟩
    cases told.symm.trans (executeText_eq_ok.mpr executes)
  | ok result =>
    refine ⟨0, by simp [runStatements, told, Outcome.status?], Nat.zero_le 1, iff_of_true rfl ?_⟩
    exact ⟨result, executeText_eq_ok.mp told⟩

end

/-! ## Runs -/

theorem withNode_of_holds {name : FileName} (holds : Holds folder name text)
    (next : Folder.Node → Task) : withNode folder name next = next (.file text) := by
  unfold withNode
  rw [holds.possible, holds.found]
  rfl

theorem start_of_loads [CharacterNames] (loads : Loads folder line collection) :
    start folder line = taskFor folder line collection := by
  obtain ⟨records, holds, loaded⟩ := loads
  unfold start
  dsimp only
  rw [withNode_of_holds holds]
  dsimp only
  rw [loaded]

theorem run_of_done [CharacterNames] {arguments : List String} {outcome : Outcome} (input : String)
    (read : CommandLine.ofArguments arguments = .ok line)
    (loads : Loads folder line collection)
    (task : taskFor folder line collection = .done outcome) :
    run folder arguments input = outcome := by
  unfold run
  rw [read]
  dsimp only
  rw [start_of_loads loads, task]

theorem valueOf_of_noHyphen (noHyphen : text.toList.head? ≠ some '-') :
    CommandLine.valueOf text = some text := by
  refine if_neg ?_
  rintro rfl
  exact noHyphen rfl

/-- A command runs its statement unless a script is given. -/
theorem taskFor_command [CharacterNames] (noScript : line.file = none) (alone : IsAlone text) :
    taskFor folder (line.withValue .command text) collection =
      .done (runCommand collection text) := by
  have command : (line.withValue .command text).command = some text :=
    valueOf_of_noHyphen alone.noHyphen
  have file : (line.withValue .command text).file = none := noScript
  have filled : text.isEmpty = false := by
    rw [String.isEmpty_eq_false_iff]
    rintro rfl
    exact alone.ne_nil rfl
  unfold taskFor
  rw [command, file]
  dsimp only
  rw [filled]
  rfl

theorem taskFor_script [CharacterNames] {script : String}
    (holds : Holds folder (.ofText script) text) (noHyphen : script.toList.head? ≠ some '-') :
    taskFor folder (line.withValue .file script) collection =
      .done (runScript collection text line.verbose) := by
  have file : (line.withValue .file script).file = some script := valueOf_of_noHyphen noHyphen
  unfold taskFor
  rw [file]
  exact withNode_of_holds holds _

/-- **A command and a script of the same statement end with a status that tells whether the
statement succeeded**, which is zero or one. For the command a result with a message is a failure,
for the script it is none; the two have the same status unless there is such a result. -/
theorem status_command_script [CharacterNames] {front : List String} {script : String}
    (input : String) (read : CommandLine.ofArguments front = .ok line) (noSeparator : "--" ∉ front)
    (noScript : line.file = none) (loads : Loads folder line collection) (alone : IsAlone text)
    (holds : Holds folder (.ofText script) text) (noHyphen : script.toList.head? ≠ some '-') :
    ∃ commandStatus scriptStatus,
      (run folder (front ++ ["-c", text]) input).status? = some commandStatus ∧
      (run folder (front ++ ["-f", script]) input).status? = some scriptStatus ∧
      commandStatus ≤ 1 ∧ scriptStatus ≤ 1 ∧
      (commandStatus = 0 ↔ ∃ result, Executes collection text result ∧ result.message = none) ∧
      (scriptStatus = 0 ↔ ∃ result, Executes collection text result) ∧
      (commandStatus = scriptStatus ↔
        ∀ result, Executes collection text result → result.message = none) := by
  have command := CommandLine.ofArguments_option read noSeparator
    (show CommandLine.classify "-c" = .ok (.short .command []) by rfl) rfl alone.noHyphen
  have file := CommandLine.ofArguments_option read noSeparator
    (show CommandLine.classify "-f" = .ok (.short .file []) by rfl) rfl noHyphen
  rw [run_of_done input command loads (taskFor_command noScript alone),
    run_of_done input file loads (taskFor_script holds noHyphen)]
  obtain ⟨commandStatus, ended, bound, success⟩ := status_runCommand collection text
  obtain ⟨scriptStatus, ended', bound', success'⟩ :=
    status_runScript collection alone line.verbose
  refine ⟨commandStatus, scriptStatus, ended, ended', bound, bound', success, success', ?_⟩
  constructor
  · intro same result executes
    obtain ⟨other, again, message⟩ := success.mp (same.trans (success'.mpr ⟨result, executes⟩))
    cases (executeText_eq_ok.mpr executes).symm.trans (executeText_eq_ok.mpr again)
    exact message
  · intro silent
    have zero : commandStatus = 0 ↔ scriptStatus = 0 := by
      rw [success, success']
      exact ⟨fun ⟨result, executes, _⟩ => ⟨result, executes⟩,
        fun ⟨result, executes⟩ => ⟨result, executes, silent result executes⟩⟩
    omega

open scoped CharacterNames

/-- A folder with a file of records and two scripts. -/
def sample : Folder := .ofFiles [("r.json", "[\x7b\"id\": 1\x7d]"), ("short.itq", "get"),
  ("unknown.itq", "get 1 using nope")]

theorem exists_loads_sample :
    ∃ collection, Loads sample ⟨"r.json", [], some "id", none, none, true⟩ collection := by
  have loads : (RecordFile.load (.ofText "r.json") "[\x7b\"id\": 1\x7d]" (some "id") []).isOk := by
    decide +kernel
  cases loaded : RecordFile.load (.ofText "r.json") "[\x7b\"id\": 1\x7d]" (some "id") [] with
  | error failure =>
    rw [loaded] at loads
    cases loads
  | ok collection => exact ⟨collection, _, ⟨by decide +kernel, by decide +kernel⟩, loaded⟩

/-- A statement that ends too early. -/
theorem status_command_script_of_short :
    ∃ commandStatus scriptStatus,
      (run sample ["r.json", "-v", "-c", "get"] "").status? = some commandStatus ∧
      (run sample ["r.json", "-v", "-f", "short.itq"] "").status? = some scriptStatus ∧
      commandStatus = scriptStatus := by
  obtain ⟨collection, loads⟩ := exists_loads_sample
  have read : CommandLine.ofArguments ["r.json", "-v"] =
      .ok ⟨"r.json", [], some "id", none, none, true⟩ := by decide +kernel
  have alone : IsAlone "get" := ⟨by decide +kernel, by decide, by decide, by decide,
    by decide +kernel, by decide⟩
  have holds : Holds sample (.ofText "short.itq") "get" := ⟨by decide +kernel, by decide +kernel⟩
  have short : (Itq.Statement.ofText "get").isOk = false := by decide +kernel
  obtain ⟨commandStatus, scriptStatus, command, script, -, -, -, -, same⟩ :=
    status_command_script "" read (by decide) rfl loads alone holds (by decide)
  refine ⟨commandStatus, scriptStatus, command, script, same.mpr ?_⟩
  rintro result ⟨statement, read, -⟩
  rw [read] at short
  cases short

/-- A script does not tell by its status that an index is unknown. -/
theorem status_script_misses_unknownIndex :
    IsAlone "get 1 using nope" ∧ Holds sample (.ofText "unknown.itq") "get 1 using nope" ∧
      (∃ collection, Loads sample ⟨"r.json", [], some "id", none, none, true⟩ collection) ∧
      (run sample ["r.json", "-v", "-c", "get 1 using nope"] "").status? = some 1 ∧
      (run sample ["r.json", "-v", "-f", "unknown.itq"] "").status? = some 0 :=
  ⟨⟨by decide +kernel, by decide, by decide, by decide, by decide +kernel, by decide⟩,
    ⟨by decide +kernel, by decide +kernel⟩, exists_loads_sample, by decide +kernel,
    by decide +kernel⟩

end RecordQuery.Shell
