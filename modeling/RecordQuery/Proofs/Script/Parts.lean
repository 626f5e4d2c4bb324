import Mathlib
import RecordQuery.Proofs.Script.Places

/-!
# The parts of a script

The parts of a script are stretches without a cut, all but the last of which end outside of literals
(`IsCut`), and such stretches with semicolons between them are cut into themselves
(`parts_intercalate`). Stripping takes blanks off a stretch, which move the splitter nowhere from the
outside. Hence the statements of a script are cut into themselves too, and hold all of the script but
blanks and the semicolons outside of strings (`statements_normal`).
-/

namespace RecordQuery

/-! ## Characters other than blanks -/

namespace Text

/-- A character that is no blank. -/
def isFilled (c : Char) : Bool := !isBlank c

theorem filter_isFilled_of_isBlank {cs : List Char} (blank : ∀ c ∈ cs, isBlank c = true) :
    cs.filter isFilled = [] :=
  List.filter_eq_nil_iff.mpr fun c member => by simp [isFilled, blank c member]

/-- Stripping leaves all that is no blank. -/
theorem filter_strip (cs : List Char) : (strip cs).filter isFilled = cs.filter isFilled := by
  obtain ⟨lead, trail, split, before, behind⟩ := exists_strip cs
  have whole := congrArg (List.filter isFilled) split
  rw [List.filter_append, List.filter_append, filter_isFilled_of_isBlank before,
    filter_isFilled_of_isBlank behind, List.nil_append, List.append_nil] at whole
  exact whole.symm

end Text

namespace Script

/-! ## Cuts -/

/-- Stretches without a cut, all but the last of which end outside of literals. -/
inductive IsCut : List (List Char) → Prop where
  | last {part : List Char} {place : Place} (read : Place.outside.after? part = some place) :
      IsCut [part]
  | cons {part : List Char} {later : List (List Char)}
      (closed : Place.outside.after? part = some .outside) (cut : IsCut later) :
      IsCut (part :: later)

theorem IsCut.ne_nil {ps : List (List Char)} (cut : IsCut ps) : ps ≠ [] := by
  cases cut <;> exact List.cons_ne_nil _ _

theorem IsCut.exists_read {ps : List (List Char)} (cut : IsCut ps) :
    ∀ part ∈ ps, ∃ place, Place.outside.after? part = some place := by
  induction cut with
  | last read => exact List.forall_mem_singleton.mpr ⟨_, read⟩
  | cons closed _ ih => exact List.forall_mem_cons.mpr ⟨⟨_, closed⟩, ih⟩

/-- The splitter cuts a script into stretches of that kind, with a semicolon between each two. -/
theorem isCut_partsFrom {place : Place} {current : List Char}
    (read : Place.outside.after? current.reverse = some place) (cs : List Char) :
    IsCut (partsFrom place current cs) ∧
      [';'].intercalate (partsFrom place current cs) = current.reverse ++ cs := by
  induction cs generalizing place current with
  | nil => exact ⟨.last read, by rw [List.append_nil]; exact List.intercalate_singleton⟩
  | cons c cs ih =>
    rw [partsFrom_cons]
    cases step : place.next? c with
    | none =>
      obtain ⟨rfl, rfl⟩ := Place.next?_eq_none step
      have start : Place.outside.after? ([] : List Char).reverse = some .outside := rfl
      obtain ⟨cut, joined⟩ := ih start
      refine ⟨.cons read cut, ?_⟩
      rw [List.intercalate_cons_of_ne_nil cut.ne_nil, joined, List.append_assoc]
      rfl
    | some next =>
      have further : Place.outside.after? (c :: current).reverse = some next := by
        rw [List.reverse_cons, Place.after?_append_of_some read, Place.after?_cons, step]
        rfl
      obtain ⟨cut, joined⟩ := ih further
      refine ⟨cut, joined.trans ?_⟩
      rw [List.reverse_cons, List.append_assoc]
      rfl

theorem isCut_parts (script : List Char) : IsCut (parts script) := by
  have start : Place.outside.after? ([] : List Char).reverse = some .outside := rfl
  exact (isCut_partsFrom start script).1

/-- Stretches of that kind are cut at the semicolons between them and nowhere else. -/
theorem parts_intercalate {ps : List (List Char)} (cut : IsCut ps) :
    parts ([';'].intercalate ps) = ps := by
  induction cut with
  | last read =>
    have whole := partsFrom_append read [] []
    rw [List.append_nil, List.append_nil] at whole
    rw [List.intercalate_singleton, parts, whole, partsFrom, List.reverse_reverse]
  | @cons part later closed cut ih =>
    have semicolon : Place.outside.next? ';' = none := rfl
    rw [List.intercalate_cons_of_ne_nil cut.ne_nil, List.append_assoc, parts,
      partsFrom_append closed, List.singleton_append, partsFrom_cons, semicolon]
    dsimp only
    rw [List.append_nil, List.reverse_reverse]
    exact congrArg (part :: ·) ih

/-! ## Kept parts -/

/-- The parts without blanks around them, as far as they are not empty. -/
def kept (ps : List (List Char)) : List (List Char) :=
  (ps.map Text.strip).filter fun part => !part.isEmpty

theorem statements_eq (script : String) :
    statements script = (kept (parts script.toList)).map String.ofList := rfl

theorem of_mem_kept (ps : List (List Char)) :
    ∀ part ∈ kept ps, part ≠ [] ∧ Itq.HasEdges part := by
  intro part member
  obtain ⟨stripped, filled⟩ := List.mem_filter.mp member
  obtain ⟨whole, inside, rfl⟩ := List.mem_map.mp stripped
  exact ⟨by simpa using filled, Text.hasEdges_strip whole⟩

theorem kept_of_hasEdges {ps : List (List Char)}
    (each : ∀ part ∈ ps, part ≠ [] ∧ Itq.HasEdges part) : kept ps = ps := by
  have same : ps.map Text.strip = ps :=
    (List.map_congr_left fun part member => Text.strip_of_hasEdges (each part member).2).trans
      (List.map_id ps)
  rw [kept, same, List.filter_eq_self]
  exact fun part member => by simpa using (each part member).1

theorem kept_cons (part : List Char) (later : List (List Char)) : kept (part :: later) =
    if Text.strip part = [] then kept later else Text.strip part :: kept later := by
  unfold kept
  rw [List.map_cons]
  cases Text.strip part <;> rfl

/-- Stripping a stretch, or leaving it out, does not move the cuts around it. -/
theorem IsCut.kept {ps : List (List Char)} (cut : IsCut ps) :
    Script.kept ps = [] ∨ IsCut (Script.kept ps) := by
  induction cut with
  | last read =>
    obtain ⟨place', stripped, -⟩ := Place.after?_strip read
    rw [kept_cons]
    split
    · exact .inl rfl
    · exact .inr (.last stripped)
  | @cons part later closed cut ih =>
    obtain ⟨place', stripped, outside⟩ := Place.after?_strip closed
    obtain rfl := outside rfl
    rw [kept_cons]
    split
    · exact ih
    · rcases ih with nothing | cut'
      · rw [nothing]
        exact .inr (.last stripped)
      · exact .inr (.cons stripped cut')

/-! ## What the statements hold -/

mutual
/-- A script without its semicolons outside of double-quoted strings. -/
def unseparated : List Char → List Char
  | [] => []
  | '"' :: cs => '"' :: withinString cs
  | c :: cs => if c = ';' then unseparated cs else c :: unseparated cs

/-- The same, from within a string: a backslash there takes the next character along, and a string
that no quote closes goes on to the end. -/
def withinString : List Char → List Char
  | [] => []
  | '"' :: cs => '"' :: unseparated cs
  | '\\' :: c :: cs => '\\' :: c :: withinString cs
  | c :: cs => c :: withinString cs
end

/-- The rest of a script without semicolons outside of strings. -/
def unseparatedFrom : Place → List Char → List Char
  | .outside, cs => unseparated cs
  | .inside, cs => withinString cs
  | .escaped, [] => []
  | .escaped, c :: cs => c :: withinString cs

theorem withinString_backslash (cs : List Char) :
    withinString ('\\' :: cs) = '\\' :: unseparatedFrom .escaped cs := by
  cases cs <;> rfl

theorem unseparatedFrom_cons (place : Place) (c : Char) (cs : List Char) :
    unseparatedFrom place (c :: cs) = match place.next? c with
      | some next => c :: unseparatedFrom next cs
      | none => unseparated cs := by
  cases place with
  | escaped => rfl
  | outside =>
    rw [Place.next?_outside]
    by_cases quote : c = '"'
    · cases quote
      rfl
    · rw [unseparatedFrom, unseparated, if_neg quote]
      · split <;> rfl
      · exact quote
  | inside =>
    rw [Place.next?_inside]
    by_cases quote : c = '"'
    · cases quote
      rfl
    by_cases backslash : c = '\\'
    · cases backslash
      exact withinString_backslash cs
    · rw [unseparatedFrom, withinString, if_neg backslash, if_neg quote]
      · rfl
      · exact quote
      · exact fun _ _ same => absurd same backslash

theorem flatten_partsFrom (place : Place) (current cs : List Char) :
    (partsFrom place current cs).flatten = current.reverse ++ unseparatedFrom place cs := by
  induction cs generalizing place current with
  | nil =>
    rw [partsFrom, List.flatten_singleton]
    cases place <;> exact (List.append_nil _).symm
  | cons c cs ih =>
    rw [partsFrom_cons, unseparatedFrom_cons]
    cases place.next? c with
    | none => exact congrArg (current.reverse ++ ·) (ih .outside [])
    | some next =>
      dsimp only
      rw [ih, List.reverse_cons, List.append_assoc]
      rfl

/-- The parts of a script hold all of it but the semicolons that are cut at. -/
theorem flatten_parts (script : List Char) : (parts script).flatten = unseparated script :=
  flatten_partsFrom .outside [] script

theorem filter_flatten_kept (ps : List (List Char)) :
    (kept ps).flatten.filter Text.isFilled = ps.flatten.filter Text.isFilled := by
  rw [kept, List.flatten_filter_not_isEmpty, List.filter_flatten, List.filter_flatten, List.map_map]
  exact congrArg List.flatten (List.map_congr_left fun part _ => Text.filter_strip part)

/-! ## Statements -/

theorem toList_intercalate_ofList (ps : List (List Char)) :
    (";".intercalate (ps.map String.ofList)).toList = [';'].intercalate ps := by
  rw [String.toList_intercalate, List.map_map]
  congr 1
  exact (List.map_congr_left fun part _ => String.toList_ofList).trans (List.map_id ps)

/-- What is kept of a script, with semicolons between its parts, is cut into itself. -/
theorem statements_intercalate {ps : List (List Char)} (cut : ps = [] ∨ IsCut ps)
    (each : ∀ part ∈ ps, part ≠ [] ∧ Itq.HasEdges part) :
    statements (";".intercalate (ps.map String.ofList)) = ps.map String.ofList := by
  rcases cut with rfl | cut
  · rfl
  · rw [statements_eq, toList_intercalate_ofList, parts_intercalate cut, kept_of_hasEdges each]

/-- **Statements are in normal form.** The statements of a script are not empty, have no blanks around
them, and each is cut into itself alone; with semicolons between them they are cut into the same
statements again; and one after the other they are the script without its semicolons outside of
double-quoted strings, but for blanks. -/
theorem statements_normal (script : String) :
    (∀ part ∈ statements script,
      part ≠ "" ∧ Itq.HasEdges part.toList ∧ statements part = [part]) ∧
    statements (";".intercalate (statements script)) = statements script ∧
    (String.join (statements script)).toList.filter Text.isFilled =
      (unseparated script.toList).filter Text.isFilled := by
  have cut := (isCut_parts script.toList).kept
  have each := of_mem_kept (parts script.toList)
  rw [statements_eq]
  refine ⟨?_, statements_intercalate cut each, ?_⟩
  · intro text member
    obtain ⟨part, inside, rfl⟩ := List.mem_map.mp member
    have shape := each part inside
    obtain ⟨place, read⟩ := (cut.resolve_left (List.ne_nil_of_mem inside)).exists_read part inside
    have again := statements_intercalate (.inr (.last read)) (List.forall_mem_singleton.mpr shape)
    refine ⟨fun nothing => shape.1 (String.ofList_injective nothing), ?_, again⟩
    rw [String.toList_ofList]
    exact shape.2
  · rw [String.toList_join, List.flatMap_map]
    have joined : (kept (parts script.toList)).flatMap (fun part => (String.ofList part).toList) =
        (kept (parts script.toList)).flatten := by
      simp only [String.toList_ofList, List.flatMap_id']
    rw [joined, filter_flatten_kept, flatten_parts]

/-- A script with a part of blanks alone, a semicolon behind an escaped quote, and a string that goes
on to the end, where it leaves its last backslash without a character to take along. -/
theorem statements_normal_of_open :
    let script := " get \"a;\\\"b;\" ;\xa0; where x = \"c; \\ "
    let opened := "where x = \"c; \\"
    opened ∈ statements script ∧ opened ≠ "" ∧ Itq.HasEdges opened.toList ∧
      statements opened = [opened] ∧
      statements "get \"a;\\\"b;\";where x = \"c; \\" = statements script ∧
      "get\"a;\\\"b;\"wherex=\"c;\\".toList = (unseparated script.toList).filter Text.isFilled := by
  intro script opened
  have cut : statements script = ["get \"a;\\\"b;\"", opened] := by cbv
  have member : opened ∈ statements script := by
    rw [cut]
    exact List.mem_cons_of_mem _ List.mem_cons_self
  obtain ⟨each, again, whole⟩ := statements_normal script
  obtain ⟨filled, edges, alone⟩ := each opened member
  rw [cut] at whole again
  have joined : (String.join ["get \"a;\\\"b;\"", opened]).toList.filter Text.isFilled =
      "get\"a;\\\"b;\"wherex=\"c;\\".toList := by cbv
  exact ⟨member, filled, edges, alone, again.trans cut.symm, joined.symm.trans whole⟩

end Script

end RecordQuery
