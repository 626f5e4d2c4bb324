import Mathlib
import RecordQuery.Operator.Evaluate

/-!
# Names of operators

Every kind of operators has a word, which is the whole name unless the operators match patterns; to
the word of a pattern any of six letters may be added, each at most once (`ofName?_eq_some_iff`). Of
these letters three mean something: they are all that a pattern operator takes from its suffix
(`parse?_eq_some_iff`), and none of them is without effect, since one value each shows whether it was
there (`evaluate_eq_iff`).
-/

namespace RecordQuery

/-- The word of a kind of operators. -/
def OperatorKind.word : OperatorKind → String
  | .equal => "=="
  | .strictEqual => "==="
  | .notEqual => "!="
  | .strictNotEqual => "!=="
  | .greater => ">"
  | .greaterOrEqual => ">="
  | .less => "<"
  | .lessOrEqual => "<="
  | .disjoint => "isectEmpty"
  | .intersects => "isectNotEmpty"
  | .isIn => "in"
  | .notIn => "notIn"
  | .contains => "contains"
  | .notContains => "notContains"
  | .like => "like"
  | .notLike => "notLike"

namespace LikeFlags

/-! ## Suffixes -/

/-- A suffix that spells flags: letters from a fixed set, none of them twice. -/
@[mk_iff]
structure IsSuffix (suffix : List Char) : Prop where
  known : suffix ⊆ ['i', 'm', 's', 'g', 'u', 'y']
  distinct : suffix.Nodup

instance (suffix : List Char) : Decidable (IsSuffix suffix) :=
  decidable_of_iff _ (isSuffix_iff suffix).symm

/-- The flags of the letters that a suffix holds. -/
def ofSuffix (suffix : List Char) : LikeFlags where
  ignoreCase := suffix.contains 'i'
  perLine := suffix.contains 'm'
  acrossLines := suffix.contains 's'

/-- Two suffixes hold the same of the letters that mean something. -/
def MeanSame (s t : List Char) : Prop := ∀ c ∈ ['i', 'm', 's'], c ∈ s ↔ c ∈ t

instance (s t : List Char) : Decidable (MeanSame s t) :=
  List.decidableBAll (fun c => c ∈ s ↔ c ∈ t) ['i', 'm', 's']

variable {suffix s t : List Char} {flags : LikeFlags}

-- The rest is thinned out before its own repetitions go, so the recursion is on the length.
theorem nodup_eraseDups : ∀ suffix : List Char, suffix.eraseDups.Nodup
  | [] => List.nodup_nil
  | c :: rest => by
    rw [List.eraseDups_cons, List.nodup_cons]
    exact ⟨by simp [List.mem_eraseDups], nodup_eraseDups _⟩
termination_by suffix => suffix.length
decreasing_by exact Nat.lt_succ_of_le (List.length_filter_le _ _)

/-- A suffix is as long as its different letters are many if none comes twice. -/
theorem length_eraseDups_eq_iff : suffix.eraseDups.length = suffix.length ↔ suffix.Nodup := by
  have single := nodup_eraseDups suffix
  constructor
  · intro same
    have within : suffix.eraseDups.Subperm suffix :=
      single.subperm fun c member => List.mem_eraseDups.mp member
    exact (within.perm_of_length_le same.ge).nodup_iff.mp single
  · intro distinct
    exact ((List.perm_ext_iff_of_nodup single distinct).mpr fun c => List.mem_eraseDups).length_eq

/-- Adding letters one by one adds the flags of those that the suffix holds. -/
theorem foldl_add (suffix : List Char) (flags : LikeFlags) :
    suffix.foldl add flags =
      { ignoreCase := flags.ignoreCase || suffix.contains 'i'
        perLine := flags.perLine || suffix.contains 'm'
        acrossLines := flags.acrossLines || suffix.contains 's' } := by
  induction suffix generalizing flags with
  | nil => simp
  | cons c rest ih =>
    have turned (letter : Char) : (c == letter) = (letter == c) := Bool.beq_comm
    rw [List.foldl_cons, ih]
    simp only [add, List.contains_cons, Bool.or_assoc, turned]

theorem foldl_add_none (suffix : List Char) : suffix.foldl add none = ofSuffix suffix :=
  foldl_add suffix none

theorem parse?_eq_some_iff :
    parse? suffix = some flags ↔ IsSuffix suffix ∧ ofSuffix suffix = flags := by
  have valid : (suffix.all letters.contains && suffix.eraseDups.length == suffix.length) = true ↔
      IsSuffix suffix := by
    rw [Bool.and_eq_true, List.all_eq_true, beq_iff_eq, length_eraseDups_eq_iff, isSuffix_iff]
    simp only [List.contains_iff_mem]
    rfl
  unfold parse?
  rw [foldl_add_none]
  split
  · rename_i passed
    rw [Option.some_inj]
    exact (and_iff_right (valid.mp passed)).symm
  · rename_i failed
    exact iff_of_false (fun found => by cases found) fun both => failed (valid.mpr both.1)

theorem ofSuffix_eq_iff : ofSuffix s = ofSuffix t ↔ MeanSame s t := by
  have held (c : Char) : s.contains c = t.contains c ↔ (c ∈ s ↔ c ∈ t) := by
    rw [Bool.eq_iff_iff, List.contains_iff_mem, List.contains_iff_mem]
  unfold ofSuffix MeanSame
  rw [LikeFlags.mk.injEq, held, held, held]
  simp only [List.forall_mem_cons, List.not_mem_nil, false_implies, implies_true, and_true]

/-! ## Suffixes in place of others -/

/-- A suffix in place of another one: its letters in a different order, or, if both spell flags, the
same of the letters that mean something and any of the others. -/
inductive Replaces : List Char → List Char → Prop where
  | permuted {s t : List Char} (letters : s.Perm t) : Replaces s t
  | alike {s t : List Char} (spells : IsSuffix s) (spells' : IsSuffix t) (same : MeanSame s t) :
      Replaces s t

theorem IsSuffix.perm (spells : IsSuffix s) (letters : s.Perm t) : IsSuffix t where
  known _ member := spells.known (letters.mem_iff.mpr member)
  distinct := letters.nodup_iff.mp spells.distinct

/-- A suffix in place of another one spells the same flags, or neither of them spells any. -/
theorem Replaces.parse?_eq (replaces : Replaces s t) : parse? s = parse? t := by
  have both : (IsSuffix s ↔ IsSuffix t) ∧ MeanSame s t := by
    cases replaces with
    | permuted letters =>
      exact ⟨⟨fun spells => spells.perm letters, fun spells => spells.perm letters.symm⟩,
        fun c _ => letters.mem_iff⟩
    | alike spells spells' same => exact ⟨iff_of_true spells spells', same⟩
  apply Option.ext
  intro flags
  rw [parse?_eq_some_iff, parse?_eq_some_iff, both.1, ofSuffix_eq_iff.mpr both.2]

end LikeFlags

namespace Operator

open LikeFlags (IsSuffix Replaces ofSuffix parse? parse?_eq_some_iff)

/-! ## Names -/

/-- The operators by their names. -/
inductive IsNamed : String → Operator → Prop where
  /-- The word of a kind without flags. -/
  | plain {kind : OperatorKind} (unflagged : kind.isPattern = false) :
      IsNamed kind.word ⟨kind, .none⟩
  /-- The word of a pattern, then the letters of flags. -/
  | pattern {kind : OperatorKind} {suffix : List Char} (flagged : kind.isPattern = true)
      (spells : IsSuffix suffix) :
      IsNamed (kind.word ++ String.ofList suffix) ⟨kind, ofSuffix suffix⟩

variable {kind : OperatorKind} {name : String} {operator : Operator}

theorem after?_append (word rest : List Char) : after? word (word ++ rest) = some rest := by
  induction word with
  | nil => rfl
  | cons c word ih =>
    rw [List.cons_append, after?, if_pos rfl]
    exact ih

theorem eq_append_of_after? {word cs rest : List Char} (found : after? word cs = some rest) :
    cs = word ++ rest := by
  induction word generalizing cs with
  | nil => exact Option.some_inj.mp found
  | cons c word ih =>
    cases cs with
    | nil => cases found
    | cons d cs =>
      rw [after?] at found
      split at found
      · rename_i same
        rw [same, ih found, List.cons_append]
      · cases found

/-- The plain names are the words of the kinds without flags. -/
theorem lookup_plainNames :
    plainNames.lookup name = some kind ↔ kind.isPattern = false ∧ kind.word = name := by
  have listed : ∀ entry ∈ plainNames, entry.2.isPattern = false ∧ entry.2.word = entry.1 := by
    decide
  constructor
  · intro found
    obtain ⟨before, after, split, -⟩ := List.lookup_eq_some_iff.mp found
    exact listed (name, kind) (split ▸ List.mem_append_right before List.mem_cons_self)
  · rintro ⟨unflagged, rfl⟩
    cases kind with
    | like | notLike => cases unflagged
    | _ => rfl

/-- No plain name begins with the word of a pattern. -/
theorem lookup_plainNames_pattern (flagged : kind.isPattern = true) (suffix : List Char) :
    plainNames.lookup (kind.word ++ String.ofList suffix) = none := by
  have apart : ∀ entry ∈ plainNames, after? kind.word.toList entry.1.toList = none := by
    cases kind with
    | like | notLike => decide
    | _ => cases flagged
  rw [List.lookup_eq_none_iff]
  intro entry listed
  rw [bne_iff_ne]
  intro same
  have missing := apart entry listed
  rw [← same, String.toList_append, String.toList_ofList, after?_append] at missing
  cases missing

theorem ofName?_plain (unflagged : kind.isPattern = false) :
    ofName? kind.word = some ⟨kind, .none⟩ := by
  unfold ofName?
  rw [lookup_plainNames.mpr ⟨unflagged, rfl⟩]

/-- A name that begins with the word of a pattern is read as the word and a suffix. -/
theorem ofName?_pattern (flagged : kind.isPattern = true) (suffix : List Char) :
    ofName? (kind.word ++ String.ofList suffix) =
      (parse? suffix).map fun flags => ⟨kind, flags⟩ := by
  have named (other : OperatorKind) : patternNamed? kind.word other
      (kind.word ++ String.ofList suffix) = (parse? suffix).map fun flags => ⟨other, flags⟩ := by
    unfold patternNamed?
    rw [String.toList_append, String.toList_ofList, after?_append, Option.bind_some]
  unfold ofName?
  rw [lookup_plainNames_pattern flagged]
  -- Neither word begins the other, so only one of the two readings can succeed.
  cases kind with
  | like =>
    have other : patternNamed? "notLike" .notLike ("like" ++ String.ofList suffix) = none := by
      unfold patternNamed?
      rw [String.toList_append]
      rfl
    exact (congrArg₂ Option.or (named .like) other).trans Option.or_none
  | notLike =>
    have other : patternNamed? "like" .like ("notLike" ++ String.ofList suffix) = none := by
      unfold patternNamed?
      rw [String.toList_append]
      rfl
    exact (congrArg₂ Option.or other (named .notLike)).trans Option.none_or
  | _ => cases flagged

theorem isNamed_of_patternNamed? (flagged : kind.isPattern = true)
    (found : patternNamed? kind.word kind name = some operator) : IsNamed name operator := by
  unfold patternNamed? at found
  obtain ⟨suffix, begins, parsed⟩ := Option.bind_eq_some_iff.mp found
  obtain ⟨flags, spelled, rfl⟩ := Option.map_eq_some_iff.mp parsed
  obtain ⟨spells, rfl⟩ := parse?_eq_some_iff.mp spelled
  have whole : name = kind.word ++ String.ofList suffix := by
    rw [← String.toList_inj, String.toList_append, String.toList_ofList]
    exact eq_append_of_after? begins
  rw [whole]
  exact .pattern flagged spells

/-- An operator is found by its names and by nothing else. -/
theorem ofName?_eq_some_iff : ofName? name = some operator ↔ IsNamed name operator := by
  constructor
  · intro found
    unfold ofName? at found
    split at found
    · rename_i kind listed
      obtain ⟨unflagged, rfl⟩ := lookup_plainNames.mp listed
      cases found
      exact .plain unflagged
    · rcases Option.or_eq_some_iff.mp found with like | ⟨-, notLike⟩
      · exact @isNamed_of_patternNamed? .like name operator rfl like
      · exact @isNamed_of_patternNamed? .notLike name operator rfl notLike
  · intro named
    cases named with
    | plain unflagged => exact ofName?_plain unflagged
    | pattern flagged spells =>
      rw [ofName?_pattern flagged, parse?_eq_some_iff.mpr ⟨spells, rfl⟩]
      rfl

/-- A name in place of another one: itself, or one with another suffix behind a pattern's word. -/
inductive Renames : String → String → Prop where
  | same (name : String) : Renames name name
  | suffix {kind : OperatorKind} {s t : List Char} (flagged : kind.isPattern = true)
      (replaces : Replaces s t) :
      Renames (kind.word ++ String.ofList s) (kind.word ++ String.ofList t)

theorem Renames.ofName?_eq {other : String} (renames : Renames name other) :
    ofName? name = ofName? other := by
  cases renames with
  | same => rfl
  | suffix flagged replaces =>
    rw [ofName?_pattern flagged, ofName?_pattern flagged, replaces.parse?_eq]

/-! ## Flags as seen from answers -/

/-- A pattern's answers tell its flags: on a text in another case, on one with a further line, and
on a line feed under a wildcard. -/
theorem eq_of_probes (flags : LikeFlags) : flags =
    { ignoreCase := Value.matchesLike flags (.str "a") (.str "A")
      perLine := Value.matchesLike flags (.str "a") (.str "a\nb")
      acrossLines := Value.matchesLike flags (.str "_") (.str "\n") } := by
  rcases flags with ⟨_ | _, _ | _, _ | _⟩ <;> decide

/-- Pattern operators of one kind answer alike on all values only if their flags are the same. -/
theorem evaluate_eq_iff (flagged : kind.isPattern = true) {flags flags' : LikeFlags} :
    (∀ value wanted, evaluate ⟨kind, flags⟩ value wanted = evaluate ⟨kind, flags'⟩ value wanted) ↔
      flags = flags' := by
  constructor
  · intro same
    have matched (pattern text : Value) :
        Value.matchesLike flags pattern text = Value.matchesLike flags' pattern text := by
      have answers := same text pattern
      -- A negated pattern shows what it matches as well, the other way round.
      cases kind with
      | like => exact answers
      | notLike => exact Bool.not_inj answers
      | _ => cases flagged
    rw [eq_of_probes flags, matched, matched, matched]
    exact (eq_of_probes flags').symm
  · rintro rfl value wanted
    rfl

end Operator

end RecordQuery
