import Mathlib
import RecordQuery.Proofs.Number.Truncation
import RecordQuery.Proofs.Query.Stages

/-!
# Counts and pages

Whatever the count, what it keeps and what it skips are the two parts of the records, since both cut
at one position. A finite count cuts where the end of a slice at its integer part does, so clamping
never shows. Pages of one size, each skipping those before it, follow on each other without gap or
overlap (`Query.limit_skip_partition`).
-/

namespace RecordQuery

/-! ## Cuts -/

namespace Numeric

variable {α : Type} {n : Numeric} {q : ℚ}

/-- Every finite count is clamped as its integer part. -/
theorem clampTo_of_finite (finite : n.finite? = some q) (length : Int) :
    n.clampTo length = (Numeric.int (towardZero q)).clampTo length := by
  cases n with
  | truth b =>
    cases finite
    cases b
    · simp [Place.ratio, clampTo, towardZero]
    · simp [Place.ratio, clampTo, towardZero]
  | int n =>
    cases finite
    simp [Place.ratio, clampTo, towardZero_intCast]
  | float x =>
    cases x with
    | nan payload => cases finite
    | infinite negative => cases negative <;> cases finite
    | finite negative m e =>
      have value : q = Place.ratio (if negative then -(m : Int) else m) e := by
        cases negative <;> exact (Option.some.inj finite).symm
      rw [value, ← Binary64.truncate_eq]
      rfl

theorem skip_of_finite (finite : n.finite? = some q) (items : List α) :
    n.skip items = sliceFrom (towardZero q) items := by
  rw [← skip_int, skip, skip, clampTo_of_finite finite]

theorem limit_of_finite (finite : n.finite? = some q) (items : List α) :
    n.limit items = sliceTo (towardZero q) items := by
  rw [← limit_int, limit, limit, clampTo_of_finite finite]

/-- A count of any kind divides a list into what it keeps and what it skips. -/
theorem limit_append_skip (n : Numeric) (items : List α) : n.limit items ++ n.skip items = items :=
  List.take_append_drop _ items

end Numeric

/-! ## Pages -/

section Pages

variable {α : Type}

theorem sliceFrom_natCast (n : Nat) (items : List α) : sliceFrom n items = items.drop n := by
  simp [sliceFrom, slicePosition]

theorem sliceTo_natCast (n : Nat) (items : List α) : sliceTo n items = items.take n := by
  simp [sliceTo, slicePosition]

/-- The page under a number, in pages of one size. -/
def page (size : Int) (items : List α) (number : Nat) : List α :=
  (Numeric.int size).limit ((Numeric.int (number * size)).skip items)

theorem page_natCast (size : Nat) (items : List α) (number : Nat) :
    page size items number = (items.drop (number * size)).take size := by
  rw [page, skip_int, limit_int, ← Nat.cast_mul, sliceFrom_natCast, sliceTo_natCast]

/-- The first pages hold the first items, one after the other. -/
theorem flatMap_page (size : Nat) (items : List α) (count : Nat) :
    (List.range count).flatMap (page size items) = items.take (count * size) := by
  induction count with
  | zero => simp
  | succ count ih =>
    rw [List.range_succ, List.flatMap_append, ih, List.flatMap_singleton, page_natCast,
      Nat.succ_mul, List.take_add]

end Pages

namespace Query

variable {count : Value} {n : Numeric}

theorem leadsTo_page (collection : Collection) (query : Query) (size : Int) (number : Nat) :
    LeadsTo collection query [.skip (.int (number * size)), .limit (.int size)]
      (holding (page size (query.current collection) number)) :=
  (leadsTo_singleton (perform_skip rfl collection query)).append
    (leadsTo_singleton (perform_limit rfl collection _))

/-- **Counts and pages divide the records.** For a count of any kind, the records that a limit keeps
and then those that a skip leaves are the records of the query; a finite count takes the two slices
at its value cut toward zero. Pages of a positive size, each by a skip and a limit of its own, put
together in turn are the records of the query, as soon as they are enough, and before that the first
ones of them. -/
theorem limit_skip_partition (collection : Collection) (query : Query)
    (number : count.number? = some n) {size : Int} (positive : 1 ≤ size) :
    (∃ kept left,
      query.perform collection (.limit count) = ⟨holding kept, .ok .self, []⟩ ∧
      query.perform collection (.skip count) = ⟨holding left, .ok .self, []⟩ ∧
      kept ++ left = query.current collection ∧
      ∀ q, n.finite? = some q →
        kept = sliceTo (towardZero q) (query.current collection) ∧
        left = sliceFrom (towardZero q) (query.current collection)) ∧
    ∃ pages : Nat → List Value,
      (∀ k : Nat, LeadsTo collection query [.skip (.int (k * size)), .limit (.int size)]
        (holding (pages k))) ∧
      (∀ upTo, (List.range upTo).flatMap pages =
        (query.current collection).take (upTo * size.toNat)) ∧
      ∀ upTo : Nat, (query.current collection).length ≤ upTo * size →
        (List.range upTo).flatMap pages = query.current collection := by
  obtain ⟨width, rfl⟩ := Int.eq_ofNat_of_zero_le (show 0 ≤ size by omega)
  constructor
  · refine ⟨_, _, perform_limit number collection query, perform_skip number collection query,
      n.limit_append_skip _, fun q finite => ?_⟩
    exact ⟨Numeric.limit_of_finite finite _, Numeric.skip_of_finite finite _⟩
  · refine ⟨page width (query.current collection), leadsTo_page collection query width,
      flatMap_page width _, fun upTo enough => ?_⟩
    rw [flatMap_page]
    exact List.take_of_length_le (by exact_mod_cast enough)

/-- A negative fraction counts from the end, and pages of two end with a page of one. -/
theorem limit_skip_partition_of_fraction :
    let records := [1, 2, 3, 4, 5].map Value.int
    let collection : Collection := ⟨.str "id", .blank ["id"], []⟩
    let query := holding records
    let count := Value.float (.finite true 5 (-1))
    count.number? = some (.float (.finite true 5 (-1))) ∧ (1 : Int) ≤ 2 ∧
      query.perform collection (.limit count) =
        ⟨holding ([1, 2, 3].map Value.int), .ok .self, []⟩ ∧
      query.perform collection (.skip count) = ⟨holding ([4, 5].map Value.int), .ok .self, []⟩ ∧
      ∃ pages : Nat → List Value,
        (∀ k : Nat, LeadsTo collection query [.skip (.int (k * 2)), .limit (.int 2)]
          (holding (pages k))) ∧
        (List.range 3).flatMap pages = records := by
  intro records collection query count
  have number : count.number? = some (.float (.finite true 5 (-1))) := rfl
  have positive : (1 : Int) ≤ 2 := by decide
  have cut : towardZero (Place.ratio (-5) (-1)) = -2 := by
    have value : Place.ratio (-5) (-1) = -5 / 2 := by norm_num [Place.ratio]
    rw [value, towardZero, if_neg (by norm_num), Int.ceil_eq_iff]
    norm_num
  obtain ⟨⟨kept, left, limited, skipped, -, slices⟩, pages, led, -, whole⟩ :=
    limit_skip_partition collection query number positive
  obtain ⟨keptSlice, leftSlice⟩ := slices (Place.ratio (-5) (-1)) rfl
  rw [cut] at keptSlice leftSlice
  refine ⟨number, positive, ?_, ?_, pages, led, whole 3 (by decide)⟩
  · rw [limited, keptSlice]
    rfl
  · rw [skipped, leftSlice]
    rfl

end Query

end RecordQuery
