import Mathlib
import RecordQuery.Operator.Evaluate

/-!
# What a pattern matches

A pattern matches a text if the text falls into consecutive pieces, one for each character of the
pattern and taken by it (`LikeFlags.Tiles`). Matching looks for the pieces from the left, with the
rest of the pattern as a condition on the rest of the text (`matchThen_iff`). Per line it begins and
ends where lines do, so the pieces make up a block of whole lines (`exists_stretch_iff_block`). Both
ways of matching are told by `Value.matchesLike_iff`.
-/

namespace RecordQuery

namespace LikeFlags

/-! ## Pieces -/

/-- Whether a character of a pattern takes a piece of a text: a percent sign any run, an underscore
any one character, but line feeds only across lines; every other character takes one that is the
same, up to case if that is ignored. -/
def Takes (flags : LikeFlags) (p : Char) (piece : List Char) : Prop :=
  if p = '%' then ∀ c ∈ piece, c = '\n' → flags.acrossLines = true
  else ∃ c, piece = [c] ∧
    if p = '_' then c = '\n' → flags.acrossLines = true
    else if flags.ignoreCase then Text.matchesIgnoringCase p c = true else c = p

/-- The text falls into pieces that the characters of the pattern take, one by one. -/
def Tiles (flags : LikeFlags) (pattern text : List Char) : Prop :=
  ∃ pieces, List.Forall₂ flags.Takes pattern pieces ∧ pieces.flatten = text

variable {flags : LikeFlags} {goesOn : List Char → Bool} {p : Char}
  {pattern text start front rest : List Char}

theorem tiles_nil : flags.Tiles [] text ↔ text = [] := by
  constructor
  · rintro ⟨pieces, taken, rfl⟩
    rw [List.forall₂_nil_left_iff.mp taken]
    rfl
  · rintro rfl
    exact ⟨[], .nil, rfl⟩

theorem tiles_cons : flags.Tiles (p :: pattern) text ↔
    ∃ piece rest, text = piece ++ rest ∧ flags.Takes p piece ∧ flags.Tiles pattern rest := by
  constructor
  · rintro ⟨pieces, taken, rfl⟩
    obtain ⟨piece, others, first, later, rfl⟩ := List.forall₂_cons_left_iff.mp taken
    exact ⟨piece, others.flatten, List.flatten_cons, first, others, later, rfl⟩
  · rintro ⟨piece, rest, rfl, first, others, later, rfl⟩
    exact ⟨piece :: others, .cons first later, List.flatten_cons⟩

/-! ## Matching from the left -/

theorem covers_iff {c : Char} :
    flags.covers c = true ↔ (c = '\n' → flags.acrossLines = true) := by
  unfold covers
  by_cases feed : c = '\n' <;> simp [feed]

theorem same_iff {wanted c : Char} : flags.same wanted c = true ↔
    if flags.ignoreCase then Text.matchesIgnoringCase wanted c = true else c = wanted := by
  unfold same
  split <;> simp

/-- A run at the front may have any length, as long as its characters are covered. -/
theorem runThen_iff : flags.runThen goesOn text = true ↔
    ∃ run rest, text = run ++ rest ∧ (∀ c ∈ run, c = '\n' → flags.acrossLines = true) ∧
      goesOn rest = true := by
  induction text with
  | nil =>
    rw [runThen]
    constructor
    · intro on
      exact ⟨[], [], rfl, List.forall_mem_nil _, on⟩
    · rintro ⟨run, rest, split, -, on⟩
      obtain ⟨-, rfl⟩ := List.append_eq_nil_iff.mp split.symm
      exact on
  | cons c cs ih =>
    rw [runThen, Bool.or_eq_true, Bool.and_eq_true, covers_iff, ih]
    constructor
    · rintro (on | ⟨covered, run, rest, rfl, all, on⟩)
      · exact ⟨[], c :: cs, rfl, List.forall_mem_nil _, on⟩
      · exact ⟨c :: run, rest, rfl, List.forall_mem_cons.mpr ⟨covered, all⟩, on⟩
    · rintro ⟨run, rest, split, all, on⟩
      rcases List.cons_eq_append_iff.mp split with ⟨-, rfl⟩ | ⟨run, rfl, rfl⟩
      · exact .inl on
      · obtain ⟨covered, all⟩ := List.forall_mem_cons.mp all
        exact .inr ⟨covered, run, rest, rfl, all, on⟩

/-- The item that a character of a pattern stands for. -/
def itemOf (p : Char) : LikeItem :=
  if p = '%' then .anyRun else if p = '_' then .anyChar else .literal p

/-- A character that passes a test, at the front of a text. -/
theorem exists_front_iff {test : Char → Bool} {passes : Char → Prop}
    (told : ∀ c, test c = true ↔ passes c) :
    (match text with
      | c :: rest => test c && goesOn rest
      | [] => false) = true ↔
      ∃ piece rest, text = piece ++ rest ∧ (∃ c, piece = [c] ∧ passes c) ∧ goesOn rest = true := by
  cases text with
  | nil =>
    constructor
    · intro failed
      cases failed
    · rintro ⟨piece, rest, split, ⟨c, rfl, -⟩, -⟩
      cases split
  | cons c cs =>
    rw [Bool.and_eq_true, told]
    constructor
    · rintro ⟨passed, on⟩
      exact ⟨[c], cs, rfl, ⟨c, rfl, passed⟩, on⟩
    · rintro ⟨piece, rest, split, ⟨d, rfl, passed⟩, on⟩
      obtain ⟨rfl, rfl⟩ := List.cons.inj split
      exact ⟨passed, on⟩

/-- One item takes a piece from the front and leaves the rest to the items behind it. -/
theorem matchThen_cons_iff {items : List LikeItem} :
    flags.matchThen goesOn (itemOf p :: items) text = true ↔
      ∃ piece rest, text = piece ++ rest ∧ flags.Takes p piece ∧
        flags.matchThen goesOn items rest = true := by
  unfold itemOf Takes
  split
  · exact runThen_iff
  · split
    · exact exists_front_iff fun _ => covers_iff
    · exact exists_front_iff fun _ => same_iff

theorem matchThen_iff : flags.matchThen goesOn (pattern.map itemOf) text = true ↔
    ∃ front rest, text = front ++ rest ∧ flags.Tiles pattern front ∧ goesOn rest = true := by
  induction pattern generalizing text with
  | nil =>
    constructor
    · intro on
      exact ⟨[], text, rfl, tiles_nil.mpr rfl, on⟩
    · rintro ⟨front, rest, rfl, tiled, on⟩
      rw [tiles_nil.mp tiled]
      exact on
  | cons p ps ih =>
    rw [List.map_cons, matchThen_cons_iff]
    constructor
    · rintro ⟨piece, rest, rfl, taken, matched⟩
      obtain ⟨front, rest, rfl, tiled, on⟩ := ih.mp matched
      exact ⟨piece ++ front, rest, (List.append_assoc ..).symm,
        tiles_cons.mpr ⟨piece, front, rfl, taken, tiled⟩, on⟩
    · rintro ⟨front, rest, rfl, tiled, on⟩
      obtain ⟨piece, later, rfl, taken, tiled⟩ := tiles_cons.mp tiled
      exact ⟨piece, later ++ rest, List.append_assoc .., taken,
        ih.mpr ⟨later, rest, rfl, tiled, on⟩⟩

/-! ## Lines -/

theorem splitOn_append (xs ys : List Char) :
    (xs ++ '\n' :: ys).splitOn '\n' = xs.splitOn '\n' ++ ys.splitOn '\n' :=
  List.splitOnP_append_cons xs ys rfl

theorem intercalate_append {block others : List (List Char)} (filled : block ≠ [])
    (filled' : others ≠ []) : ['\n'].intercalate (block ++ others) =
      ['\n'].intercalate block ++ '\n' :: ['\n'].intercalate others := by
  induction block with
  | nil => exact absurd rfl filled
  | cons line block ih =>
    cases block with
    | nil =>
      obtain ⟨first, others, rfl⟩ := List.exists_cons_of_ne_nil filled'
      rw [List.singleton_append, List.intercalate_cons_cons, List.intercalate_singleton,
        List.append_assoc, List.singleton_append]
    | cons next block =>
      rw [List.cons_append, List.cons_append, List.intercalate_cons_cons, ← List.cons_append,
        ih (List.cons_ne_nil _ _), List.intercalate_cons_cons, List.append_assoc _ _ (_ :: _)]

/-- The rests of a text that begin where a line begins. -/
theorem mem_starts_iff : start ∈ text :: laterLines text ↔
    start = text ∨ ∃ before, text = before ++ '\n' :: start := by
  rw [List.mem_cons]
  apply or_congr_right
  induction text with
  | nil => simp [laterLines]
  | cons c cs ih =>
    have step : (∃ before, c :: cs = before ++ '\n' :: start) ↔
        (c = '\n' ∧ start = cs) ∨ ∃ before, cs = before ++ '\n' :: start := by
      constructor
      · rintro ⟨before, split⟩
        rcases List.cons_eq_append_iff.mp split with ⟨-, same⟩ | ⟨before, -, later⟩
        · obtain ⟨rfl, rfl⟩ := List.cons.inj same
          exact .inl ⟨rfl, rfl⟩
        · exact .inr ⟨before, later⟩
      · rintro (⟨rfl, rfl⟩ | ⟨before, rfl⟩)
        · exact ⟨[], rfl⟩
        · exact ⟨c :: before, rfl⟩
    rw [step, ← ih, laterLines]
    by_cases feed : c = '\n'
    · rw [if_pos feed, List.mem_cons]
      exact or_congr_left (iff_and_self.mpr fun _ => feed)
    · rw [if_neg feed]
      exact (or_iff_right fun both => feed both.1).symm

theorem atLineEnd_iff : atLineEnd rest = true ↔ rest = [] ∨ ∃ later, rest = '\n' :: later := by
  cases rest with
  | nil => simp [atLineEnd]
  | cons c cs => simp [atLineEnd]

/-- From the beginning of a line to the end of a line there are whole lines, one at least. -/
theorem exists_stretch_iff_block :
    (∃ start ∈ text :: laterLines text, ∃ rest, start = front ++ rest ∧ atLineEnd rest = true) ↔
      ∃ block, block ≠ [] ∧ block <:+: text.splitOn '\n' ∧ ['\n'].intercalate block = front := by
  constructor
  · rintro ⟨start, starts, rest, rfl, ends⟩
    refine ⟨front.splitOn '\n', List.splitOn_ne_nil _ _, ?_, List.intercalate_splitOn _⟩
    have inStart : front.splitOn '\n' <+: (front ++ rest).splitOn '\n' := by
      rcases atLineEnd_iff.mp ends with rfl | ⟨later, rfl⟩
      · rw [List.append_nil]
      · rw [splitOn_append]
        exact List.prefix_append _ _
    have inText : (front ++ rest).splitOn '\n' <:+ text.splitOn '\n' := by
      rcases mem_starts_iff.mp starts with rfl | ⟨before, rfl⟩
      · exact List.suffix_rfl
      · rw [splitOn_append]
        exact List.suffix_append _ _
    exact inStart.isInfix.trans inText.isInfix
  · rintro ⟨block, filled, ⟨earlier, later, whole⟩, rfl⟩
    have joined : ['\n'].intercalate (text.splitOn '\n') = text := List.intercalate_splitOn '\n'
    rw [← whole] at joined
    have ending : ∃ rest, ['\n'].intercalate (block ++ later) = ['\n'].intercalate block ++ rest ∧
        atLineEnd rest = true := by
      by_cases last : later = []
      · exact ⟨[], by rw [last, List.append_nil, List.append_nil], rfl⟩
      · exact ⟨_, intercalate_append filled last, rfl⟩
    obtain ⟨rest, split, ends⟩ := ending
    refine ⟨['\n'].intercalate (block ++ later), mem_starts_iff.mpr ?_, rest, split, ends⟩
    rw [List.append_assoc] at joined
    by_cases first : earlier = []
    · exact .inl (by rw [← joined, first, List.nil_append])
    · rw [intercalate_append first (List.append_ne_nil_of_left_ne_nil filled _)] at joined
      exact .inr ⟨_, joined.symm⟩

/-! ## Both ways of matching -/

theorem textMatches_iff : flags.textMatches (pattern.map itemOf) text = true ↔
    if flags.perLine then
      ∃ block, block ≠ [] ∧ block <:+: text.splitOn '\n' ∧
        flags.Tiles pattern (['\n'].intercalate block)
    else flags.Tiles pattern text := by
  unfold textMatches
  split
  · rw [List.any_eq_true]
    constructor
    · rintro ⟨start, starts, matched⟩
      obtain ⟨front, rest, split, tiled, ends⟩ := matchThen_iff.mp matched
      obtain ⟨block, filled, inText, rfl⟩ :=
        exists_stretch_iff_block.mp ⟨start, starts, rest, split, ends⟩
      exact ⟨block, filled, inText, tiled⟩
    · rintro ⟨block, filled, inText, tiled⟩
      obtain ⟨start, starts, rest, split, ends⟩ :=
        exists_stretch_iff_block.mpr ⟨block, filled, inText, rfl⟩
      exact ⟨start, starts, matchThen_iff.mpr ⟨_, rest, split, tiled, ends⟩⟩
  · rw [matchThen_iff]
    constructor
    · rintro ⟨front, rest, rfl, tiled, ends⟩
      rw [List.isEmpty_iff.mp ends, List.append_nil]
      exact tiled
    · intro tiled
      exact ⟨text, [], (List.append_nil text).symm, tiled, rfl⟩

end LikeFlags

namespace Value

open LikeFlags

/-- **A pattern matches what its characters tile.** Without the flag for lines a pattern matches a
text just when the text falls into consecutive pieces that the characters of the pattern take one by
one; with it, when a block of the text's lines, put together again, does. Any other value is matched
by its plain text, but null by no pattern. -/
theorem matchesLike_iff (flags : LikeFlags) (pattern : String) :
    (∀ text : String, matchesLike flags (.str pattern) (.str text) = true ↔
      if flags.perLine then
        ∃ block, block ≠ [] ∧ block <:+: text.toList.splitOn '\n' ∧
          flags.Tiles pattern.toList (['\n'].intercalate block)
      else flags.Tiles pattern.toList text.toList) ∧
    ∀ v : Value, matchesLike flags (.str pattern) v = true ↔
      v ≠ .null ∧ matchesLike flags (.str pattern) (.str v.text) = true := by
  constructor
  · intro text
    exact textMatches_iff
  · intro v
    cases v with
    | null => simp [matchesLike]
    | _ => exact (and_iff_right (by simp)).symm

end Value

end RecordQuery
