import Mathlib
import RecordQuery.Text.Blank
import RecordQuery.Value.Text

/-!
# Printable texts

The display of a value has printable characters only (`Value.isPrintable_display`): texts within it
are quoted with every other character escaped, and numbers and brackets are plain ASCII. So a
display never breaks a line.
-/

namespace RecordQuery

namespace Text

/-! ## Characters -/

theorem isPrintable_of_ascii {c : Char} (low : 0x20 ≤ c.toNat) (high : c.toNat < 0x7F) :
    isPrintable c = true := if_pos ⟨low, high⟩

/-- No printable character ends a line. -/
theorem isLineBreak_of_isPrintable {c : Char} (printable : isPrintable c = true) :
    isLineBreak c = false := by
  have breaks : ∀ code ∈ lineBreakCodes, isPrintable (Char.ofNat code) = false := by decide
  by_contra ends
  have unprintable := breaks c.toNat (List.contains_iff_mem.mp (eq_true_of_ne_false ends))
  rw [Char.ofNat_toNat, printable] at unprintable
  cases unprintable

theorem isPrintable_digitChar : ∀ d < 16, isPrintable (Nat.digitChar d) = true := by decide

theorem isPrintable_of_isDigit {c : Char} (digit : c.isDigit = true) : isPrintable c = true := by
  obtain ⟨low, high⟩ := Char.isDigit_iff_toNat.mp digit
  exact isPrintable_of_ascii (Nat.le_trans (by decide) low) (Nat.lt_of_le_of_lt high (by decide))

/-! ## Texts -/

/-- All characters of a text are printable. -/
def IsPrintable (s : String) : Prop := s.toList.all isPrintable = true

instance : DecidablePred IsPrintable := fun _ => inferInstanceAs (Decidable (_ = _))

variable {s t : String}

theorem IsPrintable.of_mem (printable : IsPrintable s) : ∀ c ∈ s.toList, isPrintable c = true :=
  List.all_eq_true.mp printable

theorem isPrintable_ofList {cs : List Char} (printable : ∀ c ∈ cs, isPrintable c = true) :
    IsPrintable (String.ofList cs) := by
  unfold IsPrintable
  rw [String.toList_ofList]
  exact List.all_eq_true.mpr printable

theorem IsPrintable.append (front : IsPrintable s) (behind : IsPrintable t) :
    IsPrintable (s ++ t) := by
  unfold IsPrintable at *
  rw [String.toList_append, List.all_append, front, behind]
  rfl

/-- What is left of a printable text when characters are left out is printable. -/
theorem IsPrintable.sublist {cs : List Char} (printable : IsPrintable s)
    (part : List.Sublist cs s.toList) : IsPrintable (String.ofList cs) :=
  isPrintable_ofList fun c member => printable.of_mem c (part.subset member)

theorem isPrintable_join {separator : String} {parts : List String}
    (between : IsPrintable separator) (each : ∀ s ∈ parts, IsPrintable s) :
    IsPrintable (join separator parts) := by
  induction parts with
  | nil => exact rfl
  | cons s parts ih =>
    obtain ⟨first, later⟩ := List.forall_mem_cons.mp each
    cases parts with
    | nil => exact first
    | cons t parts => exact (first.append between).append (ih later)

/-! ## Quoted texts -/

theorem isPrintable_hexDigits (width n : Nat) : ∀ c ∈ hexDigits width n, isPrintable c = true := by
  induction width generalizing n with
  | zero => exact List.forall_mem_nil _
  | succ width ih =>
    exact List.forall_mem_append.mpr ⟨ih _, List.forall_mem_singleton.mpr
      (isPrintable_digitChar _ (Nat.mod_lt n (by decide)))⟩

theorem isPrintable_codeEscape (code : Nat) : ∀ c ∈ codeEscape code, isPrintable c = true := by
  have escape {c : Char} (letter : isPrintable c = true) (width : Nat) :
      ∀ d ∈ '\\' :: c :: hexDigits width code, isPrintable d = true :=
    List.forall_mem_cons.mpr ⟨by decide,
      List.forall_mem_cons.mpr ⟨letter, isPrintable_hexDigits width code⟩⟩
  unfold codeEscape
  split
  · exact escape (by decide) 2
  · split
    · exact escape (by decide) 4
    · exact escape (by decide) 8

theorem isPrintable_quotedChar {quote : Char} (shown : isPrintable quote = true) (c : Char) :
    ∀ d ∈ quotedChar quote c, isPrintable d = true := by
  have escape {d : Char} (letter : isPrintable d = true) :
      ∀ e ∈ ['\\', d], isPrintable e = true :=
    List.forall_mem_cons.mpr ⟨by decide, List.forall_mem_singleton.mpr letter⟩
  unfold quotedChar
  split
  · rename_i special
    rcases special with rfl | rfl
    · exact escape shown
    · exact escape (by decide)
  split
  · exact escape (by decide)
  split
  · exact escape (by decide)
  split
  · exact escape (by decide)
  split
  · exact List.forall_mem_singleton.mpr ‹_›
  · exact isPrintable_codeEscape c.toNat

/-- A quoted text is printable, whatever the text is. -/
theorem isPrintable_quoted (s : String) : IsPrintable (quoted s) := by
  have quote : isPrintable (quoteFor s.toList) = true := by
    unfold quoteFor
    split <;> decide
  refine isPrintable_ofList (List.forall_mem_append.mpr
    ⟨List.forall_mem_cons.mpr ⟨quote, fun c member => ?_⟩, List.forall_mem_singleton.mpr quote⟩)
  obtain ⟨d, -, inside⟩ := List.mem_flatMap.mp member
  exact isPrintable_quotedChar quote d c inside

end Text

open Text (IsPrintable isPrintable_ofList isPrintable_join isPrintable_quoted)

/-! ## Numbers -/

theorem isPrintable_toDigits (n : Nat) :
    ∀ c ∈ Nat.toDigits 10 n, Text.isPrintable c = true := fun _ member =>
  Text.isPrintable_of_isDigit (Nat.isDigit_of_mem_toDigits (by decide) (Nat.le_refl 10) member)

theorem isPrintable_repr (n : Nat) : IsPrintable (Nat.repr n) :=
  isPrintable_ofList (isPrintable_toDigits n)

theorem isPrintable_toString (n : Int) : IsPrintable (toString n) := by
  cases n with
  | ofNat n => exact isPrintable_repr n
  | negSucc n =>
    have hyphen : IsPrintable "-" := by decide
    exact hyphen.append (isPrintable_repr (n + 1))

namespace Decimal

theorem isPrintable_digits {d : Decimal} {cs : List Char}
    (part : List.Sublist cs (Nat.toDigits 10 d.coefficient)) : IsPrintable (String.ofList cs) :=
  isPrintable_ofList fun c member => isPrintable_toDigits d.coefficient c (part.subset member)

theorem isPrintable_positional {wholeFraction : String} (whole : IsPrintable wholeFraction)
    (d : Decimal) : IsPrintable (d.positional wholeFraction) := by
  have digits := isPrintable_toDigits d.coefficient
  have zeros (count : Nat) : ∀ c ∈ List.replicate count '0', Text.isPrintable c = true := by
    intro c member
    rw [List.eq_of_mem_replicate member]
    decide
  have point : IsPrintable "." := by decide
  unfold positional
  dsimp only
  split
  · exact (isPrintable_ofList (List.forall_mem_append.mpr ⟨digits, zeros _⟩)).append whole
  split
  · exact ((isPrintable_digits (List.take_sublist _ _)).append point).append
      (isPrintable_digits (List.drop_sublist _ _))
  · have start : IsPrintable "0." := by decide
    exact start.append (isPrintable_ofList (List.forall_mem_append.mpr ⟨zeros _, digits⟩))

theorem isPrintable_scientific {exponentPart : String} (exponent : IsPrintable exponentPart)
    (d : Decimal) : IsPrintable (d.scientific exponentPart) := by
  have point : IsPrintable "." := by decide
  unfold scientific
  refine (IsPrintable.append (isPrintable_digits (List.take_sublist _ _)) ?_).append exponent
  split
  · decide
  · exact point.append (isPrintable_digits (List.drop_sublist _ _))

theorem isPrintable_text (negative : Bool) (d : Decimal) : IsPrintable (d.text negative) := by
  have hyphen : IsPrintable "-" := by decide
  have sign : IsPrintable (if d.leading < 0 then "E-" else "E+") := by split <;> decide
  have magnitude : IsPrintable (if d.exponent ≤ 0 ∧ -6 ≤ d.leading then d.positional ""
      else d.scientific ((if d.leading < 0 then "E-" else "E+") ++ Nat.repr d.leading.natAbs)) := by
    split
    · exact isPrintable_positional (by decide) d
    · exact isPrintable_scientific (sign.append (isPrintable_repr _)) d
  unfold text
  dsimp only
  split
  · exact hyphen.append magnitude
  · exact magnitude

end Decimal

namespace DecimalLayout

theorem isPrintable_exponentText (e : Int) : IsPrintable (exponentText e) := by
  have digits := isPrintable_repr e.natAbs
  have zero : IsPrintable "0" := by decide
  refine IsPrintable.append ?_ ?_
  · split <;> decide
  · split
    · exact zero.append digits
    · exact digits

theorem isPrintable_write {layout : DecimalLayout} (whole : IsPrintable layout.wholeFraction)
    (d : Decimal) : IsPrintable (layout.write d) := by
  unfold write
  split
  · exact Decimal.isPrintable_scientific (isPrintable_exponentText _) d
  · exact Decimal.isPrintable_positional whole d

end DecimalLayout

namespace Binary64

theorem isPrintable_textWith {layout : DecimalLayout} (whole : IsPrintable layout.wholeFraction)
    (decimal : Nat → Int → Decimal) (x : Binary64) : IsPrintable (x.textWith layout decimal) := by
  have hyphen : IsPrintable "-" := by decide
  have zero : IsPrintable "0" := by decide
  cases x with
  | nan => exact (by decide : IsPrintable "nan")
  | infinite negative =>
    cases negative with
    | true => exact (by decide : IsPrintable "-inf")
    | false => exact (by decide : IsPrintable "inf")
  | finite negative m e =>
    have magnitude : IsPrintable (if m = 0 then "0" ++ layout.wholeFraction
        else layout.write (decimal m e)) := by
      split
      · exact zero.append whole
      · exact DecimalLayout.isPrintable_write whole _
    unfold textWith
    dsimp only
    split
    · exact hyphen.append magnitude
    · exact magnitude

theorem isPrintable_text (x : Binary64) : IsPrintable x.text :=
  isPrintable_textWith (by decide) _ x

theorem isPrintable_briefText (x : Binary64) : IsPrintable x.briefText :=
  isPrintable_textWith (by decide) _ x

end Binary64

/-! ## Values -/

namespace Value

theorem isPrintable_displayDirection (d : Direction) : IsPrintable (displayDirection d) := by
  cases d <;> decide

theorem isPrintable_displaySortKey (key : SortKey) : IsPrintable (displaySortKey key) := by
  have name : IsPrintable "SortKey(field=" := by decide
  have next : IsPrintable ", direction=" := by decide
  have ending : IsPrintable ")" := by decide
  exact (((name.append (isPrintable_quoted _)).append next).append
    (isPrintable_displayDirection _)).append ending

theorem isPrintable_displayObject (identity : Nat) : IsPrintable (displayObject identity) := by
  have name : IsPrintable "<object object at 0x" := by decide
  have ending : IsPrintable ">" := by decide
  exact (name.append (isPrintable_ofList (Text.isPrintable_hexDigits 12 identity))).append ending

/-- Printable parts between brackets. -/
theorem isPrintable_bracketed {opening closing : String} (front : IsPrintable opening)
    (behind : IsPrintable closing) {parts : List String} (each : ∀ s ∈ parts, IsPrintable s) :
    IsPrintable (opening ++ Text.join ", " parts ++ closing) :=
  (front.append (isPrintable_join (by decide) each)).append behind

mutual
theorem isPrintable_display : (v : Value) → IsPrintable (display v)
  | .null => by decide
  | .bool true => by decide
  | .bool false => by decide
  | .int n => isPrintable_toString n
  | .float x => x.isPrintable_text
  | .decimal negative d => by
    have opening : IsPrintable "Decimal('" := by decide
    have closing : IsPrintable "')" := by decide
    exact (opening.append (d.isPrintable_text negative)).append closing
  | .str s => isPrintable_quoted s
  | .list items => isPrintable_bracketed (by decide) (by decide) (isPrintable_displays items)
  | .tuple items => by
    have each := isPrintable_displays items
    have opening : IsPrintable "(" := by decide
    have closing : IsPrintable ")" := by decide
    have single : IsPrintable ",)" := by decide
    rcases items with _ | ⟨item, _ | ⟨next, rest⟩⟩
    · exact isPrintable_bracketed opening closing each
    · exact (opening.append (each _ List.mem_cons_self)).append single
    · exact isPrintable_bracketed opening closing each
  | .set items => by
    have each := isPrintable_displays items
    cases items with
    | nil => exact rfl
    | cons item rest => exact isPrintable_bracketed (by decide) (by decide) each
  | .map entries =>
    isPrintable_bracketed (by decide) (by decide) (isPrintable_displayEntries entries)
  | .object identity _ => isPrintable_displayObject identity
  | .direction d => isPrintable_displayDirection d
  | .sortKey key => isPrintable_displaySortKey key
termination_by structural v => v

theorem isPrintable_displays : (items : List Value) → ∀ s ∈ displays items, IsPrintable s
  | [] => List.forall_mem_nil _
  | v :: rest => List.forall_mem_cons.mpr ⟨isPrintable_display v, isPrintable_displays rest⟩
termination_by structural items => items

theorem isPrintable_displayEntries :
    (entries : List (Value × Value)) → ∀ s ∈ displayEntries entries, IsPrintable s
  | [] => List.forall_mem_nil _
  | (k, v) :: rest =>
    have colon : IsPrintable ": " := by decide
    List.forall_mem_cons.mpr
      ⟨((isPrintable_display k).append colon).append (isPrintable_display v),
        isPrintable_displayEntries rest⟩
termination_by structural entries => entries
end

end Value

end RecordQuery
