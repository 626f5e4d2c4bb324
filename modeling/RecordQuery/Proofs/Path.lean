import Mathlib
import RecordQuery.Path
import RecordQuery.Proofs.Value.Sameness

/-!
# Dotted paths

What a value has under a segment is told apart from how it is looked up: an entry of a mapping, an
item of a list or tuple by its position from either end, or an attribute (`Value.Has`). The lookup
walks along what is there (`lookup_of_leads`) and gives null as soon as something is missing
(`lookup_of_misses`), and each path either leads on or misses (`leads_or_misses`). Behind a dot a
path goes on from the value in front of it (`lookup_dotted`).
-/

namespace RecordQuery

/-! ## Segments of dotted texts -/

theorem Text.exists_splitAt (separator : Char) (cs : List Char) :
    ∃ part parts, splitAt separator cs = part :: parts := by
  cases cs with
  | nil => exact ⟨[], [], rfl⟩
  | cons c cs =>
    unfold splitAt
    split
    · exact ⟨_, _, rfl⟩
    · split <;> exact ⟨_, _, rfl⟩

/-- A separator divides the parts in front of it from those behind it. -/
theorem Text.splitAt_append (separator : Char) (front behind : List Char) :
    splitAt separator (front ++ separator :: behind) =
      splitAt separator front ++ splitAt separator behind := by
  induction front with
  | nil => exact if_pos rfl
  | cons c front ih =>
    obtain ⟨part, parts, split⟩ := exists_splitAt separator front
    rw [List.cons_append, splitAt, ih, splitAt, split]
    split <;> rfl

namespace Path

theorem ofString_of_ne {s : String} (filled : s ≠ "") : ofString s = Text.splitString '.' s :=
  if_neg fun nothing => filled (String.isEmpty_iff.mp nothing)

theorem ofString_ne_nil {s : String} (filled : s ≠ "") : ofString s ≠ [] := by
  obtain ⟨part, parts, split⟩ := Text.exists_splitAt '.' s.toList
  rw [ofString_of_ne filled, Text.splitString, split]
  exact List.cons_ne_nil _ _

/-- The segments of two texts with a dot between them. -/
theorem ofString_dotted {p q : String} (filled : p ≠ "") (filled' : q ≠ "") :
    ofString (p ++ "." ++ q) = ofString p ++ ofString q := by
  have spelled : (p ++ "." ++ q).toList = p.toList ++ '.' :: q.toList := by
    rw [String.toList_append, String.toList_append, List.append_assoc]
    rfl
  have whole : p ++ "." ++ q ≠ "" := by
    intro nothing
    rw [← String.toList_inj, spelled] at nothing
    exact List.append_ne_nil_of_right_ne_nil _ (List.cons_ne_nil _ _) nothing
  rw [ofString_of_ne whole, ofString_of_ne filled, ofString_of_ne filled', Text.splitString, spelled,
    Text.splitAt_append, List.map_append]
  rfl

end Path

namespace Value

/-! ## One step -/

/-- The value is a list or tuple of the items. -/
def IsSequence (v : Value) (items : List Value) : Prop := v = .list items ∨ v = .tuple items

/-- The value is entered by attribute. -/
def HasAttributes : Value → Prop
  | .map _ | .list _ | .tuple _ => False
  | _ => True

/-- What a value has under a segment: a mapping under the first key that is the segment, a list or
tuple at the whole number that the segment spells, counted from the end if negative, and any other
value its attribute. -/
inductive Has : Value → String → Value → Prop where
  | entry {before after : Entries Value} {segment : String} {v : Value}
      (first : ∀ entry ∈ before, entry.1 ≠ .str segment) :
      Has (.map (before ++ (.str segment, v) :: after)) segment v
  | item {w v : Value} {items : List Value} {segment : String} {n : Nat}
      (sequence : w.IsSequence items) (spelled : Text.readInt? segment = some (n : Int))
      (at_n : items[n]? = some v) : Has w segment v
  | itemBack {w v : Value} {items : List Value} {segment : String} {n : Nat}
      (sequence : w.IsSequence items) (spelled : Text.readInt? segment = some (-(n + 1 : Int)))
      (at_n : items.reverse[n]? = some v) : Has w segment v
  | named {w v : Value} {segment : String} (other : w.HasAttributes)
      (found : w.attribute? segment = some v) : Has w segment v

/-- The value has nothing under the segment. -/
def Lacks (v : Value) (segment : String) : Prop := ∀ w, ¬ v.Has segment w

theorem itemAt?_natCast (items : List Value) (n : Nat) : itemAt? items n = items[n]? :=
  if_pos (Int.natCast_nonneg n)

theorem itemAt?_back (items : List Value) (n : Nat) :
    itemAt? items (-(n + 1 : Int)) = items.reverse[n]? := by
  have behind : (- -((n : Int) + 1)).toNat = n + 1 := by omega
  unfold itemAt?
  rw [if_neg (by omega), behind]
  split
  · rename_i within
    rw [List.getElem?_reverse within, Nat.sub_sub, Nat.add_comm n 1]
  · rename_i beyond
    rw [List.getElem?_eq_none (by rw [List.length_reverse]; omega)]

theorem enter_sequence {v : Value} {items : List Value} (sequence : v.IsSequence items)
    (segment : String) :
    v.enter segment = ofOption ((Text.readInt? segment).bind (itemAt? items)) := by
  rcases sequence with rfl | rfl <;> rfl

theorem enter_attribute {v : Value} (other : v.HasAttributes) (segment : String) :
    v.enter segment = ofOption (v.attribute? segment) := by
  cases v with
  | map | list | tuple => exact other.elim
  | _ => rfl

theorem find?_of_first {before after : Entries Value} {segment : String} {v : Value}
    (first : ∀ entry ∈ before, entry.1 ≠ .str segment) :
    Entries.find? (before ++ (.str segment, v) :: after) (.str segment) = some v := by
  have skipped : List.find? (fun entry => entry.1.isSame (.str segment)) before = none :=
    List.find?_eq_none.mpr fun entry member same =>
      first entry member (isSame_str_iff.mp same)
  unfold Entries.find?
  rw [List.find?_append, skipped, Option.none_or, List.find?_cons, isSame_self]
  rfl

theorem exists_first {entries : Entries Value} {segment : String} {v : Value}
    (found : Entries.find? entries (.str segment) = some v) :
    ∃ before after, entries = before ++ (.str segment, v) :: after ∧
      ∀ entry ∈ before, entry.1 ≠ .str segment := by
  obtain ⟨⟨key, value⟩, same, rfl⟩ := Option.map_eq_some_iff.mp found
  obtain ⟨matched, before, after, rfl, others⟩ := List.find?_eq_some_iff_append.mp same
  obtain rfl : key = .str segment := isSame_str_iff.mp matched
  refine ⟨before, after, rfl, ?_⟩
  rintro entry member here
  have other := others entry member
  rw [here, isSame_self] at other
  cases other

/-- One step leads to what the value has. -/
theorem enter_of_has {v w : Value} {segment : String} (has : v.Has segment w) :
    v.enter segment = w := by
  cases has with
  | entry first => exact congrArg ofOption (find?_of_first first)
  | item sequence spelled at_n =>
    rw [enter_sequence sequence, spelled, Option.bind_some, itemAt?_natCast, at_n]
    rfl
  | itemBack sequence spelled at_n =>
    rw [enter_sequence sequence, spelled, Option.bind_some, itemAt?_back, at_n]
    rfl
  | named other found =>
    rw [enter_attribute other, found]
    rfl

theorem has_of_position {v w : Value} {items : List Value} {segment : String}
    (sequence : v.IsSequence items)
    (found : (Text.readInt? segment).bind (itemAt? items) = some w) : v.Has segment w := by
  obtain ⟨n, spelled, at_n⟩ := Option.bind_eq_some_iff.mp found
  cases n with
  | ofNat n => exact .item sequence spelled ((itemAt?_natCast items n).symm.trans at_n)
  | negSucc n =>
    rw [Int.negSucc_eq] at spelled at_n
    exact .itemBack sequence spelled ((itemAt?_back items n).symm.trans at_n)

/-- Where the value has nothing, one step leads to null. -/
theorem enter_of_lacks {v : Value} {segment : String} (lacks : v.Lacks segment) :
    v.enter segment = .null := by
  have nothing {found : Option Value} (has : ∀ w, found = some w → v.Has segment w) :
      ofOption found = .null := by
    rw [Option.eq_none_iff_forall_ne_some.mpr fun w same => lacks w (has w same)]
    rfl
  cases v with
  | map entries =>
    refine nothing fun w found => ?_
    obtain ⟨before, after, rfl, first⟩ := exists_first found
    exact .entry first
  | list items => exact nothing fun w found => has_of_position (.inl rfl) found
  | tuple items => exact nothing fun w found => has_of_position (.inr rfl) found
  | _ => exact nothing fun w found => .named trivial found

/-! ## Walks -/

/-- The path leads from a value to another, each segment to what the value before has under it. -/
inductive Leads : Value → Path → Value → Prop where
  | stay {v : Value} : Leads v [] v
  | step {u v w : Value} {segment : String} {later : Path} (has : u.Has segment v)
      (on : Leads v later w) : Leads u (segment :: later) w

/-- Some segment of the path is missing: those in front of it lead to a value that lacks it. -/
inductive Misses : Value → Path → Prop where
  | here {v : Value} {segment : String} {later : Path} (lacks : v.Lacks segment) :
      Misses v (segment :: later)
  | later {v w : Value} {segment : String} {later : Path} (has : v.Has segment w)
      (misses : Misses w later) : Misses v (segment :: later)

theorem lookup_of_ne {path : Path} (filled : path ≠ []) (record : Value) :
    record.lookup path = path.foldl enter record :=
  if_neg fun nothing => filled (List.isEmpty_iff.mp nothing)

/-- Null has nothing under any segment. -/
theorem foldl_enter_null (path : Path) : path.foldl enter .null = .null := by
  induction path with
  | nil => rfl
  | cons segment later ih => exact ih

theorem foldl_enter_of_misses {v : Value} {path : Path} (misses : v.Misses path) :
    path.foldl enter v = .null := by
  induction misses with
  | here lacks => rw [List.foldl_cons, enter_of_lacks lacks, foldl_enter_null]
  | later has _ ih => rw [List.foldl_cons, enter_of_has has, ih]

theorem Misses.append {v : Value} {path : Path} (misses : v.Misses path) (more : Path) :
    v.Misses (path ++ more) := by
  induction misses with
  | here lacks => exact .here lacks
  | later has _ ih => exact .later has ih

/-- A lookup ends at the value that the path leads to. -/
theorem lookup_of_leads {v w : Value} {path : Path} (filled : path ≠ []) (leads : v.Leads path w) :
    v.lookup path = w := by
  rw [lookup_of_ne filled]
  clear filled
  induction leads with
  | stay => rfl
  | step has _ ih => rw [List.foldl_cons, enter_of_has has, ih]

/-- A lookup of a path of which some segment is missing gives null. -/
theorem lookup_of_misses {v : Value} {path : Path} (misses : v.Misses path) :
    v.lookup path = .null := by
  have filled : path ≠ [] := by
    rintro rfl
    cases misses
  rw [lookup_of_ne filled, foldl_enter_of_misses misses]

/-- A path leads somewhere unless some segment of it is missing. -/
theorem leads_or_misses (v : Value) (path : Path) : (∃ w, v.Leads path w) ∨ v.Misses path := by
  induction path generalizing v with
  | nil => exact .inl ⟨v, .stay⟩
  | cons segment later ih =>
    by_cases lacks : v.Lacks segment
    · exact .inr (.here lacks)
    · obtain ⟨w, has⟩ := not_forall_not.mp lacks
      rcases ih w with ⟨x, leads⟩ | misses
      · exact .inl ⟨x, .step has leads⟩
      · exact .inr (.later has misses)

/-! ## Paths of two parts -/

/-- A lookup goes on from the value that the front of the path gives. -/
theorem lookup_append {front behind : Path} (filled : front ≠ []) (filled' : behind ≠ [])
    (record : Value) :
    record.lookup (front ++ behind) = (record.lookup front).lookup behind := by
  rw [lookup_of_ne (List.append_ne_nil_of_left_ne_nil filled behind), lookup_of_ne filled,
    lookup_of_ne filled', List.foldl_append]

/-- **Dotted paths compose.** The value at a path of two dotted texts with a dot between them is the
value that the second text gives in the value that the first one gives; it is null as soon as a
segment of the first text is missing, however the second goes on. -/
theorem lookup_dotted (record : Value) {p q : String} (filled : p ≠ "") (filled' : q ≠ "") :
    record.lookup (.ofString (p ++ "." ++ q)) =
        (record.lookup (.ofString p)).lookup (.ofString q) ∧
      (record.Misses (.ofString p) → record.lookup (.ofString p) = .null ∧
        record.lookup (.ofString (p ++ "." ++ q)) = .null) := by
  rw [Path.ofString_dotted filled filled']
  refine ⟨lookup_append (Path.ofString_ne_nil filled) (Path.ofString_ne_nil filled') record,
    fun misses => ⟨lookup_of_misses misses, lookup_of_misses (misses.append _)⟩⟩

/-- A path through a mapping, a list from its end, a tuple, an object and an empty key; and one that
misses at a segment which is no number. -/
theorem lookup_dotted_of_nested :
    let record : Value := .map [(.str "items", .list [.null, .tuple [.int 7,
      .object 0 [("a", .map [(.str "", .str "deep")])]]])]
    "items. -1" ≠ "" ∧ "1.a." ≠ "" ∧ "items.two" ≠ "" ∧
      record.lookup (.ofString "items. -1.1.a.") = .str "deep" ∧
      (record.lookup (.ofString "items. -1")).lookup (.ofString "1.a.") = .str "deep" ∧
      record.Misses (.ofString "items.two") ∧
      record.lookup (.ofString "items.two.1.a.") = .null := by
  intro record
  have front : "items. -1" ≠ "" := by decide
  have behind : "1.a." ≠ "" := by decide
  have wrong : "items.two" ≠ "" := by decide
  have whole : record.lookup (.ofString "items. -1.1.a.") = .str "deep" := by cbv
  have unread : Text.readInt? "two" = none := by cbv
  have items : record.Has "items" (record.lookup ["items"]) := .entry (List.forall_mem_nil _)
  have lacks : (record.lookup ["items"]).Lacks "two" := by
    intro w has
    cases has with
    | item _ spelled => cases unread.symm.trans spelled
    | itemBack _ spelled => cases unread.symm.trans spelled
    | named other => exact other
  have misses : record.Misses (.ofString "items.two") := .later items (.here lacks)
  exact ⟨front, behind, wrong, whole, (lookup_dotted record front behind).1.symm.trans whole, misses,
    ((lookup_dotted record wrong behind).2 misses).2⟩

end Value

end RecordQuery
