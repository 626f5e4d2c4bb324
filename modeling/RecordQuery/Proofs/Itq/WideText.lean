import Mathlib
import RecordQuery.Proofs.Itq.Escaping
import RecordQuery.Proofs.Itq.Lexing.Tiling

/-!
# Wide characters in string literals

The characters beyond code point 255 that stand between the quotes of a literal are read as escapes,
together with the escapes that are written there. No escape reaches into one of them
(`escape_reach`), so each survives in the text of the literal, in order; but behind the backslash of
an escape it is its own escape that survives, letter by letter (`trace_sublist`).
-/

namespace RecordQuery.Itq.StringLiteral

open Text

/-- A character beyond code point 255. -/
def isWide (c : Char) : Bool := 0xFF < c.toNat

/-- What the wide characters of a body leave: a plain one itself, and an escaped one its escape by
its code point. -/
def trace : List Char → List Char
  | [] => []
  | '\\' :: c :: cs => (if isWide c then codeEscape c.toNat else []) ++ trace cs
  | c :: cs => (if isWide c then [c] else []) ++ trace cs

/-- Whether some escape of a body is that of a wide character. -/
def escapesWide : List Char → Bool
  | [] => false
  | '\\' :: c :: cs => isWide c || escapesWide cs
  | _ :: cs => escapesWide cs

variable {c : Char} {cs body units' : List Char}

theorem trace_plain (plain : c ≠ '\\') (cs : List Char) :
    trace (c :: cs) = (if isWide c then [c] else []) ++ trace cs := by
  rw [trace]
  exact fun _ _ same _ => plain same

theorem escapesWide_plain (plain : c ≠ '\\') (cs : List Char) :
    escapesWide (c :: cs) = escapesWide cs := by
  rw [escapesWide]
  exact fun _ _ same _ => plain same

/-- Where no escape is that of a wide character, the wide characters leave themselves. -/
theorem trace_eq_filter (closed : IsLiteralBody body) (narrow : escapesWide body = false) :
    trace body = body.filter isWide := by
  induction closed with
  | nil => rfl
  | @escape c cs _ _ ih =>
    obtain ⟨first, later⟩ := Bool.or_eq_false_iff.mp narrow
    have backslash : isWide '\\' = false := by decide
    rw [trace, ih later, List.filter_cons, List.filter_cons, first, backslash]
    rfl
  | @plain c cs _ noBackslash _ ih =>
    rw [escapesWide_plain noBackslash] at narrow
    rw [trace_plain noBackslash, ih narrow, List.filter_cons]
    split <;> rfl

/-! ## How far an escape reaches -/

section

theorem ne_backslash_of_hexValue? (digit : (hexValue? c).isSome = true) : c ≠ '\\' := by
  rintro rfl
  exact absurd digit (by decide)

theorem ne_backslash_of_isOctal (digit : isOctal c = true) : c ≠ '\\' := by
  rintro rfl
  exact absurd digit (by decide)

theorem hexEscape_reach {count length : Nat} {fault : EscapeFault} {out : List CodePoint}
    (read : hexEscape count fault units' = .ok (out, length)) :
    length = count + 1 ∧ ∀ d ∈ units'.take count, d ≠ '\\' := by
  unfold hexEscape at read
  dsimp only at read
  split at read
  · cases read
  · rename_i enough
    split at read
    · cases read
      refine ⟨rfl, fun d member => ne_backslash_of_hexValue? ?_⟩
      have most : ((units'.take count).map hexValue?).length ≤ count := by
        rw [List.length_map]
        exact List.length_take_le count units'
      have all := (List.takeWhile_prefix Option.isSome).eq_of_length_le
        (most.trans (Nat.le_of_not_lt enough))
      exact List.takeWhile_eq_self_iff.mp all _ (List.mem_map_of_mem member)
    · cases read

theorem octalEscape_reach {length : Nat} {out : List CodePoint} (digit : isOctal c = true)
    (read : octalEscape (c :: units') = .ok (out, length)) :
    ∃ more, length = more + 1 ∧ ∀ d ∈ units'.take more, d ≠ '\\' := by
  cases read
  refine ⟨((units'.take 2).takeWhile isOctal).length, ?_, fun d member => ?_⟩
  · rw [List.take_succ_cons, List.takeWhile_cons_of_pos digit, List.length_cons]
  · have front := (List.takeWhile_prefix isOctal).trans (List.take_prefix 2 units')
    rw [← List.prefix_iff_eq_take.mp front] at member
    exact ne_backslash_of_isOctal (List.mem_takeWhile_imp member)

variable [CharacterNames]

theorem nameEscape_reach {length : Nat} {out : List CodePoint}
    (read : nameEscape units' = .ok (out, length)) :
    ∃ more, length = more + 1 ∧ ∀ d ∈ units'.take more, d ≠ '\\' := by
  unfold nameEscape at read
  split at read
  · rename_i named
    dsimp only at read
    split at read
    · cases read
    split at read
    · cases read
    split at read
    · rename_i c found
      cases read
      obtain ⟨name, after, rfl, inside, ends⟩ := exists_stretch (· != '\x7d') named
      rw [takeWhile_append_of_ends inside ends] at found ⊢
      refine ⟨name.length + 2, rfl, fun d member => ?_⟩
      rw [List.take_succ_cons, List.take_length_add_append] at member
      rcases List.mem_cons.mp member with rfl | member
      · decide
      rcases List.mem_append.mp member with inName | closing
      · rintro rfl
        exact CharacterNames.noBackslash name c found inName
      · cases after with
        | nil => cases closing
        | cons e after =>
          obtain rfl := List.mem_singleton.mp closing
          have brace : d = '\x7d' := by simpa using ends d rfl
          rw [brace]
          decide
    · cases read
  · cases read

/-- An escape ends in front of the next backslash. -/
theorem escape_reach {length : Nat} {out : List CodePoint}
    (read : escape (c :: units') = .ok (out, length)) :
    ∃ more, length = more + 1 ∧ ∀ d ∈ units'.take more, d ≠ '\\' := by
  have short : ∃ more, 1 = more + 1 ∧ ∀ d ∈ units'.take more, d ≠ '\\' :=
    ⟨0, rfl, List.forall_mem_nil _⟩
  unfold escape at read
  dsimp only at read
  split at read
  case h_12 | h_13 | h_14 => exact ⟨_, hexEscape_reach read⟩
  case h_15 => exact nameEscape_reach read
  case h_16 =>
    split at read
    · exact octalEscape_reach ‹_› read
    · cases read
      exact short
  all_goals
    cases read
    exact short

end

/-! ## What survives -/

theorem units_cons_narrow (narrow : isWide c = false) (cs : List Char) :
    units (c :: cs) = c :: units cs := by
  unfold units
  rw [List.flatMap_cons, if_pos (Nat.le_of_not_lt (of_decide_eq_false narrow))]
  rfl

/-- The escape of a wide character is a backslash and plain characters. -/
theorem codeEscape_eq (wide : isWide c = true) :
    ∃ letters, codeEscape c.toNat = '\\' :: letters ∧ ∀ d ∈ letters, d ≠ '\\' := by
  have digits (width : Nat) : ∀ d ∈ hexDigits width c.toNat, d ≠ '\\' := by
    intro d member
    obtain ⟨values, values_eq, -⟩ := exists_values_hexDigits width c.toNat
    have valued : hexValue? d ∈ values.map some := values_eq ▸ List.mem_map_of_mem member
    obtain ⟨value, -, same⟩ := List.mem_map.mp valued
    exact ne_backslash_of_hexValue? (by rw [← same]; rfl)
  unfold codeEscape
  rw [if_neg (Nat.not_le.mpr (of_decide_eq_true wide))]
  split
  · exact ⟨_, rfl, List.forall_mem_cons.mpr ⟨by decide, digits 4⟩⟩
  · exact ⟨_, rfl, List.forall_mem_cons.mpr ⟨by decide, digits 8⟩⟩

theorem units_cons_wide (wide : isWide c = true) (cs : List Char) :
    units (c :: cs) = codeEscape c.toNat ++ units cs := by
  unfold units
  rw [List.flatMap_cons, if_neg (Nat.not_le.mpr (of_decide_eq_true wide))]

variable [CharacterNames] {out : List CodePoint}

theorem standFor_letters (letters : List Char) (plain : ∀ d ∈ letters, d ≠ '\\') :
    StandFor letters (letters.map CodePoint.ofChar) := by
  induction letters with
  | nil => exact fun _ _ => (congrFun Except.map_id _).symm
  | cons d letters ih =>
    obtain ⟨first, later⟩ := List.forall_mem_cons.mp plain
    exact (standFor_plain first).append (ih later)

/-- The escape of a wide character, when its backslash is escaped, stands for itself. -/
theorem standFor_escapedWide (wide : isWide c = true) :
    StandFor ('\\' :: codeEscape c.toNat) ((codeEscape c.toNat).map CodePoint.ofChar) := by
  obtain ⟨letters, escape_eq, plain⟩ := codeEscape_eq wide
  rw [escape_eq]
  have backslash : StandFor ['\\', '\\'] [.ofChar '\\'] := standFor_escape fun _ => rfl
  exact backslash.append (standFor_letters letters plain)

theorem StandFor.ok {front after : List Char} {codes : List CodePoint} {position : Nat}
    (stands : StandFor front out) (read : decodeUnits 0 position (front ++ after) = .ok codes) :
    ∃ position more, decodeUnits 0 position after = .ok more ∧ codes = out ++ more := by
  rw [stands] at read
  cases later : decodeUnits 0 (position + front.length) after with
  | error fault =>
    rw [later] at read
    cases read
  | ok more =>
    rw [later] at read
    cases read
    exact ⟨_, more, later, rfl⟩

/-- What the wide characters of a body leave stands in its text, in order. The units that are
skipped belong to an escape before the body. -/
theorem trace_sublist (closed : IsLiteralBody body) {skip position : Nat}
    (reach : ∀ d ∈ (units body).take skip, d ≠ '\\')
    (read : decodeUnits skip position (units body) = .ok out) :
    List.Sublist ((trace body).map CodePoint.ofChar) out := by
  induction closed generalizing skip position out with
  | nil => exact List.nil_sublist _
  | @plain c body noQuote noBackslash _ ih =>
    rw [trace_plain noBackslash, List.map_append]
    cases skip with
    | zero =>
      have split : units (c :: body) = units [c] ++ units body := units_append [c] body
      rw [split] at read
      obtain ⟨position, more, later, rfl⟩ := (standFor_units_singleton noBackslash).ok read
      refine List.Sublist.append ?_ (ih (List.forall_mem_nil _) later)
      split
      · exact List.Sublist.refl _
      · exact List.nil_sublist _
    | succ skip =>
      -- The escape of a wide character begins with a backslash, so none is skipped.
      cases wide : isWide c with
      | true =>
        obtain ⟨letters, escape_eq, -⟩ := codeEscape_eq wide
        rw [units_cons_wide wide, escape_eq] at reach
        exact absurd rfl (reach '\\' List.mem_cons_self)
      | false =>
        rw [units_cons_narrow wide] at reach read
        exact ih (fun d member => reach d (List.mem_cons_of_mem c member)) read
  | @escape c body inLine _ ih =>
    rw [units_cons_narrow (by decide)] at reach read
    cases skip with
    | succ skip => exact absurd rfl (reach '\\' List.mem_cons_self)
    | zero =>
      rw [trace, List.map_append]
      cases wide : isWide c with
      | true =>
        rw [units_cons_wide wide, ← List.cons_append] at read
        obtain ⟨position, more, later, rfl⟩ := (standFor_escapedWide wide).ok read
        exact List.Sublist.append (List.Sublist.refl _) (ih (List.forall_mem_nil _) later)
      | false =>
        rw [units_cons_narrow wide, decodeUnits_backslash] at read
        cases told : escape (c :: units body) with
        | error fault =>
          rw [told] at read
          cases read
        | ok result =>
          obtain ⟨own, length⟩ := result
          rw [told] at read
          dsimp only at read
          obtain ⟨more, rfl, ends⟩ := escape_reach told
          have skipped : decodeUnits (more + 1) (position + 1) (c :: units body) =
              decodeUnits more (position + 1 + 1) (units body) := rfl
          rw [skipped] at read
          cases later : decodeUnits more (position + 1 + 1) (units body) with
          | error fault =>
            rw [later] at read
            cases read
          | ok text =>
            rw [later] at read
            cases read
            exact (ih ends later).trans (List.sublist_append_right own text)

theorem decode_eq_ok {s : CodeText} :
    decode body = .ok s ↔ decodeUnits 0 0 (units body) = .ok s.codes := by
  unfold decode
  cases decodeUnits 0 0 (units body) with
  | error fault => exact iff_of_false nofun nofun
  | ok codes => exact ⟨fun same => congrArg _ (congrArg CodeText.codes (Except.ok.inj same)),
      fun same => congrArg _ (congrArg CodeText.mk (Except.ok.inj same))⟩

end StringLiteral

/-! ## Texts -/

namespace Tokenization

open StringLiteral

/-- **The wide characters between the quotes of a literal survive in its text**, in order, each as
itself, or as its escape if it stands behind the backslash of an escape. So the text has all of them
unless an escape is that of a wide character. -/
theorem string_keeps_wide [CharacterNames] (text : String) :
    ∀ placed ∈ (ofText text).tokens, ∀ s, placed.token = .string s →
      ∃ body after, text.toList.drop placed.position = literal body ++ after ∧
        IsLiteralBody body ∧ List.Sublist ((trace body).map CodePoint.ofChar) s.codes ∧
        (escapesWide body = false →
          List.Sublist ((body.filter isWide).map CodePoint.ofChar) s.codes) := by
  intro placed member s string
  obtain ⟨before, rest, scans, -⟩ := exists_scans text
  have place := mem_places member
  rw [string] at place
  obtain ⟨lexeme, after, split, spells⟩ := scans.tiling.spells place
  cases spells with
  | @string body s closed decodes =>
    have survives : List.Sublist ((trace body).map CodePoint.ofChar) s.codes :=
      trace_sublist closed (List.forall_mem_nil _) (decode_eq_ok.mp decodes)
    exact ⟨body, after, split, closed, survives,
      fun narrow => trace_eq_filter closed narrow ▸ survives⟩

open scoped CharacterNames

/-- Wide characters behind a character by its name, an escaped quote and half of a surrogate pair. -/
theorem string_keeps_wide_of_escapes :
    let text := "\"\\N\x7bBullet\x7d\\\"\u20ac\\ud800\u6771\""
    ∃ s, (ofText text).tokens = [⟨.string s, 1, 0⟩] ∧
      s.codes.map CodePoint.number = [0x2022, 0x22, 0x20ac, 0xd800, 0x6771] ∧
      List.Sublist (['\u20ac', '\u6771'].map CodePoint.ofChar) s.codes := by
  intro text
  obtain ⟨s, read, codes⟩ : ∃ s, (ofText text).tokens = [⟨.string s, 1, 0⟩] ∧
      s.codes.map CodePoint.number = [0x2022, 0x22, 0x20ac, 0xd800, 0x6771] :=
    ⟨⟨[.ofChar '\u2022', .ofChar '"', .ofChar '\u20ac', ⟨0xd800, by decide⟩, .ofChar '\u6771']⟩,
      by cbv, rfl⟩
  refine ⟨s, read, codes, ?_⟩
  obtain ⟨body, after, split, closed, -, keeps⟩ :=
    string_keeps_wide text _ (by rw [read]; exact List.mem_cons_self) _ rfl
  have found := Piece.stringBody?_append closed after
  rw [List.drop_zero, Piece.literal_append] at split
  have behind : text.toList.tail = body ++ '"' :: after := congrArg List.tail split
  have taken : Piece.stringBody? text.toList.tail =
      some "\\N\x7bBullet\x7d\\\"\u20ac\\ud800\u6771".toList := by
    decide
  rw [← behind, taken, Option.some_inj] at found
  subst found
  exact keeps (by decide)

/-- A wide character behind a backslash is lost: the text has its escape in its place. -/
theorem string_misses_escaped_wide :
    (ofText "\"\\\u20ac\"").tokens = [⟨.string "\\u20ac", 1, 0⟩] ∧
      "\"\\\u20ac\"".toList = literal ['\\', '\u20ac'] ∧
      IsLiteralBody ['\\', '\u20ac'] ∧
      ¬ List.Sublist ((['\\', '\u20ac'].filter isWide).map CodePoint.ofChar)
        (CodeText.ofString "\\u20ac").codes := by
  refine ⟨by cbv, rfl, .escape (by decide) .nil, ?_⟩
  decide

end Tokenization

end RecordQuery.Itq
