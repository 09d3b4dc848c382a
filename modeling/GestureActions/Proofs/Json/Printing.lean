import GestureActions.Proofs.Json.Reading

/-! # Reading what was written

The text written for a value made of words, whole numbers and proper strings is one of its
spellings, so it is read as that value.
-/
namespace GestureActions.Json

/-- Values whose numbers are whole and whose strings and names are made of characters. -/
inductive Plain : Json → Prop
  | null : Plain null
  | bool (b : Bool) : Plain (bool b)
  | nat (n : Nat) : Plain (ofNat n)
  | text (s : String) : Plain (ofString s)
  | array {l : List Json} (h : ∀ v ∈ l, Plain v) : Plain (array l)
  | record {l : List (String × Json)} (h : ∀ m ∈ l, Plain m.2) : Plain (record l)

/-! ## Digits -/

theorem valueOf_digits (n : Nat) : Numeral.valueOf (digits n) = n := by
  induction n using digits.induct with
  | case1 n h => simp [digits, h, Numeral.valueOf]
  | case2 n h ih =>
    rw [digits, if_neg h, Numeral.valueOf, List.foldl_append, ← Numeral.valueOf, ih]
    simp only [List.foldl_cons, List.foldl_nil]
    omega

theorem digits_digits (n : Nat) : Digits (digits n) := by
  induction n using digits.induct with
  | case1 n h =>
    rw [digits, if_pos h]
    exact ⟨List.cons_ne_nil n [], by simpa using h⟩
  | case2 n h ih =>
    rw [digits, if_neg h]
    refine ⟨List.append_ne_nil_of_right_ne_nil _ (List.cons_ne_nil _ _), fun d hd => ?_⟩
    rcases List.mem_append.mp hd with hd | hd
    · exact ih.2 d hd
    · rw [List.mem_singleton.mp hd]
      exact Nat.mod_lt n (by decide)

theorem digits_of_head? {n : Nat} (h : (digits n).head? = some 0) : digits n = [0] := by
  induction n using digits.induct with
  | case1 n hn =>
    rw [digits, if_pos hn] at h ⊢
    rw [Option.some.inj h]
  | case2 n hn ih =>
    obtain ⟨d, r, hd⟩ := List.exists_cons_of_ne_nil (digits_digits (n / 10)).1
    rw [digits, if_neg hn, hd, List.cons_append] at h
    have hzero := valueOf_digits (n / 10)
    rw [ih (hd ▸ h)] at hzero
    have : n / 10 = 0 := hzero.symm
    omega

theorem numeralText_spelt (n : Nat) : NumeralSpelt ⟨false, digits n, [], none⟩ (numeralText ⟨false, digits n, [], none⟩) :=
  .mk false (digits_digits n) digits_of_head? .none .none

/-! ## Strings -/

/-- A control character written by its number is read by it. -/
theorem unit?_control : ∀ n < 32, unit? (hexChar (n / 4096 % 16)) (hexChar (n / 256 % 16)) (hexChar (n / 16 % 16))
    (hexChar (n % 16)) = some n ∧ isHigh n = false ∧ isLow n = false := by decide

/-- A character is written as one part of a string. -/
theorem charText_spelt (c : Char) :
    ∃ p, PieceSpelt p (charText c) ∧ ∀ ps gs, Makes ps gs → Makes (p :: ps) (.char c :: gs) := by
  have hletter : ∀ e, escaped? e = some c →
      ∃ p, PieceSpelt p ['\\', e] ∧ ∀ ps gs, Makes ps gs → Makes (p :: ps) (.char c :: gs) :=
    fun e he => ⟨.char c, .letter he, fun _ _ => .char⟩
  unfold charText
  iterate 7
    split
    · rename_i h
      exact hletter _ (by rw [h]; rfl)
  rename_i hq hb _ _ _ _ _
  split
  · rename_i hc
    have hlt : c.toNat < 32 := hc
    obtain ⟨hunit, hhigh, hlow⟩ := unit?_control c.toNat hlt
    refine ⟨.unit c.toNat, .number hunit, fun _ _ h => ?_⟩
    have hm := Makes.unit hhigh hlow h
    rwa [Char.ofNat_toNat] at hm
  · rename_i hc
    exact ⟨.char c, .plain hq hb hc, fun _ _ => .char⟩

theorem quotedText_spelt (s : String) : StringSpelt (glyphs s) (quotedText (glyphs s)) := by
  have hparts : ∀ cs : List Char, ∃ parts : List (Piece × List Char), (∀ p ∈ parts, PieceSpelt p.1 p.2) ∧
      parts.flatMap (·.2) = (cs.map Glyph.char).flatMap glyphText ∧ Makes (parts.map (·.1)) (cs.map Glyph.char) := by
    intro cs
    induction cs with
    | nil => exact ⟨[], nofun, rfl, .nil⟩
    | cons c r ih =>
      obtain ⟨parts, hp, ht, hm⟩ := ih
      obtain ⟨p, hc, hmake⟩ := charText_spelt c
      refine ⟨(p, charText c) :: parts, List.forall_mem_cons.mpr ⟨hc, hp⟩, ?_, hmake _ _ hm⟩
      rw [List.flatMap_cons, ht, List.map_cons, List.flatMap_cons, glyphText]
  obtain ⟨parts, hp, ht, hm⟩ := hparts s.toList
  have h := StringSpelt.mk parts hp hm
  rwa [ht] at h

/-! ## Values -/

/-- An item written without blanks. -/
def Item.tight (j : Json) : Item := ⟨[], j, j.chars, []⟩

def Member.tight (m : String × Json) : Member := ⟨[], glyphs m.1, quotedText (glyphs m.1), [], .tight m.2⟩

theorem itemChars_eq (v : Json) (l : List Json) :
    v.chars ++ itemChars l = commaed (((v :: l).map Item.tight).map Item.text) ++ [']'] := by
  induction l generalizing v with
  | nil => simp [itemChars, commaed_singleton, Item.text, Item.tight]
  | cons w l ih =>
    rw [itemChars, List.cons_append, ih w]
    simp [commaed_cons_cons, Item.text, Item.tight]

theorem memberChars_eq (m : String × Json) (l : List (String × Json)) :
    quotedText (glyphs m.1) ++ ':' :: m.2.chars ++ memberChars (l.map fun m => (glyphs m.1, m.2)) =
      commaed (((m :: l).map Member.tight).map Member.text) ++ ['}'] := by
  induction l generalizing m with
  | nil => simp [memberChars, commaed_singleton, Member.text, Member.tight, Item.text, Item.tight]
  | cons k l ih =>
    rw [List.map_cons, memberChars]
    simpa [commaed_cons_cons, Member.text, Member.tight, Item.text, Item.tight] using ih k

theorem blank_nil : Blank [] := nofun

theorem Plain.spelt {j : Json} (h : Plain j) : j.SpeltAs j.chars := by
  induction h with
  | null => exact .null
  | bool b =>
    cases b with
    | true => exact .isTrue
    | false => exact .isFalse
  | nat n => exact .number (numeralText_spelt n)
  | text s => exact .string (quotedText_spelt s)
  | @array l h ih =>
    cases l with
    | nil => exact .noItems blank_nil
    | cons v r =>
      have hs := SpeltAs.items (l := (v :: r).map Item.tight) (List.cons_ne_nil _ _)
        (List.forall_mem_map.mpr fun _ _ => ⟨blank_nil, blank_nil⟩) (List.forall_mem_map.mpr ih)
      rwa [List.cons_append, ← itemChars_eq, List.map_map, show (·.value) ∘ Item.tight = id from rfl, List.map_id] at hs
  | @record l h ih =>
    cases l with
    | nil => exact .noMembers blank_nil
    | cons m r =>
      have hs := SpeltAs.members (l := (m :: r).map Member.tight) (List.cons_ne_nil _ _)
        (List.forall_mem_map.mpr fun _ _ => ⟨blank_nil, blank_nil⟩)
        (List.forall_mem_map.mpr fun m _ => quotedText_spelt m.1)
        (List.forall_mem_map.mpr fun _ _ => ⟨blank_nil, blank_nil⟩) (List.forall_mem_map.mpr ih)
      rwa [List.cons_append, ← memberChars_eq, List.map_map] at hs

/-- What was written is read again. -/
theorem spells_text {j : Json} (h : Plain j) : Spells j.text j :=
  ⟨.tight j, by simp [text, Item.text, Item.tight], rfl, blank_nil, blank_nil, h.spelt⟩

end GestureActions.Json
