import GestureActions.Proofs.Json.Reading
import Mathlib.Data.List.TakeWhile

/-! # What is read has been spelt

Whatever a reader takes off the front of a text, the grammar spells there. So a text is read as
a value exactly when it spells that value.
-/
namespace GestureActions.Json

/-! ## Blanks and digits -/

theorem skip_spec (cs : List Char) : ∃ w, Blank w ∧ cs = w ++ skip cs := by
  refine ⟨cs.takeWhile isSpace, fun c hc => ?_, List.takeWhile_append_dropWhile.symm⟩
  have hspace := List.mem_takeWhile_imp hc
  simpa [isSpace, or_assoc] using hspace

theorem digit_of_isDigit {c : Char} (h : isDigit c = true) : digitOf c < 10 ∧ Nat.digitChar (digitOf c) = c := by
  have hbounds : 48 ≤ c.toNat ∧ c.toNat < 58 := by
    simp only [isDigit, Bool.and_eq_true, decide_eq_true_eq, Char.le_def, UInt32.le_iff_toNat_le] at h
    exact ⟨h.1, Nat.lt_succ_of_le h.2⟩
  have hdigit : ∀ n < 58, 48 ≤ n → n - 48 < 10 ∧ Nat.digitChar (n - 48) = Char.ofNat n := by decide
  have hc := hdigit c.toNat hbounds.2 hbounds.1
  rwa [Char.ofNat_toNat] at hc

theorem run_spec {cs rest : List Char} {l : List Nat} (h : run cs = (l, rest)) :
    cs = digitText l ++ rest ∧ ∀ d ∈ l, d < 10 := by
  obtain ⟨rfl, rfl⟩ := Prod.mk.inj h
  have hdigit := fun c hc => digit_of_isDigit (List.mem_takeWhile_imp (l := cs) (p := isDigit) (x := c) hc)
  constructor
  · have hself : ∀ c ∈ cs.takeWhile isDigit, (Nat.digitChar ∘ digitOf) c = id c := fun c hc => (hdigit c hc).2
    rw [digitText, List.map_map, List.map_congr_left hself, List.map_id, List.takeWhile_append_dropWhile]
  · exact List.forall_mem_map.mpr fun c hc => (hdigit c hc).1

/-! ## Numerals -/

theorem whole?_spec {cs rest : List Char} {l : List Nat} (h : whole? cs = some (l, rest)) :
    cs = digitText l ++ rest ∧ Digits l ∧ (l.head? = some 0 → l = [0]) := by
  rw [whole?] at h
  split at h
  · cases h
  · rename_i d r rest' hrun
    obtain ⟨hcs, hlt⟩ := run_spec hrun
    split at h
    · cases h
    · rename_i hz
      cases h
      refine ⟨hcs, ⟨List.cons_ne_nil d r, hlt⟩, fun hd => ?_⟩
      obtain rfl : d = 0 := Option.some.inj hd
      simpa using hz

theorem fraction?_spec {cs rest : List Char} {l : List Nat} (h : fraction? cs = some (l, rest)) :
    ∃ fs, cs = fs ++ rest ∧ FractionSpelt l fs := by
  unfold fraction? at h
  split at h
  · split at h
    · cases h
    · rename_i hne hrun
      cases h
      obtain ⟨rfl, hlt⟩ := run_spec hrun
      exact ⟨_, rfl, .point ⟨hne, hlt⟩⟩
  · cases h
    exact ⟨[], rfl, .none⟩

theorem sign_spec (cs : List Char) :
    sign cs = (false, cs) ∨ ∃ r negative, cs = (if negative then '-' else '+') :: r ∧ sign cs = (negative, r) := by
  unfold sign
  split
  · exact .inr ⟨_, true, rfl, rfl⟩
  · exact .inr ⟨_, false, rfl, rfl⟩
  · exact .inl rfl

theorem power?_spec {cs rest : List Char} {p : Option TenPower} (h : power? cs = some (p, rest)) :
    ∃ ps, cs = ps ++ rest ∧ PowerSpelt p ps := by
  cases cs with
  | nil =>
    cases h
    exact ⟨[], rfl, .none⟩
  | cons e r =>
    rw [power?] at h
    split at h
    · rename_i he
      have he : e = 'e' ∨ e = 'E' := by simpa using he
      dsimp only at h
      split at h
      · cases h
      · rename_i l rest' hne hrun
        cases h
        obtain ⟨hr, hlt⟩ := run_spec hrun
        rcases sign_spec r with hs | ⟨r', negative, rfl, hs⟩
        · rw [hs] at hr ⊢
          exact ⟨_, congrArg (e :: ·) hr, .unsigned he ⟨hne, hlt⟩⟩
        · rw [hs] at hr ⊢
          obtain rfl := hr
          exact ⟨_, rfl, .signed negative he ⟨hne, hlt⟩⟩
    · cases h
      exact ⟨[], rfl, .none⟩

theorem minus_spec (cs : List Char) : cs = (if (minus cs).1 then ['-'] else []) ++ (minus cs).2 := by
  unfold minus
  split <;> rfl

theorem numeral?_spec {cs rest : List Char} {n : Numeral} (h : numeral? cs = some (n, rest)) :
    ∃ ns, cs = ns ++ rest ∧ NumeralSpelt n ns := by
  rw [numeral?] at h
  obtain ⟨⟨w, cs₁⟩, hwhole, h⟩ := Option.bind_eq_some_iff.mp h
  obtain ⟨⟨f, cs₂⟩, hfraction, h⟩ := Option.bind_eq_some_iff.mp h
  obtain ⟨⟨p, cs₃⟩, hpower, h⟩ := Option.bind_eq_some_iff.mp h
  obtain ⟨rfl, rfl⟩ := Prod.mk.inj (Option.some.inj h)
  obtain ⟨hw, hdigits, hzero⟩ := whole?_spec hwhole
  obtain ⟨fs, hfs, hf⟩ := fraction?_spec hfraction
  obtain ⟨ps, hps, hp⟩ := power?_spec hpower
  refine ⟨_, ?_, .mk (minus cs).1 hdigits hzero hf hp⟩
  rw [List.append_assoc, List.append_assoc, List.append_assoc, ← hps, ← hfs, ← hw]
  exact minus_spec cs

/-! ## Strings -/

/-- A string ends at its quote, or one part of it is read before the others. -/
theorem pieces?_cases {cs rest : List Char} {ps : List Piece} (h : pieces? cs = some (ps, rest)) :
    cs = '"' :: rest ∧ ps = [] ∨
      ∃ p w r l, PieceSpelt p w ∧ cs = w ++ r ∧ pieces? r = some (l, rest) ∧ ps = p :: l := by
  rw [pieces?.eq_def] at h
  split at h
  · cases h
  rename_i c r
  split at h
  · rename_i hc
    cases h
    exact .inl ⟨hc ▸ rfl, rfl⟩
  right
  split at h
  · rename_i hb
    subst hb
    split at h
    · cases h
    rename_i e s
    split at h
    · rename_i hu
      subst hu
      split at h
      · split at h
        · rename_i hunit hrest
          cases h
          exact ⟨_, _, _, _, .number hunit, rfl, hrest, rfl⟩
        · cases h
      · cases h
    · split at h
      · rename_i hletter hrest
        cases h
        exact ⟨_, _, _, _, .letter hletter, rfl, hrest, rfl⟩
      · cases h
  · rename_i hq hb
    split at h
    · cases h
    · rename_i hc
      split at h
      · rename_i hrest
        cases h
        exact ⟨_, _, _, _, .plain hq hb hc, rfl, hrest, rfl⟩
      · cases h

theorem pieces?_spec {cs rest : List Char} {ps : List Piece} (h : pieces? cs = some (ps, rest)) :
    ∃ parts : List (Piece × List Char), cs = parts.flatMap (·.2) ++ '"' :: rest ∧ parts.map (·.1) = ps ∧
      ∀ p ∈ parts, PieceSpelt p.1 p.2 := by
  induction ps generalizing cs with
  | nil =>
    rcases pieces?_cases h with ⟨rfl, _⟩ | ⟨_, _, _, _, _, _, _, hl⟩
    · exact ⟨[], rfl, rfl, nofun⟩
    · cases hl
  | cons p ps ih =>
    rcases pieces?_cases h with ⟨_, hl⟩ | ⟨q, w, r, l, hq, rfl, hr, hl⟩
    · cases hl
    · cases hl
      obtain ⟨parts, rfl, hmap, hparts⟩ := ih hr
      exact ⟨(p, w) :: parts, by rw [List.flatMap_cons, List.append_assoc], by rw [List.map_cons, hmap],
        List.forall_mem_cons.mpr ⟨hq, hparts⟩⟩

/-- A low surrogate in front of a string is a part of its own. -/
theorem Makes.of_low {ps : List Piece} {m : Nat} {gs : List Glyph} (h : Makes ps (.lone m :: gs)) (hm : isLow m = true) :
    ∃ r, ps = .unit m :: r ∧ Makes r gs := by
  cases h with
  | low _ h => exact ⟨_, rfl, h⟩
  | high hn _ h =>
    rw [isLow_of_isHigh hn] at hm
    cases hm

theorem joined_of_low {ps : List Piece} {m : Nat} (h : ps.head? = some (.unit m)) (hm : isLow m = true) :
    ∃ gs, joined ps = .lone m :: gs := by
  obtain ⟨r, rfl⟩ := List.head?_eq_some_iff.mp h
  refine ⟨joined r, ?_⟩
  rw [joined, List.foldr_cons, ← joined]
  simp [join, hm, isHigh_of_isLow hm]

theorem makes_joined (ps : List Piece) : Makes ps (joined ps) := by
  induction ps with
  | nil => exact .nil
  | cons p r ih =>
    rw [joined, List.foldr_cons, ← joined]
    cases p with
    | char c => exact .char ih
    | unit n =>
      -- a high surrogate stays alone unless the string after it begins with a low one
      have hhigh : isHigh n = true → (∀ m gs, joined r = .lone m :: gs → isLow m = false) →
          Makes (.unit n :: r) (.lone n :: joined r) := by
        refine fun hn halone => .high hn (fun m hm => ?_) ih
        cases hlow : isLow m with
        | false => rfl
        | true =>
          obtain ⟨gs, hgs⟩ := joined_of_low hm hlow
          rw [← hlow, halone m gs hgs]
      unfold join
      dsimp only
      split
      · rename_i hn
        split
        · rename_i m gs hgs
          split
          · rename_i hm
            obtain ⟨r, rfl, hr⟩ := Makes.of_low (hgs ▸ ih) hm
            exact .pair hn hm hr
          · rename_i hm
            refine hhigh hn fun k ks hks => ?_
            rw [hgs] at hks
            rw [← Glyph.lone.inj (List.cons.inj hks).1]
            exact Bool.eq_false_iff.mpr hm
        · rename_i hgs
          exact hhigh hn fun m gs h => absurd h (hgs m gs)
      · rename_i hn
        split
        · rename_i hm
          exact .low hm ih
        · rename_i hm
          exact .unit (Bool.eq_false_iff.mpr hn) (Bool.eq_false_iff.mpr hm) ih

theorem quoted?_spec {cs rest : List Char} {s : List Glyph} (h : quoted? cs = some (s, rest)) :
    ∃ q, '"' :: cs = q ++ rest ∧ StringSpelt s q := by
  obtain ⟨⟨ps, r⟩, hp, h⟩ := Option.map_eq_some_iff.mp h
  obtain ⟨rfl, rfl⟩ := Prod.mk.inj h
  obtain ⟨parts, rfl, rfl, hparts⟩ := pieces?_spec hp
  exact ⟨_, by simp, .mk parts hparts (makes_joined _)⟩

/-! ## Values -/

/-- A text begins with blanks and what spells a value, and goes on with a rest. -/
def ValueBefore (rest : List Char) (j : Json) (cs : List Char) : Prop :=
  ∃ w body, cs = w ++ body ++ rest ∧ Blank w ∧ j.SpeltAs body

/-- A text begins with what spells the items of an array that is not empty, closing bracket included. -/
def ItemsBefore (rest : List Char) (l : List Json) (cs : List Char) : Prop :=
  ∃ is : List Item, is ≠ [] ∧ is.map (·.value) = l ∧ (∀ i ∈ is, i.Framed SpeltAs) ∧
    cs = commaed (is.map Item.text) ++ ']' :: rest

def MembersBefore (rest : List Char) (l : List (List Glyph × Json)) (cs : List Char) : Prop :=
  ∃ ms : List Member, ms ≠ [] ∧ (ms.map fun m => (m.name, m.item.value)) = l ∧ (∀ m ∈ ms, m.Framed SpeltAs) ∧
    cs = commaed (ms.map Member.text) ++ '}' :: rest

/-- What the readers of nested values take in a number of steps has been spelt. -/
structure Sound (n : Nat) : Prop where
  value : ∀ {cs rest j}, value? n cs = some (j, rest) → ValueBefore rest j cs
  items : ∀ {cs rest l}, items? n cs = some (l, rest) → ItemsBefore rest l cs
  members : ∀ {cs rest l}, members? n cs = some (l, rest) → MembersBefore rest l cs

theorem SpeltAs.of_items {is : List Item} (hne : is ≠ []) (h : ∀ i ∈ is, i.Framed SpeltAs) :
    SpeltAs (array (is.map (·.value))) ('[' :: commaed (is.map Item.text) ++ [']']) :=
  .items hne (fun i hi => ⟨(h i hi).before, (h i hi).after⟩) fun i hi => (h i hi).body

theorem SpeltAs.of_members {ms : List Member} (hne : ms ≠ []) (h : ∀ m ∈ ms, m.Framed SpeltAs) :
    SpeltAs (object (ms.map fun m => (m.name, m.item.value))) ('{' :: commaed (ms.map Member.text) ++ ['}']) :=
  .members hne (fun m hm => ⟨(h m hm).before, (h m hm).after⟩) (fun m hm => (h m hm).quoted)
    (fun m hm => ⟨(h m hm).item.before, (h m hm).item.after⟩) fun m hm => (h m hm).item.body

theorem commaed_cons_of_ne {cs : List Char} {r : List (List Char)} (h : r ≠ []) :
    commaed (cs :: r) = cs ++ ',' :: commaed r := by
  obtain ⟨ds, r, rfl⟩ := List.exists_cons_of_ne_nil h
  exact commaed_cons_cons cs ds r

theorem word?_spec {w cs rest : List Char} {v j : Json} (h : word? w v cs = some (j, rest)) : cs = w ++ rest ∧ j = v := by
  rw [word?] at h
  split at h
  · rename_i hw
    obtain ⟨t, rfl⟩ := List.isPrefixOf_iff_prefix.mp hw
    rw [List.drop_left] at h
    cases h
    exact ⟨rfl, rfl⟩
  · cases h

namespace Sound

variable {n : Nat} {cs rest : List Char}

/-- A value and the blanks up to what comes after it. -/
theorem item (h : Sound n) {r s : List Char} {c : Char} {v : Json} (hv : value? n cs = some (v, r))
    (hs : skip r = c :: s) : ∃ i : Item, i.Framed SpeltAs ∧ i.value = v ∧ cs = i.text ++ c :: s := by
  obtain ⟨w, body, rfl, hw, hbody⟩ := h.value hv
  obtain ⟨t, ht, hr⟩ := skip_spec r
  refine ⟨⟨w, v, body, t⟩, ⟨hw, hbody, ht⟩, rfl, ?_⟩
  rw [hr, hs, Item.text]
  simp

theorem succ_items (h : Sound n) {l : List Json} (hl : items? (n + 1) cs = some (l, rest)) : ItemsBefore rest l cs := by
  rw [items?] at hl
  split at hl
  · cases hl
  rename_i v r hv
  split at hl
  · rename_i s hs
    obtain ⟨i, hi, rfl, rfl⟩ := h.item hv hs
    obtain ⟨⟨l, rest⟩, hrest, hl⟩ := Option.map_eq_some_iff.mp hl
    cases hl
    obtain ⟨is, hne, rfl, his, rfl⟩ := h.items hrest
    refine ⟨i :: is, List.cons_ne_nil i is, rfl, List.forall_mem_cons.mpr ⟨hi, his⟩, ?_⟩
    rw [List.map_cons, commaed_cons_of_ne (mt List.map_eq_nil_iff.mp hne), List.append_assoc, List.cons_append]
  · rename_i s hs
    obtain ⟨i, hi, rfl, rfl⟩ := h.item hv hs
    cases hl
    refine ⟨[i], List.cons_ne_nil i [], rfl, List.forall_mem_singleton.mpr hi, ?_⟩
    rw [List.map_singleton, commaed_singleton]
  · cases hl

/-- The first member is read up to the blanks after its value. -/
theorem member (h : Sound n) {l : List (List Glyph × Json)} (hl : members? (n + 1) cs = some (l, rest)) :
    ∃ m : Member, m.Framed SpeltAs ∧
      ((∃ s k, cs = m.text ++ ',' :: s ∧ members? n s = some (k, rest) ∧ l = (m.name, m.item.value) :: k) ∨
        cs = m.text ++ '}' :: rest ∧ l = [(m.name, m.item.value)]) := by
  rw [members?] at hl
  obtain ⟨w, hw, hcs⟩ := skip_spec cs
  split at hl
  · rename_i r₁ h₁
    split at hl
    · cases hl
    rename_i k r₂ hk
    obtain ⟨q, hq, hquoted⟩ := quoted?_spec hk
    obtain ⟨t, ht, hcolon⟩ := skip_spec r₂
    split at hl
    · rename_i r₃ h₃
      split at hl
      · cases hl
      rename_i v r₄ hv
      have hmember : ∀ {c s}, skip r₄ = c :: s →
          ∃ m : Member, m.Framed SpeltAs ∧ m.name = k ∧ m.item.value = v ∧ cs = m.text ++ c :: s := by
        intro c s hs
        obtain ⟨i, hi, hv, hr⟩ := h.item hv hs
        refine ⟨⟨w, k, q, t, i⟩, ⟨hw, hquoted, ht, hi⟩, rfl, hv, ?_⟩
        rw [hcs, h₁, hq, hcolon, h₃, hr, Member.text]
        simp
      split at hl
      · rename_i s hs
        obtain ⟨m, hm, rfl, rfl, hcs⟩ := hmember hs
        obtain ⟨⟨l, rest⟩, hrest, hl⟩ := Option.map_eq_some_iff.mp hl
        cases hl
        exact ⟨m, hm, .inl ⟨s, l, hcs, hrest, rfl⟩⟩
      · rename_i s hs
        obtain ⟨m, hm, rfl, rfl, hcs⟩ := hmember hs
        cases hl
        exact ⟨m, hm, .inr ⟨hcs, rfl⟩⟩
      · cases hl
    · cases hl
  · cases hl

theorem succ_members (h : Sound n) {l : List (List Glyph × Json)} (hl : members? (n + 1) cs = some (l, rest)) :
    MembersBefore rest l cs := by
  obtain ⟨m, hm, ⟨s, k, rfl, hk, rfl⟩ | ⟨rfl, rfl⟩⟩ := h.member hl
  · obtain ⟨ms, hne, rfl, hms, rfl⟩ := h.members hk
    refine ⟨m :: ms, List.cons_ne_nil m ms, rfl, List.forall_mem_cons.mpr ⟨hm, hms⟩, ?_⟩
    rw [List.map_cons, commaed_cons_of_ne (mt List.map_eq_nil_iff.mp hne), List.append_assoc, List.cons_append]
  · refine ⟨[m], List.cons_ne_nil m [], rfl, List.forall_mem_singleton.mpr hm, ?_⟩
    rw [List.map_singleton, commaed_singleton]

theorem succ_value (h : Sound n) {j : Json} (hj : value? (n + 1) cs = some (j, rest)) :
    ValueBefore rest j cs := by
  obtain ⟨w, hw, hcs⟩ := skip_spec cs
  suffices hbody : ∃ body, skip cs = body ++ rest ∧ j.SpeltAs body by
    obtain ⟨body, hskip, hbody⟩ := hbody
    exact ⟨w, body, by rw [List.append_assoc, ← hskip, ← hcs], hw, hbody⟩
  rw [value?] at hj
  split at hj
  · cases hj
  rename_i c r hskip
  rw [hskip]
  split at hj
  · rename_i hc
    obtain ⟨⟨s, rest⟩, hs, hj⟩ := Option.map_eq_some_iff.mp hj
    cases hj
    obtain ⟨q, hq, hspelt⟩ := quoted?_spec hs
    exact ⟨q, by rw [hc, hq], .string hspelt⟩
  split at hj
  · rename_i hc
    subst hc
    obtain ⟨t, ht, hr⟩ := skip_spec r
    split at hj
    · rename_i s hs
      cases hj
      exact ⟨_, by rw [hr, hs]; simp, .noItems ht⟩
    · obtain ⟨⟨l, rest⟩, hl, hj⟩ := Option.map_eq_some_iff.mp hj
      cases hj
      obtain ⟨is, hne, rfl, his, rfl⟩ := h.items hl
      exact ⟨_, by simp, .of_items hne his⟩
  split at hj
  · rename_i hc
    subst hc
    obtain ⟨t, ht, hr⟩ := skip_spec r
    split at hj
    · rename_i s hs
      cases hj
      exact ⟨_, by rw [hr, hs]; simp, .noMembers ht⟩
    · obtain ⟨⟨l, rest⟩, hl, hj⟩ := Option.map_eq_some_iff.mp hj
      cases hj
      obtain ⟨ms, hne, rfl, hms, rfl⟩ := h.members hl
      exact ⟨_, by simp, .of_members hne hms⟩
  split at hj
  · obtain ⟨hr, rfl⟩ := word?_spec hj
    exact ⟨_, hr, .null⟩
  split at hj
  · obtain ⟨hr, rfl⟩ := word?_spec hj
    exact ⟨_, hr, .isTrue⟩
  split at hj
  · obtain ⟨hr, rfl⟩ := word?_spec hj
    exact ⟨_, hr, .isFalse⟩
  · obtain ⟨⟨k, rest⟩, hk, hj⟩ := Option.map_eq_some_iff.mp hj
    cases hj
    obtain ⟨ns, hns, hspelt⟩ := numeral?_spec hk
    exact ⟨ns, hns, .number hspelt⟩

end Sound

theorem sound (n : Nat) : Sound n := by
  induction n with
  | zero => exact ⟨fun h => by simp [value?] at h, fun h => by simp [items?] at h, fun h => by simp [members?] at h⟩
  | succ n ih => exact ⟨ih.succ_value, ih.succ_items, ih.succ_members⟩

/-- A text is read as a value exactly if it spells that value. -/
theorem read_eq_some_iff {s : String} {j : Json} : read s = some j ↔ Spells s j := by
  refine ⟨fun h => ?_, read_of_spells⟩
  rw [read, readChars] at h
  split at h
  · rename_i v rest hv
    split at h
    · rename_i hend
      cases h
      obtain ⟨w, body, hs, hw, hbody⟩ := (sound _).value hv
      obtain ⟨t, ht, hrest⟩ := skip_spec rest
      rw [List.isEmpty_iff.mp hend, List.append_nil] at hrest
      exact ⟨⟨w, j, body, rest⟩, hs, rfl, hw, hrest ▸ ht, hbody⟩
    · cases h
  · cases h

end GestureActions.Json
