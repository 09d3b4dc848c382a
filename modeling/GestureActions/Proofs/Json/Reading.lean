import GestureActions.Proofs.Json.Grammar

/-! # Reading what the grammar spells

Each reader takes from the front of a text what the grammar spells there and leaves the
rest, if the rest cannot go on with it. A text that spells a value is read as that value.
-/
namespace GestureActions.Json

/-! ## Blanks and digits -/

theorem isSpace_of_blank {w : List Char} (h : Blank w) : ∀ c ∈ w, isSpace c = true := by
  intro c hc
  rcases h c hc with rfl | rfl | rfl | rfl <;> rfl

theorem skip_blank {w : List Char} (h : Blank w) (cs : List Char) : skip (w ++ cs) = skip cs :=
  List.dropWhile_append_of_pos (isSpace_of_blank h)

theorem skip_cons {c : Char} (h : isSpace c = false) (cs : List Char) : skip (c :: cs) = c :: cs := by
  rw [skip, List.dropWhile_cons, h]
  rfl

/-- A rest that does not begin with a digit. -/
def NoDigit (rest : List Char) : Prop := ∀ c ∈ rest.head?, isDigit c = false

/-- A rest that cannot go on with a numeral. -/
def Ends (rest : List Char) : Prop := ∀ c ∈ rest.head?, isDigit c = false ∧ c ≠ '.' ∧ c ≠ 'e' ∧ c ≠ 'E'

theorem Ends.noDigit {rest : List Char} (h : Ends rest) : NoDigit rest := fun c hc => (h c hc).1

theorem isDigit_digitChar : ∀ d < 10, isDigit (Nat.digitChar d) = true := by decide

theorem digitOf_digitChar : ∀ d < 10, digitOf (Nat.digitChar d) = d := by decide

theorem digits_digitText {l : List Nat} (h : ∀ d ∈ l, d < 10) : ∀ c ∈ digitText l, isDigit c = true := by
  intro c hc
  obtain ⟨d, hd, rfl⟩ := List.mem_map.mp hc
  exact isDigit_digitChar d (h d hd)

theorem digitOf_digitText {l : List Nat} (h : ∀ d ∈ l, d < 10) : (digitText l).map digitOf = l := by
  have hself : ∀ d ∈ l, (digitOf ∘ Nat.digitChar) d = id d := fun d hd => digitOf_digitChar d (h d hd)
  rw [digitText, List.map_map, List.map_congr_left hself, List.map_id]

theorem run_digitText {l : List Nat} (h : ∀ d ∈ l, d < 10) {rest : List Char} (hr : NoDigit rest) :
    run (digitText l ++ rest) = (l, rest) := by
  have hnone : rest.takeWhile isDigit = [] ∧ rest.dropWhile isDigit = rest := by
    cases rest with
    | nil => exact ⟨rfl, rfl⟩
    | cons c r =>
      have hc := hr c rfl
      rw [List.takeWhile_cons, List.dropWhile_cons, hc]
      exact ⟨rfl, rfl⟩
  rw [run, List.takeWhile_append_of_pos (digits_digitText h), List.dropWhile_append_of_pos (digits_digitText h),
    hnone.1, hnone.2, List.append_nil, digitOf_digitText h]

/-! ## Numerals -/

theorem whole?_digitText {l : List Nat} (h : Digits l) (hz : l.head? = some 0 → l = [0]) {rest : List Char}
    (hr : NoDigit rest) : whole? (digitText l ++ rest) = some (l, rest) := by
  rw [whole?, run_digitText h.2 hr]
  cases l with
  | nil => exact absurd rfl h.1
  | cons d r =>
    by_cases hd : d = 0
    · subst hd
      rw [hz rfl]
      rfl
    · simp [hd]

theorem fraction?_spelt {f : List Nat} {fs rest : List Char} (h : FractionSpelt f fs)
    (hr : NoDigit rest) (hp : ∀ c ∈ rest.head?, c ≠ '.') : fraction? (fs ++ rest) = some (f, rest) := by
  cases h with
  | none =>
    rw [List.nil_append, fraction?.eq_def]
    split
    · exact absurd rfl (hp '.' rfl)
    · rfl
  | point hl =>
    rw [List.cons_append, fraction?, run_digitText hl.2 hr]
    cases f with
    | nil => exact absurd rfl hl.1
    | cons d r => rfl

theorem digitText_cons {l : List Nat} (h : Digits l) :
    ∃ c r, digitText l = c :: r ∧ isDigit c = true := by
  obtain ⟨hne, hlt⟩ := h
  cases l with
  | nil => exact absurd rfl hne
  | cons d r => exact ⟨_, _, rfl, isDigit_digitChar d (hlt d List.mem_cons_self)⟩

theorem run_digits {l : List Nat} (h : Digits l) {rest : List Char} (hr : NoDigit rest) :
    ∃ d r, l = d :: r ∧ run (digitText l ++ rest) = (d :: r, rest) := by
  cases l with
  | nil => exact absurd rfl h.1
  | cons d r => exact ⟨d, r, rfl, run_digitText h.2 hr⟩

theorem ne_of_isDigit {c d : Char} (hc : isDigit c = true) (hd : isDigit d = false) : c ≠ d := by
  rintro rfl
  rw [hc] at hd
  cases hd

theorem sign_of_isDigit {c : Char} (h : isDigit c = true) (cs : List Char) : sign (c :: cs) = (false, c :: cs) := by
  unfold sign
  split
  · rename_i he
    exact absurd (List.cons.inj he).1 (ne_of_isDigit h rfl)
  · rename_i he
    exact absurd (List.cons.inj he).1 (ne_of_isDigit h rfl)
  · rfl

theorem minus_of_isDigit {c : Char} (h : isDigit c = true) (cs : List Char) : minus (c :: cs) = (false, c :: cs) := by
  unfold minus
  split
  · rename_i he
    exact absurd (List.cons.inj he).1 (ne_of_isDigit h rfl)
  · rfl

theorem power?_spelt {p : Option TenPower} {ps rest : List Char} (h : PowerSpelt p ps) (hr : Ends rest) :
    power? (ps ++ rest) = some (p, rest) := by
  cases h with
  | none =>
    cases rest with
    | nil => rfl
    | cons c r =>
      have hc := hr c rfl
      simp [power?, hc]
  | @unsigned e l he hl =>
    obtain ⟨d, r, rfl, hrun⟩ := run_digits hl hr.noDigit
    have hsign : sign (digitText (d :: r) ++ rest) = (false, digitText (d :: r) ++ rest) := by
      obtain ⟨c, r', hc, hd⟩ := digitText_cons hl
      rw [hc]
      exact sign_of_isDigit hd _
    rw [List.cons_append, power?, if_pos (by simp [he]), hsign]
    dsimp only
    rw [hrun]
  | @signed e l negative he hl =>
    obtain ⟨d, r, rfl, hrun⟩ := run_digits hl hr.noDigit
    rw [List.cons_append, power?, if_pos (by simp [he])]
    cases negative <;> simp [sign, hrun]

/-- A power begins with a letter, and what comes after a numeral cannot go on with it. -/
theorem head_powerSpelt {p : Option TenPower} {ps rest : List Char} (h : PowerSpelt p ps) (hr : Ends rest) :
    ∀ c ∈ (ps ++ rest).head?, isDigit c = false ∧ c ≠ '.' := by
  have hletter : ∀ {e : Char}, e = 'e' ∨ e = 'E' → isDigit e = false ∧ e ≠ '.' := by
    rintro e (rfl | rfl) <;> decide
  intro c hc
  cases h with
  | none => exact ⟨(hr c hc).1, (hr c hc).2.1⟩
  | unsigned he hl => exact Option.some.inj hc ▸ hletter he
  | signed negative he hl => exact Option.some.inj hc ▸ hletter he

theorem noDigit_fractionSpelt {f : List Nat} {fs rest : List Char} (h : FractionSpelt f fs) (hr : NoDigit rest) :
    NoDigit (fs ++ rest) := by
  cases h with
  | none => exact hr
  | point hl => exact fun c hc => Option.some.inj hc ▸ rfl

theorem numeral?_spelt {n : Numeral} {cs rest : List Char} (h : NumeralSpelt n cs) (hr : Ends rest) :
    numeral? (cs ++ rest) = some (n, rest) := by
  obtain ⟨negative, hw, hz, hf, hp⟩ := h
  rename_i w f p fs ps
  have hpow := head_powerSpelt hp hr
  have hminus : minus ((if negative then ['-'] else []) ++ digitText w ++ fs ++ ps ++ rest) =
      (negative, digitText w ++ (fs ++ (ps ++ rest))) := by
    cases negative with
    | true => simp [minus]
    | false =>
      obtain ⟨c, r, hc, hd⟩ := digitText_cons hw
      simpa [hc] using minus_of_isDigit hd (r ++ (fs ++ (ps ++ rest)))
  have hwhole := whole?_digitText hw hz (noDigit_fractionSpelt hf fun c hc => (hpow c hc).1)
  have hfraction := fraction?_spelt hf (fun c hc => (hpow c hc).1) fun c hc => (hpow c hc).2
  rw [numeral?, hminus]
  simp [hwhole, hfraction, power?_spelt hp hr]

/-- A numeral begins with a minus or a digit. -/
theorem numeralSpelt_cons {n : Numeral} {cs : List Char} (h : NumeralSpelt n cs) :
    ∃ c r, cs = c :: r ∧ (c = '-' ∨ isDigit c = true) := by
  obtain ⟨negative, hw, hz, hf, hp⟩ := h
  cases negative with
  | true => exact ⟨'-', _, rfl, .inl rfl⟩
  | false =>
    obtain ⟨c, r, hc, hd⟩ := digitText_cons hw
    rw [hc]
    exact ⟨c, _, rfl, .inr hd⟩

/-! ## Strings -/

theorem pieces?_spelt {p : Piece} {cs : List Char} (h : PieceSpelt p cs) (rest : List Char) :
    pieces? (cs ++ rest) = (pieces? rest).map fun q => (p :: q.1, q.2) := by
  cases h with
  | plain hq hb hc =>
    rw [List.singleton_append, pieces?.eq_def]
    dsimp only
    rw [if_neg hq, if_neg hb, if_neg hc]
    cases pieces? rest <;> rfl
  | @letter e c he =>
    have hu : e ≠ 'u' := by
      rintro rfl
      cases he
    change pieces? ('\\' :: e :: rest) = _
    rw [pieces?.eq_def]
    dsimp only
    rw [if_neg (by decide), if_pos rfl, if_neg hu, he]
    cases pieces? rest <;> rfl
  | @number a b c d n hn =>
    change pieces? ('\\' :: 'u' :: a :: b :: c :: d :: rest) = _
    rw [pieces?.eq_def]
    dsimp only
    rw [if_neg (by decide), if_pos rfl, if_pos rfl, hn]
    cases pieces? rest <;> rfl

theorem pieces?_quote (rest : List Char) : pieces? ('"' :: rest) = some ([], rest) := by
  rw [pieces?.eq_def]
  exact if_pos rfl

theorem pieces?_parts {parts : List (Piece × List Char)} (h : ∀ p ∈ parts, PieceSpelt p.1 p.2) (rest : List Char) :
    pieces? (parts.flatMap (·.2) ++ '"' :: rest) = some (parts.map (·.1), rest) := by
  induction parts with
  | nil => exact pieces?_quote rest
  | cons p r ih =>
    rw [List.flatMap_cons, List.append_assoc, pieces?_spelt (h p List.mem_cons_self),
      ih fun q hq => h q (List.mem_cons_of_mem p hq)]
    rfl

theorem isLow_of_isHigh {n : Nat} (h : isHigh n = true) : isLow n = false := by
  simp only [isHigh, Bool.and_eq_true, decide_eq_true_eq] at h
  simp only [isLow, Bool.and_eq_false_iff, decide_eq_false_iff_not]
  omega

theorem isHigh_of_isLow {n : Nat} (h : isLow n = true) : isHigh n = false := by
  cases hn : isHigh n with
  | false => rfl
  | true => rw [isLow_of_isHigh hn] at h; cases h

/-- A surrogate that begins a string and stays alone is its first part. -/
theorem Makes.head?_eq {ps : List Piece} {s : List Glyph} (h : Makes ps s) {m : Nat} {r : List Glyph}
    (hs : s = .lone m :: r) : ps.head? = some (.unit m) := by
  cases h with
  | low _ h => rw [(Glyph.lone.inj (List.cons.inj hs).1)]; rfl
  | high hn hp h => rw [(Glyph.lone.inj (List.cons.inj hs).1)]; rfl
  | _ => simp at hs

theorem Makes.joined_eq {ps : List Piece} {s : List Glyph} (h : Makes ps s) : joined ps = s := by
  induction h with
  | nil => rfl
  | char h ih =>
    rw [joined, List.foldr_cons, ← joined, ih]
    rfl
  | unit hh hl h ih =>
    rw [joined, List.foldr_cons, ← joined, ih]
    simp [join, hh, hl]
  | pair hn hm h ih =>
    rw [joined, List.foldr_cons, List.foldr_cons, ← joined, ih]
    simp [join, hn, hm, isHigh_of_isLow hm]
  | low hn h ih =>
    rw [joined, List.foldr_cons, ← joined, ih]
    simp [join, hn, isHigh_of_isLow hn]
  | @high n ps gs hn hp h ih =>
    rw [joined, List.foldr_cons, ← joined, ih]
    unfold join
    dsimp only
    rw [if_pos hn]
    split
    · rename_i m r
      cases hm : isLow m with
      | true => rw [hp m (h.head?_eq rfl)] at hm; cases hm
      | false => rfl
    · rfl

theorem quoted?_spelt {s : List Glyph} {cs : List Char} (h : StringSpelt s cs) (rest : List Char) :
    ∃ r, cs ++ rest = '"' :: r ∧ quoted? r = some (s, rest) := by
  obtain ⟨parts, hp, hs⟩ := h
  refine ⟨parts.flatMap (·.2) ++ '"' :: rest, by simp, ?_⟩
  rw [quoted?, pieces?_parts hp, Option.map_some, hs.joined_eq]

/-! ## Values -/

theorem commaed_singleton (cs : List Char) : commaed [cs] = cs := by
  simp [commaed, List.intercalate]

theorem commaed_cons_cons (cs ds : List Char) (r : List (List Char)) :
    commaed (cs :: ds :: r) = cs ++ ',' :: commaed (ds :: r) := by
  simp [commaed, List.intercalate]

/-- A comma or a bracket ends what stands before it, blanks between them or not. -/
theorem ends_blank {w : List Char} (hw : Blank w) {c : Char} (hc : c = ',' ∨ c = ']' ∨ c = '}') (rest : List Char) :
    Ends (w ++ c :: rest) := by
  intro d hd
  cases w with
  | nil =>
    obtain rfl : c = d := Option.some.inj hd
    rcases hc with rfl | rfl | rfl <;> decide
  | cons b w =>
    obtain rfl : b = d := Option.some.inj hd
    rcases hw b List.mem_cons_self with rfl | rfl | rfl | rfl <;> decide

theorem isSpace_of_isDigit {c : Char} (h : isDigit c = true) : isSpace c = false := by
  cases hs : isSpace c with
  | false => rfl
  | true =>
    simp only [isSpace, Bool.or_eq_true, decide_eq_true_eq] at hs
    rcases hs with ((rfl | rfl) | rfl) | rfl <;> cases h

theorem SpeltAs.cons {j : Json} {cs : List Char} (h : j.SpeltAs cs) :
    ∃ c r, cs = c :: r ∧ isSpace c = false ∧ c ≠ ']' := by
  cases h with
  | number h =>
    obtain ⟨c, r, hcs, hc⟩ := numeralSpelt_cons h
    refine ⟨c, r, hcs, ?_⟩
    rcases hc with rfl | hc
    · decide
    · exact ⟨isSpace_of_isDigit hc, ne_of_isDigit hc rfl⟩
  | string h =>
    obtain ⟨parts, hp, hs⟩ := h
    exact ⟨_, _, rfl, by decide⟩
  | _ => exact ⟨_, _, rfl, by decide⟩

theorem value?_blank {w : List Char} (hw : Blank w) (n : Nat) (cs : List Char) : value? n (w ++ cs) = value? n cs := by
  cases n with
  | zero => rfl
  | succ n => rw [value?, skip_blank hw, value?]

/-- The reader of values takes what a value spells off the front of a text. -/
def Reads (j : Json) (cs : List Char) : Prop :=
  ∀ n rest, 2 * cs.length ≤ n → Ends rest → value? (n + 1) (cs ++ rest) = some (j, rest)

/-- An item between blanks, its body one of those that go with its value. -/
structure Item.Framed (p : Json → List Char → Prop) (i : Item) : Prop where
  before : Blank i.before
  body : p i.value i.body
  after : Blank i.after

structure Member.Framed (p : Json → List Char → Prop) (m : Member) : Prop where
  before : Blank m.before
  quoted : StringSpelt m.name m.quoted
  after : Blank m.after
  item : m.item.Framed p

theorem Item.Framed.value?_text {i : Item} (h : i.Framed Reads) {n : Nat} (hn : 2 * i.text.length < n) {c : Char}
    (hc : c = ',' ∨ c = ']' ∨ c = '}') (rest : List Char) :
    value? n (i.text ++ c :: rest) = some (i.value, i.after ++ c :: rest) := by
  simp only [Item.text, List.length_append] at hn
  obtain _ | n := n
  · omega
  rw [Item.text, List.append_assoc, List.append_assoc, value?_blank h.before]
  exact h.body n _ (by omega) (ends_blank h.after hc rest)

theorem items?_commaed {l : List Item} (hl : l ≠ []) (h : ∀ i ∈ l, i.Framed Reads) {n : Nat}
    (hn : 2 * (commaed (l.map Item.text)).length + 1 < n) (rest : List Char) :
    items? n (commaed (l.map Item.text) ++ ']' :: rest) = some (l.map (·.value), rest) := by
  induction l generalizing n with
  | nil => exact absurd rfl hl
  | cons i r ih =>
    obtain _ | n := n
    · omega
    have hi := h i List.mem_cons_self
    cases r with
    | nil =>
      rw [List.map_singleton, commaed_singleton] at hn ⊢
      rw [items?, hi.value?_text (by omega) (.inr (.inl rfl))]
      dsimp only
      rw [skip_blank hi.after, skip_cons rfl]
      rfl
    | cons k r =>
      rw [List.map_cons, List.map_cons, commaed_cons_cons, List.length_append, List.length_cons, ← List.map_cons] at hn
      rw [List.map_cons, List.map_cons, commaed_cons_cons, List.append_assoc, List.cons_append, ← List.map_cons, items?,
        hi.value?_text (by omega) (.inl rfl)]
      dsimp only
      rw [skip_blank hi.after, skip_cons rfl]
      change (items? n (commaed ((k :: r).map Item.text) ++ ']' :: rest)).map (fun p => (i.value :: p.1, p.2)) = _
      rw [ih (List.cons_ne_nil k r) (fun x hx => h x (List.mem_cons_of_mem i hx)) (n := n) (by omega)]
      rfl

/-- A comma after a member has the rest read as members, and a brace ends them. -/
theorem Member.Framed.members?_text {m : Member} (h : m.Framed Reads) {n : Nat} (hn : 2 * m.text.length < n) {c : Char}
    (hc : c = ',' ∨ c = '}') (rest : List Char) :
    members? (n + 1) (m.text ++ c :: rest) =
      if c = ',' then (members? n rest).map fun p => ((m.name, m.item.value) :: p.1, p.2)
      else some ([(m.name, m.item.value)], rest) := by
  have hlen : 2 * m.item.text.length < n := by
    simp only [Member.text, List.length_append, List.length_cons] at hn
    omega
  obtain ⟨r, hq, hquoted⟩ := quoted?_spelt h.quoted (m.after ++ ':' :: (m.item.text ++ c :: rest))
  have htext : m.text ++ c :: rest = m.before ++ '"' :: r := by
    rw [← hq]
    simp [Member.text]
  rw [htext, members?, skip_blank h.before, skip_cons rfl]
  simp only [hquoted, skip_blank h.after, skip_cons (c := ':') rfl, h.item.value?_text hlen (hc.imp_right .inr),
    skip_blank h.item.after]
  rcases hc with rfl | rfl
  · rw [skip_cons rfl]
    rfl
  · rw [skip_cons rfl]
    rfl

theorem members?_commaed {l : List Member} (hl : l ≠ []) (h : ∀ m ∈ l, m.Framed Reads) {n : Nat}
    (hn : 2 * (commaed (l.map Member.text)).length + 1 < n) (rest : List Char) :
    members? n (commaed (l.map Member.text) ++ '}' :: rest) = some (l.map fun m => (m.name, m.item.value), rest) := by
  induction l generalizing n with
  | nil => exact absurd rfl hl
  | cons m r ih =>
    obtain _ | n := n
    · omega
    have hm := h m List.mem_cons_self
    cases r with
    | nil =>
      rw [List.map_singleton, commaed_singleton] at hn ⊢
      rw [hm.members?_text (by omega) (.inr rfl), if_neg (by decide)]
      rfl
    | cons k r =>
      rw [List.map_cons, List.map_cons, commaed_cons_cons, List.length_append, List.length_cons, ← List.map_cons] at hn
      rw [List.map_cons, List.map_cons, commaed_cons_cons, List.append_assoc, List.cons_append, ← List.map_cons,
        hm.members?_text (by omega) (.inl rfl), if_pos rfl,
        ih (List.cons_ne_nil k r) (fun x hx => h x (List.mem_cons_of_mem m hx)) (n := n) (by omega)]
      rfl

/-- The reader takes the word of the grammar that a text begins with. -/
theorem word?_append (w : List Char) (v : Json) (rest : List Char) : word? w v (w ++ rest) = some (v, rest) := by
  rw [word?, if_pos (List.isPrefixOf_iff_prefix.mpr (List.prefix_append w rest)), List.drop_left]

theorem value?_null (n : Nat) (rest : List Char) : value? (n + 1) (['n', 'u', 'l', 'l'] ++ rest) = some (null, rest) := by
  rw [value?, List.cons_append, skip_cons rfl]
  exact word?_append ['n', 'u', 'l', 'l'] null rest

theorem value?_bool (n : Nat) (b : Bool) (rest : List Char) :
    value? (n + 1) ((bool b).chars ++ rest) = some (bool b, rest) := by
  cases b with
  | true =>
    rw [chars, value?, List.cons_append, skip_cons rfl]
    exact word?_append ['t', 'r', 'u', 'e'] (bool true) rest
  | false =>
    rw [chars, value?, List.cons_append, skip_cons rfl]
    exact word?_append ['f', 'a', 'l', 's', 'e'] (bool false) rest

theorem value?_number (n : Nat) {k : Numeral} {cs rest : List Char} (h : NumeralSpelt k cs) (hr : Ends rest) :
    value? (n + 1) (cs ++ rest) = some (number k, rest) := by
  obtain ⟨c, r, rfl, hc⟩ := numeralSpelt_cons h
  have hne : ∀ d, d ≠ '-' → isDigit d = false → c ≠ d := by
    intro d hd hdd
    rcases hc with rfl | hc
    · exact hd.symm
    · exact ne_of_isDigit hc hdd
  have hspace : isSpace c = false := by
    rcases hc with rfl | hc
    · rfl
    · exact isSpace_of_isDigit hc
  have hnum := numeral?_spelt h hr
  rw [List.cons_append] at hnum ⊢
  rw [value?, skip_cons hspace]
  dsimp only
  rw [if_neg (hne '"' (by decide) rfl), if_neg (hne '[' (by decide) rfl), if_neg (hne '{' (by decide) rfl),
    if_neg (hne 'n' (by decide) rfl), if_neg (hne 't' (by decide) rfl), if_neg (hne 'f' (by decide) rfl), hnum]
  rfl

theorem value?_string (n : Nat) {s : List Glyph} {cs : List Char} (h : StringSpelt s cs) (rest : List Char) :
    value? (n + 1) (cs ++ rest) = some (string s, rest) := by
  obtain ⟨r, hcs, hq⟩ := quoted?_spelt h rest
  rw [hcs, value?, skip_cons rfl]
  dsimp only
  rw [if_pos rfl, hq]
  rfl

theorem value?_array (n : Nat) {r : List Char} {c : Char} {s : List Char} (hs : skip r = c :: s) (hc : c ≠ ']') :
    value? (n + 1) ('[' :: r) = (items? n r).map fun p => (array p.1, p.2) := by
  rw [value?, skip_cons rfl]
  dsimp only
  rw [if_neg (by decide), if_pos rfl, hs]
  split
  · rename_i he
    exact absurd (List.cons.inj he).1 hc
  · rfl

theorem value?_object (n : Nat) {r : List Char} {c : Char} {s : List Char} (hs : skip r = c :: s) (hc : c ≠ '}') :
    value? (n + 1) ('{' :: r) = (members? n r).map fun p => (object p.1, p.2) := by
  rw [value?, skip_cons rfl]
  dsimp only
  rw [if_neg (by decide), if_neg (by decide), if_pos rfl, hs]
  split
  · rename_i he
    exact absurd (List.cons.inj he).1 hc
  · rfl

theorem value?_noItems (n : Nat) {w : List Char} (hw : Blank w) (rest : List Char) :
    value? (n + 1) ('[' :: w ++ [']'] ++ rest) = some (array [], rest) := by
  rw [List.append_assoc, List.cons_append, value?, skip_cons rfl]
  dsimp only
  rw [if_neg (by decide), if_pos rfl, skip_blank hw, List.singleton_append, skip_cons rfl]
  rfl

theorem value?_noMembers (n : Nat) {w : List Char} (hw : Blank w) (rest : List Char) :
    value? (n + 1) ('{' :: w ++ ['}'] ++ rest) = some (object [], rest) := by
  rw [List.append_assoc, List.cons_append, value?, skip_cons rfl]
  dsimp only
  rw [if_neg (by decide), if_neg (by decide), if_pos rfl, skip_blank hw, List.singleton_append, skip_cons rfl]
  rfl

/-- The first of some texts with commas between them, and what comes after it. -/
theorem commaed_cons (cs : List Char) (r : List (List Char)) : ∃ t, commaed (cs :: r) = cs ++ t := by
  cases r with
  | nil => exact ⟨[], by rw [commaed_singleton, List.append_nil]⟩
  | cons ds r => exact ⟨_, commaed_cons_cons cs ds r⟩

theorem SpeltAs.reads {j : Json} {cs : List Char} (h : j.SpeltAs cs) : Reads j cs := by
  induction h with
  | null => exact fun n rest _ _ => value?_null n rest
  | isTrue => exact fun n rest _ _ => value?_bool n true rest
  | isFalse => exact fun n rest _ _ => value?_bool n false rest
  | number h => exact fun n rest _ hr => value?_number n h hr
  | string h => exact fun n rest _ _ => value?_string n h rest
  | noItems hw => exact fun n rest _ _ => value?_noItems n hw rest
  | noMembers hw => exact fun n rest _ _ => value?_noMembers n hw rest
  | @items l hl hb h ih =>
    intro n rest hn _
    obtain ⟨i, r, rfl⟩ := List.exists_cons_of_ne_nil hl
    -- the array is not empty, since its first item does not begin with a bracket
    obtain ⟨t, ht⟩ := commaed_cons i.text (r.map Item.text)
    obtain ⟨c, b, hbody, hspace, hne⟩ := (h i List.mem_cons_self).cons
    have hskip : skip (commaed ((i :: r).map Item.text) ++ ']' :: rest) = c :: (b ++ i.after ++ t ++ ']' :: rest) := by
      rw [List.map_cons, ht, Item.text, List.append_assoc, List.append_assoc, List.append_assoc,
        skip_blank (hb i List.mem_cons_self).1, hbody, List.cons_append, skip_cons hspace]
      simp
    rw [List.length_append, List.length_cons, List.length_singleton] at hn
    rw [List.append_assoc, List.singleton_append, List.cons_append, value?_array n hskip hne,
      items?_commaed hl (fun i hi => ⟨(hb i hi).1, ih i hi, (hb i hi).2⟩) (by omega)]
    rfl
  | @members l hl hb hs hi h ih =>
    intro n rest hn _
    obtain ⟨m, r, rfl⟩ := List.exists_cons_of_ne_nil hl
    obtain ⟨t, ht⟩ := commaed_cons m.text (r.map Member.text)
    obtain ⟨q, hq, _⟩ := quoted?_spelt (hs m List.mem_cons_self) (m.after ++ ':' :: (m.item.text ++ t ++ '}' :: rest))
    have hskip : skip (commaed ((m :: r).map Member.text) ++ '}' :: rest) = '"' :: q := by
      have htext : commaed ((m :: r).map Member.text) ++ '}' :: rest = m.before ++ '"' :: q := by
        rw [List.map_cons, ht, ← hq, Member.text]
        simp
      rw [htext, skip_blank (hb m List.mem_cons_self).1, skip_cons rfl]
    rw [List.length_append, List.length_cons, List.length_singleton] at hn
    rw [List.append_assoc, List.singleton_append, List.cons_append, value?_object n hskip (by decide),
      members?_commaed hl (fun m hm => ⟨(hb m hm).1, hs m hm, (hb m hm).2, (hi m hm).1, ih m hm, (hi m hm).2⟩) (by omega)]
    rfl

/-- What a text spells is what is read. -/
theorem read_of_spells {s : String} {j : Json} (h : Spells s j) : read s = some j := by
  obtain ⟨i, hs, rfl, hb, ha, hj⟩ := h
  have hends : Ends i.after := by
    intro c hc
    rcases ha c (List.mem_of_mem_head? hc) with rfl | rfl | rfl | rfl <;> decide
  have hv : ∀ n, 2 * i.body.length ≤ n → value? (n + 1) i.text = some (i.value, i.after) := by
    intro n hn
    rw [Item.text, List.append_assoc, value?_blank hb]
    exact hj.reads n _ hn hends
  have hlen : 2 * i.body.length ≤ 2 * i.text.length + 1 := by
    simp only [Item.text, List.length_append]
    omega
  rw [read, hs, readChars, steps, hv _ hlen]
  dsimp only
  rw [← List.append_nil i.after, skip_blank ha]
  rfl

end GestureActions.Json
