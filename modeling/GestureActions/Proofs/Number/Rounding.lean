import GestureActions.Number.Binary
import Mathlib.Algebra.Order.Ring.Nat

/-! # Rounding whole numbers

A format of `p` bits holds the whole numbers with a significand below `2 ^ p`. A whole number
is rounded to one that is nearest among those, and where two are as near, to the one with an
even significand. The number that comes of it is a multiple of a unit that leaves `p` bits.
-/
namespace GestureActions.BinaryFormat

/-- The whole numbers with a significand of at most `p` bits. -/
def Holds (p n : Nat) : Prop := ∃ s e, s < 2 ^ p ∧ n = s * 2 ^ e

def gap (m n : Nat) : Nat := ((m : Int) - n).natAbs

/-- The number that `n` is rounded to, told without saying how it is found. -/
structure Rounds (p n r : Nat) : Prop where
  holds : Holds p r
  nearest : ∀ k, Holds p k → gap r n ≤ gap k n
  even : ∀ k, Holds p k → k ≠ r → gap k n = gap r n → ∃ s e, s < 2 ^ p ∧ s % 2 = 0 ∧ r = s * 2 ^ e

variable {p n r : Nat}

theorem gap_self (n : Nat) : gap n n = 0 := by
  simp [gap]

/-- A number that the format holds is kept. -/
theorem Rounds.eq_of_holds (h : Rounds p n r) (hn : Holds p n) : r = n := by
  have hnear := h.nearest n hn
  rw [gap_self] at hnear
  unfold gap at hnear
  omega

/-- A number does not fall below one that the format holds. -/
theorem Rounds.le_of_holds (h : Rounds p n r) {k : Nat} (hk : Holds p k) (hkn : k ≤ n) : k ≤ r := by
  have hnear := h.nearest k hk
  unfold gap at hnear
  omega

/-! ## The nearest multiple -/

theorem nearestEven_near (num : Nat) {den : Nat} (h : 0 < den) :
    2 * gap (nearestEven num den * den) num ≤ den ∧
      (2 * gap (nearestEven num den * den) num = den → nearestEven num den % 2 = 0) := by
  have hdiv : num / den * den + num % den = num := Nat.div_add_mod' num den
  have hlt : num % den < den := Nat.mod_lt num h
  unfold nearestEven gap
  dsimp only
  generalize num / den = q at hdiv ⊢
  generalize num % den = r at hdiv hlt ⊢
  split
  · refine ⟨by omega, by omega⟩
  split
  · rw [Nat.succ_mul q den]
    refine ⟨by omega, by omega⟩
  · rcases Nat.mod_two_eq_zero_or_one q with hq | hq
    · rw [hq, Nat.add_zero]
      exact ⟨by omega, fun _ => hq⟩
    · rw [hq, Nat.succ_mul q den]
      exact ⟨by omega, fun _ => by omega⟩

theorem nearestEven_one (n : Nat) : nearestEven n 1 = n := by
  simp [nearestEven, Nat.mod_one]

theorem add_le_mul_of_lt {t q : Nat} (h : t < q) (den : Nat) : t * den + den ≤ q * den := by
  have hle := Nat.mul_le_mul_right den h
  rwa [Nat.succ_mul] at hle

/-- Two multiples are no nearer to each other than a unit. -/
theorem le_gap_add_gap {t q : Nat} (h : t ≠ q) (den num : Nat) : den ≤ gap (t * den) num + gap (q * den) num := by
  unfold gap
  rcases Nat.lt_or_gt_of_ne h with hlt | hlt
  · have hle := add_le_mul_of_lt hlt den
    omega
  · have hle := add_le_mul_of_lt hlt den
    omega

theorem gap_le_of_near {q den num : Nat} (h : 2 * gap (q * den) num ≤ den) (t : Nat) :
    gap (q * den) num ≤ gap (t * den) num := by
  by_cases ht : t = q
  · rw [ht]
  · have hapart := le_gap_add_gap ht den num
    omega

/-! ## The unit of a number -/

/-- The unit of the last of the `p` bits of a number. -/
def unit (p n : Nat) : Nat := 2 ^ (n.log2 + 1 - p)

theorem unit_pos (p n : Nat) : 0 < unit p n := Nat.two_pow_pos _

theorem lt_pow_mul_unit (p n : Nat) : n < 2 ^ p * unit p n := by
  calc
    n < 2 ^ (n.log2 + 1) := Nat.lt_log2_self
    _ ≤ 2 ^ (p + (n.log2 + 1 - p)) := Nat.pow_le_pow_right (by decide) (by omega)
    _ = 2 ^ p * unit p n := Nat.pow_add 2 p _

theorem ne_zero_of_le_log2 (hp : 0 < p) (h : p ≤ n.log2) : n ≠ 0 := by
  rintro rfl
  rw [Nat.log2_zero] at h
  omega

/-- A number that needs more than `p` bits has none of them zero in front. -/
theorem pow_mul_unit_le (hp : 0 < p) (h : p ≤ n.log2) : 2 ^ (p - 1) * unit p n ≤ n := by
  have hn := ne_zero_of_le_log2 hp h
  calc
    2 ^ (p - 1) * unit p n = 2 ^ (p - 1 + (n.log2 + 1 - p)) := (Nat.pow_add 2 (p - 1) _).symm
    _ = 2 ^ n.log2 := by congr 1; omega
    _ ≤ n := Nat.log2_self_le hn

/-- What the format holds is a multiple of the unit, or less than the least number with as
many bits. -/
theorem Holds.multiple_or_lt {k : Nat} (hp : 0 < p) (h : Holds p k) (n : Nat) :
    (∃ t, k = t * unit p n) ∨ k < 2 ^ (p - 1) * unit p n ∧ 2 ^ (p - 1) * unit p n ≤ n := by
  obtain ⟨s, e, hs, rfl⟩ := h
  by_cases he : n.log2 + 1 - p ≤ e
  · left
    refine ⟨s * 2 ^ (e - (n.log2 + 1 - p)), ?_⟩
    rw [unit, Nat.mul_assoc, ← Nat.pow_add]
    congr 2
    omega
  · right
    refine ⟨?_, pow_mul_unit_le hp (by omega)⟩
    calc
      s * 2 ^ e < 2 ^ p * 2 ^ e := Nat.mul_lt_mul_of_pos_right hs (Nat.two_pow_pos e)
      _ = 2 ^ (p + e) := (Nat.pow_add 2 p e).symm
      _ ≤ 2 ^ (p - 1 + (n.log2 + 1 - p)) := Nat.pow_le_pow_right (by decide) (by omega)
      _ = 2 ^ (p - 1) * unit p n := Nat.pow_add 2 (p - 1) _

/-- A significand that rounding made one too large is the least one of the next power. -/
theorem exists_significand (hp : 1 < p) {q : Nat} (hq : q ≤ 2 ^ p) (e : Nat) :
    ∃ s k, s < 2 ^ p ∧ (q % 2 = 0 → s % 2 = 0) ∧ q * 2 ^ e = s * 2 ^ k := by
  obtain ⟨m, rfl⟩ : ∃ m, p = m + 2 := ⟨p - 2, by omega⟩
  rcases Nat.lt_or_eq_of_le hq with hlt | rfl
  · exact ⟨q, e, hlt, id, rfl⟩
  · refine ⟨2 ^ (m + 1), e + 1, Nat.pow_lt_pow_right (by decide) (by omega), fun _ => ?_, ?_⟩
    · rw [Nat.pow_succ, Nat.mul_mod_left]
    · rw [← Nat.pow_add, ← Nat.pow_add]
      congr 1
      omega

/-- The nearest multiple of the unit is what a number is rounded to. -/
theorem rounds_nearestEven (hp : 1 < p) (n : Nat) : Rounds p n (nearestEven n (unit p n) * unit p n) := by
  obtain ⟨hnear, heven⟩ := nearestEven_near n (unit_pos p n)
  generalize nearestEven n (unit p n) = q at hnear heven ⊢
  have hbound : q ≤ 2 ^ p := by
    by_contra hlt
    have hle := add_le_mul_of_lt (Nat.lt_of_not_le hlt) (unit p n)
    have hn := lt_pow_mul_unit p n
    unfold gap at hnear
    omega
  obtain ⟨s, e, hs, hseven, hqs⟩ := exists_significand hp hbound (n.log2 + 1 - p)
  -- a number that is no multiple of the unit is farther off than the least one of as many bits
  have hfar : ∀ k, k < 2 ^ (p - 1) * unit p n ∧ 2 ^ (p - 1) * unit p n ≤ n → gap (q * unit p n) n < gap k n := by
    intro k ⟨hk, hn⟩
    have hleast := gap_le_of_near hnear (2 ^ (p - 1))
    unfold gap at hleast ⊢
    omega
  refine ⟨⟨s, e, hs, hqs⟩, ?_, ?_⟩
  · intro k hk
    rcases hk.multiple_or_lt (by omega) n with ⟨t, rfl⟩ | hlt
    · exact gap_le_of_near hnear t
    · exact (hfar k hlt).le
  · intro k hk hne htie
    rcases hk.multiple_or_lt (by omega) n with ⟨t, rfl⟩ | hlt
    · have ht : t ≠ q := fun h => hne (by rw [h])
      have hapart := le_gap_add_gap ht (unit p n) n
      exact ⟨s, e, hs, hseven (heven (by omega)), hqs⟩
    · have := hfar k hlt
      omega

/-! ## The magnitude -/

variable {f : BinaryFormat}

theorem floorLog_one (hn : n ≠ 0) : floorLog n 1 = n.log2 := by
  have hle : ¬ n < 2 ^ n.log2 := Nat.not_lt.mpr (Nat.log2_self_le hn)
  have hlog : Nat.log2 1 = 0 := by decide
  simp [floorLog, inUnits, hlog, hle]

/-- Rounding a whole number of few bits writes it with as many zeros as the precision asks for. -/
theorem round_of_short (hn : n ≠ 0) (hl : f.lowest ≤ 1 - f.precision) (h : n.log2 + 1 ≤ f.precision) :
    f.round n 1 = ⟨n * 2 ^ (f.precision - (n.log2 + 1)), n.log2 + 1 - f.precision⟩ := by
  have hlt : n * 2 ^ (f.precision - (n.log2 + 1)) < 2 ^ f.precision := by
    calc
      n * 2 ^ (f.precision - (n.log2 + 1)) < 2 ^ (n.log2 + 1) * 2 ^ (f.precision - (n.log2 + 1)) :=
        Nat.mul_lt_mul_of_pos_right Nat.lt_log2_self (Nat.two_pow_pos _)
      _ = 2 ^ f.precision := by rw [← Nat.pow_add]; congr 1; omega
  have hmax : max f.lowest ((n.log2 : Int) + 1 - f.precision) = n.log2 + 1 - f.precision := by omega
  have hdown : (-((n.log2 : Int) + 1 - f.precision)).toNat = f.precision - (n.log2 + 1) := by omega
  have hup : ((n.log2 : Int) + 1 - f.precision).toNat = 0 := by omega
  rw [round, if_neg hn, floorLog_one hn, hmax]
  simp only [inUnits, hdown, hup, Nat.pow_eq, Nat.pow_zero, Nat.mul_one, nearestEven_one]
  rw [if_neg (Nat.ne_of_lt hlt)]

/-- Rounding a longer one counts in units. -/
theorem round_of_long (hl : f.lowest ≤ 1 - f.precision) (hp : 0 < f.precision) (h : f.precision ≤ n.log2) :
    f.round n 1 = if nearestEven n (unit f.precision n) = 2 ^ f.precision
      then ⟨2 ^ (f.precision - 1), n.log2 + 1 - f.precision + 1⟩
      else ⟨nearestEven n (unit f.precision n), n.log2 + 1 - f.precision⟩ := by
  have hn := ne_zero_of_le_log2 hp h
  have hmax : max f.lowest ((n.log2 : Int) + 1 - f.precision) = n.log2 + 1 - f.precision := by omega
  have hdown : (-((n.log2 : Int) + 1 - f.precision)).toNat = 0 := by omega
  have hup : ((n.log2 : Int) + 1 - f.precision).toNat = n.log2 + 1 - f.precision := by omega
  rw [round, if_neg hn, floorLog_one hn, hmax]
  simp only [inUnits, hdown, hup, Nat.pow_eq, Nat.pow_zero, Nat.mul_one, Nat.one_mul, unit]
  rfl

/-- A whole number comes out of a format as the nearest multiple of its unit. -/
theorem floor_round (hl : f.lowest ≤ 1 - f.precision) (hp : 0 < f.precision) (n : Nat) :
    (f.round n 1).floor = nearestEven n (unit f.precision n) * unit f.precision n := by
  by_cases hn : n = 0
  · subst hn
    simp [round, Magnitude.floor, nearestEven]
  rcases Nat.lt_or_ge n.log2 f.precision with h | h
  · have hunit : unit f.precision n = 1 := by
      rw [unit, Nat.sub_eq_zero_of_le h, Nat.pow_zero]
    have hup : ((n.log2 : Int) + 1 - f.precision).toNat = 0 := by omega
    have hdown : (-((n.log2 : Int) + 1 - f.precision)).toNat = f.precision - (n.log2 + 1) := by omega
    rw [round_of_short hn hl h, hunit, nearestEven_one, Magnitude.floor]
    simp only [hup, hdown, Nat.pow_eq, Nat.pow_zero, Nat.mul_one]
    exact Nat.mul_div_cancel n (Nat.two_pow_pos _)
  · have hup : ((n.log2 : Int) + 1 - f.precision).toNat = n.log2 + 1 - f.precision := by omega
    have hup' : ((n.log2 : Int) + 1 - f.precision + 1).toNat = n.log2 + 1 - f.precision + 1 := by omega
    have hdown : (-((n.log2 : Int) + 1 - f.precision)).toNat = 0 := by omega
    have hdown' : (-((n.log2 : Int) + 1 - f.precision + 1)).toNat = 0 := by omega
    rw [round_of_long hl hp h, Magnitude.floor]
    split
    · rename_i hcarry
      simp only [hup', hdown', Nat.pow_eq, Nat.pow_zero, Nat.div_one]
      rw [hcarry, unit, ← Nat.pow_add, ← Nat.pow_add]
      congr 1
      omega
    · simp only [hup, hdown, Nat.pow_eq, Nat.pow_zero, Nat.div_one, unit]

theorem exponent_round_le (hl : f.lowest ≤ 1 - f.precision) (hp : 0 < f.precision) (n : Nat) :
    (f.round n 1).exponent ≤ max 0 (n.log2 + 2 - f.precision) := by
  by_cases hn : n = 0
  · subst hn
    simp only [round, if_pos]
    omega
  rcases Nat.lt_or_ge n.log2 f.precision with h | h
  · rw [round_of_short hn hl h]
    dsimp only
    omega
  · rw [round_of_long hl hp h]
    split <;> dsimp only <;> omega

/-- A format rounds whole numbers to its precision. -/
theorem rounds_floor (hl : f.lowest ≤ 1 - f.precision) (hp : 1 < f.precision) (n : Nat) :
    Rounds f.precision n (f.round n 1).floor := by
  rw [floor_round hl (by omega)]
  exact rounds_nearestEven hp n

end GestureActions.BinaryFormat
