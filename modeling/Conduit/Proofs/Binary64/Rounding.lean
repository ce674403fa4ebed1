/-
The number nearest to a quotient. A number of the format is the nearest to every rational within half a unit of its
last place, and within a quarter below a power of two, where the numbers lie closer; the ends count when the significand
is even. Whatever the quotient, the nearest is a number of the format.
-/
import Conduit.Binary64
import Mathlib.Algebra.Order.Field.Power
import Mathlib.Data.Int.Log
import Mathlib.Data.Rat.Floor
import Mathlib.Tactic.FieldSimp
import Mathlib.Tactic.Linarith
import Mathlib.Tactic.Positivity
import Mathlib.Tactic.Ring

namespace Conduit.Binary64

open Numeral (twoTo tenTo)

variable {num den n d m : Nat} {e k : Int} {r : ℚ}

theorem twoTo_eq (n : Nat) : twoTo n = 2 ^ n := rfl

theorem tenTo_eq (n : Nat) : tenTo n = 10 ^ n := rfl

theorem two_zpow_pos (e : Int) : (0 : ℚ) < 2 ^ e := zpow_pos (by norm_num) e

theorem ten_zpow_pos (k : Int) : (0 : ℚ) < 10 ^ k := zpow_pos (by norm_num) k

theorem zpow_of_nonneg (a : ℚ) (hk : 0 ≤ k) : a ^ k = a ^ k.toNat := by
  rw [← zpow_natCast, Int.toNat_of_nonneg hk]

theorem zpow_of_neg (a : ℚ) (hk : ¬0 ≤ k) : a ^ k = (a ^ (-k).toNat)⁻¹ := by
  rw [← zpow_natCast, Int.toNat_of_nonneg (by omega), zpow_neg, inv_inv]

/-! ## Numbers of the format -/

/-- The significand and the exponent of a number: at most 53 bits, and fewer only at the least exponent. -/
structure InFormat (m : Nat) (e : Int) : Prop where
  bits : m < 2 ^ 53
  least : leastExponent ≤ e
  greatest : e ≤ greatestExponent
  full : 2 ^ 52 ≤ m ∨ e = leastExponent

/-- A number of the format. -/
def Proper : Binary64 → Prop
  | .finite _ m e => InFormat m e
  | _ => True

theorem proper_zero (negative : Bool) : (zero negative).Proper :=
  ⟨by norm_num, le_refl _, by decide, .inr rfl⟩

/-- How far below a number, in units of its last place, the rationals read as it. -/
def below (m : Nat) (e : Int) : ℚ := if m = 2 ^ 52 ∧ leastExponent < e then 1 / 4 else 1 / 2

/-- The rational reads as `m * 2 ^ e`. -/
structure Reads (m : Nat) (e : Int) (r : ℚ) : Prop where
  low : (m : ℚ) - below m e ≤ r / 2 ^ e
  high : r / 2 ^ e ≤ m + 1 / 2
  even : m - below m e = r / 2 ^ e ∨ r / 2 ^ e = m + 1 / 2 → m % 2 = 0

theorem below_le (m : Nat) (e : Int) : below m e ≤ 1 / 2 := by
  unfold below
  split_ifs <;> norm_num

theorem Reads.pos (h : Reads m e r) (hm : 0 < m) : 0 < r := by
  have hm' : (1 : ℚ) ≤ m := by exact_mod_cast hm
  have hbelow := below_le m e
  have hunits : 0 < r / 2 ^ e := by linarith [h.low]
  exact (div_pos_iff_of_pos_right (two_zpow_pos e)).1 hunits

/-! ## Rounding to integers -/

theorem halfEven_of_bounds (hd : 0 < d) (hlow : 2 * (m * d) ≤ 2 * n + d) (hhigh : 2 * n ≤ 2 * (m * d) + d)
    (heven : 2 * (m * d) = 2 * n + d ∨ 2 * n = 2 * (m * d) + d → m % 2 = 0) : halfEven n d = m := by
  have hsplit : n = d * (n / d) + n % d := (Nat.div_add_mod n d).symm
  have hrest : n % d < d := Nat.mod_lt n hd
  unfold halfEven
  dsimp only
  generalize n / d = q at *
  generalize n % d = s at *
  subst hsplit
  -- The bounds leave two candidates, the quotient and what follows it; the rest tells which.
  have hle : m ≤ q + 1 := by
    by_contra h
    have : (q + 2) * d ≤ m * d := Nat.mul_le_mul_right d (by omega)
    nlinarith
  have hge : q ≤ m := by
    by_contra h
    have : (m + 1) * d ≤ q * d := Nat.mul_le_mul_right d (by omega)
    nlinarith
  rcases Nat.le_iff_lt_or_eq.1 hle with hlt | rfl
  · obtain rfl : m = q := by omega
    rw [if_neg]
    rintro (h | ⟨h, hodd⟩)
    · nlinarith
    · have := heven (.inr (by nlinarith))
      omega
  · have hhalf : d ≤ 2 * s := by nlinarith
    rw [if_pos]
    rcases Nat.lt_or_eq_of_le hhalf with h | h
    · exact .inl h
    · have := heven (.inl (by nlinarith))
      exact .inr ⟨h.symm, by omega⟩

/-- What lies within a half of an integer is rounded to it, and a half goes to the even one. -/
theorem halfEven_eq (hd : 0 < d) (hlow : (m : ℚ) - 1 / 2 ≤ n / d) (hhigh : (n : ℚ) / d ≤ m + 1 / 2)
    (heven : (m : ℚ) - 1 / 2 = n / d ∨ (n : ℚ) / d = m + 1 / 2 → m % 2 = 0) : halfEven n d = m := by
  have hdq : (0 : ℚ) < d := by exact_mod_cast hd
  rw [le_div_iff₀ hdq] at hlow
  rw [div_le_iff₀ hdq] at hhigh
  rw [eq_div_iff hdq.ne', div_eq_iff hdq.ne'] at heven
  refine halfEven_of_bounds hd ?_ ?_ fun h => heven ?_
  · have : ((2 * (m * d) : ℕ) : ℚ) ≤ ((2 * n + d : ℕ) : ℚ) := by push_cast; linarith
    exact_mod_cast this
  · have : ((2 * n : ℕ) : ℚ) ≤ ((2 * (m * d) + d : ℕ) : ℚ) := by push_cast; linarith
    exact_mod_cast this
  · refine h.imp (fun h => ?_) fun h => ?_
    · have : ((2 * (m * d) : ℕ) : ℚ) = ((2 * n + d : ℕ) : ℚ) := by rw [h]
      push_cast at this
      linarith
    · have : ((2 * n : ℕ) : ℚ) = ((2 * (m * d) + d : ℕ) : ℚ) := by rw [h]
      push_cast at this
      linarith

theorem halfEven_le {b : Nat} (hd : 0 < d) (h : (n : ℚ) / d < b) : halfEven n d ≤ b := by
  have hq : n / d < b := by
    rw [div_lt_iff₀ (by exact_mod_cast hd)] at h
    exact (Nat.div_lt_iff_lt_mul hd).2 (by exact_mod_cast h)
  unfold halfEven
  dsimp only
  split_ifs <;> omega

theorem le_halfEven {b : Nat} (hd : 0 < d) (h : (b : ℚ) ≤ n / d) : b ≤ halfEven n d := by
  have hq : b ≤ n / d := by
    rw [le_div_iff₀ (by exact_mod_cast hd)] at h
    exact (Nat.le_div_iff_mul_le hd).2 (by exact_mod_cast h)
  unfold halfEven
  dsimp only
  split_ifs <;> omega

/-! ## The exponent -/

/-- A quotient divided by a power, which goes to the one side or the other. -/
theorem quotient_spec {b : Nat} (hb : 0 < b) (num : Nat) (hden : 0 < den) (e : Int) {p : Nat × Nat}
    (hp : p = if e ≥ 0 then (num, den * b ^ e.toNat) else (num * b ^ (-e).toNat, den)) :
    0 < p.2 ∧ (p.1 : ℚ) / p.2 = num / den / (b : ℚ) ^ e := by
  subst hp
  split_ifs with he
  · refine ⟨Nat.mul_pos hden (Nat.pow_pos hb), ?_⟩
    rw [zpow_of_nonneg _ he]
    push_cast
    rw [div_div]
  · refine ⟨hden, ?_⟩
    rw [zpow_of_neg _ he]
    push_cast
    field_simp

theorem scaled_spec (num : Nat) (hden : 0 < den) (e : Int) :
    0 < (scaled num den e).2 ∧ ((scaled num den e).1 : ℚ) / (scaled num den e).2 = num / den / 2 ^ e :=
  quotient_spec (b := 2) (by decide) num hden e rfl

theorem log_eq (hlow : (2 : ℚ) ^ k ≤ r) (hhigh : r < 2 ^ (k + 1)) : Int.log 2 r = k := by
  have hr : 0 < r := lt_of_lt_of_le (two_zpow_pos k) hlow
  have hle : k ≤ Int.log 2 r := (Int.zpow_le_iff_le_log (b := 2) (by decide) hr).1 (by exact_mod_cast hlow)
  have hlt : Int.log 2 r < k + 1 := (Int.lt_zpow_iff_log_lt (b := 2) (by decide) hr).1 (by exact_mod_cast hhigh)
  omega

/-- A quotient lies within a factor of two of the quotient of the powers below its terms. -/
theorem quotient_bounds (hnum : 0 < num) (hden : 0 < den) {guess : Int}
    (hguess : (num.log2 : Int) - den.log2 - 53 = guess) :
    (2 : ℚ) ^ (guess + 52) ≤ num / den ∧ (num : ℚ) / den < 2 ^ (guess + 54) := by
  have hdq : (0 : ℚ) < den := by exact_mod_cast hden
  rw [le_div_iff₀ hdq, div_lt_iff₀ hdq]
  constructor
  · -- The numerator is least and the denominator greatest for their numbers of bits.
    have hn : (2 : ℚ) ^ (num.log2 : Int) ≤ num := by
      rw [zpow_natCast]; exact_mod_cast Nat.log2_self_le hnum.ne'
    have hd : (den : ℚ) ≤ 2 ^ ((den.log2 : Int) + 1) := by
      rw [← Nat.cast_succ, zpow_natCast]; exact_mod_cast (Nat.lt_log2_self (n := den)).le
    calc (2 : ℚ) ^ (guess + 52) * den ≤ 2 ^ (guess + 52) * 2 ^ ((den.log2 : Int) + 1) := by gcongr
      _ = 2 ^ (num.log2 : Int) := by rw [← zpow_add₀ (by norm_num)]; congr 1; omega
      _ ≤ num := hn
  · have hn : (num : ℚ) < 2 ^ ((num.log2 : Int) + 1) := by
      rw [← Nat.cast_succ, zpow_natCast]; exact_mod_cast Nat.lt_log2_self (n := num)
    have hd : (2 : ℚ) ^ (den.log2 : Int) ≤ den := by
      rw [zpow_natCast]; exact_mod_cast Nat.log2_self_le hden.ne'
    calc (num : ℚ) < 2 ^ ((num.log2 : Int) + 1) := hn
      _ = 2 ^ (guess + 54) * 2 ^ (den.log2 : Int) := by rw [← zpow_add₀ (by norm_num)]; congr 1; omega
      _ ≤ 2 ^ (guess + 54) * den := by gcongr

theorem exponentOf_eq (hnum : 0 < num) (hden : 0 < den) :
    exponentOf num den = max (Int.log 2 ((num : ℚ) / den) - 52) leastExponent := by
  unfold exponentOf
  dsimp only
  generalize hguess : (num.log2 : Int) - den.log2 - 53 = guess
  obtain ⟨hlow, hhigh⟩ := quotient_bounds hnum hden hguess
  obtain ⟨hpos, hquot⟩ := scaled_spec num hden guess
  -- whether the quotient at the guess has a bit too many
  have hcarry : twoTo 53 ≤ (scaled num den guess).1 / (scaled num den guess).2 ↔
      (2 : ℚ) ^ (guess + 53) ≤ num / den := by
    rw [Nat.le_div_iff_mul_le hpos, ← Nat.cast_le (α := ℚ), Nat.cast_mul, ← le_div_iff₀ (by exact_mod_cast hpos), hquot,
      le_div_iff₀ (two_zpow_pos guess), twoTo_eq, add_comm guess, zpow_add₀ (by norm_num)]
    norm_num
  congr 1
  by_cases h : (2 : ℚ) ^ (guess + 53) ≤ num / den
  · rw [if_pos (hcarry.2 h), log_eq h (by rwa [show guess + 53 + 1 = guess + 54 by ring])]
    ring
  · have hlt : (num : ℚ) / den < 2 ^ (guess + 52 + 1) := by
      rw [show guess + 52 + 1 = guess + 53 by ring]
      exact not_le.1 h
    rw [if_neg fun hc => h (hcarry.1 hc), log_eq hlow hlt]
    ring

/-! ## The nearest number -/

theorem log_of_units (hlow : (2 : ℚ) ^ 52 ≤ r / 2 ^ e) (hhigh : r / 2 ^ e < 2 ^ 53) : Int.log 2 r = e + 52 := by
  rw [le_div_iff₀ (two_zpow_pos e)] at hlow
  rw [div_lt_iff₀ (two_zpow_pos e)] at hhigh
  refine log_eq ?_ ?_
  · rwa [zpow_add₀ (by norm_num), mul_comm]
  · rwa [show e + 52 + 1 = e + 53 by ring, zpow_add₀ (by norm_num), mul_comm]

/-- At its exponent a quotient has a whole part of 53 bits, or of fewer at the least exponent. -/
theorem units_of_exponent (hr : 0 < r) (he : max (Int.log 2 r - 52) leastExponent = e) :
    r / 2 ^ e < 2 ^ 53 ∧ (2 ^ 52 ≤ r / 2 ^ e ∨ e = leastExponent) := by
  have hlow := Int.zpow_log_le_self (b := 2) (by decide) hr
  have hhigh := Int.lt_zpow_succ_log_self (b := 2) (by decide) r
  push_cast at hlow hhigh
  rw [div_lt_iff₀ (two_zpow_pos e), le_div_iff₀ (two_zpow_pos e)]
  constructor
  · calc r < 2 ^ (Int.log 2 r + 1) := hhigh
      _ ≤ 2 ^ (53 + e) := zpow_le_zpow_right₀ (by norm_num) (by omega)
      _ = 2 ^ 53 * 2 ^ e := by rw [zpow_add₀ (by norm_num)]; norm_cast
  · rcases max_choice (Int.log 2 r - 52) leastExponent with h | h
    · left
      calc (2 : ℚ) ^ 52 * 2 ^ e = 2 ^ (52 + e) := by rw [zpow_add₀ (by norm_num)]; norm_cast
        _ = 2 ^ Int.log 2 r := by congr 1; omega
        _ ≤ r := hlow
    · exact .inr (he.symm.trans h)

theorem units_pred (r : ℚ) (e : Int) : r / 2 ^ (e - 1) = 2 * (r / 2 ^ e) := by
  rw [zpow_sub₀ (by norm_num), zpow_one]
  field_simp

/-- What reads as a number has its exponent, or lies below a power of two and has one that is less by one. -/
theorem Reads.exponent (h : Reads m e r) (hm : 0 < m) (hf : InFormat m e) :
    max (Int.log 2 r - 52) leastExponent = e ∨
      m = 2 ^ 52 ∧ (m : ℚ) - 1 / 4 ≤ r / 2 ^ e ∧ r / 2 ^ e < m ∧ max (Int.log 2 r - 52) leastExponent = e - 1 := by
  have hbits : (m : ℚ) + 1 ≤ 2 ^ 53 := by exact_mod_cast hf.bits
  have hlt : r / 2 ^ e < 2 ^ 53 := by linarith [h.high]
  -- Where the units stay at or above the greatest power of two, the exponent is the one read off. Below that it is the
  -- same at the least exponent, and one less elsewhere.
  by_cases hwhole : (2 : ℚ) ^ 52 ≤ r / 2 ^ e
  · rw [log_of_units hwhole hlt]
    have := hf.least
    exact .inl (by omega)
  · push Not at hwhole
    by_cases hleast : e = leastExponent
    · left
      rw [div_lt_iff₀ (two_zpow_pos e)] at hwhole
      have hlog : Int.log 2 r < e + 52 := by
        rw [← Int.lt_zpow_iff_log_lt (b := 2) (by decide) (h.pos hm), zpow_add₀ (by norm_num)]
        calc r < 2 ^ 52 * 2 ^ e := hwhole
          _ = ((2 : ℕ) : ℚ) ^ e * ((2 : ℕ) : ℚ) ^ (52 : Int) := by norm_num [mul_comm]
      omega
    · right
      have hfull : 2 ^ 52 ≤ m := hf.full.resolve_right hleast
      have hle : (m : ℚ) < 2 ^ 52 + 1 := by linarith [h.low, below_le m e]
      have hm52 : m = 2 ^ 52 := by
        have : m < 2 ^ 52 + 1 := by exact_mod_cast hle
        omega
      have hlow := h.low
      rw [below, if_pos ⟨hm52, lt_of_le_of_ne hf.least (Ne.symm hleast)⟩] at hlow
      have hm : (m : ℚ) = 2 ^ 52 := by exact_mod_cast hm52
      refine ⟨hm52, hlow, hm ▸ hwhole, ?_⟩
      rw [log_of_units (e := e - 1)]
      · have := hf.least
        omega
      · rw [units_pred]
        linarith
      · rw [units_pred]
        linarith

/-- What reads as a number is rounded to it. -/
theorem nearest_of_reads (hf : InFormat m e) (hm : 0 < m) (hnum : 0 < num) (hden : 0 < den)
    (h : Reads m e ((num : ℚ) / den)) (negative : Bool) : nearest negative num den = .finite negative m e := by
  unfold nearest
  rw [if_neg hnum.ne', exponentOf_eq hnum hden]
  dsimp only
  rcases h.exponent hm hf with he | ⟨hm52, hlow, hlt, he⟩
  · obtain ⟨hd, hunits⟩ := scaled_spec num hden e
    have hround : halfEven (scaled num den e).1 (scaled num den e).2 = m := by
      refine halfEven_eq hd ?_ ?_ ?_ <;> rw [hunits]
      · linarith [h.low, below_le m e]
      · exact h.high
      · rintro (heq | heq)
        · exact h.even (.inl (le_antisymm h.low (by linarith [below_le m e])))
        · exact h.even (.inr heq)
    have hbits : m ≠ twoTo 53 := ne_of_lt hf.bits
    rw [he, hround, if_neg hbits]
    exact if_neg (not_lt.2 hf.greatest)
  · -- at the exponent of the quotient the significand comes to one bit too many
    obtain ⟨hd, hunits⟩ := scaled_spec num hden (e - 1)
    have hm : (m : ℚ) = 2 ^ 52 := by exact_mod_cast hm52
    have hround : halfEven (scaled num den (e - 1)).1 (scaled num den (e - 1)).2 = 2 ^ 53 := by
      refine halfEven_eq hd ?_ ?_ fun _ => rfl <;> rw [hunits, units_pred] <;> push_cast <;> linarith
    rw [he, hround, if_pos (twoTo_eq 53).symm, hm52]
    dsimp only
    rw [sub_add_cancel]
    exact if_neg (not_lt.2 hf.greatest)

/-- Whatever is rounded, a number of the format comes of it. -/
theorem proper_nearest (negative : Bool) (num : Nat) (hden : 0 < den) : (nearest negative num den).Proper := by
  unfold nearest
  split_ifs with hnum
  · exact proper_zero negative
  have hpos : (0 : ℚ) < num / den := by
    have : 0 < num := Nat.pos_of_ne_zero hnum
    positivity
  rw [exponentOf_eq (Nat.pos_of_ne_zero hnum) hden]
  dsimp only
  generalize he : max (Int.log 2 ((num : ℚ) / den) - 52) leastExponent = e
  obtain ⟨hlt, hfull⟩ := units_of_exponent hpos he
  obtain ⟨hd, hunits⟩ := scaled_spec num hden e
  rw [← hunits] at hlt hfull
  have hleast : leastExponent ≤ e := he ▸ le_max_right ..
  have hbits : halfEven (scaled num den e).1 (scaled num den e).2 ≤ 2 ^ 53 := halfEven_le hd (by exact_mod_cast hlt)
  have hfull' : 2 ^ 52 ≤ halfEven (scaled num den e).1 (scaled num den e).2 ∨ e = leastExponent :=
    hfull.imp_left fun h => le_halfEven hd (by exact_mod_cast h)
  generalize halfEven (scaled num den e).1 (scaled num den e).2 = m at hbits hfull'
  -- Rounding may carry into a bit too many, and then the exponent goes up by one.
  by_cases hm : m = twoTo 53
  · rw [if_pos hm]
    dsimp only
    split_ifs with htop
    · trivial
    · exact ⟨by decide, by omega, not_lt.1 htop, .inl (le_refl _)⟩
  · rw [if_neg hm]
    dsimp only
    split_ifs with htop
    · trivial
    · exact ⟨lt_of_le_of_ne hbits hm, hleast, not_lt.1 htop, hfull'⟩

/-! ## Decimals -/

theorem digitCount_pos (n : Nat) : 0 < digitCount n := Nat.length_toDigits_pos

theorem lt_pow_digitCount (n : Nat) : n < 10 ^ digitCount n :=
  (Nat.length_toDigits_le_iff (by decide) (digitCount_pos n)).1 (le_refl _)

theorem pow_digitCount_le (hn : 0 < n) : 10 ^ (digitCount n - 1) ≤ n := by
  by_contra h
  push Not at h
  have hpos := digitCount_pos n
  rcases Nat.eq_zero_or_pos (digitCount n - 1) with hone | hmore
  · rw [hone] at h
    omega
  · have : digitCount n ≤ digitCount n - 1 := (Nat.length_toDigits_le_iff (by decide) hmore).2 h
    omega

theorem two_pow_1024_lt : 2 ^ 1024 < 10 ^ 310 := by decide +kernel

theorem two_pow_1075_lt : 2 ^ 1075 < 10 ^ 331 := by decide +kernel

theorem Reads.lt (h : Reads m e r) (hf : InFormat m e) : r < 10 ^ (310 : Int) := by
  have hbits : (m : ℚ) + 1 ≤ 2 ^ 53 := by exact_mod_cast hf.bits
  have hunits : r / 2 ^ e < 2 ^ 53 := by linarith [h.high]
  rw [div_lt_iff₀ (two_zpow_pos e)] at hunits
  calc r < 2 ^ ((53 : Nat) : Int) * 2 ^ e := by exact_mod_cast hunits
    _ = 2 ^ (53 + e) := by rw [← zpow_add₀ (by norm_num)]; rfl
    _ ≤ 2 ^ ((1024 : Nat) : Int) :=
      zpow_le_zpow_right₀ (by norm_num) (by have := hf.greatest; rw [greatestExponent] at this; omega)
    _ < 10 ^ ((310 : Nat) : Int) := by
      rw [zpow_natCast, zpow_natCast]
      exact_mod_cast two_pow_1024_lt

theorem Reads.gt (h : Reads m e r) (hm : 0 < m) (hf : InFormat m e) : 10 ^ (-331 : Int) < r := by
  have hm' : (1 : ℚ) ≤ m := by exact_mod_cast hm
  have hunits : 1 / 2 ≤ r / 2 ^ e := by linarith [h.low, below_le m e]
  rw [le_div_iff₀ (two_zpow_pos e)] at hunits
  calc (10 : ℚ) ^ (-((331 : Nat) : Int)) < 2 ^ (-((1075 : Nat) : Int)) := by
        rw [zpow_neg, zpow_neg, zpow_natCast, zpow_natCast, inv_lt_inv₀ (by positivity) (by positivity)]
        exact_mod_cast two_pow_1075_lt
    _ ≤ 2 ^ (-1 + e) := zpow_le_zpow_right₀ (by norm_num) (by have := hf.least; rw [leastExponent] at this; omega)
    _ = 1 / 2 * 2 ^ e := by rw [zpow_add₀ (by norm_num)]; norm_num
    _ ≤ r := hunits

/-- A decimal that reads as a number is rounded to it. -/
theorem ofDecimal_of_reads {digits : Nat} {power : Int} (hf : InFormat m e) (hm : 0 < m)
    (h : Reads m e (digits * 10 ^ power)) (negative : Bool) :
      ofDecimal negative digits power = .finite negative m e := by
  have hdigits : 0 < digits := by
    have := (mul_pos_iff_of_pos_right (ten_zpow_pos power)).1 (h.pos hm)
    exact_mod_cast this
  have hcount := digitCount_pos digits
  -- The decimal is far from both ends of the range, so neither of the early answers is given.
  have hbig : digitCount digits + power ≤ 310 := by
    have hle : (10 : ℚ) ^ ((digitCount digits - 1 : Nat) : Int) ≤ digits := by
      rw [zpow_natCast]; exact_mod_cast pow_digitCount_le hdigits
    have hlt : (10 : ℚ) ^ (((digitCount digits - 1 : Nat) : Int) + power) < 10 ^ (310 : Int) := by
      rw [zpow_add₀ (by norm_num)]
      exact lt_of_le_of_lt (mul_le_mul_of_nonneg_right hle (ten_zpow_pos power).le) (h.lt hf)
    have := (zpow_lt_zpow_iff_right₀ (by norm_num)).1 hlt
    omega
  have hsmall : -330 ≤ digitCount digits + power := by
    have hle : (digits : ℚ) < 10 ^ (digitCount digits : Int) := by
      rw [zpow_natCast]; exact_mod_cast lt_pow_digitCount digits
    have hlt : (10 : ℚ) ^ (-331 : Int) < 10 ^ ((digitCount digits : Int) + power) := by
      rw [zpow_add₀ (by norm_num)]
      exact lt_trans (h.gt hm hf) (mul_lt_mul_of_pos_right hle (ten_zpow_pos power))
    have := (zpow_lt_zpow_iff_right₀ (by norm_num)).1 hlt
    omega
  unfold ofDecimal
  rw [if_neg hdigits.ne']
  dsimp only
  rw [if_neg (not_lt.2 hbig), if_neg (not_lt.2 hsmall)]
  split_ifs with hpower
  · refine nearest_of_reads hf hm (Nat.mul_pos hdigits (Nat.pow_pos (by decide))) one_pos ?_ negative
    rw [zpow_of_nonneg _ hpower] at h
    push_cast
    rwa [div_one]
  · refine nearest_of_reads hf hm hdigits (Nat.pow_pos (by decide)) ?_ negative
    rw [zpow_of_neg _ hpower, ← div_eq_mul_inv] at h
    exact_mod_cast h

theorem proper_ofDecimal (negative : Bool) (digits : Nat) (power : Int) : (ofDecimal negative digits power).Proper := by
  unfold ofDecimal
  dsimp only
  split_ifs
  · exact proper_zero negative
  · trivial
  · exact proper_zero negative
  · exact proper_nearest negative _ one_pos
  · exact proper_nearest negative _ (Nat.pow_pos (by decide))

end Conduit.Binary64
