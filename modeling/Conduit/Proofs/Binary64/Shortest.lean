/-
The digits that a number is written with read as that number. Of 17 digits one choice always does, since the nearest
decimal of so many digits is nearer than half a unit of the last place; so the search for fewer ends with digits that
read back.
-/
import Conduit.Binary64.Decimal
import Conduit.Proofs.Binary64.Rounding

namespace Conduit.Binary64

open Numeral (twoTo tenTo)

variable {m d : Nat} {e k : Int} {x : ℚ}

/-! ## Reading back -/

theorem quarters_spec (m : Nat) (e : Int) :
    0 < (quarters m e).2 ∧ ((quarters m e).1 : ℚ) / (quarters m e).2 = m * 2 ^ e := by
  unfold quarters
  split_ifs with he
  · refine ⟨one_pos, ?_⟩
    rw [twoTo_eq, zpow_of_nonneg _ (by omega)]
    push_cast
    rw [div_one]
  · obtain ⟨n, hn⟩ : ∃ n : Nat, e = 2 - (n : Int) := ⟨(2 - e).toNat, by omega⟩
    subst hn
    refine ⟨Nat.pow_pos (by decide), ?_⟩
    rw [show (2 - (2 - (n : Int))).toNat = n by omega, twoTo_eq, zpow_sub₀ (by norm_num), zpow_natCast]
    push_cast
    ring

/-- A quarter of the last place. -/
theorem quarter_spec (m : Nat) (e : Int) :
    ((if e ≥ 2 then twoTo (e.toNat - 2) else 1 : Nat) : ℚ) / (quarters m e).2 = 2 ^ e / 4 := by
  unfold quarters
  split_ifs with he
  · obtain ⟨n, hn⟩ : ∃ n : Nat, e = n + 2 := ⟨(e - 2).toNat, by omega⟩
    subst hn
    rw [show ((n : Int) + 2).toNat - 2 = n by omega, twoTo_eq, zpow_add₀ (by norm_num), zpow_natCast]
    push_cast
    ring
  · obtain ⟨n, hn⟩ : ∃ n : Nat, e = 2 - (n : Int) := ⟨(2 - e).toNat, by omega⟩
    subst hn
    rw [show (2 - (2 - (n : Int))).toNat = n by omega, twoTo_eq, zpow_sub₀ (by norm_num), zpow_natCast]
    push_cast
    ring

theorem readingEnds_spec (hm : 0 < m) (e : Int) :
    ((readingEnds m e).1 : ℚ) / (quarters m e).2 = (m - below m e) * 2 ^ e ∧
      ((readingEnds m e).2 : ℚ) / (quarters m e).2 = (m + 1 / 2) * 2 ^ e := by
  obtain ⟨hpos, hwhole⟩ := quarters_spec m e
  have hquarter := quarter_spec m e
  unfold readingEnds
  dsimp only
  generalize (if e ≥ 2 then twoTo (e.toNat - 2) else 1 : Nat) = unit at hquarter
  generalize (quarters m e).1 = whole at hwhole
  generalize (quarters m e).2 = den at hpos hwhole hquarter
  have hdq : (0 : ℚ) < den := by exact_mod_cast hpos
  -- the lower end does not fall below zero
  have hle : 2 * unit ≤ whole := by
    have hm' : (1 : ℚ) ≤ m := by exact_mod_cast hm
    have hcast : ((2 * unit : ℕ) : ℚ) / den ≤ (whole : ℚ) / den := by
      push_cast
      rw [hwhole, mul_div_assoc, hquarter]
      nlinarith [two_zpow_pos e]
    exact_mod_cast (div_le_div_iff_of_pos_right hdq).1 hcast
  constructor
  · unfold below
    rw [twoTo_eq 52]
    split_ifs with h
    · rw [Nat.cast_sub (by omega), sub_div, hwhole, hquarter]
      ring
    · rw [Nat.cast_sub hle, sub_div, hwhole]
      push_cast
      rw [mul_div_assoc, hquarter]
      ring
  · push_cast
    rw [add_div, hwhole, mul_div_assoc, hquarter]
    ring

/-- A decimal over a denominator, compared with a number over another. -/
theorem compare_spec {a v scale den : Nat} (hscale : 0 < scale) (hden : 0 < den) (hx : (v : ℚ) / (scale * den) = x) :
    (a * scale ≤ v ↔ (a : ℚ) / den ≤ x) ∧ (v ≤ a * scale ↔ x ≤ (a : ℚ) / den) := by
  have hs : (0 : ℚ) < scale := by exact_mod_cast hscale
  have hd : (0 : ℚ) < den := by exact_mod_cast hden
  have ha : (a : ℚ) / den = (a * scale : ℕ) / (scale * den) := by
    push_cast
    field_simp
  rw [← hx, ha, div_le_div_iff_of_pos_right (by positivity), div_le_div_iff_of_pos_right (by positivity)]
  exact ⟨by norm_cast, by norm_cast⟩

theorem reads_iff (hm : 0 < m) : Reads m e x ↔
    ((readingEnds m e).1 : ℚ) / (quarters m e).2 ≤ x ∧ x ≤ (readingEnds m e).2 / (quarters m e).2 ∧
      (((readingEnds m e).1 : ℚ) / (quarters m e).2 = x ∨ x = (readingEnds m e).2 / (quarters m e).2 → m % 2 = 0) := by
  obtain ⟨hlow, hhigh⟩ := readingEnds_spec hm e
  have he := two_zpow_pos e
  rw [hlow, hhigh, ← le_div_iff₀ he, ← div_le_iff₀ he, ← eq_div_iff he.ne', ← div_eq_iff he.ne']
  exact ⟨fun h => ⟨h.low, h.high, h.even⟩, fun h => ⟨h.1, h.2.1, h.2.2⟩⟩

/-- The comparison decides whether a decimal reads as a number. -/
theorem readsAs_iff (hm : 0 < m) (e : Int) (d : Nat) (k : Int) : readsAs m e d k = true ↔ Reads m e (d * 10 ^ k) := by
  obtain ⟨hpos, -⟩ := quarters_spec m e
  have hdq : ((quarters m e).2 : ℚ) ≠ 0 := by exact_mod_cast hpos.ne'
  rw [reads_iff hm]
  unfold readsAs
  dsimp only
  -- the decimal as a quotient over the denominator
  obtain ⟨v, scale, hpair, hscale, hx⟩ : ∃ v scale : Nat,
      (if k ≥ 0 then (d * tenTo k.toNat * (quarters m e).2, 1)
        else (d * (quarters m e).2, tenTo (-k).toNat)) = (v, scale) ∧
        0 < scale ∧ (v : ℚ) / (scale * (quarters m e).2) = d * 10 ^ k := by
    split_ifs with hk
    · refine ⟨_, _, rfl, one_pos, ?_⟩
      rw [tenTo_eq, zpow_of_nonneg _ hk]
      push_cast
      field_simp
    · refine ⟨_, _, rfl, Nat.pow_pos (by decide), ?_⟩
      rw [tenTo_eq, zpow_of_neg _ hk]
      push_cast
      field_simp
  rw [hpair]
  obtain ⟨hlow, hlow'⟩ := compare_spec (a := (readingEnds m e).1) hscale hpos hx
  obtain ⟨hhigh', hhigh⟩ := compare_spec (a := (readingEnds m e).2) hscale hpos hx
  rw [← hlow, ← hhigh]
  split_ifs with heven
  · simp only [Bool.and_eq_true, decide_eq_true_eq]
    exact ⟨fun h => ⟨h.1, h.2, fun _ => heven⟩, fun h => ⟨h.1, h.2.1⟩⟩
  · simp only [Bool.and_eq_true, decide_eq_true_eq]
    rw [← not_le, ← not_le, hlow', hhigh']
    constructor
    · rintro ⟨h₁, h₂⟩
      refine ⟨hlow.2 (not_le.1 h₁).le, hhigh.2 (not_le.1 h₂).le, ?_⟩
      rintro (h | h)
      · exact absurd h.ge h₁
      · exact absurd h.ge h₂
    · rintro ⟨h₁, h₂, h₃⟩
      refine ⟨fun h => heven (h₃ (.inl (le_antisymm (hlow.1 h₁) h))),
        fun h => heven (h₃ (.inr (le_antisymm (hhigh.1 h₂) h)))⟩

/-! ## The leading digit -/

/-- The power of ten of the leading digit is not too great. -/
theorem leadingPower_le (hm : 0 < m) (e : Int) : (10 : ℚ) ^ leadingPower m e ≤ m * 2 ^ e := by
  obtain ⟨hd, hvalue⟩ := quarters_spec m e
  have hn : 0 < (quarters m e).1 := by
    have hpos : (0 : ℚ) < (quarters m e).1 / (quarters m e).2 := by
      have := two_zpow_pos e
      rw [hvalue]
      positivity
    have := (div_pos_iff_of_pos_right (by exact_mod_cast hd)).1 hpos
    exact_mod_cast this
  rw [← hvalue]
  unfold leadingPower
  dsimp only
  generalize (quarters m e).1 = n at hn
  generalize (quarters m e).2 = d at hd
  have hdq : (0 : ℚ) < d := by exact_mod_cast hd
  rw [le_div_iff₀ hdq]
  split_ifs with hwhole hfirst
  · -- A value of at least one: the digits of its whole part are counted.
    have hquot : 0 < n / d := Nat.div_pos hwhole hd
    have hcount := digitCount_pos (n / d)
    rw [show (digitCount (n / d) : Int) - 1 = ((digitCount (n / d) - 1 : Nat) : Int) by omega, zpow_natCast]
    have hmul : 10 ^ (digitCount (n / d) - 1) * d ≤ n :=
      (Nat.mul_le_mul_right d (pow_digitCount_le hquot)).trans (Nat.div_mul_le_self n d)
    exact_mod_cast hmul
  · rw [zpow_neg, zpow_natCast, inv_mul_le_iff₀ (by positivity), mul_comm]
    exact_mod_cast hfirst
  · -- Below one it is the denominator that has more digits, by the difference or by one more.
    have hmul : d ≤ n * 10 ^ (digitCount d - digitCount n + 1) := by
      calc d ≤ 10 ^ digitCount d := (lt_pow_digitCount d).le
        _ ≤ 10 ^ (digitCount n - 1 + (digitCount d - digitCount n + 1)) :=
          Nat.pow_le_pow_right (by decide) (by have := digitCount_pos n; omega)
        _ = 10 ^ (digitCount n - 1) * 10 ^ (digitCount d - digitCount n + 1) := Nat.pow_add ..
        _ ≤ n * 10 ^ (digitCount d - digitCount n + 1) := Nat.mul_le_mul_right _ (pow_digitCount_le hn)
    rw [show -(((digitCount d - digitCount n : Nat) : Int) + 1) = -((digitCount d - digitCount n + 1 : Nat) : Int) by
        push_cast; ring,
      zpow_neg, zpow_natCast, inv_mul_le_iff₀ (by positivity), mul_comm]
    exact_mod_cast hmul

/-! ## Grids -/

theorem wholePart_spec (m : Nat) (e k : Int) : ∃ n d : Nat, 0 < d ∧ (n : ℚ) / d = m * 2 ^ e / 10 ^ k ∧
    wholePart m e k = (n / d, decide (2 * (n % d) ≥ d)) := by
  obtain ⟨hpos, hvalue⟩ := quarters_spec m e
  unfold wholePart
  dsimp only
  rw [tenTo_eq, tenTo_eq]
  generalize hp : (if k ≥ 0 then ((quarters m e).1, (quarters m e).2 * 10 ^ k.toNat)
    else ((quarters m e).1 * 10 ^ (-k).toNat, (quarters m e).2)) = p
  obtain ⟨hd, hquot⟩ := quotient_spec (b := 10) (by decide) _ hpos k hp.symm
  refine ⟨p.1, p.2, hd, ?_, rfl⟩
  rw [hquot, hvalue]
  norm_cast

/-- The point of a grid that is tried first. -/
def firstOn (m : Nat) (e k : Int) : Nat := if (wholePart m e k).2 then (wholePart m e k).1 + 1 else (wholePart m e k).1

theorem near_half {n d : Nat} (hd : 0 < d) :
    |((if 2 * (n % d) ≥ d then n / d + 1 else n / d : Nat) : ℚ) - n / d| ≤ 1 / 2 := by
  have hdq : (0 : ℚ) < d := by exact_mod_cast hd
  -- The quotient is its whole part and the rest, and the rest is compared with a half.
  have hsplit : (n : ℚ) / d = (n / d : Nat) + ((n % d : Nat) : ℚ) / d := by
    rw [div_eq_iff hdq.ne', add_mul, div_mul_cancel₀ _ hdq.ne']
    exact_mod_cast (Nat.div_add_mod' n d).symm
  have hrest : ((n % d : Nat) : ℚ) / d < 1 := by
    rw [div_lt_one hdq]
    exact_mod_cast Nat.mod_lt n hd
  have hnonneg : (0 : ℚ) ≤ ((n % d : Nat) : ℚ) / d := by positivity
  rw [hsplit, abs_le]
  split_ifs with h
  · have hhalf : (1 : ℚ) / 2 ≤ ((n % d : Nat) : ℚ) / d := by
      rw [div_le_div_iff₀ (by norm_num) hdq]
      have : (d : ℚ) ≤ ((2 * (n % d) : ℕ) : ℚ) := by exact_mod_cast h
      push_cast at this ⊢
      linarith
    push_cast at hhalf hrest ⊢
    constructor <;> linarith
  · have hhalf : ((n % d : Nat) : ℚ) / d < 1 / 2 := by
      rw [div_lt_div_iff₀ hdq (by norm_num)]
      have : ((2 * (n % d) : ℕ) : ℚ) < d := by exact_mod_cast not_le.1 h
      push_cast at this ⊢
      linarith
    constructor <;> linarith

theorem near_firstOn (m : Nat) (e k : Int) : |(firstOn m e k : ℚ) - m * 2 ^ e / 10 ^ k| ≤ 1 / 2 := by
  obtain ⟨n, d, hd, hvalue, hwhole⟩ := wholePart_spec m e k
  rw [← hvalue, firstOn, hwhole]
  simpa using near_half hd

/-- On a grid that is fine enough, the nearest point reads back. -/
theorem reads_firstOn (hf : InFormat m e) (hk : (10 : ℚ) ^ k * 10 ^ 16 ≤ m * 2 ^ e) :
    Reads m e (firstOn m e k * 10 ^ k) := by
  have he := two_zpow_pos e
  have h10 := ten_zpow_pos k
  have hnear := near_firstOn m e k
  -- the step of the grid in units of the last place
  obtain ⟨step, hstep⟩ : ∃ step : ℚ, step = 10 ^ k / 2 ^ e := ⟨_, rfl⟩
  have hpos : 0 < step := hstep ▸ div_pos h10 he
  have hsmall : step * 10 ^ 16 ≤ m := by
    rw [hstep, div_mul_eq_mul_div, div_le_iff₀ he]
    exact hk
  have hunits : (firstOn m e k : ℚ) * 10 ^ k / 2 ^ e = m + (firstOn m e k - m * 2 ^ e / 10 ^ k) * step := by
    rw [hstep]
    field_simp
    ring
  have hbits : (m : ℚ) + 1 ≤ 2 ^ 53 := by exact_mod_cast hf.bits
  have hdist : |((firstOn m e k : ℚ) - m * 2 ^ e / 10 ^ k) * step| ≤ step / 2 := by
    rw [abs_mul, abs_of_pos hpos]
    nlinarith
  obtain ⟨hleft, hright⟩ := abs_le.1 hdist
  have hlow : (m : ℚ) - below m e < firstOn m e k * 10 ^ k / 2 ^ e := by
    rw [hunits]
    unfold below
    split_ifs with h
    · have : (m : ℚ) = 2 ^ 52 := by exact_mod_cast h.1
      linarith
    · linarith
  have hhigh : (firstOn m e k : ℚ) * 10 ^ k / 2 ^ e < m + 1 / 2 := by
    rw [hunits]
    linarith
  exact ⟨hlow.le, hhigh.le, fun h => (h.elim (fun h => hlow.ne h) fun h => hhigh.ne h).elim⟩

theorem readsAs_of_onGrid (h : onGrid m e k = some d) : readsAs m e d k = true := by
  unfold onGrid at h
  dsimp only at h
  generalize (if (wholePart m e k).2 = true then ((wholePart m e k).1 + 1, (wholePart m e k).1)
    else ((wholePart m e k).1, (wholePart m e k).1 + 1)) = p at h
  split_ifs at h with h₁ h₂
  · cases h
    exact h₁
  · cases h
    exact h₂

theorem onGrid_isSome (h : readsAs m e (firstOn m e k) k = true) : (onGrid m e k).isSome := by
  unfold firstOn at h
  unfold onGrid
  dsimp only
  cases hup : (wholePart m e k).2 with
  | true =>
    rw [hup, if_pos rfl] at h
    rw [if_pos rfl, if_pos h]
    rfl
  | false =>
    rw [hup, if_neg Bool.false_ne_true] at h
    rw [if_neg Bool.false_ne_true, if_pos h]
    rfl

/-! ## The search -/

theorem searchGrids_reads {top : Int} : ∀ {fuel n j : Nat}, n ≤ j → j < n + fuel → (onGrid m e (top - j)).isSome →
    readsAs m e (searchGrids m e top fuel n).1 (searchGrids m e top fuel n).2 = true
  | 0, n, j, hn, hj, _ => by omega
  | fuel + 1, n, j, hn, hj, h => by
    unfold searchGrids
    split
    · rename_i d hd
      exact readsAs_of_onGrid hd
    · rename_i hnone
      have hne : n ≠ j := fun heq => by rw [heq] at hnone; rw [hnone] at h; cases h
      exact searchGrids_reads (by omega) (by omega) h

theorem stripZeros_spec : ∀ (fuel d : Nat) (k : Int),
    ((stripZeros fuel d k).1 : ℚ) * 10 ^ (stripZeros fuel d k).2 = d * 10 ^ k
  | 0, d, k => rfl
  | fuel + 1, d, k => by
    unfold stripZeros
    split_ifs with h
    · rw [stripZeros_spec fuel (d / 10) (k + 1), zpow_add₀ (by norm_num)]
      have hd : (d : ℚ) = 10 * (d / 10 : Nat) := by exact_mod_cast show d = 10 * (d / 10) by omega
      rw [hd]
      ring
    · rfl

/-- The digits that a number is written with read as that number. -/
theorem shortest_reads (hm : 0 < m) (hf : InFormat m e) : Reads m e ((shortest m e).1 * 10 ^ (shortest m e).2) := by
  have hfine : (10 : ℚ) ^ (leadingPower m e - (16 : Nat)) * 10 ^ 16 ≤ m * 2 ^ e := by
    calc (10 : ℚ) ^ (leadingPower m e - (16 : Nat)) * 10 ^ 16 = 10 ^ leadingPower m e := by
          rw [zpow_sub₀ (by norm_num), zpow_natCast]
          field_simp
      _ ≤ m * 2 ^ e := leadingPower_le hm e
  have hsome := onGrid_isSome ((readsAs_iff hm e _ _).2 (reads_firstOn hf hfine))
  have hreads := searchGrids_reads (Nat.zero_le 16) (by decide : 16 < 0 + 17) hsome
  unfold shortest
  dsimp only
  rw [stripZeros_spec]
  exact (readsAs_iff hm e _ _).1 hreads

end Conduit.Binary64
