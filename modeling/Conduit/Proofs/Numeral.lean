/-
Numerals and the numbers that they stand for. The digits of a number read as that number, and so does an integer
written out with its sign; beside digits and signs nothing reads as an integer.
-/
import Conduit.Numeral
import Mathlib.Tactic.Ring

namespace Conduit.Numeral

variable {cs : List Char} {n : Nat} {i : Int}

theorem digits?_eq_some : digits? cs = some n ↔ cs ≠ [] ∧ (∀ c ∈ cs, c.isDigit) ∧ Nat.ofDigitChars 10 cs 0 = n := by
  unfold digits?
  split
  · rename_i h
    simp only [Bool.or_eq_true, List.isEmpty_iff, Bool.not_eq_true', List.all_eq_false] at h
    constructor
    · nofun
    · rintro ⟨hne, hdigits, -⟩
      rcases h with h | ⟨c, hc, hnot⟩
      · exact absurd h hne
      · exact absurd (hdigits c hc) hnot
  · rename_i h
    simp only [Bool.or_eq_true, not_or, List.isEmpty_iff, Bool.not_eq_true', Bool.not_eq_false, List.all_eq_true] at h
    simp only [Option.some.injEq, Nat.ofDigitChars_eq_foldl]
    exact ⟨fun heq => ⟨h.1, h.2, heq⟩, fun heq => heq.2.2⟩

/-- The digits of a number read as that number. -/
theorem digits?_toDigits (n : Nat) : digits? (Nat.toDigits 10 n) = some n :=
  digits?_eq_some.2 ⟨Nat.toDigits_ne_nil, fun _ hc => Nat.isDigit_of_mem_toDigits (by decide) (by decide) hc,
    Nat.ofDigitChars_ten_toDigits⟩

theorem natural?_of_isDigit (h : ∀ c ∈ cs, c.isDigit) : natural? cs = digits? cs := by
  unfold natural?
  split
  · cases h '+' (List.mem_cons_self ..)
  · rfl

theorem integer?_minus (cs : List Char) : integer? ('-' :: cs) = (digits? cs).map fun n : Nat => -(n : Int) := by
  rw [integer?]
  cases digits? cs <;> rfl

theorem integer?_of_ne (h : cs.head? ≠ some '-') : integer? cs = (natural? cs).map fun n : Nat => (n : Int) := by
  unfold integer?
  split
  · exact absurd rfl h
  · cases natural? cs <;> rfl

theorem integer?_of_isDigit (h : ∀ c ∈ cs, c.isDigit) : integer? cs = (digits? cs).map fun n : Nat => (n : Int) := by
  have hminus : cs.head? ≠ some '-' := fun hhead => Bool.noConfusion (h '-' (List.mem_of_head? hhead))
  rw [integer?_of_ne hminus, natural?_of_isDigit h]

/-! ## Writing -/

theorem toString_natCast (n : Nat) : toString (n : Int) = String.ofList (Nat.toDigits 10 n) :=
  Nat.toString_eq_ofList_toDigits

theorem toString_neg (hn : 0 < n) : toString (-(n : Int)) = "-" ++ String.ofList (Nat.toDigits 10 n) := by
  obtain ⟨n, rfl⟩ := Nat.exists_eq_succ_of_ne_zero hn.ne'
  rw [← Nat.toString_eq_ofList_toDigits]
  rfl

/-- An integer that is written out reads as itself. -/
theorem integer?_toString (i : Int) : integer? (toString i).toList = some i := by
  obtain ⟨n, rfl | ⟨hn, rfl⟩⟩ : ∃ n : Nat, i = n ∨ 0 < n ∧ i = -(n : Int) := ⟨i.natAbs, by omega⟩
  · rw [toString_natCast, String.toList_ofList,
      integer?_of_isDigit fun c hc => Nat.isDigit_of_mem_toDigits (by decide) (by decide) hc, digits?_toDigits]
    rfl
  · rw [toString_neg hn, String.toList_append, String.toList_ofList, String.toList_ofList, List.singleton_append,
      integer?_minus, digits?_toDigits]
    rfl

theorem head_toString (i : Int) : ∃ c rest, (toString i).toList = c :: rest ∧ (c.isDigit ∨ c = '-') := by
  obtain ⟨n, rfl | ⟨hn, rfl⟩⟩ : ∃ n : Nat, i = n ∨ 0 < n ∧ i = -(n : Int) := ⟨i.natAbs, by omega⟩
  · obtain ⟨c, rest, hds⟩ := List.exists_cons_of_ne_nil (Nat.toDigits_ne_nil (n := n) (b := 10))
    have hc : c ∈ Nat.toDigits 10 n := hds ▸ List.mem_cons_self ..
    rw [toString_natCast, String.toList_ofList]
    exact ⟨c, rest, hds, .inl (Nat.isDigit_of_mem_toDigits (by decide) (by decide) hc)⟩
  · rw [toString_neg hn, String.toList_append, String.toList_ofList, List.singleton_append]
    exact ⟨'-', _, rfl, .inr rfl⟩

/-- Zeros that follow the digits of a number multiply it by ten. -/
theorem toDigits_mul_tenTo (hn : 0 < n) :
    ∀ k : Nat, Nat.toDigits 10 n ++ List.replicate k '0' = Nat.toDigits 10 (n * 10 ^ k)
  | 0 => by rw [List.replicate_zero, List.append_nil, Nat.pow_zero, Nat.mul_one]
  | k + 1 => by
    rw [List.replicate_succ', ← List.append_assoc, toDigits_mul_tenTo hn k, ← Nat.toDigits_zero 10,
      Nat.toDigits_append_toDigits (by decide) (Nat.mul_pos hn (Nat.pow_pos (by decide))) (by decide), Nat.pow_succ]
    congr 1
    ring

/-! ## Reading -/

/-- An integer is read from digits, after a sign or none. -/
theorem digits_of_integer? (h : integer? cs = some i) : ∃ ds, ds ≠ [] ∧ (∀ c ∈ ds, c.isDigit) ∧
    (cs = ds ∨ cs = '-' :: ds ∨ cs = '+' :: ds) := by
  by_cases hminus : cs.head? = some '-'
  · obtain ⟨ds, rfl⟩ := List.head?_eq_some_iff.1 hminus
    rw [integer?_minus] at h
    obtain ⟨n, hn, -⟩ := Option.map_eq_some_iff.1 h
    obtain ⟨hne, hds, -⟩ := digits?_eq_some.1 hn
    exact ⟨ds, hne, hds, .inr (.inl rfl)⟩
  · rw [integer?_of_ne hminus] at h
    obtain ⟨n, hn, -⟩ := Option.map_eq_some_iff.1 h
    unfold natural? at hn
    split at hn <;> obtain ⟨hne, hds, -⟩ := digits?_eq_some.1 hn
    · exact ⟨_, hne, hds, .inr (.inr rfl)⟩
    · exact ⟨_, hne, hds, .inl rfl⟩

theorem isDigit_of_integer? (h : integer? cs = some i) : ∀ c ∈ cs, c.isDigit ∨ c = '-' ∨ c = '+' := by
  intro c hc
  obtain ⟨ds, -, hds, rfl | rfl | rfl⟩ := digits_of_integer? h
  · exact .inl (hds c hc)
  · exact (List.mem_cons.1 hc).elim (fun hc => .inr (.inl hc)) fun hc => .inl (hds c hc)
  · exact (List.mem_cons.1 hc).elim (fun hc => .inr (.inr hc)) fun hc => .inl (hds c hc)

end Conduit.Numeral
