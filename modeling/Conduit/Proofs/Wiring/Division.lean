/-
Places divided between two sides. Which side a new place belongs to is known only when it is taken, and
an atlas speaks of all places at once. So what holds of two sides is said of all atlases that agree with
what has been taken so far (`Divides`); there always are such.
-/
import Mathlib.Data.Nat.Nth
import Conduit.Proofs.Wiring.Parts

namespace Conduit

/-- The places below `n` that belong to each side are those that `owner` says. -/
structure Divides (owner : Kind → Nat → Bool) (n : Kind → Nat) (ρ : Bool → Atlas) : Prop where
  beside : ∀ s, (ρ s).Beside (ρ !s)
  owned : ∀ s k p, p < n k → ((∃ i, (ρ s).place k i = p) ↔ owner k p = s)

namespace Divides

variable {owner owner' : Kind → Nat → Bool} {n n' : Kind → Nat} {ρ : Bool → Atlas}

theorem mono (h : Divides owner n' ρ) (hle : n ≤ n') : Divides owner n ρ :=
  ⟨h.beside, fun s k p hp => h.owned s k p (lt_of_lt_of_le hp (hle k))⟩

theorem congr (h : Divides owner n ρ) (ho : ∀ k p, p < n k → owner' k p = owner k p) : Divides owner' n ρ :=
  ⟨h.beside, fun s k p hp => by rw [ho k p hp]; exact h.owned s k p hp⟩

/-- Places that one side has taken are its own. -/
theorem owns (h : Divides owner n' ρ) {s : Bool} (hs : ∀ k p, n k ≤ p → owner k p = s) : (ρ s).Owns n n' :=
  fun k p hlow hhigh => (h.owned s k p hhigh).2 (hs k p hlow)

end Divides

/-- All places of one kind, of which so many are given away, go to two sides. -/
theorem exists_split (owner : Nat → Bool) (n : Nat) : ∃ f : Bool → Nat → Nat,
    (∀ s, Split (f s) (f !s)) ∧ ∀ s p, p < n → ((∃ i, f s i = p) ↔ owner p = s) := by
  -- Behind the places given away the sides take turns, so that neither runs out of them.
  let side : Nat → Bool := fun p => if p < n then owner p else p % 2 == 0
  have hinfinite : ∀ s, {p | side p = s}.Infinite := fun s => by
    refine Set.infinite_of_forall_exists_gt fun a => ?_
    cases s with
    | true =>
      refine ⟨2 * (n + a + 1), ?_, by omega⟩
      show (if _ < n then _ else _) = true
      rw [if_neg (by omega), beq_iff_eq]
      omega
    | false =>
      refine ⟨2 * (n + a + 1) + 1, ?_, by omega⟩
      show (if _ < n then _ else _) = false
      rw [if_neg (by omega), beq_eq_false_iff_ne]
      omega
  have hrange : ∀ s p, (∃ i, Nat.nth (fun q => side q = s) i = p) ↔ side p = s := fun s p => by
    rw [← Set.mem_range, Nat.range_nth_of_infinite (hinfinite s)]
    rfl
  refine ⟨fun s => Nat.nth fun p => side p = s, fun s => ?_, fun s p hp => ?_⟩
  · refine ⟨Nat.nth_strictMono (hinfinite s), Nat.nth_strictMono (hinfinite !s), fun j k he => ?_, fun p => ?_⟩
    · have hj := (hrange s _).1 ⟨j, rfl⟩
      have hk := (hrange (!s) _).1 ⟨k, he.symm⟩
      exact Bool.not_ne_self s (hk.symm.trans hj)
    · by_cases hp : side p = s
      · exact .inl ((hrange s p).2 hp)
      · exact .inr ((hrange (!s) p).2 (Bool.eq_not_iff.2 hp))
  · rw [hrange]
    show (if p < n then owner p else _) = s ↔ _
    rw [if_pos hp]

theorem exists_divides (owner : Kind → Nat → Bool) (n : Kind → Nat) : ∃ ρ, Divides owner n ρ := by
  choose f hsplit howned using fun k => exists_split (owner k) (n k)
  exact ⟨fun s => ⟨fun k => f k s, fun k => (hsplit k s).mono⟩, fun s => ⟨fun k => hsplit k s⟩,
    fun s k p hp => howned k s p hp⟩

end Conduit
