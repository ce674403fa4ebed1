/-
What the reading of a table makes of a record. The field of a name gets what stands under its key, and what is not
read from a key stays as it was; so a part of the record that one field alone has to do with can be read off what
stands under that key, whatever else the table holds.
-/
import Conduit.Proofs.Settings.Overlay
import Conduit.Settings.Coercion

namespace Conduit.Field

open Settings (Tree LoadFault)

variable {σ α : Type} {view : σ → α} {f : Field σ} {fields : List (String × Field σ)} {name : String} {u : Tree}
  {s s' : σ}

theorem mem_of_find? (h : find? fields name = some f) : (name, f) ∈ fields := by
  obtain ⟨⟨n, g⟩, hg, rfl⟩ := Option.map_eq_some_iff.1 h
  have hn : n = name := by simpa using List.find?_some hg
  exact hn ▸ List.mem_of_find?_eq_some hg

/-! ## What fields leave alone -/

/-- Whatever the field is read from, what is seen of the record stays as it was. -/
def Spares (f : Field σ) (view : σ → α) : Prop := ∀ ⦃t : Tree⦄ ⦃s s' : σ⦄, f.readLenient t s = .ok s' → view s' = view s

theorem readKeys_spares (hfields : ∀ n g, find? fields n = some g → g.Spares view) :
    ∀ {entries : List (String × Tree)} {s s' : σ}, readKeys fields entries s = .ok s' → view s' = view s
  | [], s, s', h => by
    rw [readKeys] at h
    cases h
    rfl
  | (n, t) :: rest, s, s', h => by
    rw [readKeys] at h
    split at h
    · exact readKeys_spares hfields h
    · rename_i g hg
      split at h
      · rename_i s₁ hs₁
        exact (readKeys_spares hfields h).trans (hfields n g hg hs₁)
      · cases h

theorem readPlaces_spares : ∀ {items : List Tree} {fields : List (String × Field σ)} {i : Nat} {s s' : σ},
    (∀ p ∈ fields, p.2.Spares view) → readPlaces fields i items s = .ok s' → view s' = view s
  | [], _, _, s, s', _, h => by
    rw [readPlaces] at h
    cases h
    rfl
  | t :: rest, [], _, s, s', _, h => by
    rw [readPlaces] at h
    cases h
    rfl
  | t :: rest, (n, g) :: fields, i, s, s', hfields, h => by
    rw [readPlaces] at h
    split at h
    · rename_i s₁ hs₁
      have hg : g.Spares view := hfields _ (List.mem_cons_self ..)
      exact (readPlaces_spares (fun p hp => hfields p (List.mem_cons_of_mem _ hp)) h).trans (hg hs₁)
    · cases h

/-- A record leaves alone what none of its fields touches. -/
theorem spares_record (kind : String) (hfields : ∀ p ∈ fields, p.2.Spares view) : (record kind fields).Spares view := by
  intro t s s' h
  cases t with
  | scalar c origin => cases h
  | list items origin => exact readPlaces_spares hfields h
  | table entries origin => exact readKeys_spares (fun n g hg => hfields (n, g) (mem_of_find? hg)) h

/-! ## What the field of a name reads -/

/-- What is seen of the record comes from what stands under one key, or is as it was if nothing stands there. -/
structure ReadFrom (f : Field σ) (view : σ → α) (found : Option Tree) (s s' : σ) : Prop where
  absent : found = none → view s' = view s
  present : ∀ u, found = some u → ∃ s₁ s₂, view s₁ = view s ∧ f.readLenient u s₁ = .ok s₂ ∧ view s' = view s₂

theorem readKeys_readFrom (hf : find? fields name = some f)
    (hothers : ∀ n g, n ≠ name → find? fields n = some g → g.Spares view) {entries : List (String × Tree)}
    (origin : Option String) (hordered : Document.Ordered entries) (h : readKeys fields entries s = .ok s') :
    ReadFrom f view ((Tree.table entries origin).get? name) s s' := by
  induction entries generalizing s with
  | nil =>
    rw [readKeys] at h
    cases h
    exact ⟨fun _ => rfl, fun u hu => absurd hu (Option.some_ne_none u).symm⟩
  | cons e rest ih =>
    obtain ⟨n, t⟩ := e
    obtain ⟨hlater, hrest⟩ := List.pairwise_cons.1 hordered
    rw [readKeys] at h
    by_cases hn : n = name
    · -- the keys that follow are greater, so none of them is this one
      have hnone : (Tree.table rest origin).get? name = none := by
        rw [Tree.get?, Option.map_eq_none_iff, List.find?_eq_none]
        intro e he hen
        exact ne_of_gt (hlater e he) ((of_decide_eq_true hen).trans hn.symm)
      have hself : (Tree.table ((n, t) :: rest) origin).get? name = some t := by simp [Tree.get?, Tree.entries, hn]
      rw [hn, hf] at h
      rw [hself]
      refine ⟨fun habsent => absurd habsent (Option.some_ne_none t), fun u hu => ?_⟩
      cases hu
      dsimp only at h
      cases hs₁ : f.readLenient t s with
      | error e => rw [hs₁] at h; cases h
      | ok s₁ =>
        rw [hs₁] at h
        exact ⟨s, s₁, rfl, hs₁, (ih hrest h).absent hnone⟩
    · have hskip : (Tree.table ((n, t) :: rest) origin).get? name = (Tree.table rest origin).get? name := by
        simp [Tree.get?, Tree.entries, hn]
      rw [hskip]
      cases hg : find? fields n with
      | none =>
        rw [hg] at h
        exact ih hrest h
      | some g =>
        rw [hg] at h
        dsimp only at h
        cases hs₁ : g.readLenient t s with
        | error e => rw [hs₁] at h; cases h
        | ok s₁ =>
          rw [hs₁] at h
          have hsame : view s₁ = view s := hothers n g hn hg hs₁
          have hread := ih hrest h
          refine ⟨fun habsent => (hread.absent habsent).trans hsame, fun u hu => ?_⟩
          obtain ⟨s₂, s₃, h₂, h₃, hs'⟩ := hread.present u hu
          exact ⟨s₂, s₃, h₂.trans hsame, h₃, hs'⟩

/-- If every entry of a known name can be read, so can the whole table. -/
theorem exists_readKeys : ∀ {entries : List (String × Tree)} (s : σ),
    (∀ e ∈ entries, ∀ f, find? fields e.1 = some f → ∀ s, ∃ s', f.readLenient e.2 s = .ok s') →
      ∃ s', readKeys fields entries s = .ok s'
  | [], s, _ => ⟨s, by rw [readKeys]⟩
  | (n, t) :: rest, s, h => by
    have hrest := fun s => exists_readKeys s fun e he => h e (List.mem_cons_of_mem _ he)
    rw [readKeys]
    cases hg : find? fields n with
    | none => exact hrest s
    | some g =>
      obtain ⟨s₁, hs₁⟩ := h _ (List.mem_cons_self ..) g hg s
      obtain ⟨s', hs'⟩ := hrest s₁
      exact ⟨s', by simp only [hs₁, hs']⟩

end Conduit.Field
