/-
Laws of registries, through the entries they hold: what is found under a number, what an insertion
adds, what an erasure leaves, and that taking the least number is an erasure.
-/
import Conduit.Registry
import Mathlib.Tactic

namespace Conduit.Registry

variable {η : Type} {r t : Registry η} {k id : Nat} {h g : η}

/-- A registry is determined by its entries. -/
theorem eq_of_entries (he : r.entries = t.entries) : r = t := by
  cases r; cases t; cases he; rfl

/-! ## Finding -/

theorem mem_ids : k ∈ r.ids ↔ ∃ h, (k, h) ∈ r.entries := by
  simp [ids]

theorem has_iff : r.has k = true ↔ k ∈ r.ids := by
  simp [has, ids]

theorem mem_handles : h ∈ r.handles ↔ ∃ k, (k, h) ∈ r.entries := by
  simp [handles]

@[simp] theorem ids_empty : (empty : Registry η).ids = [] := rfl

@[simp] theorem entries_empty : (empty : Registry η).entries = [] := rfl

theorem eq_empty_of_ids (hr : r.ids = []) : r = empty :=
  eq_of_entries (by simpa [ids] using hr)

theorem nodup_ids (r : Registry η) : r.ids.Nodup :=
  r.increasing.imp fun hlt => Nat.ne_of_lt hlt

/-- A number is that of at most one handle. -/
theorem handle_unique (hh : (k, h) ∈ r.entries) (hg : (k, g) ∈ r.entries) : h = g :=
  congrArg Prod.snd (List.inj_on_of_nodup_map r.nodup_ids hh hg rfl)

theorem get?_eq_some_iff : r.get? k = some h ↔ (k, h) ∈ r.entries := by
  unfold get?
  rw [Option.map_eq_some_iff]
  constructor
  · rintro ⟨⟨i, g⟩, hf, rfl⟩
    have hi : i = k := by simpa using List.find?_some hf
    subst hi
    exact List.mem_of_find?_eq_some hf
  · intro hm
    rcases hf : r.entries.find? (·.1 == k) with _ | ⟨i, g⟩
    · rw [List.find?_eq_none] at hf
      simpa using hf _ hm
    · have hi : i = k := by simpa using List.find?_some hf
      subst hi
      exact ⟨(i, g), hf, handle_unique (List.mem_of_find?_eq_some hf) hm⟩

/-! ## Erasing -/

theorem mem_erase {e : Nat × η} : e ∈ (r.erase k).entries ↔ e ∈ r.entries ∧ e.1 ≠ k := by
  simp [erase]

@[simp] theorem erase_empty : (empty : Registry η).erase k = empty := rfl

theorem erase_of_not_mem (hk : k ∉ r.ids) : r.erase k = r := by
  apply eq_of_entries
  refine List.filter_eq_self.2 fun e he => ?_
  have : e.1 ≠ k := fun h => hk (h ▸ List.mem_map_of_mem he)
  simpa using this

/-- Taking the entry of the least number is an erasure of that number. -/
theorem popMin?_eq_some {e : Nat × η} (hp : r.popMin? = some (e, t)) :
    e ∈ r.entries ∧ t = r.erase e.1 := by
  obtain ⟨entries, hs⟩ := r
  cases entries with
  | nil => cases hp
  | cons e' rest =>
    cases hp
    refine ⟨List.mem_cons_self .., eq_of_entries ?_⟩
    rw [List.map_cons, List.pairwise_cons] at hs
    have hrest : rest.filter (·.1 != e.1) = rest := by
      refine List.filter_eq_self.2 fun x hx => ?_
      have := hs.1 x.1 (List.mem_map_of_mem hx)
      simpa using Nat.ne_of_gt this
    simp [erase, hrest]

theorem handles_popMin? {e : Nat × η} (hp : r.popMin? = some (e, t)) : r.handles = e.2 :: t.handles := by
  obtain ⟨entries, hs⟩ := r
  cases entries with
  | nil => cases hp
  | cons e' rest => cases hp; rfl

theorem popMin?_eq_none_iff : r.popMin? = none ↔ r.ids = [] := by
  obtain ⟨entries, hs⟩ := r
  cases entries <;> simp [popMin?, ids]

/-! ## Inserting -/

/-- An insertion adds the entry when its number is absent, and nothing otherwise. -/
theorem mem_insertEntry {e : Nat × η} : ∀ {l : List (Nat × η)}, (l.map (·.1)).Pairwise (· < ·) →
    (e ∈ insertEntry id h l ↔ e ∈ l ∨ (e = (id, h) ∧ id ∉ l.map (·.1)))
  | [], _ => by simp [insertEntry]
  | (i, g) :: rest, hl => by
    rw [List.map_cons, List.pairwise_cons] at hl
    unfold insertEntry
    split
    · rename_i hlt
      -- The keys increase, so a key below the first one is none of them.
      have hid : id ∉ (i :: rest.map (·.1)) := by
        rw [List.mem_cons, not_or]
        exact ⟨Nat.ne_of_lt hlt, fun hm => absurd (hl.1 id hm) (by omega)⟩
      rw [List.mem_cons, List.map_cons]
      constructor
      · rintro (rfl | hm); exacts [.inr ⟨rfl, hid⟩, .inl hm]
      · rintro (hm | ⟨rfl, -⟩); exacts [.inr hm, .inl rfl]
    · split
      · rename_i heq
        subst heq
        simp
      · rename_i hne
        rw [List.mem_cons, mem_insertEntry hl.2, List.mem_cons, List.map_cons, List.mem_cons, not_or]
        constructor
        · rintro (rfl | hm | ⟨rfl, hm⟩); exacts [.inl (.inl rfl), .inl (.inr hm), .inr ⟨rfl, hne, hm⟩]
        · rintro ((rfl | hm) | ⟨rfl, -, hm⟩); exacts [.inl rfl, .inr (.inl hm), .inr (.inr ⟨rfl, hm⟩)]

theorem mem_insert {e : Nat × η} :
    e ∈ (r.insert id h).entries ↔ e ∈ r.entries ∨ (e = (id, h) ∧ id ∉ r.ids) :=
  mem_insertEntry r.increasing

end Conduit.Registry
