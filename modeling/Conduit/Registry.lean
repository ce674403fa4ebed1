/-
Registries: the set of subscription handles that a channel, or a registry of its own, holds. A
registry is a finite map from subscription numbers to handles, listed in the order of the numbers.
Adding under a number that is present changes nothing, so the handle added first stays.
-/
namespace Conduit

/-- A finite map from numbers to handles, in strictly increasing order of the numbers. -/
structure Registry (η : Type) where
  entries : List (Nat × η)
  increasing : (entries.map (·.1)).Pairwise (· < ·)

namespace Registry

variable {η : Type}

/-- The registry that holds nothing. -/
def empty : Registry η := ⟨[], .nil⟩

instance : Inhabited (Registry η) := ⟨empty⟩

/-- The numbers held, in increasing order. -/
def ids (r : Registry η) : List Nat := r.entries.map (·.1)

/-- The number of handles held. -/
def size (r : Registry η) : Nat := r.entries.length

/-- Whether a handle is held under this number. -/
def has (r : Registry η) (id : Nat) : Bool := r.entries.any (·.1 == id)

/-- The handle held under this number. -/
def get? (r : Registry η) (id : Nat) : Option η := (r.entries.find? (·.1 == id)).map (·.2)

/-- The handles held. -/
def handles (r : Registry η) : List η := r.entries.map (·.2)

/-- Puts an entry at its place, unless its number is present. -/
def insertEntry (id : Nat) (h : η) : List (Nat × η) → List (Nat × η)
  | [] => [(id, h)]
  | (i, g) :: rest =>
    if id < i then (id, h) :: (i, g) :: rest
    else if id = i then (i, g) :: rest
    else (i, g) :: insertEntry id h rest

theorem mem_keys_insertEntry {id k : Nat} {h : η} {l : List (Nat × η)} :
    k ∈ (insertEntry id h l).map (·.1) ↔ k = id ∨ k ∈ l.map (·.1) := by
  induction l with
  | nil => simp [insertEntry]
  | cons e rest ih =>
    obtain ⟨i, g⟩ := e
    unfold insertEntry
    split
    · simp
    · split
      · rename_i hi; subst hi; simp
      · simp only [List.map_cons, List.mem_cons, ih]
        constructor
        · rintro (h | h | h)
          · exact .inr (.inl h)
          · exact .inl h
          · exact .inr (.inr h)
        · rintro (h | h | h)
          · exact .inr (.inl h)
          · exact .inl h
          · exact .inr (.inr h)

theorem increasing_insertEntry (id : Nat) (h : η) {l : List (Nat × η)}
    (hl : (l.map (·.1)).Pairwise (· < ·)) : ((insertEntry id h l).map (·.1)).Pairwise (· < ·) := by
  induction l with
  | nil => simp [insertEntry]
  | cons e rest ih =>
    obtain ⟨i, g⟩ := e
    rw [List.map_cons, List.pairwise_cons] at hl
    unfold insertEntry
    split
    · rename_i hlt
      simp only [List.map_cons, List.pairwise_cons, List.mem_cons, forall_eq_or_imp]
      exact ⟨⟨hlt, fun k hk => Nat.lt_trans hlt (hl.1 k hk)⟩, hl⟩
    · split
      · exact List.pairwise_cons.2 hl
      · rename_i h1 h2
        simp only [List.map_cons, List.pairwise_cons]
        refine ⟨fun k hk => ?_, ih hl.2⟩
        rcases mem_keys_insertEntry.1 hk with rfl | hk
        · omega
        · exact hl.1 k hk

/-- Adds a handle under its number, unless the number is present. -/
def insert (r : Registry η) (id : Nat) (h : η) : Registry η :=
  ⟨insertEntry id h r.entries, increasing_insertEntry id h r.increasing⟩

/-- Removes the entry of this number. -/
def erase (r : Registry η) (id : Nat) : Registry η :=
  ⟨r.entries.filter (·.1 != id), r.increasing.sublist (List.filter_sublist.map _)⟩

/-- Takes the entry of the least number. -/
def popMin? (r : Registry η) : Option ((Nat × η) × Registry η) :=
  match r with
  | ⟨[], _⟩ => none
  | ⟨e :: rest, h⟩ => some (e, ⟨rest, (List.pairwise_cons.1 h).2⟩)

theorem mem_ids_insert {r : Registry η} {id k : Nat} {h : η} :
    k ∈ (r.insert id h).ids ↔ k = id ∨ k ∈ r.ids := mem_keys_insertEntry

theorem mem_ids_erase {r : Registry η} {id k : Nat} : k ∈ (r.erase id).ids ↔ k ∈ r.ids ∧ k ≠ id := by
  simp only [ids, erase, List.mem_map, List.mem_filter, bne_iff_ne]
  constructor
  · rintro ⟨e, ⟨he, hne⟩, rfl⟩; exact ⟨⟨e, he, rfl⟩, hne⟩
  · rintro ⟨⟨e, he, rfl⟩, hne⟩; exact ⟨e, ⟨he, hne⟩, rfl⟩

theorem size_popMin? {r t : Registry η} {e : Nat × η} (h : r.popMin? = some (e, t)) :
    r.size = t.size + 1 := by
  obtain ⟨entries, hs⟩ := r
  cases entries with
  | nil => cases h
  | cons e' rest => cases h; simp [size]

end Registry

end Conduit
