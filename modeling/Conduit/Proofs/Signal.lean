/-
Laws of signals. `Tidy`: the numbers of the places increase in the order of connection, all of them
have been given out, and a one-to-one signal has at most one place; connecting and disconnecting
keep it. `Later`: how a signal may differ from what it was before, whatever was connected and
disconnected in between: some places are gone, the rest keep their order, new ones stand behind
them under new numbers. So a place that is gone does not come back.
-/
import Conduit.Signal
import Mathlib.Tactic

namespace Conduit.Signal

variable {σ : Type} {s t u : Signal σ} {slot : σ} {id : Nat}

theorem has_iff : s.has id = true ↔ ∃ p ∈ s.places, p.id = id := by
  simp [has]

/-! ## Well-formed signals -/

/-- Numbers increase along the list and have been given out; one-to-one means at most one place. -/
structure Tidy (s : Signal σ) : Prop where
  increasing : (s.places.map (·.id)).Pairwise (· < ·)
  below : ∀ p ∈ s.places, p.id < s.nextId
  single : s.cardinality = .oneToOne → s.places.length ≤ 1

theorem tidy_of_places_nil (h : s.places = []) : s.Tidy := by
  refine ⟨?_, ?_, ?_⟩ <;> simp [h]

theorem Tidy.nodup_ids (h : s.Tidy) : (s.places.map (·.id)).Nodup :=
  h.increasing.imp fun hlt => Nat.ne_of_lt hlt

theorem cardinality_of_connect? (h : s.connect? slot = some (id, t)) : t.cardinality = s.cardinality := by
  unfold connect? at h
  split at h
  · cases h
  · cases h; rfl

theorem tidy_of_connect? (hs : s.Tidy) (h : s.connect? slot = some (id, t)) : t.Tidy := by
  obtain ⟨hp, rfl, hn⟩ := places_of_connect? h
  refine ⟨?_, ?_, ?_⟩
  · -- The new place has the greatest number, and comes last.
    rw [hp, List.map_append, List.pairwise_append]
    refine ⟨hs.increasing, List.pairwise_singleton .., fun a ha b hb => ?_⟩
    obtain ⟨p, hp, rfl⟩ := List.mem_map.1 ha
    rw [List.map_singleton, List.mem_singleton] at hb
    rw [hb]
    exact hs.below p hp
  · intro p hm
    rw [hp, List.mem_append, List.mem_singleton] at hm
    rcases hm with hm | rfl
    · have := hs.below p hm; omega
    · rw [hn]; exact Nat.lt_succ_self _
  · intro hc
    rw [cardinality_of_connect? h] at hc
    by_cases hnil : s.places = []
    · simp [hp, hnil]
    · rw [connect?_eq_none_iff.2 ⟨hc, hnil⟩] at h
      cases h

/-- On places whose numbers increase, at most one is erased. -/
theorem eraseP_eq_filter : ∀ {l : List (Place σ)}, (l.map (·.id)).Pairwise (· < ·) →
    l.eraseP (·.id == id) = l.filter (·.id != id)
  | [], _ => rfl
  | p :: rest, hl => by
    rw [List.map_cons, List.pairwise_cons] at hl
    by_cases hp : p.id = id
    · have hrest : rest.filter (·.id != id) = rest := by
        refine List.filter_eq_self.2 fun q hq => ?_
        have := hl.1 q.id (List.mem_map_of_mem hq)
        simpa using (by omega : q.id ≠ id)
      simp [hp, hrest]
    · simp [hp, eraseP_eq_filter hl.2]

/-- The signal without the place of a number, which it may not have. -/
def without (s : Signal σ) (id : Nat) : Signal σ := { s with places := s.places.eraseP (·.id == id) }

theorem disconnect?_of_has (h : s.has id = true) : s.disconnect? id = some (s.without id) := by
  simp [disconnect?, without, h]

theorem without_of_not_has (h : s.has id = false) : s.without id = s := by
  have : s.places.eraseP (·.id == id) = s.places :=
    List.eraseP_of_forall_not fun p hp hid => by
      rw [Bool.eq_false_iff] at h
      exact h (has_iff.2 ⟨p, hp, by simpa using hid⟩)
  rw [without, this]

theorem places_without (hs : s.Tidy) : (s.without id).places = s.places.filter (·.id != id) :=
  eraseP_eq_filter hs.increasing

/-- A signal without some of its places is well formed still. -/
theorem Tidy.filter (hs : s.Tidy) (f : Place σ → Bool) : Tidy { s with places := s.places.filter f } :=
  ⟨hs.increasing.sublist (List.filter_sublist.map _), fun p hp => hs.below p (List.mem_of_mem_filter hp),
    fun hc => le_trans (List.length_filter_le ..) (hs.single hc)⟩

theorem Tidy.without (hs : s.Tidy) (id : Nat) : (s.without id).Tidy := by
  have : s.without id = { s with places := s.places.filter (·.id != id) } := by
    rw [Signal.without, eraseP_eq_filter hs.increasing]
  rw [this]
  exact hs.filter _

theorem eq_without_of_disconnect? (h : s.disconnect? id = some t) : t = s.without id := by
  unfold disconnect? at h
  split at h
  · cases h; rfl
  · cases h

/-! ## What connecting and disconnecting can come to -/

/-- `t` is what `s` can become by connecting and disconnecting. -/
structure Later (s t : Signal σ) : Prop where
  cardinality : t.cardinality = s.cardinality
  nextId : s.nextId ≤ t.nextId
  places : ∃ kept fresh, t.places = kept ++ fresh ∧ kept.Sublist s.places ∧ ∀ p ∈ fresh, s.nextId ≤ p.id

theorem Later.refl (s : Signal σ) : s.Later s :=
  ⟨rfl, le_refl _, s.places, [], by simp, List.Sublist.refl _, by simp⟩

theorem Later.trans (h₁ : s.Later t) (h₂ : t.Later u) : s.Later u := by
  obtain ⟨kept₁, fresh₁, ht, hk₁, hf₁⟩ := h₁.places
  obtain ⟨kept₂, fresh₂, hu, hk₂, hf₂⟩ := h₂.places
  rw [ht] at hk₂
  obtain ⟨a, b, rfl, ha, hb⟩ := List.sublist_append_iff.1 hk₂
  refine ⟨h₂.cardinality.trans h₁.cardinality, h₁.nextId.trans h₂.nextId, a, b ++ fresh₂, ?_, ha.trans hk₁, ?_⟩
  · rw [hu, List.append_assoc]
  · intro p hp
    rcases List.mem_append.1 hp with hp | hp
    · exact hf₁ p (hb.subset hp)
    · exact h₁.nextId.trans (hf₂ p hp)

theorem later_of_connect? (h : s.connect? slot = some (id, t)) : s.Later t := by
  obtain ⟨hp, rfl, hn⟩ := places_of_connect? h
  exact ⟨cardinality_of_connect? h, by omega, s.places, _, hp, List.Sublist.refl _, by simp⟩

theorem later_without (s : Signal σ) (id : Nat) : s.Later (s.without id) :=
  ⟨rfl, le_refl _, _, [], (List.append_nil _).symm, List.eraseP_sublist, by simp⟩

/-- A number that was given out before is connected later only if it was connected before. -/
theorem Later.has (h : s.Later t) (hid : id < s.nextId) (ht : t.has id = true) : s.has id = true := by
  obtain ⟨kept, fresh, hp, hk, hf⟩ := h.places
  obtain ⟨p, hm, rfl⟩ := has_iff.1 ht
  rw [hp] at hm
  rcases List.mem_append.1 hm with hm | hm
  · exact has_iff.2 ⟨p, hk.subset hm, rfl⟩
  · have := hf p hm
    omega

end Conduit.Signal
