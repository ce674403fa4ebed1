/-
What an emission that catches panics has done when it ends: all places that were connected at their turn have been
called, and the answer tells how many these were, and the texts of the panics that came out of them, in the order of
the calls (`Reports`).
-/
import Conduit.Proofs.Scenario.Delivery
import Conduit.Proofs.Scenario.Tally

namespace Conduit.Scenario.Config

variable {d d' y : Config} {e : Emission} {base : List Frame} {past : List Config}

/-- The texts of the panics that have come out of calls, in the order of the calls. -/
def texts (depth : Nat) (past : List Config) : List String := (past.filterMap (caught? depth)).map Panic.message

/-- What an emission that catches panics has done, when it has come through `past` to `d` and ends with `d'`. -/
structure Reports (base : List Frame) (e : Emission) (y : Config) (past : List Config) (d d' : Config) : Prop where
  /-- All places have had their turn, and those that were still connected then have been called. -/
  turns : past.filterMap (turn? base.length) = y.bench.placesOf e.source
  served : ∀ before x after q, past = before ++ x :: after → x.turn? base.length = some q →
    (q ∈ past.filterMap (served? base.length) ↔ x.bench.isConnected e.source q.id = true)
  /-- Its calls are those of the places served, and panics came out of some of them. -/
  calls : (outcomes base.length past).map (·.1) = past.filterMap (served? base.length) ∧
    (past ++ [d]).filterMap (call? base.length) = (outcomes base.length past).map fun k => (k.1.slot, e.value)
  panics : (outcomes base.length past).filterMap (·.2) = past.filterMap (caught? base.length)
  /-- The answer tells how many calls there were, and the texts of the panics in the order of the calls. -/
  answer : d' =
    { bench := if texts base.length past = [] then d.bench
        else d.bench.note (.event (.slotsPanicked (texts base.length past).length (outcomes base.length past).length))
      frames := base
      focus := .ended (if texts base.length past = [] then .ok
        else .slotsFailed (outcomes base.length past).length (texts base.length past)) }
  failed : (texts base.length past).length = (outcomes base.length past).countP (·.2.isSome)
  total : (texts base.length past).length ≤ (outcomes base.length past).length
  /-- The first text is that of the first panic. -/
  first : ∀ before x after q, past = before ++ x :: after → before.filterMap (caught? base.length) = [] →
    x.caught? base.length = some q → (texts base.length past).head? = some q.message

theorem Tally.eq_of_follows {e' e'' : Emission} (h : Tally base past d e') (hf : Follows base e past d e'') :
    e' = e'' := by
  obtain ⟨upper, hframes⟩ := h.frames
  obtain ⟨upper', hframes'⟩ := hf.frames
  rw [hframes] at hframes'
  obtain ⟨-, htail⟩ := List.append_inj' hframes' rfl
  cases htail
  rfl

/-- An emission that catches panics ends when nothing is left to do. -/
theorem Underway.collecting_ends (h : Underway base e y past d) (hpolicy : e.policy = .collecting)
    (hmove : Move .any d d')
    (hend : d'.frames.length ≤ base.length) {e' : Emission} (hf : Follows base e past d e') :
    d.frames = .emission e' :: base ∧ d.focus = .resume ∧ e'.remaining = [] ∧
      d' = { bench := e'.close d.bench, frames := base, focus := .ended e'.result } := by
  have hwell := h.reachable.wellFormed
  obtain ⟨upper, hframes⟩ := hf.frames
  -- As long as the frame of the emission is there, the emission has not ended.
  have hlong : ∀ (k : Emission) (upper : List Frame), d'.frames ≠ upper ++ .emission k :: base := fun k upper hd => by
    rw [hd, List.length_append, List.length_cons] at hend
    omega
  rcases upper with _ | ⟨f, upper⟩
  · rw [List.nil_append] at hframes
    rcases hmove.at_emission hwell hframes with ⟨hfocus, rfl⟩ | ⟨slot, v, hfocus, rfl⟩ | ⟨q, hfocus, rfl⟩
    · unfold visit at hlong ⊢
      rcases hrem : e'.remaining with _ | ⟨place, remaining⟩
      · exact ⟨hframes, hfocus, rfl, rfl⟩
      · rw [hrem] at hlong
        dsimp only at hlong
        split at hlong
        · exact absurd rfl (hlong _ [])
        · exact absurd rfl (hlong _ [])
    · unfold call at hlong
      split at hlong
      · exact absurd (congrArg _ hframes) (hlong _ [_])
      · exact absurd hframes (hlong _ [])
    · unfold unwind at hlong
      rw [hframes] at hlong
      dsimp only at hlong
      rw [if_pos (hf.policy.trans hpolicy)] at hlong
      exact absurd rfl (hlong _ [])
  · obtain ⟨upper', hd⟩ := hmove.frames_above hwell hframes
    exact absurd hd (hlong _ _)

theorem Underway.reports (h : Underway base e y past d) (hpolicy : e.policy = .collecting) (hmove : Move .any d d')
    (hend : d'.frames.length ≤ base.length) : Reports base e y past d d' := by
  obtain ⟨e', hf⟩ := h.follows
  obtain ⟨e'', htally⟩ := h.tally
  obtain rfl := htally.eq_of_follows hf
  obtain ⟨-, -, -, hd⟩ := h.collecting_ends hpolicy hmove hend hf
  -- Call by call: the messages kept, the panics caught and the calls that failed are the same in number and order.
  have htexts : e''.messages = texts base.length past := by
    rw [texts, ← htally.panics, htally.messages, List.map_filterMap]
  have hcount : (texts base.length past).length = (outcomes base.length past).countP (·.2.isSome) := by
    rw [texts, ← htally.panics, List.length_map, List.length_filterMap_eq_countP]
  have hcalls : (past ++ [d]).filterMap (call? base.length) =
      (outcomes base.length past).map fun k => (k.1.slot, e.value) := by
    rw [hf.calls, ← htally.places, List.map_map]
    rfl
  refine ⟨?_, fun before x after q hp hq => ?_, ⟨htally.places, hcalls⟩, htally.panics, ?_, hcount,
    hcount ▸ List.countP_le_length, fun before x after q hp hno hq => ?_⟩
  · rcases h.ends hmove hend with ⟨hall, -⟩ | ⟨-, hno, -⟩
    · exact hall
    · exact absurd hpolicy hno
  · rw [h.mem_served hp hq]
    exact (h.split hp).1.served?_iff hq
  · rw [hd, Emission.close, Emission.result, htexts, htally.called, hf.policy, hpolicy]
    by_cases hnone : texts base.length past = []
    · rw [if_pos hnone, if_pos hnone, if_neg fun h => h.2 hnone, if_neg fun h => h.2 hnone]
    · rw [if_neg hnone, if_neg hnone, if_pos ⟨rfl, hnone⟩, if_pos ⟨rfl, hnone⟩]
  · rw [hp, texts, List.filterMap_append, hno, List.filterMap_cons, hq]
    rfl

end Conduit.Scenario.Config
