/-
What a step makes of a bench. Whatever it is, the wiring and its holders go through changes of a
scene, the tables stay in order, and the signals of the bench become later ones (`Leads`). The steps
of a script fall into few kinds: something that is there is named, something is let go, an act on
the wiring, signals.
-/
import Conduit.Proofs.Scenario.Tables

namespace Conduit.Scenario

open World (Scene Change Changes License)

namespace Bench

/-- The wiring of a bench, and what tables and `pins` hold of it. -/
def scene (b : Bench) (pins : Ref → Bool) : Scene := ⟨b.world, b.keeps pins⟩

/-- The tables in which entries are replaced or struck out are in order. -/
structure Ordered (b : Bench) : Prop where
  handles : Names.Ordered b.handles
  registries : Names.Ordered b.registries

/-- The signals of the bench are well formed. -/
def Tidy (b : Bench) : Prop := ∀ g s, b.signal? g = some s → s.Tidy

/-- The wiring of the bench and what is held of it are well formed, and so are its tables and its signals. -/
structure WellFormed (pins : Ref → Bool) (b : Bench) : Prop where
  scene : (b.scene pins).WellFormed
  ordered : b.Ordered
  tidy : b.Tidy

/-- `b'` is what steps can make of `b`, while what `pins` tells of becomes what `pins'` does. -/
structure Leads (may : License) (pins pins' : Ref → Bool) (b b' : Bench) : Prop where
  changes : Changes may (b.scene pins) (b'.scene pins')
  ordered : b.Ordered → b'.Ordered
  tidy : b.Tidy → b'.Tidy
  later : ∀ g s, b.signal? g = some s → ∃ s', b'.signal? g = some s' ∧ s.Later s'

variable {may : License} {pins pins' pins'' : Ref → Bool} {a b c : Bench}

theorem Leads.refl (b : Bench) : Leads may pins pins b b := ⟨.refl, id, id, fun _ s hs => ⟨s, hs, .refl s⟩⟩

theorem Leads.trans (h₁ : Leads may pins pins' a b) (h₂ : Leads may pins' pins'' b c) :
    Leads may pins pins'' a c :=
  ⟨.trans h₁.changes h₂.changes, fun h => h₂.ordered (h₁.ordered h), fun h => h₂.tidy (h₁.tidy h), fun g s hs => by
    obtain ⟨s', hs', hl⟩ := h₁.later g s hs
    obtain ⟨s'', hs'', hl'⟩ := h₂.later g s' hs'
    exact ⟨s'', hs'', hl.trans hl'⟩⟩

theorem Leads.wellFormed (h : Leads may pins pins' a b) (ha : WellFormed pins a) : WellFormed pins' b :=
  ⟨ha.scene.changes h.changes, h.ordered ha.ordered, h.tidy ha.tidy⟩

/-! ## Kinds of steps -/

/-- Changes of wiring and tables that leave the signals of the bench alone. -/
theorem leads_of_change (h : Change may (a.scene pins) (b.scene pins')) (hs : b.signalStates = a.signalStates)
    (ho : a.Ordered → b.Ordered) : Leads may pins pins' a b :=
  ⟨.single h, ho, fun ht g s hg => ht g s (by rwa [signal?, hs] at hg),
    fun g s hg => ⟨s, by rwa [signal?, hs], .refl s⟩⟩

/-- The wiring changes, and the tables stay as they are. -/
theorem leads_of_world {w : World} (h : Change may ⟨b.world, b.keeps pins⟩ ⟨w, b.keeps pins⟩) :
    Leads may pins pins b { b with world := w } :=
  leads_of_change h rfl fun ho => ⟨ho.handles, ho.registries⟩

/-- More is kept, of what is there. -/
theorem leads_of_gain (hw : b.world = a.world) (hs : b.signalStates = a.signalStates) (ho : a.Ordered → b.Ordered)
    (le : ∀ r, a.keeps pins r = true → b.keeps pins' r = true)
    (lives : ∀ r, b.keeps pins' r = true → a.keeps pins r = true ∨ a.world.Lives r) : Leads may pins pins' a b := by
  refine leads_of_change ?_ hs ho
  rw [scene, scene, hw]
  exact .gain a.world le lives

/-- Less is kept, and what is not is looked after. -/
theorem leads_of_letGo (rs : List Ref) (hw : b.world = a.world) (hs : b.signalStates = a.signalStates)
    (ho : a.Ordered → b.Ordered) (le : ∀ r, b.keeps pins' r = true → a.keeps pins r = true)
    (lost : ∀ h, a.keeps pins (.handle h) = true → b.keeps pins' (.handle h) = true ∨ .handle h ∈ rs) :
    Leads may pins pins' a { b with world := b.world.settleAll (b.keeps pins') rs } := by
  refine leads_of_change ?_ hs fun h => ⟨(ho h).handles, (ho h).registries⟩
  rw [scene, scene, hw]
  exact .letGo a.world rs le lost

/-- Handles are looked after one at a time, while the tables stay as they are. -/
theorem settle_handles (pins : Ref → Bool) : ∀ (hs : List Handle) (b : Bench),
    hs.foldl (fun b h => b.settle pins (.handle h)) b =
      { b with world := b.world.settleAll (b.keeps pins) (hs.map .handle) }
  | [], _ => rfl
  | h :: hs, b => settle_handles pins hs (b.settle pins (.handle h))

/-- A signal of the bench is replaced by a later one. -/
theorem leads_setSignal {g : SignalId} {s s' : Signal Slot} (hg : b.signal? g = some s) (hl : s.Later s')
    (ht : s.Tidy → s'.Tidy) : Leads may pins pins b (b.setSignal g s') := by
  -- One signal is another one now, and all others are the same.
  have hset : ∀ k, (b.setSignal g s').signal? k = if k = g then some s' else b.signal? k := fun k => by
    rw [signal?, setSignal, List.getElem?_set, signal?]
    obtain ⟨hlt, -⟩ := List.getElem?_eq_some_iff.1 hg
    by_cases hk : k = g
    · subst hk
      simp [hlt]
    · simp [hk, Ne.symm hk]
  refine ⟨.refl, fun ho => ⟨ho.handles, ho.registries⟩, fun h k t hk => ?_, fun k t hk => ?_⟩
  · rw [hset] at hk
    split at hk
    · cases hk
      exact ht (h g s hg)
    · exact h k t hk
  · rw [hset]
    split
    · rename_i hkg
      rw [hkg, hg] at hk
      cases hk
      exact ⟨s', rfl, hl⟩
    · exact ⟨t, hk, .refl t⟩

theorem leads_note (b : Bench) (e : Entry) : Leads may pins pins b (b.note e) :=
  leads_of_world (.torn (.single (.note e)))

end Bench

end Conduit.Scenario
