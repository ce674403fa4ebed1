/-
How a component comes to its end while it is at work. The outermost of its handlers ends, by return or by panic, and
what called it is next to go on (`Leaves`). The channels of a dead component end with it unless something else
holds them, and close what they list; no slot of theirs is called after that, and a value for the component is
dropped.
-/
import Conduit.Proofs.Scenario.Delivery
import Conduit.Proofs.Scenario.References

namespace Conduit.Scenario

open World (License Acts Tied)

namespace Config

variable {may : License} {c d : Config} {k : ComponentId}

/-! ## The end of the outermost handler -/

/-- The outermost handler of the component, which is on top, ends by return or by panic, and what called it
is next to go on. -/
structure Leaves (k : ComponentId) (c d : Config) : Prop where
  frames : ∃ h p rest, c.frames = .handling h :: rest ∧ h.slot = .handler k p ∧ d.frames = rest ∧
    (∀ f ∈ rest, ¬ f.Handles k) ∧ ((∃ e base, rest = .emission e :: base) ∨ ∃ base, rest = .call :: base)
  focus : c.focus = .resume ∧ d.focus = .resume ∨ ∃ p, c.focus = .panicking p ∧ d.focus = .panicking p

/-- A handler that is not at work any more was on top, and has ended. -/
theorem handle_focus {h : Handling} {rest : List Frame} (hd : ∀ h' : Handling, h'.slot = h.slot →
    (c.handle h rest).frames ≠ .handling h' :: rest) :
    (c.handle h rest).frames = rest ∧ (c.handle h rest).focus = .resume := by
  unfold handle at hd ⊢
  split
  · rename_i hdoing
    rw [hdoing] at hd
    exact absurd rfl (hd _ rfl)
  · rename_i hdoing
    rw [hdoing] at hd
    dsimp only at hd
    split
    · exact ⟨rfl, rfl⟩
    · rename_i hrule
      rw [hrule] at hd
      dsimp only at hd ⊢
      split
      · rename_i haccepts
        rw [if_pos haccepts] at hd
        exact absurd rfl (hd _ rfl)
      · rename_i haccepts
        rw [if_neg haccepts] at hd
        exact absurd rfl (hd _ rfl)

/-- With a handler on top, it goes on, or a step of it begins, or a panic comes out of it. -/
theorem Move.at_handling (hs : WellFormed c) (h : Move may c d) {a : Handling} {rest : List Frame}
    (hf : c.frames = .handling a :: rest) :
    (∃ new, d.frames = new ++ c.frames) ∨ (c.focus = .resume ∧ d = c.handle a rest) ∨
      ∃ p, c.focus = .panicking p ∧ d = c.unwind p := by
  have hfits := hs.fits
  rw [hf] at hfits
  cases h with
  | tick _ =>
    -- What fits a handler on top is to resume, to begin a step, or to panic.
    unfold Config.tick
    split
    · exact .inl (start_frames c _ _)
    · rename_i hfocus
      rw [hfocus] at hfits
      exact hfits.elim
    · rename_i hfocus
      refine .inr (.inl ⟨hfocus, ?_⟩)
      rw [resume, hf]
    · rename_i hfocus
      rw [hfocus] at hfits
      exact hfits.elim
    · rename_i p hfocus
      exact .inr (.inr ⟨p, hfocus, rfl⟩)
    · exact .inl ⟨[], rfl⟩
  | act _ _ step => exact .inl ⟨[], rfl⟩
  | next hfocus step =>
    rw [hfocus] at hfits
    exact hfits.elim
  | furnish _ _ _ _ => exact .inl ⟨[], rfl⟩

/-- A component's handlers are not at work any more when the outermost has ended. -/
theorem Move.leaves (hs : WellFormed c) (h : Move may c d) (hr : c.Running k) (hd : ¬ d.Running k) : Leaves k c d := by
  obtain ⟨g, hg, hk⟩ := hr
  rcases hframes : c.frames with _ | ⟨f, rest⟩
  · rw [hframes] at hg
    cases hg
  -- Whatever is below the top stays, so no handler of the component is there.
  have hbelow : ∀ x ∈ rest, ¬ x.Handles k := fun x hx hkx => hd <| by
    rcases (h.shift hs).below f rest hframes with ⟨new, hnew⟩ | ⟨steps, given, results, results', more, hrest, hnew⟩
    · exact ⟨x, by rw [hnew]; exact List.mem_append_right _ hx, hkx⟩
    · rw [hrest] at hx
      rcases List.mem_cons.1 hx with rfl | hx
      · exact hkx.elim
      · exact ⟨x, by rw [hnew]; exact List.mem_cons_of_mem _ hx, hkx⟩
  have htop : f.Handles k := by
    rw [hframes] at hg
    rcases List.mem_cons.1 hg with rfl | hg
    · exact hk
    · exact absurd hk (hbelow g hg)
  obtain ⟨a, rfl⟩ : ∃ a, f = .handling a := by
    cases f with
    | handling a => exact ⟨a, rfl⟩
    | _ => exact htop.elim
  obtain ⟨p, hslot⟩ := htop
  have hsits : (Frame.handling a).Sits rest := by
    have hst := hs.stacked
    rw [hframes] at hst
    exact hst.1
  have hcaller : (∃ e base, rest = .emission e :: base) ∨ ∃ base, rest = .call :: base := by
    rcases rest with _ | ⟨⟨⟩, base⟩
    case cons.emission e => exact .inl ⟨e, base, rfl⟩
    case cons.call => exact .inr ⟨base, rfl⟩
    all_goals exact hsits.elim
  rcases h.at_handling hs hframes with ⟨new, hnew⟩ | ⟨hfocus, rfl⟩ | ⟨q, hfocus, rfl⟩
  · exact (hd ⟨g, by rw [hnew]; exact List.mem_append_right _ hg, hk⟩).elim
  · have hended : (c.handle a rest).frames = rest ∧ (c.handle a rest).focus = .resume := handle_focus fun h' hs' he =>
      hd ⟨.handling h', by rw [he]; exact List.mem_cons_self .., ⟨p, hs'.trans hslot⟩⟩
    obtain ⟨hd', hfocus'⟩ := hended
    exact ⟨⟨a, p, rest, hframes, hslot, hd', hbelow, hcaller⟩, .inl ⟨hfocus, hfocus'⟩⟩
  · have hunwind : c.unwind q = { bench := c.bench.leave rest a.slot, frames := rest, focus := .panicking q } := by
      rw [unwind, hframes]
    rw [hunwind]
    exact ⟨⟨a, p, rest, hframes, hslot, rfl, hbelow, hcaller⟩, .inr ⟨q, hfocus, rfl⟩⟩

/-! ## Death -/

/-- The move by which a component dies changes no registry by hand. -/
theorem Move.acts_of_dies (hs : WellFormed c) (h : Move may c d) (ha : c.bench.world.componentAlive k = true)
    (hd : d.bench.world.componentAlive k = false) : Acts .orderly c.bench.world d.bench.world := by
  cases h with
  | tick _ =>
    by_cases hw : ∀ step given, c.focus = .start step given → step.action.Within .orderly
    · exact (tick_preserves hs hw).leads.changes.acts
    · push Not at hw
      obtain ⟨step, given, hfocus, hno⟩ := hw
      have htick : c.tick = c.start step given := by rw [Config.tick, hfocus]
      exfalso
      rw [htick] at hd
      rcases hperform : c.bench.perform c.frames given step.action with why | r
      · rw [Config.start, hperform, ha] at hd
        cases hd
      · rw [bench_start hperform, (Bench.sameLives_of_registering hperform hno).1.componentAlive, ha] at hd
        cases hd
  | act _ _ step => exact .refl
  | next _ step => exact .single (.relog [])
  | furnish _ _ layout rules => exact .single (.create _ layout)

/-- What ends with a component: its channels, unless something else holds them, and what they list. -/
theorem Move.closes (hc : Reachable .any c) (h : Move .any c d) (ha : c.bench.world.componentAlive k = true)
    (hd : d.bench.world.componentAlive k = false) {ch : ChannelId} {p : Nat}
    (hslot : c.bench.world.slotAt? ch = some (.handler k p))
    (hheld : d.bench.keeps (pinned d.frames) (.channel ch) = false) :
    d.bench.world.channelAlive ch = false ∧ ∀ s, .own s ∈ (c.bench.world.registry ch).handles →
      (d.bench.world.subscription? s).isSome ∧ d.bench.world.isConnected s = false := by
  have hs := hc.wellFormed
  have hacts := h.acts_of_dies hs ha hd
  have hended : d.bench.world.channelAlive ch = false := by
    rw [← Bool.not_eq_true]
    intro hal
    have hslot' : d.bench.world.slotAt? ch = some (.handler k p) := hacts.rewires.extends.slotAt? ch _ hslot
    have hcover := (Move.nothingUnheld hs h hc.nothingUnheld).prompt.channel ch k p hslot' hal
    rcases hcover with hlive | hheld' | hm
    · exact Bool.false_ne_true (hd.symm.trans hlive)
    · exact Bool.false_ne_true (hheld.symm.trans hheld')
    · cases hm
  refine ⟨hended, fun s hm => ?_⟩
  obtain ⟨n, hn⟩ := Registry.mem_handles.1 hm
  obtain ⟨hkey, hknown⟩ := hs.bench.scene.sound.keyed ch _ hn
  obtain rfl : n = s := hkey
  -- What the channel lists is tied to it, so it cannot stay connected when the channel has ended.
  have htied : Tied c.bench.world ch n := fun _ => ⟨hs.bench.scene.owned.spared ch k p hslot ha, hn⟩
  refine ⟨?_, ?_⟩
  · obtain ⟨sub, hsub⟩ := Option.isSome_iff_exists.1 (show (c.bench.world.subscription? n).isSome from hknown)
    obtain ⟨sub', hsub', -⟩ := hacts.rewires.extends.subscription? n sub hsub
    rw [hsub']
    rfl
  rw [← Bool.not_eq_true]
  intro hconn
  have hal := (htied.acts hknown hacts hconn).1
  exact Bool.false_ne_true (hended.symm.trans hal)

end Config

end Conduit.Scenario
