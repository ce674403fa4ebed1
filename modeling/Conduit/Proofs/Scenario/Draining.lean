/-
How components and channels die, in whatever history. When the last reference to a component goes, its
channels die that nothing else holds, inputs first, each by draining its registry; and a channel that
dies in another way dies like this too.
-/
import Conduit.Proofs.Scenario.Aside
import Conduit.Proofs.Scenario.Lifetime
import Conduit.Proofs.Wiring.Departure

namespace Conduit.Scenario

open World (Acts Departs Dies License Whole)

namespace Bench

theorem settle_acts {may : License} (b : Bench) (pins : Ref → Bool) (r : Ref) :
    Acts may b.world (b.settle pins r).world := by
  have ht : World.Torn (b.keeps pins) b.world (b.settle pins r).world := World.torn_settle b.world r
  exact ht.acts

theorem letGo_acts {may : License} (rest : List Frame) : ∀ (holds : List Ref) (b : Bench),
    Acts may b.world (b.letGo rest holds).world
  | [], _ => .refl
  | r :: more, b => .trans (settle_acts b _ r) (letGo_acts rest more _)

/-- A component that dies when a step lets go what it holds, dies when its turn comes. -/
theorem letGo_departs {rest : List Frame} {k : ComponentId} : ∀ (holds : List Ref) {b : Bench}, Whole b.world →
    b.world.componentAlive k = true → (b.letGo rest holds).world.componentAlive k = false →
      ∃ more comp w v, .component k :: more <:+ holds ∧ Acts .any b.world w ∧
        Departs (b.keeps fun x => more.contains x || pinned rest x) k comp w v ∧
          Acts .any v (b.letGo rest holds).world
  | [], b, _, hk, hd => by
    rw [letGo, hk] at hd
    cases hd
  | r :: more, b, hw, hk, hd => by
    let b' := b.settle (fun x => more.contains x || pinned rest x) r
    have hacts : Acts .any b.world b'.world := settle_acts ..
    have hmore : Acts .any b'.world (b.letGo rest (r :: more)).world := letGo_acts rest more b'
    cases hstill : b'.world.componentAlive k with
    | true =>
      obtain ⟨more', comp, w, v, hsuffix, hw', hdeparts, hv⟩ := letGo_departs more (hw.acts hacts) hstill hd
      exact ⟨more', comp, w, v, hsuffix.trans (List.suffix_cons r more), hacts.trans hw', hdeparts, hv⟩
    | false =>
      obtain ⟨rfl, comp, hdeparts⟩ := hw.settle_departs hk hstill
      exact ⟨more, comp, b.world, b'.world, List.suffix_refl _, .refl, hdeparts, hmore⟩

theorem keeps_or (b : Bench) (pins pins' : Ref → Bool) :
    (b.keeps fun x => pins x || pins' x) = fun x => pins x || b.keeps pins' x := by
  funext x
  exact Bool.or_assoc ..

end Bench

namespace Config

variable {c d : Config} {k : ComponentId}

/-- What a step that ends in `c` still has to let go when it has let go the component `k`, if it is such a
step that lets it go. -/
def Pending (c : Config) (k : ComponentId) (more : List Ref) : Prop :=
  more = [] ∨ ∃ op holds rest, c.frames = .step op holds :: rest ∧ .component k :: more <:+ holds

/-- What is held in `d`, or by `more`. -/
def holding (d : Config) (more : List Ref) (r : Ref) : Bool := more.contains r || d.bench.keeps (pinned d.frames) r

/-- Between `c` and `d` components and channels die in the order of things. -/
structure Drains (c d : Config) : Prop where
  /-- When the last reference to a component goes, its channels die one after another, inputs by position and
  then outputs by position, but for those that something else holds. -/
  component : ∀ k, c.Referred k ∨ c.Running k → ¬ d.Referred k → ¬ d.Running k →
    ∃ more comp w v, c.Pending k more ∧ Acts .any c.bench.world w ∧ Departs (d.holding more) k comp w v ∧
      Acts .any v d.bench.world
  /-- No channel dies in another way, or before its component. -/
  channel : ∀ ch, c.bench.world.channelAlive ch = true → d.bench.world.channelAlive ch = false →
    ∃ w v, Acts .any c.bench.world w ∧ (∀ k p, w.slotAt? ch = some (.handler k p) → w.componentAlive k = false) ∧
      Dies ch w v ∧ Acts .any v d.bench.world

theorem Reachable.whole {may : License} (hc : Reachable may c) : Whole c.bench.world where
  sound := hc.wellFormed.bench.scene.sound
  placed := hc.wellFormed.bench.scene.placed
  owned := hc.wellFormed.bench.scene.owned
  arranged := World.Arranged.empty.acts (Moves.leads wellFormed_empty hc).changes.acts

/-- The beginning of a step leaves references to components alone, unless it takes a name away. -/
theorem referred_start {step : Step Action} {given : Option Value} {r : Begun}
    (h : c.bench.perform c.frames given step.action = .ok r) (hno : ∀ name, step.action ≠ .drop name)
    (hk : c.Referred k ∨ c.Running k) : (c.start step given).Referred k ∨ (c.start step given).Running k := by
  obtain ⟨new, hnew⟩ := start_frames c step given
  rcases hk with (hnamed | ⟨op, holds, hf, hm⟩) | ⟨f, hf, hm⟩
  · have hnamed' := (Bench.perform_aside h).named hno k hnamed
    rw [← bench_start h] at hnamed'
    exact .inl (.inl hnamed')
  · exact .inl (.inr ⟨op, holds, hnew ▸ List.mem_append_right _ hf, hm⟩)
  · exact .inr ⟨f, hnew ▸ List.mem_append_right _ hf, hm⟩

/-- A step that takes a name away lets go the component, and nothing after it. -/
theorem start_departs (hw : Whole c.bench.world) {step : Step Action} {given : Option Value} {name : Field} {r : Begun}
    (ha : step.action = .drop name) (h : c.bench.perform c.frames given step.action = .ok r)
    (hk : c.bench.world.componentAlive k = true) (hd : r.bench.world.componentAlive k = false) :
    ∃ comp, Departs ((c.start step given).holding []) k comp c.bench.world (c.start step given).bench.world := by
  have hdrop : c.bench.drop (pinned c.frames) name = .ok r := by
    rw [ha] at h
    exact h
  obtain ⟨⟨n, j⟩, -, hr⟩ := bind_ok hdrop
  cases hr
  have hstart := bench_start h
  have hholding : (c.start step given).holding [] =
      Bench.keeps { c.bench with components := c.bench.components.strike n } (pinned c.frames) := by
    rw [start, h]
    rfl
  obtain ⟨hj, comp, hdeparts⟩ := hw.settle_departs hk hd
  refine ⟨comp, ?_⟩
  rw [hholding, hstart]
  exact hdeparts

/-- A step that ends may let go several parts; those that come after the component are still held when it dies. -/
theorem ended_departs (hw : Whole c.bench.world) {op : Option String} {holds : List Ref} {rest : List Frame}
    (hframes : c.frames = .step op holds :: rest) (hpins : pinned d.frames = pinned rest)
    (hsame : Bench.Unmoved (c.bench.letGo rest holds) d.bench) (hk : c.bench.world.componentAlive k = true)
    (hd : d.bench.world.componentAlive k = false) : ∃ more comp w v, c.Pending k more ∧ Acts .any c.bench.world w ∧
      Departs (d.holding more) k comp w v ∧ Acts .any v d.bench.world := by
  obtain ⟨log, hlog⟩ := hsame.world
  rw [hlog] at hd
  obtain ⟨more, comp, w, v, hsuffix, hbefore, hdeparts, hafter⟩ := Bench.letGo_departs holds hw hk hd
  refine ⟨more, comp, w, v, .inr ⟨op, holds, rest, hframes, hsuffix⟩, hbefore, ?_, ?_⟩
  · have hholding : d.holding more = c.bench.keeps fun x => more.contains x || pinned rest x := by
      obtain ⟨u, hu⟩ := Bench.letGo_world rest holds c.bench
      rw [hu] at hsame
      rw [Bench.keeps_or, ← hpins]
      funext x
      exact congrArg _ (hsame.keeps _ x)
    rw [hholding]
    exact hdeparts
  · rw [hlog]
    exact .tail hafter (.relog log)

/-- A handler that ends lets go its component, and nothing else. -/
theorem left_departs (hw : Whole c.bench.world) {h : Handling} {rest : List Frame} (hrest : d.frames = rest)
    (hleave : d.bench = c.bench.leave rest h.slot) (hk : c.bench.world.componentAlive k = true)
    (hd : d.bench.world.componentAlive k = false) :
    ∃ comp, Departs (d.holding []) k comp c.bench.world d.bench.world := by
  rw [hleave] at hd ⊢
  cases hslot : h.slot with
  | callback f =>
    rw [hslot, Bench.leave, hk] at hd
    cases hd
  | handler j p =>
    rw [hslot] at hd
    obtain ⟨hj, comp, hdeparts⟩ := hw.settle_departs hk hd
    have hholding : d.holding [] = c.bench.keeps (pinned rest) := by
      funext x
      rw [holding, hleave, hslot, hrest]
      rfl
    refine ⟨comp, ?_⟩
    rw [hholding]
    exact hdeparts

/-- When a component dies in a move, this is how. -/
theorem Move.departs {may : License} (hc : Reachable .any c) (h : Move may c d)
    (hk : c.bench.world.componentAlive k = true) (hd : d.bench.world.componentAlive k = false) :
    ∃ more comp w v, c.Pending k more ∧ Acts .any c.bench.world w ∧
      Departs (d.holding more) k comp w v ∧ Acts .any v d.bench.world := by
  have hw := hc.whole
  have hreach : Reachable .any d := .tail hc h.any
  obtain ⟨hnamed, hrunning⟩ := hreach.gone hd
  cases h.moved with
  | @begun step given r hfocus hperform hstart =>
    subst hstart
    rw [bench_start hperform] at hd
    -- A component that dies in a step loses its last name there.
    have hdrop : ∃ name, step.action = .drop name := by
      by_contra hno
      push Not at hno
      have href := hc.componentAlive_iff.1 hk
      rcases referred_start hperform hno href with hreferred | hrun
      · exact hnamed hreferred
      · exact hrunning hrun
    obtain ⟨name, hname⟩ := hdrop
    obtain ⟨comp, hdeparts⟩ := start_departs hw hname hperform hk hd
    exact ⟨[], comp, _, _, .inl rfl, .refl, hdeparts, .refl⟩
  | ended hframes hpins hsame => exact ended_departs hw hframes hpins hsame hk hd
  | left _ hrest hleave =>
    obtain ⟨comp, hdeparts⟩ := left_departs hw hrest hleave hk hd
    exact ⟨[], comp, _, _, .inl rfl, .refl, hdeparts, .refl⟩
  | @furnished name layout rules hn hfurnish =>
    subst hfurnish
    have hlives : (c.bench.world.create name layout).2.componentAlive k = true := by
      rw [World.componentAlive_create, hk]
      rfl
    exact absurd (hlives.symm.trans hd) Bool.noConfusion
  | unmoved hsame =>
    obtain ⟨log, hlog⟩ := hsame.world
    rw [hlog] at hd
    exact absurd (hk.symm.trans hd) Bool.noConfusion

/-- Whatever dies in any move of any history dies like this. -/
theorem channels_drain (hc : Reachable .any c) (h : Move .any c d) : Drains c d where
  component k href hno hidle := by
    have hd : Reachable .any d := .tail hc h
    have hdead : d.bench.world.componentAlive k = false := by
      rw [← Bool.not_eq_true, hd.componentAlive_iff, not_or]
      exact ⟨hno, hidle⟩
    exact h.departs hc (hc.componentAlive_iff.2 href) hdead
  channel ch ha hdead := by
    obtain ⟨w, hw, howner, hdies, hv⟩ := (h.preserves hc.wellFormed).leads.changes.acts.dies hc.whole ha hdead
    exact ⟨w, _, hw, howner, hdies, hv⟩

/-- For instance the second component of `departing` dies when its handler ends, and with it its input, which
lists a subscription. -/
theorem channels_drain_departing : Drains departing departing.tick ∧
    (departing.bench.world.componentAlive 1 = true ∧ departing.tick.bench.world.componentAlive 1 = false) ∧
    (departing.bench.world.registry 2).ids = [1] ∧ departing.bench.world.channelAlive 2 = true ∧
    departing.tick.bench.world.channelAlive 2 = false ∧ departing.tick.bench.world.isConnected 1 = false :=
  ⟨channels_drain reachable_departing (.tick fun step _ _ => step.action.within_any), by decide⟩

end Config

end Conduit.Scenario
