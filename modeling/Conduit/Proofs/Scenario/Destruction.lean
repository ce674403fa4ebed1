/-
Destruction in any order. When things have only been taken down, components live if they are still held,
channels if their component lives or they are held, and subscriptions are connected unless there is a
reason against it; all of this can be told without knowing the order. So two orders come to the same
(`Razed.alike`), whatever was closed on the way through which end.
-/
import Conduit.Proofs.Scenario.Closing
import Conduit.Proofs.Scenario.Undoing

namespace Conduit

namespace World

/-! ## Wirings that agree -/

/-- In both wirings the same parts live, the same subscriptions are connected, and living channels list
the same handles and have the same slots, in the same order. -/
structure Alike (v u : World) : Prop where
  components : ∀ k, u.componentAlive k = v.componentAlive k
  channels : ∀ ch, u.channelAlive ch = v.channelAlive ch
  connected : ∀ s, u.isConnected s = v.isConnected s
  registries : ∀ ch, v.channelAlive ch = true → u.registry ch = v.registry ch
  signals : ∀ ch, v.channelAlive ch = true → u.signal? ch = v.signal? ch

/-- The wiring `v` is what is left of `w` when the subscriptions of which `asked` tells have been closed and
of all else just what is `held` has been kept. -/
structure Razed (asked : Nat → Prop) (held : Ref → Bool) (w v : World) : Prop where
  falls : Falls asked (fun s => held (.handle (.own s)) = true) w v
  closed : ∀ s, asked s → v.isConnected s = false
  scene : Scene.WellFormed ⟨v, held⟩
  prompt : Prompt [] ⟨v, held⟩
  rewires : Rewires ⟨False, False, False⟩ w v

namespace Razed

variable {asked : Nat → Prop} {held : Ref → Bool} {u v w : World}

theorem componentAlive_iff (h : Razed asked held w v) (k : ComponentId) :
    v.componentAlive k = true ↔ held (.component k) = true :=
  ⟨fun ha => (h.prompt.component k ha).resolve_right List.not_mem_nil, h.scene.upheld (.component k)⟩

theorem channelAlive_iff (h : Razed asked held w v) (ch : ChannelId) : v.channelAlive ch = true ↔
    ∃ k p, w.slotAt? ch = some (.handler k p) ∧ (held (.component k) = true ∨ held (.channel ch) = true) := by
  have hslot := h.falls.forgets.slotAt? ch
  constructor
  · intro ha
    obtain ⟨c, hc⟩ : ∃ c, v.channels[ch]? = some c := by
      rw [channelAlive] at ha
      exact Option.isSome_iff_exists.1 (Option.isSome_of_any ha)
    have hown : v.slotAt? ch = some (.handler c.owner c.position) := by
      rw [slotAt?, hc]
      rfl
    refine ⟨c.owner, c.position, hslot.symm.trans hown, ?_⟩
    rcases h.prompt.channel ch c.owner c.position hown ha with hlives | hheld | hmem
    · exact .inl ((h.componentAlive_iff c.owner).1 hlives)
    · exact .inr hheld
    · exact absurd hmem List.not_mem_nil
  · rintro ⟨k, p, hown, hk | hch⟩
    · exact h.scene.owned.spared ch k p (hslot.trans hown) ((h.componentAlive_iff k).2 hk)
    · exact h.scene.upheld (.channel ch) hch

/-- The tokens of connected subscriptions are those of the beginning. -/
theorem subscription?_congr (hv : Razed asked held w v) (hu : Razed asked held w u) {s : Nat}
    (hs : u.isConnected s = v.isConnected s) : u.subscription? s = v.subscription? s := by
  have hnone : ∀ {x : World}, Razed asked held w x → w.subscription? s = none → x.subscription? s = none :=
      fun hx h => by
    rw [subscription?_eq_none_iff] at h ⊢
    rwa [hx.falls.forgets.length]
  rcases hsub : w.subscription? s with _ | sub
  · rw [hnone hv hsub, hnone hu hsub]
  · obtain ⟨sv, hsv, hov, hiv, htv⟩ := hv.rewires.extends.subscription? s sub hsub
    obtain ⟨su, hsu, hou, hiu, htu⟩ := hu.rewires.extends.subscription? s sub hsub
    rw [isConnected, hsu, isConnected, hsv, Option.any_some, Option.any_some] at hs
    obtain ⟨o, i, t⟩ := sub
    obtain ⟨ov, iv, tv⟩ := sv
    obtain ⟨ou, iu, tu⟩ := su
    cases hov; cases hiv; cases hou; cases hiu
    rw [hsu, hsv]
    -- The token is what it was or gone, in both alike.
    have htoken : tu = tv := by
      dsimp only at htv htu hs
      rcases htv with rfl | rfl <;> rcases htu with rfl | rfl
      · rfl
      · exact (Option.isSome_eq_false_iff.1 hs.symm |> Option.isNone_iff_eq_none.1).symm
      · exact Option.isNone_iff_eq_none.1 (Option.isSome_eq_false_iff.1 hs)
      · rfl
    rw [htoken]

theorem placesAt_congr (hv : Razed asked held w v) (hu : Razed asked held w u)
    (hs : ∀ s, u.isConnected s = v.isConnected s) (o : ChannelId) : u.placesAt o = v.placesAt o := by
  have hremoved : ∀ {x : World}, Razed asked held w x → ∀ p, .removed o p ∈ x.ledger ↔ .removed o p ∈ w.ledger :=
    fun hx p => ⟨hx.rewires.removed id, fun hm => hx.rewires.extends.ledger.subset hm⟩
  refine World.placesAt_congr (hu.falls.forgets.length.trans hv.falls.forgets.length.symm) fun s => ?_
  refine placeAt?_congr (hv.subscription?_congr hu (hs s))
    (fun p => (hremoved hu p).trans (hremoved hv p).symm) fun i _ _ => ?_
  exact (hu.falls.forgets.slotAt? i).trans (hv.falls.forgets.slotAt? i).symm

/-- What is left does not depend on the way there. -/
theorem alike (hw : Sound none w) (hv : Razed asked held w v) (hu : Razed asked held w u) : Alike v u := by
  have hcomponents : ∀ k, u.componentAlive k = v.componentAlive k := fun k => by
    rw [Bool.eq_iff_iff, hu.componentAlive_iff, hv.componentAlive_iff]
  have hchannels : ∀ ch, u.channelAlive ch = v.channelAlive ch := fun ch => by
    rw [Bool.eq_iff_iff, hu.channelAlive_iff, hv.channelAlive_iff]
  have hconnected : ∀ s, u.isConnected s = v.isConnected s := fun s => by
    rw [Bool.eq_iff_iff, hu.falls.isConnected_iff hw hu.scene.backed hu.closed,
      hv.falls.isConnected_iff hw hv.scene.backed hv.closed]
    simp only [hchannels]
  refine ⟨hcomponents, hchannels, hconnected, fun ch ha => ?_, fun ch ha => ?_⟩
  · have hentries : (u.registry ch).entries = (v.registry ch).entries := by
      rw [hu.falls.forgets.registry ch ((hchannels ch).trans ha), hv.falls.forgets.registry ch ha]
      refine List.filter_congr fun e _ => ?_
      rw [closedAt, hconnected, closedAt]
    exact Registry.eq_of_entries hentries
  · have hnumbering := (hu.falls.forgets.numbering? ch).trans (hv.falls.forgets.numbering? ch).symm
    refine signal?_eq hnumbering fun g g' hg hg' => ?_
    rw [hu.scene.placed.places ch g ((hchannels ch).trans ha) hg, hv.scene.placed.places ch g' ha hg']
    exact hv.placesAt_congr hu hconnected ch

/-- A channel that neither its component nor anything else holds takes the subscriptions listed there
with it, and their other ends forget them. -/
theorem closed_of_unheld (h : Razed asked held w v) (hw : Sound none w) {k : ComponentId} {p s : Nat} {ch : ChannelId}
    (hslot : w.slotAt? ch = some (.handler k p)) (hk : held (.component k) = false) (hch : held (.channel ch) = false)
    (hs : w.isConnected s = true) (hm : .own s ∈ (w.registry ch).handles) :
    v.isConnected s = false ∧ ∀ o, v.channelAlive o = true → w.joins s o = true → (v.registry o).has s = false := by
  obtain ⟨n, hn⟩ := Registry.mem_handles.1 hm
  obtain rfl : n = s := (hw.keyed ch _ hn).1
  have hlives : w.channelAlive ch = true := by
    rw [← Bool.not_eq_false]
    intro hdead
    have hids : n ∈ (w.registry ch).ids := Registry.mem_ids.2 ⟨_, hn⟩
    rw [hw.drained ch nofun hdead] at hids
    cases hids
  -- Neither the component nor the channel is held, so the channel has ended.
  have hdead : v.channelAlive ch ≠ true := fun ha => by
    obtain ⟨k', p', hslot', hkept⟩ := (h.channelAlive_iff ch).1 ha
    rw [hslot] at hslot'
    cases hslot'
    rw [hk, hch] at hkept
    rcases hkept with hkept | hkept <;> cases hkept
  have hclosed : v.isConnected n = false := by
    rw [← Bool.not_eq_true, h.falls.isConnected_iff hw h.scene.backed h.closed]
    rintro ⟨-, -, hlists, -⟩
    exact hdead (hlists ch hlives hn)
  refine ⟨hclosed, fun o ho hends => ?_⟩
  rw [← Bool.not_eq_true, Registry.has_iff, Registry.mem_ids]
  rintro ⟨x, hx⟩
  rw [h.falls.forgets.registry o ho, List.mem_filter, closedAt, hs, hclosed, hends] at hx
  exact Bool.noConfusion hx.2

end Razed

end World

namespace Scenario

open World (Alike Razed)

namespace Config

variable {c d e : Config} {l l' : List (Step Action)}

/-- The subscriptions that steps close through a handle. -/
def Asked (c : Config) (l : List (Step Action)) (s : Nat) : Prop :=
  ∃ step ∈ l, ∃ n, step.action.closed = some n ∧ (n, .own s) ∈ c.bench.handles

/-- No step closes through a handle that another one drops. -/
def Lasting (l : List (Step Action)) : Prop :=
  ∀ x ∈ l, ∀ n, x.action.closed = some n → ∀ y ∈ l, y.action.droppedHandle ≠ some n

theorem Asked.perm (hp : l.Perm l') {s : Nat} : c.Asked l s ↔ c.Asked l' s := by
  unfold Asked
  simp only [hp.mem_iff]

theorem Lasting.perm (h : Lasting l) (hp : l.Perm l') : Lasting l' := fun x hx n hn y hy =>
  h x (hp.mem_iff.2 hx) n hn y (hp.mem_iff.2 hy)

/-- What steps of a teardown leave. -/
theorem razed_of_undoing (hc : Reachable .any c) (hl : Lasting l) (h : Undoing (l.map (·.action)) c d) :
    Razed (c.Asked l) (d.bench.keeps (pinned d.frames)) c.bench.world d.bench.world := by
  have hd : Reachable .any d := .trans hc (h.moves .any)
  refine ⟨h.falls (fun a ha n s hn hm => ?_) fun _ hs => hs, fun s hs => ?_,
    hd.wellFormed.bench.scene, hd.nothingUnheld.prompt, ((h.moves _).leads hc.wellFormed).changes.acts.rewires⟩
  · obtain ⟨step, hstep, rfl⟩ := List.mem_map.1 ha
    exact ⟨step, hstep, n, hn, hm⟩
  · obtain ⟨step, hstep, n, hn, hm⟩ := hs
    refine h.closes step.action (List.mem_map_of_mem hstep) n s hn hm fun a ha => ?_
    obtain ⟨other, hother, rfl⟩ := List.mem_map.1 ha
    exact hl step hstep n hn other hother

/-- What beside the wiring is left does not depend on the order, and so what is held does not. -/
theorem bench_of_perm (hp : l.Perm l') (hd : Undoing (l.map (·.action)) c d) (he : Undoing (l'.map (·.action)) c e) :
    e.bench = { d.bench with world := e.bench.world } := by
  have hsame := he.bench
  rw [← Bench.stripped_perm _ _ (hp.map (·.action))] at hsame
  rw [hsame, hd.bench]
  rfl

theorem alike_of_perm (hc : Reachable .any c) (hl : Lasting l) (hp : l.Perm l') (hd : Undoing (l.map (·.action)) c d)
    (he : Undoing (l'.map (·.action)) c e) : Alike d.bench.world e.bench.world := by
  have hrazed := razed_of_undoing hc hl hd
  have hother := razed_of_undoing hc (hl.perm hp) he
  have hkeeps : e.bench.keeps (pinned e.frames) = d.bench.keeps (pinned d.frames) := by
    rw [he.frames, hd.frames, bench_of_perm hp hd he]
    funext r
    cases r <;> rfl
  have hasked : c.Asked l' = c.Asked l := funext fun s => propext (Asked.perm hp).symm
  rw [hkeeps, hasked] at hother
  exact hrazed.alike hc.wellFormed.bench.scene.sound hother

/-- The steps drop every reference to a component, and no handler of it runs. -/
def Drops (c : Config) (l : List (Step Action)) (k : ComponentId) : Prop :=
  pinned c.frames (.component k) = false ∧ ∀ n, (n, k) ∈ c.bench.components → ∃ step ∈ l, step.action.dropped = some n

/-- The steps release whatever but its component holds a channel. -/
def Releases (c : Config) (l : List (Step Action)) (ch : ChannelId) : Prop :=
  pinned c.frames (.channel ch) = false ∧ ∀ n, (n, ch) ∈ c.bench.channels → ∃ step ∈ l, step.action.released = some n

theorem not_mem_less {α : Type} {t : Names α} {a : α} {f : Action → Field}
    (h : ∀ n, (n, a) ∈ t → ∃ step ∈ l, f step.action = some n) (n : String) :
    (n, a) ∉ t.less ((l.map (·.action)).map f) := fun hm => by
  obtain ⟨hm, hkept⟩ := Names.mem_less.1 hm
  obtain ⟨step, hstep, hn⟩ := h n hm
  exact hkept (List.mem_map.2 ⟨step.action, List.mem_map_of_mem hstep, hn⟩)

theorem not_kept_of_drops {k : ComponentId} (h : c.Drops l k) (hd : Undoing (l.map (·.action)) c d) :
    d.bench.keeps (pinned d.frames) (.component k) = false := by
  rw [← Bool.not_eq_true, Bench.keeps_component, hd.frames, hd.bench]
  rintro (hpin | ⟨n, hn⟩)
  · rw [h.1] at hpin
    cases hpin
  · exact not_mem_less h.2 n hn

theorem not_kept_of_releases {ch : ChannelId} (h : c.Releases l ch) (hd : Undoing (l.map (·.action)) c d) :
    d.bench.keeps (pinned d.frames) (.channel ch) = false := by
  rw [← Bool.not_eq_true, Bench.keeps_channel, hd.frames, hd.bench]
  rintro (hpin | ⟨n, hn⟩)
  · rw [h.1] at hpin
    cases hpin
  · exact not_mem_less h.2 n hn

/-- Things can be taken down in any order: all orders come to the same, and with components go the
subscriptions of those of their channels that nobody else holds, from both ends. -/
theorem destruction_order (hc : Reachable .any c) (hr : c.Ready) (ha : ∀ step ∈ l, step.action.Undoes)
    (hl : Lasting l) :
    ∀ l', l.Perm l' →
      (Moves .any c (carryAll l' c) ∧ (carryAll l' c).frames = c.frames ∧ (carryAll l' c).Ready) ∧
      Alike (carryAll l c).bench.world (carryAll l' c).bench.world ∧
      (carryAll l' c).bench = { (carryAll l c).bench with world := (carryAll l' c).bench.world } ∧
      ∀ k p ch s, c.Drops l k → c.bench.world.slotAt? ch = some (.handler k p) → c.Releases l ch →
        c.bench.world.isConnected s = true → .own s ∈ (c.bench.world.registry ch).handles →
        (carryAll l' c).bench.world.isConnected s = false ∧ ∀ o, (carryAll l' c).bench.world.channelAlive o = true →
          c.bench.world.joins s o = true → ((carryAll l' c).bench.world.registry o).has s = false := by
  intro l' hp
  have hfirst := carryAll_undoing l hc.wellFormed hr ha
  have hother := carryAll_undoing l' hc.wellFormed hr fun step hstep => ha step (hp.mem_iff.2 hstep)
  refine ⟨⟨hother.moves .any, hother.frames, hother.ready⟩, alike_of_perm hc hl hp hfirst hother,
    bench_of_perm hp hfirst hother, ?_⟩
  intro k p ch s hk hslot hch hs hm
  -- What the steps drop and release does not depend on their order.
  have hdrops : c.Drops l' k := ⟨hk.1, fun n hn => by simpa only [hp.mem_iff] using hk.2 n hn⟩
  have hreleases : c.Releases l' ch := ⟨hch.1, fun n hn => by simpa only [hp.mem_iff] using hch.2 n hn⟩
  exact (razed_of_undoing hc (hl.perm hp) hother).closed_of_unheld hc.wellFormed.bench.scene.sound hslot
    (not_kept_of_drops hdrops hother) (not_kept_of_releases hreleases hother) hs hm

/-- For instance the publisher of the only subscription can go before the handle of that or after it. -/
theorem destruction_order_linked : Alike
    (carryAll [⟨none, .drop (some "a")⟩, ⟨none, .dropHandle (some "h")⟩] linked).bench.world
    (carryAll [⟨none, .dropHandle (some "h")⟩, ⟨none, .drop (some "a")⟩] linked).bench.world ∧
    ((carryAll [⟨none, .dropHandle (some "h")⟩, ⟨none, .drop (some "a")⟩] linked).bench.world.registry 2).has 1 =
      false := by
  have hundoes : ∀ step ∈ [(⟨none, .drop (some "a")⟩ : Step Action), ⟨none, .dropHandle (some "h")⟩],
      step.action.Undoes :=
    fun step hstep => by
      rcases List.mem_pair.1 hstep with rfl | rfl <;> trivial
  have hlasting : Lasting [⟨none, .drop (some "a")⟩, ⟨none, .dropHandle (some "h")⟩] := fun step hstep n hn => by
    rcases List.mem_pair.1 hstep with rfl | rfl <;> cases hn
  obtain ⟨-, halike, -, hclosed⟩ := destruction_order reachable_linked.any (.inl ⟨.subscribed 1, rfl⟩) hundoes hlasting
    [⟨none, .dropHandle (some "h")⟩, ⟨none, .drop (some "a")⟩] (.swap _ _ _)
  refine ⟨halike, (hclosed 0 0 1 1 ⟨rfl, fun n hn => ⟨_, List.mem_cons_self .., ?_⟩⟩ (by decide) ⟨rfl, fun n hn => ?_⟩
    (by decide) (by decide)).2 2 (by decide) (by decide)⟩
  · -- Both components have one name only, and no channel has any.
    have hcomponents : linked.bench.components = [("a", 0), ("b", 1)] := by decide
    rw [hcomponents] at hn
    rcases List.mem_pair.1 hn with he | he
    · rw [(Prod.mk.inj he).1]
      rfl
    · exact absurd (Prod.mk.inj he).2 (by decide)
  · have hchannels : linked.bench.channels = [] := by decide
    rw [hchannels] at hn
    cases hn

end Config

end Scenario

end Conduit
