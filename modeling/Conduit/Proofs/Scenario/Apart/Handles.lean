/-
Steps of one side on subscriptions, handles and registries. A handle of the side stands for the same thing on
both benches, and is held there by the same names.
-/
import Conduit.Proofs.Scenario.Alike

namespace Conduit.Scenario.Bench.Shares

variable {mine : Table → String → Bool} {strict : Prop} {ρ σ : Atlas} {n : Kind → Nat} {b u B : Bench}
  {pins pins' : Ref → Bool} {name handle endpoint registry : Field}

/-! ## Subscriptions -/

theorem subscribe (h : Shares mine strict ρ σ n b u B) {output input : Field} (ho : Points mine output)
    (hi : Points mine input) (hn : Calls mine .handles name) (via : Option Field) :
    Agree (BeginsAlike mine strict ρ σ n u) (b.subscribe output input name via)
      (B.subscribe output input name via) := by
  refine (h.endpoint ho).bind ?_
  rintro out _ rfl
  refine (h.endpoint hi).bind ?_
  rintro inp _ rfl
  -- The name is one of this side, so it is in use there if it is in use at all.
  have huses : (name.any B.handles.uses) = name.any b.handles.uses := by
    cases name with
    | none => rfl
    | some m => exact h.handles.uses (hn m rfl)
  dsimp only
  rw [huses]
  split
  · rfl
  · refine (h.channelAt out).bind ?_
    rintro o _ rfl
    refine (h.channelAt inp).bind ?_
    rintro i _ rfl
    simp only [Channel.direction_rename, Channel.payload_rename]
    dsimp only [Endpoint.rename]
    split
    · rfl
    · split
      · rfl
      · rcases h.world.subscribe? out.channel inp.channel with ⟨hv, hw⟩ | ⟨s, t, v, w, hv, hw, hmade⟩
        · rw [hv, hw]
          exact h.answered rfl
        · rw [hv, hw]
          -- A subscription takes one number, and the two sides have no other lengths than before.
          have hlengths : ∀ t, Bench.lengths { B with world := w, handles := t } = grown n .subscription 1 := fun t =>
            lengths_of_measured (h.world.toMeasured.subscribe? hw).1
              (h.signals_length.trans (grown_of_ne n 1 (by decide)).symm)
              (h.callbacks_length.trans (grown_of_ne n 1 (by decide)).symm)
          refine answered_grown (le_grown n .subscription 1) (hlengths _) fun hown => ?_
          obtain ⟨hworld, ht⟩ := hmade hown
          have hsubscribed := h.of_grown hworld (by decide) (by decide) (by decide)
          refine ⟨?_, congrArg Result.subscribed ht⟩
          cases name with
          | none => exact hsubscribed
          | some m =>
            have hentered := h.handles.enter (hn m rfl) (.own s)
            rw [show Handle.rename ρ (.own s) = .own t from congrArg Handle.own ht.symm] at hentered
            exact hsubscribed.of_handles hentered

theorem close (h : Shares mine strict ρ σ n b u B) (hh : Calls mine .handles handle) :
    Agree (BeginsAlike mine strict ρ σ n u) (b.close handle) (B.close handle) := by
  refine (h.handles.lookup hh).bind ?_
  rintro ⟨m, a⟩ _ ⟨rfl, -⟩
  exact (h.of_world (h.world.closeHandle a)).answered rfl

theorem dropHandle (h : Shares mine strict ρ σ n b u B) (hp : ∀ r, pins' (r.rename ρ) = pins r)
    (hh : Calls mine .handles handle) :
    Agree (BeginsAlike mine strict ρ σ n u) (b.dropHandle pins handle) (B.dropHandle pins' handle) := by
  refine (h.handles.lookup hh).bind ?_
  rintro ⟨m, a⟩ _ ⟨rfl, hm⟩
  exact ((h.of_handles (h.handles.strike hm)).settle hp (.handle a)).answered rfl

theorem cloneHandle (h : Shares mine strict ρ σ n b u B) (hh : Calls mine .handles handle)
    (hn : Calls mine .handles name) :
    Agree (BeginsAlike mine strict ρ σ n u) (b.cloneHandle handle name) (B.cloneHandle handle name) := by
  refine (h.handles.lookup hh).bind ?_
  rintro ⟨k, a⟩ _ ⟨rfl, -⟩
  refine (h.handles.fresh hn).bind ?_
  rintro _ m ⟨rfl, hm⟩
  exact (h.of_handles (h.handles.enter hm a)).answered rfl

theorem handleInfo (h : Shares mine strict ρ σ n b u B) (hh : Calls mine .handles handle) :
    Agree (BeginsAlike mine strict ρ σ n u) (b.handleInfo handle) (B.handleInfo handle) := by
  refine (h.handles.lookup hh).bind ?_
  rintro ⟨m, a⟩ _ ⟨rfl, -⟩
  exact h.answered (congrArg₂ Result.subscription (h.world.handleId a) (h.world.handleConnected a))

theorem downcast (h : Shares mine strict ρ σ n b u B) (hh : Calls mine .handles handle) (output input : Field) :
    Agree (BeginsAlike mine strict ρ σ n u) (b.downcast handle output input) (B.downcast handle output input) := by
  refine (h.handles.lookup hh).bind ?_
  rintro ⟨m, a⟩ _ ⟨rfl, -⟩
  refine Agree.refl.bind ?_
  rintro _ o rfl
  refine Agree.refl.bind ?_
  rintro _ i rfl
  split
  · cases a with
    | foreign f => exact h.answered rfl
    | own s =>
      dsimp only [Handle.rename]
      rw [h.world.endKinds?]
      split
      · refine h.answered ?_
        rw [h.world.endsView?]
        rcases b.world.endsView? s with _ | view <;> rfl
      · exact h.answered rfl
  · rfl

theorem has (h : Shares mine strict ρ σ n b u B) (he : Points mine endpoint) (hh : Calls mine .handles handle) :
    Agree (BeginsAlike mine strict ρ σ n u) (b.has endpoint handle) (B.has endpoint handle) := by
  refine (h.endpoint he).bind ?_
  rintro p _ rfl
  refine (h.handles.lookup hh).bind ?_
  rintro ⟨m, a⟩ _ ⟨rfl, -⟩
  refine h.answered (congrArg Result.flag ?_)
  rw [show (p.rename ρ).channel = ρ.channel p.channel from rfl, h.world.registry, h.world.handleId, Registry.has_rename]

theorem register (h : Shares mine strict ρ σ n b u B) (he : Points mine endpoint) (hh : Calls mine .handles handle) :
    Agree (BeginsAlike mine strict ρ σ n u) (b.register endpoint handle) (B.register endpoint handle) := by
  refine (h.endpoint he).bind ?_
  rintro p _ rfl
  refine (h.handles.lookup hh).bind ?_
  rintro ⟨m, a⟩ _ ⟨rfl, -⟩
  exact (h.of_world (h.world.register p.channel a)).answered rfl

theorem unregister (h : Shares mine strict ρ σ n b u B) (hp : ∀ r, pins' (r.rename ρ) = pins r)
    (he : Points mine endpoint) (hh : Calls mine .handles handle) :
    Agree (BeginsAlike mine strict ρ σ n u) (b.unregister pins endpoint handle)
      (B.unregister pins' endpoint handle) := by
  refine (h.endpoint he).bind ?_
  rintro p _ rfl
  refine (h.handles.lookup hh).bind ?_
  rintro ⟨m, a⟩ _ ⟨rfl, -⟩
  have hgone := h.of_world (h.world.deregister p.channel (b.world.handleId a))
  dsimp only
  rw [show (p.rename ρ).channel = ρ.channel p.channel from rfl, h.world.registry, h.world.handleId,
    Registry.get?_rename]
  rcases (b.world.registry p.channel).get? (b.world.handleId a) with _ | removed
  · exact hgone.answered rfl
  · exact (hgone.settle hp (.handle removed)).answered rfl

theorem forge (h : Shares mine strict ρ σ n b u B) {like : Field} (hl : Calls mine .handles like)
    (hn : Calls mine .handles name) :
    Agree (BeginsAlike mine strict ρ σ n u) (b.forge like name) (B.forge like name) := by
  refine (h.handles.lookup hl).bind ?_
  rintro ⟨k, a⟩ _ ⟨rfl, -⟩
  refine (h.handles.fresh hn).bind ?_
  rintro _ m ⟨rfl, hm⟩
  -- A foreign handle takes one number of its own kind.
  have hlengths : ∀ g t,
      Bench.lengths { B with world := B.world.adopt g, handles := t } = grown n .foreign 1 := fun g t =>
    lengths_of_measured (h.world.toMeasured.adopt g) (h.signals_length.trans (grown_of_ne n 1 (by decide)).symm)
      (h.callbacks_length.trans (grown_of_ne n 1 (by decide)).symm)
  refine answered_grown (le_grown n .foreign 1) (hlengths _ _) fun hown => ?_
  obtain ⟨hworld, hid⟩ := h.world.adopt hown { id := b.world.handleId a, name := m }
  rw [show ForeignHandle.rename ρ { id := b.world.handleId a, name := m } =
      { id := B.world.handleId (a.rename ρ), name := m } from
    by rw [h.world.handleId]; rfl] at hworld
  have hadopted := h.of_grown hworld (by decide) (by decide) (by decide)
  have hentered := h.handles.enter hm (.foreign b.world.foreigns.length)
  rw [show Handle.rename ρ (.foreign b.world.foreigns.length) = .foreign B.world.foreigns.length from
    congrArg Handle.foreign hid.symm] at hentered
  exact ⟨hadopted.of_handles hentered, rfl⟩

/-! ## Registries of their own -/

theorem newRegistry (h : Shares mine strict ρ σ n b u B) (hn : Calls mine .registries name) :
    Agree (BeginsAlike mine strict ρ σ n u) (b.newRegistry name) (B.newRegistry name) := by
  refine (h.registries.fresh hn).bind ?_
  rintro _ m ⟨rfl, hm⟩
  exact (h.of_registries (h.registries.enter hm .empty)).answered rfl

theorem dropRegistry (h : Shares mine strict ρ σ n b u B) (hp : ∀ r, pins' (r.rename ρ) = pins r)
    (hr : Calls mine .registries registry) :
    Agree (BeginsAlike mine strict ρ σ n u) (b.dropRegistry pins registry) (B.dropRegistry pins' registry) := by
  refine (h.registries.lookup hr).bind ?_
  rintro ⟨m, r⟩ _ ⟨rfl, hm⟩
  have hgone := (h.of_registries (h.registries.strike hm)).settle_handles hp r.handles
  rw [← Registry.handles_rename] at hgone
  exact hgone.answered rfl

theorem addTo (h : Shares mine strict ρ σ n b u B) (hr : Calls mine .registries registry)
    (hh : Calls mine .handles handle) :
    Agree (BeginsAlike mine strict ρ σ n u) (b.addTo registry handle) (B.addTo registry handle) := by
  refine (h.registries.lookup hr).bind ?_
  rintro ⟨m, r⟩ _ ⟨rfl, hm⟩
  refine (h.handles.lookup hh).bind ?_
  rintro ⟨k, a⟩ _ ⟨rfl, -⟩
  have hentered := h.registries.enter hm (r.insert (b.world.handleId a) a)
  rw [← Registry.insert_rename, ← h.world.handleId] at hentered
  exact (h.of_registries hentered).answered rfl

theorem removeFrom (h : Shares mine strict ρ σ n b u B) (hp : ∀ r, pins' (r.rename ρ) = pins r)
    (hr : Calls mine .registries registry) (hh : Calls mine .handles handle) :
    Agree (BeginsAlike mine strict ρ σ n u) (b.removeFrom pins registry handle)
      (B.removeFrom pins' registry handle) := by
  refine (h.registries.lookup hr).bind ?_
  rintro ⟨m, r⟩ _ ⟨rfl, hm⟩
  refine (h.handles.lookup hh).bind ?_
  rintro ⟨k, a⟩ _ ⟨rfl, -⟩
  have hentered := h.registries.enter hm (r.erase (b.world.handleId a))
  rw [← Registry.erase_rename] at hentered
  dsimp only
  rw [h.world.handleId, Registry.get?_rename]
  rcases r.get? (b.world.handleId a) with _ | removed
  · exact h.answered rfl
  · exact ((h.of_registries hentered).settle hp (.handle removed)).answered rfl

theorem contains (h : Shares mine strict ρ σ n b u B) (hr : Calls mine .registries registry)
    (hh : Calls mine .handles handle) :
    Agree (BeginsAlike mine strict ρ σ n u) (b.contains registry handle) (B.contains registry handle) := by
  refine (h.registries.lookup hr).bind ?_
  rintro ⟨m, r⟩ _ ⟨rfl, hm⟩
  refine (h.handles.lookup hh).bind ?_
  rintro ⟨k, a⟩ _ ⟨rfl, -⟩
  refine h.answered (congrArg Result.flag ?_)
  rw [h.world.handleId, Registry.has_rename]

theorem closeAll (h : Shares mine strict ρ σ n b u B) (hr : Calls mine .registries registry) :
    Agree (BeginsAlike mine strict ρ σ n u) (b.closeAll registry) (B.closeAll registry) := by
  refine (h.registries.lookup hr).bind ?_
  rintro ⟨m, r⟩ _ ⟨rfl, hm⟩
  have hclosed := h.world.closeAll r.handles
  rw [← Registry.handles_rename] at hclosed
  have hentered := h.of_registries (h.registries.enter hm .empty)
  exact (hentered.of_world hclosed).answered (congrArg Result.count r.size_rename)

theorem registryInfo (h : Shares mine strict ρ σ n b u B) (hr : Calls mine .registries registry) :
    Agree (BeginsAlike mine strict ρ σ n u) (b.registryInfo registry) (B.registryInfo registry) := by
  refine (h.registries.lookup hr).bind ?_
  rintro ⟨m, r⟩ _ ⟨rfl, hm⟩
  exact h.answered (congrArg Result.registry r.ids_rename)

end Conduit.Scenario.Bench.Shares
