/-
Who ends, and when. A component lives just as long as something holds it, and a channel as long as its
component lives or something holds it: what has been let go is looked after at once (`Prompt`). In the
middle of a teardown some parts may have lost their last holder without having been looked after yet,
so the invariant is stated but for a list of these; to look after one of them takes it off the list.
-/
import Conduit.Proofs.Wiring.Scene

namespace Conduit.World

/-! ## Lives -/

/-- In `v` the same components and channels live as in `w`. -/
structure SameLives (v w : World) : Prop where
  components : v.components = w.components
  channelAlive : ∀ ch, v.channelAlive ch = w.channelAlive ch
  slotAt? : ∀ ch, v.slotAt? ch = w.slotAt? ch

namespace SameLives

variable {u v w : World}

theorem refl (w : World) : SameLives w w := ⟨rfl, fun _ => rfl, fun _ => rfl⟩

theorem trans (h₁ : SameLives u v) (h₂ : SameLives v w) : SameLives u w :=
  ⟨h₁.components.trans h₂.components, fun ch => (h₁.channelAlive ch).trans (h₂.channelAlive ch),
    fun ch => (h₁.slotAt? ch).trans (h₂.slotAt? ch)⟩

theorem of_sameParts (h : SameParts v w) : SameLives v w := ⟨h.components, h.channelAlive, h.slotAt?⟩

theorem componentAlive (h : SameLives v w) (c : ComponentId) : v.componentAlive c = w.componentAlive c := by
  rw [World.componentAlive, h.components, World.componentAlive]

theorem closeHandle (w : World) (h : Handle) : SameLives (w.closeHandle h) w :=
  ⟨components_closeHandle w h, fun ch => channelAlive_closeHandle w h ch, fun ch => slotAt?_closeHandle w h ch⟩

theorem letGo (w : World) (held : Ref → Bool) (h : Handle) : SameLives (w.letGo held h) w := by
  unfold World.letGo
  split
  · exact refl w
  · split
    · exact refl w
    · exact closeHandle w (.own _)

theorem unregister (w : World) (held : Ref → Bool) (ch : ChannelId) (s : Nat) :
    SameLives (w.unregister held ch s) w := by
  have hd : SameLives (w.deregister ch s) w := .of_sameParts (sameParts_deregister ..)
  unfold World.unregister
  split
  · exact hd
  · exact (letGo _ held _).trans hd

theorem closeAll : ∀ (hs : List Handle) (w : World), SameLives (w.closeAll hs) w
  | [], w => refl w
  | h :: hs, w => (closeAll hs _).trans ((closeHandle _ h).trans (of_sameParts (.note w _)))

theorem subscribe {o i : ChannelId} {n p : Nat} {slot : Slot} {g g' : Signal Slot}
    (h : Subscribed w v o i n p slot g g') : SameLives v w :=
  ⟨h.components, h.channelAlive, h.slotAt?⟩

end SameLives

/-- A channel that ends is the only one that does. -/
theorem channelAlive_endChannel (w : World) (ch o : ChannelId) :
    (w.endChannel ch).channelAlive o = (w.channelAlive o && o != ch) := by
  by_cases ho : o = ch
  · subst ho
    rw [bne_self_eq_false, Bool.and_false]
    unfold endChannel
    split
    · rename_i hc
      rw [channelAlive, hc, Option.any_none]
    · rename_i c hc
      split
      · have hmarked : (w.markEnded o).channelAlive o = false := by simp
        have hend := drainAll_induct (Q := fun _ => True) (fun _ _ _ _ _ _ _ => trivial) (fun _ _ _ => trivial)
          (w.markEnded o) c.direction trivial hmarked
        dsimp only
        split
        · exact hend.2.1
        · exact hend.2.1
      · rename_i ha
        rw [channelAlive, hc, Option.any_some]
        exact Bool.eq_false_iff.2 ha
  · rw [(ends_endChannel w ch).channelAlive o ho, bne_iff_ne.2 ho, Bool.and_true]

/-! ## New components -/

theorem foldl_note : ∀ (es : List Event) (w : World),
    es.foldl (fun w e => w.note (.event e)) w = { w with log := (es.map Entry.event).reverse ++ w.log }
  | [], _ => rfl
  | e :: es, w => by
    rw [List.foldl_cons, foldl_note es, List.map_cons, List.reverse_cons, List.append_assoc]
    rfl

/-- What it is to create a component. -/
theorem create_def (w : World) (name : String) (layout : Layout) : w.create name layout = (w.components.length,
    { w with
      components := w.components ++ [{
        name, layout
        inputs := (List.range layout.inputs.length).map (w.channels.length + ·)
        outputs := (List.range layout.outputs.length).map (w.channels.length + layout.inputs.length + ·) }]
      channels := w.channels ++ newChannels w.components.length layout
      log := ((creationEvents name layout).map Entry.event).reverse ++ w.log }) := by
  rw [create, foldl_note]

/-- A new component lists its channels. -/
theorem listed_create {w : World} (h : ∀ ch c p, w.slotAt? ch = some (.handler c p) →
      ∃ comp, w.components[c]? = some comp ∧ ch ∈ comp.inputs ++ comp.outputs) (name : String) (layout : Layout)
    {ch : Nat} {c : ComponentId} {p : Nat} (hslot : (w.create name layout).2.slotAt? ch = some (.handler c p)) :
    ∃ comp, (w.create name layout).2.components[c]? = some comp ∧ ch ∈ comp.inputs ++ comp.outputs := by
  rcases slotAt?_create _ _ _ _ hslot with hold | ⟨hnone, q, hq⟩
  · obtain ⟨comp, hcomp, hm⟩ := h ch c p hold
    rw [create_def]
    exact ⟨comp, (List.getElem?_append_left (List.getElem?_eq_some_iff.1 hcomp).1).trans hcomp, hm⟩
  · cases hq
    obtain ⟨x, hx, -⟩ := Option.map_eq_some_iff.1 hslot
    have hge : w.channels.length ≤ ch := by
      by_contra hlt
      rw [slotAt?, List.getElem?_eq_getElem (Nat.lt_of_not_le hlt)] at hnone
      cases hnone
    have hlt : ch < (w.channels ++ newChannels w.components.length layout).length := by
      rw [create_def] at hx
      exact (List.getElem?_eq_some_iff.1 hx).1
    rw [List.length_append, newChannels_length] at hlt
    rw [create_def]
    refine ⟨_, List.getElem?_concat_length, List.mem_append.2 ?_⟩
    rw [List.mem_map, List.mem_map]
    -- The inputs come first, and the outputs behind them.
    by_cases hin : ch < w.channels.length + layout.inputs.length
    · refine .inl ⟨ch - w.channels.length, List.mem_range.2 ?_, Nat.add_sub_cancel' hge⟩
      omega
    · refine .inr ⟨ch - (w.channels.length + layout.inputs.length), List.mem_range.2 ?_,
        Nat.add_sub_cancel' (Nat.le_of_not_lt hin)⟩
      omega

/-! ## Components that have ended -/

/-- Components stay listed, and none comes to life again. -/
theorem Act.lives_before {may : License} {w v : World} (h : Act may w v) {k : ComponentId}
    (hk : k < w.components.length) :
    k < v.components.length ∧ (v.componentAlive k = true → w.componentAlive k = true) := by
  have hsame : SameLives v w →
      k < v.components.length ∧ (v.componentAlive k = true → w.componentAlive k = true) := fun hs =>
    ⟨by rw [hs.components]; exact hk, fun ha => (hs.componentAlive k).symm.trans ha⟩
  -- Components come last, and only their own death ends them.
  cases h with
  | relog log => exact hsame ⟨rfl, fun _ => rfl, fun _ => rfl⟩
  | step hs =>
    cases hs with
    | note e => exact hsame (.of_sameParts (.note w e))
    | close s => exact hsame (.closeHandle w (.own s))
    | deny f => exact hsame ⟨rfl, fun _ => rfl, fun _ => rfl⟩
    | markDead c =>
      refine ⟨by rw [markDead, List.length_modify]; exact hk, fun ha => ?_⟩
      rw [componentAlive_markDead, Bool.and_eq_true] at ha
      exact ha.1
    | endChannel ch =>
      have he := ends_endChannel w ch
      refine ⟨by rw [he.components]; exact hk, fun ha => ?_⟩
      rwa [componentAlive, he.components] at ha
  | create name layout =>
    constructor
    · rw [create_def, List.length_append]
      exact Nat.lt_of_lt_of_le hk (Nat.le_add_right ..)
    · intro ha
      rw [componentAlive_create, Bool.or_eq_true, beq_iff_eq] at ha
      exact ha.resolve_right (Nat.ne_of_lt hk)
  | subscribe _ _ _ hin hs =>
    obtain ⟨p, slot, g, g', hs⟩ := subscribed_of_subscribe? hin hs
    exact hsame (.subscribe hs)
  | register _ _ _ => exact hsame (.of_sameParts (sameParts_register ..))
  | deregister _ ch s => exact hsame (.of_sameParts (sameParts_deregister ..))
  | adopt g _ => exact hsame ⟨rfl, fun _ => rfl, fun _ => rfl⟩
  | disconnectByHand _ o place => exact hsame (.of_sameParts (sameParts_disconnectByHand ..))

theorem Acts.lives_before {may : License} {w v : World} (h : Acts may w v) {k : ComponentId}
    (hk : k < w.components.length) :
    k < v.components.length ∧ (v.componentAlive k = true → w.componentAlive k = true) := by
  refine h.induct (P := fun v => k < v.components.length ∧ (v.componentAlive k = true → w.componentAlive k = true))
    (fun u u' hu ha => ?_) ⟨hk, id⟩
  obtain ⟨hlt, hback⟩ := ha.lives_before hu.1
  exact ⟨hlt, fun hal => hu.2 (hback hal)⟩

/-! ## What lives is held -/

/-- Every channel is listed by its component, and nothing lives that is not held, but for the parts in
`rs`, which nobody has looked after yet. -/
structure Prompt (rs : List Ref) (σ : Scene) : Prop where
  listed : ∀ ch c p, σ.world.slotAt? ch = some (.handler c p) →
    ∃ comp, σ.world.components[c]? = some comp ∧ ch ∈ comp.inputs ++ comp.outputs
  component : ∀ c, σ.world.componentAlive c = true → σ.held (.component c) = true ∨ .component c ∈ rs
  channel : ∀ ch c p, σ.world.slotAt? ch = some (.handler c p) → σ.world.channelAlive ch = true →
    σ.world.componentAlive c = true ∨ σ.held (.channel ch) = true ∨ .channel ch ∈ rs

namespace Prompt

variable {v w : World} {held held' : Ref → Bool} {rs : List Ref}

theorem congr (h : Prompt rs ⟨w, held⟩) (hs : SameLives v w)
    (hc : ∀ c, held (.component c) = true → held' (.component c) = true)
    (hch : ∀ ch, held (.channel ch) = true → held' (.channel ch) = true) : Prompt rs ⟨v, held'⟩ where
  listed ch c p hslot := by
    rw [hs.components]
    exact h.listed ch c p (hs.slotAt? ch ▸ hslot)
  component c ha := (h.component c (hs.componentAlive c ▸ ha)).imp_left (hc c)
  channel ch c p hslot ha := by
    rw [hs.componentAlive]
    exact (h.channel ch c p (hs.slotAt? ch ▸ hslot) (hs.channelAlive ch ▸ ha)).imp_right (.imp_left (hch ch))

theorem congr_world (h : Prompt rs ⟨w, held⟩) (hs : SameLives v w) : Prompt rs ⟨v, held⟩ :=
  h.congr hs (fun _ hc => hc) fun _ hch => hch

/-- A channel that has been looked after lives only if it is held or its component lives. -/
theorem settleChannel {ch : ChannelId} (h : Prompt (.channel ch :: rs) ⟨w, held⟩) :
    Prompt rs ⟨w.settleChannel held ch, held⟩ := by
  have hcomponent : ∀ c, w.componentAlive c = true → held (.component c) = true ∨ .component c ∈ rs := fun c ha =>
    Or.imp_right (fun hm => (List.mem_cons.1 hm).resolve_left Ref.noConfusion) (h.component c ha)
  have hother : ∀ o c p, o ≠ ch → w.slotAt? o = some (.handler c p) → w.channelAlive o = true →
      w.componentAlive c = true ∨ held (.channel o) = true ∨ .channel o ∈ rs := fun o c p ho hslot ha =>
    (h.channel o c p hslot ha).imp_right (.imp_right fun hm =>
      (List.mem_cons.1 hm).resolve_left fun he => ho (Ref.channel.inj he))
  -- The channel is none, or it is kept by its owner or by a holder, or it ends.
  unfold World.settleChannel
  split
  · rename_i hnone
    refine ⟨h.listed, hcomponent, fun o c p hslot ha => hother o c p ?_ hslot ha⟩
    rintro rfl
    have hslot : w.slotAt? o = some (.handler c p) := hslot
    rw [World.slotAt?, hnone] at hslot
    cases hslot
  · rename_i x hx
    split
    · rename_i hkeep
      refine ⟨h.listed, hcomponent, fun o c p hslot ha => ?_⟩
      by_cases ho : o = ch
      · subst ho
        have hslot : w.slotAt? o = some (.handler c p) := hslot
        rw [World.slotAt?, hx, Option.map_some, Channel.slot, Option.some.injEq, Slot.handler.injEq] at hslot
        rw [← hslot.1]
        exact (Bool.or_eq_true _ _ ▸ hkeep).imp_right .inl
      · exact hother o c p ho hslot ha
    · have he := ends_endChannel w ch
      refine ⟨fun o c p hslot => ?_, fun c ha => hcomponent c ?_, fun o c p hslot ha => ?_⟩
      · rw [show (Scene.mk (w.endChannel ch) held).world.components = w.components from he.components]
        exact h.listed o c p (he.slotAt? o ▸ hslot)
      · have ha : (w.endChannel ch).componentAlive c = true := ha
        rwa [World.componentAlive, he.components] at ha
      · have ha : (w.endChannel ch).channelAlive o = true := ha
        rw [channelAlive_endChannel, Bool.and_eq_true, bne_iff_ne] at ha
        show (w.endChannel ch).componentAlive c = true ∨ _
        rw [World.componentAlive, he.components]
        exact hother o c p ha.2 (he.slotAt? o ▸ hslot) ha.1

theorem settleChannels : ∀ (chs : List ChannelId) {w : World}, Prompt (chs.map .channel ++ rs) ⟨w, held⟩ →
    Prompt rs ⟨chs.foldl (fun w ch => w.settleChannel held ch) w, held⟩
  | [], _, h => h
  | _ :: chs, _, h => settleChannels chs h.settleChannel

/-- With a component that ends all of its channels have to be looked after. -/
theorem settleComponent {k : ComponentId} (h : Prompt (.component k :: rs) ⟨w, held⟩) :
    Prompt rs ⟨w.settleComponent held k, held⟩ := by
  have hother : ∀ c, c ≠ k → w.componentAlive c = true →
      held (.component c) = true ∨ .component c ∈ rs := fun c hc ha =>
    (h.component c ha).imp_right fun hm => (List.mem_cons.1 hm).resolve_left fun he => hc (Ref.component.inj he)
  have hchannel : ∀ ch c p, w.slotAt? ch = some (.handler c p) → w.channelAlive ch = true →
      w.componentAlive c = true ∨ held (.channel ch) = true ∨ .channel ch ∈ rs := fun ch c p hslot ha =>
    Or.imp_right (Or.imp_right fun hm => (List.mem_cons.1 hm).resolve_left Ref.noConfusion) (h.channel ch c p hslot ha)
  unfold World.settleComponent
  split
  · rename_i hfree
    rw [Bool.and_eq_true] at hfree
    obtain ⟨comp, hcomp, -⟩ := (Option.any_eq_true _ _).1 hfree.1
    rw [endComponent, hcomp]
    -- What is to be looked after in the place of the component are its channels, now that it is dead.
    refine settleChannels (comp.inputs ++ comp.outputs) ⟨fun ch c p hslot => ?_, fun c ha => ?_,
      fun ch c p hslot ha => ?_⟩
    · obtain ⟨comp', hcomp', hm⟩ := h.listed ch c p hslot
      show ∃ x, (w.components.modify k _)[c]? = some x ∧ _
      rw [List.getElem?_modify, hcomp']
      refine ⟨_, rfl, ?_⟩
      dsimp only
      split <;> exact hm
    · have ha : (w.markDead k).componentAlive c = true := ha
      rw [componentAlive_markDead, Bool.and_eq_true, bne_iff_ne] at ha
      exact (hother c ha.2 ha.1).imp_right fun hm => List.mem_append_right _ hm
    · have hslot : w.slotAt? ch = some (.handler c p) := hslot
      show (w.markDead k).componentAlive c = true ∨ _
      rw [componentAlive_markDead]
      by_cases hc : c = k
      · subst hc
        obtain ⟨comp', hcomp', hm⟩ := h.listed ch c p hslot
        rw [show w.components[c]? = some comp' from hcomp'] at hcomp
        cases hcomp
        exact .inr (.inr (List.mem_append_left _ (List.mem_map_of_mem hm)))
      · rw [bne_iff_ne.2 hc, Bool.and_true]
        exact (hchannel ch c p hslot ha).imp_right (.imp_right fun hm => List.mem_append_right _ hm)
  · rename_i hkeep
    refine ⟨h.listed, fun c ha => ?_, hchannel⟩
    by_cases hc : c = k
    · subst hc
      have ha : w.componentAlive c = true := ha
      rw [ha, Bool.true_and, Bool.not_eq_true', Bool.not_eq_false] at hkeep
      exact .inl hkeep
    · exact hother c hc ha

/-- What has been looked after is not on the list any more. -/
theorem settle {r : Ref} (h : Prompt (r :: rs) ⟨w, held⟩) : Prompt rs ⟨w.settle held r, held⟩ := by
  have hdrop : (∀ c, r ≠ .component c) → (∀ ch, r ≠ .channel ch) → Prompt rs ⟨w, held⟩ := fun hc hch =>
    ⟨h.listed,
      fun c ha => (h.component c ha).imp_right fun hm => (List.mem_cons.1 hm).resolve_left fun he => hc c he.symm,
      fun ch c p hslot ha => (h.channel ch c p hslot ha).imp_right
        (.imp_right fun hm => (List.mem_cons.1 hm).resolve_left fun he => hch ch he.symm)⟩
  cases r with
  | component c => exact h.settleComponent
  | channel ch => exact h.settleChannel
  | handle a => exact (hdrop nofun nofun).congr_world (.letGo w held a)
  | signal g => exact hdrop nofun nofun
  | callback c => exact hdrop nofun nofun

/-- When less is held, what is not any more has to be looked after. -/
theorem lose (h : Prompt [] ⟨w, held⟩)
    (hc : ∀ c, held (.component c) = true → held' (.component c) = true ∨ .component c ∈ rs)
    (hch : ∀ ch, held (.channel ch) = true → held' (.channel ch) = true ∨ .channel ch ∈ rs) : Prompt rs ⟨w, held'⟩ where
  listed := h.listed
  component c ha := hc c ((h.component c ha).resolve_right List.not_mem_nil)
  channel ch c p hslot ha := (h.channel ch c p hslot ha).imp_right fun hh =>
    hch ch (hh.resolve_right List.not_mem_nil)

/-- A new component has to be held. -/
theorem create (h : Prompt [] ⟨w, held⟩) (name : String) (layout : Layout)
    (hc : ∀ c, held (.component c) = true → held' (.component c) = true)
    (hch : ∀ ch, held (.channel ch) = true → held' (.channel ch) = true)
    (hnew : held' (.component w.components.length) = true) : Prompt [] ⟨(w.create name layout).2, held'⟩ := by
  refine ⟨fun ch c p hslot => ?_, fun c ha => ?_, fun ch c p hslot ha => ?_⟩
  · exact listed_create h.listed name layout hslot
  · have ha : (w.create name layout).2.componentAlive c = true := ha
    rw [componentAlive_create, Bool.or_eq_true, beq_iff_eq] at ha
    rcases ha with ha | rfl
    · exact (h.component c ha).imp_left (hc c)
    · exact .inl hnew
  · have hslot : (w.create name layout).2.slotAt? ch = some (.handler c p) := hslot
    show (w.create name layout).2.componentAlive c = true ∨ _
    rw [componentAlive_create, Bool.or_eq_true, beq_iff_eq]
    rcases slotAt?_create _ _ _ _ hslot with hold | ⟨-, q, hq⟩
    · -- The channel is one from before, because a new one belongs to the new component.
      have hlives : w.channelAlive ch = true := by
        refine ((channelAlive_create ..).1 ha).resolve_right fun hnone => ?_
        rw [hnone.1] at hold
        cases hold
      exact (h.channel ch c p hold hlives).imp .inl (.imp_left (hch ch))
    · cases hq
      exact .inl (.inr rfl)

end Prompt

end Conduit.World
