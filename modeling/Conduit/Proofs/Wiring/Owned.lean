/-
Who keeps whom alive. A channel belongs to the component that created it and lives as long as that
does (`Owned`); and as long as something is held, it is there (`Upheld`), since a teardown spares
whatever is held.
-/
import Conduit.Proofs.Wiring.Sound

namespace Conduit.World

/-- What a reference stands for is there: components and channels live, handles stand for something. -/
def Lives (w : World) : Ref → Prop
  | .component c => w.componentAlive c = true
  | .channel ch => w.channelAlive ch = true
  | .handle h => w.Knows h
  | .signal _ => True
  | .callback _ => True

/-- Whatever is held is there. -/
def Upheld (held : Ref → Bool) (w : World) : Prop := ∀ r, held r = true → w.Lives r

/-- Every channel is listed by the component it belongs to, and lives while that does. -/
structure Owned (w : World) : Prop where
  listed : ∀ c comp ch, w.components[c]? = some comp → ch ∈ comp.inputs ++ comp.outputs →
    ∃ p, w.slotAt? ch = some (.handler c p)
  owner : ∀ ch c p, w.slotAt? ch = some (.handler c p) → c < w.components.length
  spared : ∀ ch c p, w.slotAt? ch = some (.handler c p) → w.componentAlive c = true → w.channelAlive ch = true

theorem components_closeHandle (w : World) (h : Handle) : (w.closeHandle h).components = w.components := by
  cases h with
  | own s =>
    show (w.close s).components = w.components
    cases hs : w.isConnected s with
    | false => rw [close_of_not_isConnected hs]
    | true =>
      obtain ⟨o, i, p, hs⟩ := isConnected_iff.1 hs
      exact (sameParts_close hs).components
  | foreign f => rcases closeHandle_foreign w f with hf | ⟨e, hf⟩ <;> rw [hf]; rfl

/-! ## The end of a channel -/

/-- `v` is `w` after the channel `ch` and connections ended. -/
structure Ends (ch : ChannelId) (w v : World) : Prop where
  components : v.components = w.components
  slotAt? : ∀ c, v.slotAt? c = w.slotAt? c
  channelAlive : ∀ c, c ≠ ch → v.channelAlive c = w.channelAlive c
  knows : ∀ h, w.Knows h → v.Knows h

theorem ends_endChannel (w : World) (ch : ChannelId) : Ends ch w (w.endChannel ch) :=
  endChannel_induct (P := Ends ch w) (Ends ch w) ⟨rfl, fun _ => rfl, fun _ _ => rfl, fun _ h => h⟩
    (fun _ => ⟨rfl, fun _ => by simp, fun c hc => by simp [hc], fun _ h => h⟩)
    (fun v id a e hv _ _ => by
      have hs := ((Shrinks.deregister v ch id).trans (.note _ e)).trans (.closeHandle _ a)
      exact ⟨(components_closeHandle ..).trans hv.components, fun c => (hs.slotAt? c).trans (hv.slotAt? c),
        fun c hc => (hs.channelAlive c).trans (hv.channelAlive c hc), fun h hk => hs.knows (hv.knows h hk)⟩)
    (fun _ _ hv => ⟨hv.components, hv.slotAt?, hv.channelAlive, hv.knows⟩) fun _ hv _ _ => hv

/-! ## Steps of a teardown -/

section Step

variable {v w : World} {held K : Ref → Bool}

theorem Owned.congr (h : Owned w) (hc : v.components = w.components) (hs : ∀ ch, v.slotAt? ch = w.slotAt? ch)
    (ha : ∀ ch, v.channelAlive ch = w.channelAlive ch) : Owned v where
  listed c comp ch hcomp hch := by
    rw [hs]
    exact h.listed c comp ch (hc ▸ hcomp) hch
  owner ch c p hch := by
    rw [hc]
    exact h.owner ch c p (hs ch ▸ hch)
  spared ch c p hch hal := by
    rw [ha]
    rw [componentAlive, hc] at hal
    exact h.spared ch c p (hs ch ▸ hch) hal

theorem Owned.step (h : Owned w) (hs : Step held w v) : Owned v := by
  cases hs with
  | note e => exact h.congr rfl (fun _ => rfl) fun _ => rfl
  | close s => exact h.congr (components_closeHandle w (.own s)) (slotAt?_close w s) (channelAlive_close w s)
  | deny f => exact h.congr rfl (fun _ => rfl) fun _ => rfl
  | markDead k =>
    refine ⟨fun c comp ch hcomp hch => ?_, fun ch c p hch => ?_, fun ch c p hch ha => ?_⟩
    · rw [markDead, List.getElem?_modify] at hcomp
      obtain ⟨comp', hcomp', rfl⟩ := Option.map_eq_some_iff.1 hcomp
      refine h.listed c comp' ch hcomp' ?_
      split at hch <;> exact hch
    · rw [markDead, List.length_modify]
      exact h.owner ch c p hch
    · rw [componentAlive_markDead, Bool.and_eq_true] at ha
      exact h.spared ch c p hch ha.1
  | endChannel ch _ howner =>
    have he := ends_endChannel w ch
    refine ⟨fun c comp d hcomp hd => ?_, fun d c p hd => ?_, fun d c p hd ha => ?_⟩
    · rw [he.slotAt?]
      exact h.listed c comp d (he.components ▸ hcomp) hd
    · rw [he.components]
      exact h.owner d c p (he.slotAt? d ▸ hd)
    · rw [he.slotAt?] at hd
      rw [componentAlive, he.components] at ha
      -- A channel ends by itself only when its owner is dead.
      have hne : d ≠ ch := by
        rintro rfl
        have hdead := howner c p hd
        rw [componentAlive, ha] at hdead
        cases hdead
      rw [he.channelAlive d hne]
      exact h.spared d c p hd ha

theorem Upheld.of_le (h : Upheld K w) (hc : ∀ c, K (.component c) = true → w.componentAlive c = true →
    v.componentAlive c = true)
    (hch : ∀ ch, K (.channel ch) = true → w.channelAlive ch = true → v.channelAlive ch = true)
    (hh : ∀ a, w.Knows a → v.Knows a) : Upheld K v := by
  intro r hr
  have hlives := h r hr
  cases r with
  | component c => exact hc c hr hlives
  | channel ch => exact hch ch hr hlives
  | handle a => exact hh a hlives
  | signal g => trivial
  | callback c => trivial

/-- A teardown that spares what is held keeps what is held. -/
theorem Upheld.step (h : Upheld K w) (hK : ∀ r, K r = true → held r = true) (hs : Step held w v) : Upheld K v := by
  cases hs with
  | note e => exact h.of_le (fun _ _ h => h) (fun _ _ h => h) fun _ h => h
  | close s =>
    exact h.of_le (fun c _ hc => by simpa using hc) (fun ch _ hc => by simpa using hc)
      fun a ha => (Shrinks.close w s).knows ha
  | deny f => exact h.of_le (fun _ _ h => h) (fun _ _ h => h) fun a ha => (Shrinks.deny w f).knows ha
  | markDead k hk =>
    refine h.of_le (fun c hc ha => ?_) (fun _ _ h => h) fun _ h => h
    -- What is held is not what ends.
    have hne : c ≠ k := by
      rintro rfl
      rw [hK _ hc] at hk
      cases hk
    rw [componentAlive_markDead, ha, Bool.true_and, bne_iff_ne]
    exact hne
  | endChannel ch hch _ =>
    have he := ends_endChannel w ch
    refine h.of_le (fun c _ ha => ?_) (fun d hd ha => ?_) he.knows
    · rw [componentAlive, he.components]
      exact ha
    · have hne : d ≠ ch := by
        rintro rfl
        rw [hK _ hd] at hch
        cases hch
      rw [he.channelAlive d hne, ha]

end Step

/-! ## Other acts -/

section Act

variable {may : License} {v w : World}

theorem Owned.create (h : Owned w) (name : String) (layout : Layout) : Owned (w.create name layout).2 := by
  obtain ⟨comp, log, ⟨-, hch⟩, he⟩ := create_eq w name layout
  have hcomps : (w.create name layout).2.components = w.components ++ [comp] := by rw [he]
  refine ⟨fun c x ch hx hmem => ?_, fun ch c p hslot => ?_, fun ch c p hslot ha => ?_⟩
  · rw [hcomps] at hx
    rcases lt_or_ge c w.components.length with hlt | hge
    · rw [List.getElem?_append_left hlt] at hx
      obtain ⟨p, hp⟩ := h.listed c x ch hx hmem
      exact ⟨p, slotAt?_create_of_some _ _ _ _ hp⟩
    · obtain ⟨hlen, -⟩ := List.getElem?_eq_some_iff.1 hx
      rw [List.length_append, List.length_singleton] at hlen
      -- The new component is the last one, and its channels come behind all others.
      obtain rfl : c = w.components.length := le_antisymm (Nat.le_of_lt_succ hlen) hge
      rw [List.getElem?_concat_length] at hx
      cases hx
      obtain ⟨k, hk, rfl⟩ := hch ch hmem
      have hy := List.getElem?_eq_getElem hk
      refine ⟨((newChannels w.components.length layout)[k]).position, ?_⟩
      have hget : (w.create name layout).2.channels[w.channels.length + k]? =
          some (newChannels w.components.length layout)[k] := by
        rw [he, ← hy]
        exact List.getElem?_append_right (Nat.le_add_right ..) |>.trans (by rw [Nat.add_sub_cancel_left])
      rw [slotAt?, hget, Option.map_some, Channel.slot, (of_mem_newChannels layout (List.getElem_mem hk)).2.2.1]
  · rw [hcomps, List.length_append]
    rcases slotAt?_create _ _ _ _ hslot with hslot | ⟨-, q, hq⟩
    · exact Nat.lt_of_lt_of_le (h.owner ch c p hslot) (Nat.le_add_right ..)
    · cases hq
      simp
  · rw [channelAlive_create]
    rcases slotAt?_create _ _ _ _ hslot with hold | ⟨hnone, -⟩
    · rw [componentAlive_create, Bool.or_eq_true, beq_iff_eq] at ha
      have hne := h.owner ch c p hold
      exact .inl (h.spared ch c p hold (ha.resolve_right (Nat.ne_of_lt hne)))
    · exact .inr ⟨hnone, by rw [hslot]; rfl⟩

theorem Owned.act (h : Owned w) (ha : Act may w v) : Owned v := by
  cases ha with
  | relog log => exact h.congr rfl (fun _ => rfl) fun _ => rfl
  | step hs => exact h.step hs
  | create name layout => exact h.create name layout
  | subscribe _ _ _ hin hs =>
    obtain ⟨p, slot, g, g', hs⟩ := subscribed_of_subscribe? hin hs
    exact h.congr hs.components hs.slotAt? hs.channelAlive
  | register _ _ _ => exact h.congr rfl (sameParts_register ..).slotAt? (sameParts_register ..).channelAlive
  | deregister _ ch s => exact h.congr rfl (sameParts_deregister ..).slotAt? (sameParts_deregister ..).channelAlive
  | adopt g _ => exact h.congr rfl (fun _ => rfl) fun _ => rfl
  | disconnectByHand _ o place =>
    have hp := sameParts_disconnectByHand w o place
    exact h.congr hp.components hp.slotAt? hp.channelAlive

theorem Owned.empty : Owned {} :=
  ⟨fun c comp ch h => by simp at h, fun ch c p h => by simp [World.slotAt?] at h,
    fun ch c p h => by simp [World.slotAt?] at h⟩

/-- What lives goes on living when components, channels and handles do. -/
theorem Lives.of_le {r : Ref} (h : w.Lives r) (hc : ∀ c, w.componentAlive c = true → v.componentAlive c = true)
    (hch : ∀ ch, w.channelAlive ch = true → v.channelAlive ch = true) (hh : ∀ a, w.Knows a → v.Knows a) :
    v.Lives r := by
  cases r with
  | component c => exact hc c h
  | channel ch => exact hch ch h
  | handle a => exact hh a h
  | signal g => trivial
  | callback c => trivial

theorem Lives.of_sameParts {r : Ref} (h : w.Lives r) (hp : SameParts v w) : v.Lives r :=
  h.of_le (fun c hc => by rw [hp.componentAlive, hc]) (fun ch hc => by rw [hp.channelAlive, hc]) fun _ ha => hp.knows ha

theorem Lives.create {r : Ref} (h : w.Lives r) (name : String) (layout : Layout) : (w.create name layout).2.Lives r :=
  h.of_le (fun c hc => by rw [componentAlive_create, hc, Bool.true_or])
    (fun ch hc => (channelAlive_create ..).2 (.inl hc)) fun _ ha => knows_create name layout ha

theorem Lives.subscribe {r : Ref} (h : w.Lives r) {o i : ChannelId} {n p : Nat} {slot : Slot} {g g' : Signal Slot}
    (hs : Subscribed w v o i n p slot g g') : v.Lives r :=
  h.of_le (fun c hc => by rw [componentAlive, hs.components]; exact hc)
    (fun ch hc => by rw [hs.channelAlive, hc]) fun _ ha => hs.knows ha

theorem Lives.adopt {r : Ref} (h : w.Lives r) (g : ForeignHandle) : (w.adopt g).Lives r :=
  h.of_le (fun _ h => h) (fun _ h => h) fun _ ha => knows_adopt g ha

end Act

end Conduit.World
