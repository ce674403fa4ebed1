/-
Teardown, taken apart. Whatever a teardown does is a row of elementary steps: an entry of the log, a
subscription that is closed, a foreign handle that says it is closed, a component that is marked as
dead, and a channel that ends together with everything its registry holds. So a property of wirings
is kept by all of teardown once each step keeps it. The end of a channel is a loop; its rule
(`endChannel_induct`) asks what holds between two rounds.
-/
import Conduit.Proofs.Wiring.Closing

namespace Conduit.World

/-! ## Closing through a handle -/

section CloseHandle
variable (w : World) (h a : Handle) (ch : ChannelId) (c : ComponentId)

theorem closeHandle_foreign (f : Nat) : w.closeHandle (.foreign f) = w ∨
    ∃ e, w.closeHandle (.foreign f) = (w.note e).deny f := by
  simp only [closeHandle]
  split
  · exact .inl rfl
  · exact .inr ⟨_, rfl⟩

@[simp] theorem channelAlive_closeHandle : (w.closeHandle h).channelAlive ch = w.channelAlive ch := by
  cases h with
  | own s => exact channelAlive_close ..
  | foreign f => rcases closeHandle_foreign w f with hf | ⟨e, hf⟩ <;> rw [hf]; rfl

@[simp] theorem componentAlive_closeHandle : (w.closeHandle h).componentAlive c = w.componentAlive c := by
  cases h with
  | own s => exact componentAlive_close ..
  | foreign f => rcases closeHandle_foreign w f with hf | ⟨e, hf⟩ <;> rw [hf]; rfl

@[simp] theorem slotAt?_closeHandle : (w.closeHandle h).slotAt? ch = w.slotAt? ch := by
  cases h with
  | own s => exact slotAt?_close ..
  | foreign f => rcases closeHandle_foreign w f with hf | ⟨e, hf⟩ <;> rw [hf]; rfl

/-- Closing changes the registries of living channels only. -/
theorem registry_closeHandle_of_ended {ch : ChannelId} (hch : w.channelAlive ch = false) :
    (w.closeHandle h).registry ch = w.registry ch := by
  cases h with
  | own s =>
    show (w.close s).registry ch = _
    cases hs : w.isConnected s with
    | true =>
      obtain ⟨o, i, p, hs⟩ := isConnected_iff.1 hs
      rw [registry_close hs, hch]
      simp
    | false => rw [close_of_not_isConnected hs]
  | foreign f => rcases closeHandle_foreign w f with hf | ⟨e, hf⟩ <;> rw [hf]; rfl

end CloseHandle

/-! ## The end of a channel -/

/-- The loop of a drain: what each round keeps holds at its end, and then the registry is empty. -/
theorem drain_induct {Q : World → Prop} {ch : ChannelId}
    (round : ∀ v id h e, Q v → v.channelAlive ch = false → (id, h) ∈ (v.registry ch).entries →
      Q (((v.deregister ch id).note e).closeHandle h)) :
    ∀ (n : Nat) (v : World) (closed : Nat), Q v → v.channelAlive ch = false → (v.registry ch).size = n →
      Q (drain ch n v closed).1 ∧ (drain ch n v closed).1.channelAlive ch = false ∧
        ((drain ch n v closed).1.registry ch).ids = []
  | 0, v, closed, hv, ha, hn => ⟨hv, ha, by simpa [drain, Registry.ids, Registry.size] using hn⟩
  | n + 1, v, closed, hv, ha, hn => by
    unfold drain
    rcases hp : (v.registry ch).popMin? with _ | ⟨⟨id, h⟩, rest⟩
    · rw [Registry.popMin?_eq_none_iff] at hp
      exact ⟨hv, ha, hp⟩
    -- A round takes one entry out, and closing does not touch the registry of an ended channel.
    · obtain ⟨hm, hrest⟩ := Registry.popMin?_eq_some hp
      have hset : v.setRegistry ch rest = v.deregister ch id := by rw [hrest]; rfl
      simp only [hset]
      refine drain_induct round n _ _ (round v id h _ hv ha hm) (by simpa [deregister] using ha) ?_
      rw [registry_closeHandle_of_ended _ _ (by simpa [deregister] using ha), registry_note,
        registry_deregister, if_pos rfl, ← hrest]
      have := Registry.size_popMin? hp
      omega

theorem drainAll_induct {Q : World → Prop} {ch : ChannelId}
    (round : ∀ v id h e, Q v → v.channelAlive ch = false → (id, h) ∈ (v.registry ch).entries →
      Q (((v.deregister ch id).note e).closeHandle h))
    (note : ∀ v e, Q v → Q (v.note e)) (v : World) (direction : Direction) (hv : Q v)
    (ha : v.channelAlive ch = false) : Q (v.drainAll ch direction) ∧
      (v.drainAll ch direction).channelAlive ch = false ∧ ((v.drainAll ch direction).registry ch).ids = [] := by
  unfold drainAll
  dsimp only
  split
  · rename_i hsize
    exact ⟨hv, ha, by simpa [Registry.ids, Registry.size] using hsize⟩
  · obtain ⟨hq, hal, hids⟩ := drain_induct round _ v 0 hv ha rfl
    exact ⟨note _ _ hq, hal, hids⟩

/-- What holds when a channel has ended: `Q` is what holds between two rounds of its drain. -/
theorem endChannel_induct {P : World → Prop} (Q : World → Prop) {w : World} {ch : ChannelId} (hw : P w)
    (start : w.channelAlive ch = true → Q (w.markEnded ch))
    (round : ∀ v id h e, Q v → v.channelAlive ch = false → (id, h) ∈ (v.registry ch).entries →
      Q (((v.deregister ch id).note e).closeHandle h))
    (note : ∀ v e, Q v → Q (v.note e))
    (finish : ∀ v, Q v → v.channelAlive ch = false → (v.registry ch).ids = [] → P v) :
    P (w.endChannel ch) := by
  unfold endChannel
  rcases hc : w.channels[ch]? with _ | c
  · exact hw
  · dsimp only
    split
    · rename_i halive
      have ha : w.channelAlive ch = true := by simp [channelAlive, hc, halive]
      -- Marked as ended, then drained: the invariant carries through the rounds, and the registry is empty behind them.
      obtain ⟨hq, hal, hids⟩ :=
        drainAll_induct round note (w.markEnded ch) c.direction (start ha) (by simp)
      split
      · exact finish _ (note _ _ hq) hal hids
      · exact finish _ hq hal hids
    · exact hw

/-! ## Steps of a teardown -/

/-- One step of a teardown that spares what is held. -/
inductive Step (held : Ref → Bool) (w : World) : World → Prop
  | note (e : Entry) : Step held w (w.note e)
  | close (s : SubscriptionId) : Step held w (w.close s)
  | deny (f : Nat) : Step held w (w.deny f)
  | markDead (c : ComponentId) (hc : held (.component c) = false) : Step held w (w.markDead c)
  | endChannel (ch : ChannelId) (hch : held (.channel ch) = false)
      (owner : ∀ c p, w.slotAt? ch = some (.handler c p) → w.componentAlive c = false) :
      Step held w (w.endChannel ch)

/-- A row of steps of a teardown. -/
def Torn (held : Ref → Bool) : World → World → Prop := Relation.ReflTransGen (Step held)

variable {held : Ref → Bool}

theorem Torn.induct {P : World → Prop} (step : ∀ v v', P v → Step held v v' → P v') {w w' : World}
    (h : Torn held w w') (hw : P w) : P w' := by
  induction h with
  | refl => exact hw
  | tail _ hs ih => exact step _ _ ih hs

theorem torn_closeHandle (w : World) (h : Handle) : Torn held w (w.closeHandle h) := by
  cases h with
  | own s => exact .single (.close s)
  | foreign f =>
    rcases closeHandle_foreign w f with hf | ⟨e, hf⟩ <;> rw [hf]
    · exact .refl
    · exact .trans (.single (.note e)) (.single (.deny f))

theorem torn_closeAll : ∀ (hs : List Handle) (w : World), Torn held w (w.closeAll hs)
  | [], _ => .refl
  | h :: hs, w =>
    .trans (.trans (.single (.note (.event (.draining (w.handleId h))))) (torn_closeHandle _ h))
      (torn_closeAll hs _)

theorem torn_letGo (w : World) (h : Handle) : Torn held w (w.letGo held h) := by
  unfold letGo
  split
  · exact .refl
  · split
    · exact .refl
    · exact .single (.close _)

theorem torn_settleChannel (w : World) (ch : ChannelId) : Torn held w (w.settleChannel held ch) := by
  unfold settleChannel
  split
  · exact .refl
  · rename_i c hc
    split
    · exact .refl
    · rename_i hfree
      rw [Bool.or_eq_true, not_or, Bool.not_eq_true, Bool.not_eq_true] at hfree
      refine .single (.endChannel ch hfree.2 fun k p hk => ?_)
      rw [slotAt?, hc, Option.map_some, Channel.slot, Option.some.injEq, Slot.handler.injEq] at hk
      rw [← hk.1]
      exact hfree.1

theorem torn_settleChannels : ∀ (chs : List ChannelId) (w : World),
    Torn held w (chs.foldl (fun w ch => w.settleChannel held ch) w)
  | [], _ => .refl
  | ch :: chs, w => .trans (torn_settleChannel w ch) (torn_settleChannels chs _)

theorem torn_settleComponent (w : World) (c : ComponentId) : Torn held w (w.settleComponent held c) := by
  unfold settleComponent
  split
  · rename_i hfree
    rw [Bool.and_eq_true, Bool.not_eq_true'] at hfree
    unfold endComponent
    split
    · exact .refl
    · rename_i comp _
      exact .trans (.single (.markDead c hfree.2))
        (.trans (.single (.note (.dead comp.name))) (torn_settleChannels _ _))
  · exact .refl

/-- Looking after a part that was let go is a teardown. -/
theorem torn_settle (w : World) (r : Ref) : Torn held w (w.settle held r) := by
  cases r with
  | component c => exact torn_settleComponent w c
  | channel ch => exact torn_settleChannel w ch
  | handle h => exact torn_letGo w h
  | signal g => exact .refl
  | callback c => exact .refl

end Conduit.World
