/-
What can be seen of a wiring, and what each elementary change does to it. A wiring is looked at
through its views only: who lives, who is connected, what registries and signals hold, and which
slot belongs to a channel. Everything beyond this module rests on the equations below.
-/
import Conduit.Proofs.Registry
import Conduit.Proofs.Signal
import Conduit.Wiring.Teardown

namespace Conduit.World

/-- The slot under which a channel's component takes values. -/
def slotAt? (w : World) (ch : ChannelId) : Option Slot := (w.channels[ch]?).map Channel.slot

section Views
variable (w : World) (e : Entry) (d : Deed) (o ch : ChannelId) (c k : ComponentId) (s t f place : Nat)
  (h : Handle) (r : Registry Handle) (g : Signal Slot)

/-! ## Log, ledger, components, foreign handles -/

@[simp] theorem componentAlive_note : (w.note e).componentAlive c = w.componentAlive c := rfl
@[simp] theorem channelAlive_note : (w.note e).channelAlive ch = w.channelAlive ch := rfl
@[simp] theorem subscription?_note : (w.note e).subscription? s = w.subscription? s := rfl
@[simp] theorem handleId_note : (w.note e).handleId h = w.handleId h := rfl
@[simp] theorem signal?_note : (w.note e).signal? ch = w.signal? ch := rfl
@[simp] theorem registry_note : (w.note e).registry ch = w.registry ch := rfl
@[simp] theorem slotAt?_note : (w.note e).slotAt? ch = w.slotAt? ch := rfl
@[simp] theorem subscriptions_note : (w.note e).subscriptions = w.subscriptions := rfl
@[simp] theorem foreigns_note : (w.note e).foreigns = w.foreigns := rfl
@[simp] theorem ledger_note : (w.note e).ledger = w.ledger := rfl

@[simp] theorem componentAlive_record : (w.record d).componentAlive c = w.componentAlive c := rfl
@[simp] theorem channelAlive_record : (w.record d).channelAlive ch = w.channelAlive ch := rfl
@[simp] theorem subscription?_record : (w.record d).subscription? s = w.subscription? s := rfl
@[simp] theorem handleId_record : (w.record d).handleId h = w.handleId h := rfl
@[simp] theorem signal?_record : (w.record d).signal? ch = w.signal? ch := rfl
@[simp] theorem registry_record : (w.record d).registry ch = w.registry ch := rfl
@[simp] theorem slotAt?_record : (w.record d).slotAt? ch = w.slotAt? ch := rfl
@[simp] theorem subscriptions_record : (w.record d).subscriptions = w.subscriptions := rfl
@[simp] theorem foreigns_record : (w.record d).foreigns = w.foreigns := rfl
@[simp] theorem ledger_record : (w.record d).ledger = d :: w.ledger := rfl

@[simp] theorem channelAlive_markDead : (w.markDead k).channelAlive ch = w.channelAlive ch := rfl
@[simp] theorem subscription?_markDead : (w.markDead k).subscription? s = w.subscription? s := rfl
@[simp] theorem handleId_markDead : (w.markDead k).handleId h = w.handleId h := rfl
@[simp] theorem signal?_markDead : (w.markDead k).signal? ch = w.signal? ch := rfl
@[simp] theorem registry_markDead : (w.markDead k).registry ch = w.registry ch := rfl
@[simp] theorem slotAt?_markDead : (w.markDead k).slotAt? ch = w.slotAt? ch := rfl
@[simp] theorem subscriptions_markDead : (w.markDead k).subscriptions = w.subscriptions := rfl
@[simp] theorem foreigns_markDead : (w.markDead k).foreigns = w.foreigns := rfl
@[simp] theorem ledger_markDead : (w.markDead k).ledger = w.ledger := rfl

/-- A component lives on when another one ends. -/
@[simp] theorem componentAlive_markDead : (w.markDead k).componentAlive c = (w.componentAlive c && c != k) := by
  simp only [componentAlive, markDead, List.getElem?_modify]
  by_cases hk : k = c
  · subst hk; cases w.components[k]? <;> simp
  · cases w.components[c]? <;> simp [hk, Ne.symm hk]

@[simp] theorem componentAlive_deny : (w.deny f).componentAlive c = w.componentAlive c := rfl
@[simp] theorem channelAlive_deny : (w.deny f).channelAlive ch = w.channelAlive ch := rfl
@[simp] theorem subscription?_deny : (w.deny f).subscription? s = w.subscription? s := rfl
@[simp] theorem signal?_deny : (w.deny f).signal? ch = w.signal? ch := rfl
@[simp] theorem registry_deny : (w.deny f).registry ch = w.registry ch := rfl
@[simp] theorem slotAt?_deny : (w.deny f).slotAt? ch = w.slotAt? ch := rfl
@[simp] theorem subscriptions_deny : (w.deny f).subscriptions = w.subscriptions := rfl
@[simp] theorem ledger_deny : (w.deny f).ledger = w.ledger := rfl

@[simp] theorem handleId_deny : (w.deny f).handleId h = w.handleId h := by
  cases h with
  | own s => rfl
  | foreign i =>
    simp only [handleId, deny, List.getElem?_modify]
    by_cases hi : f = i
    · subst hi; cases w.foreigns[f]? <;> simp
    · simp [hi]

/-! ## Subscriptions -/

@[simp] theorem componentAlive_dropToken : (w.dropToken t).componentAlive c = w.componentAlive c := rfl
@[simp] theorem channelAlive_dropToken : (w.dropToken t).channelAlive ch = w.channelAlive ch := rfl
@[simp] theorem handleId_dropToken : (w.dropToken t).handleId h = w.handleId h := rfl
@[simp] theorem signal?_dropToken : (w.dropToken t).signal? ch = w.signal? ch := rfl
@[simp] theorem registry_dropToken : (w.dropToken t).registry ch = w.registry ch := rfl
@[simp] theorem slotAt?_dropToken : (w.dropToken t).slotAt? ch = w.slotAt? ch := rfl
@[simp] theorem foreigns_dropToken : (w.dropToken t).foreigns = w.foreigns := rfl
@[simp] theorem ledger_dropToken : (w.dropToken t).ledger = w.ledger := rfl

@[simp] theorem length_subscriptions_dropToken :
    (w.dropToken t).subscriptions.length = w.subscriptions.length := by
  simp [dropToken]

/-- Only the subscription itself loses its token. -/
theorem subscription?_dropToken (ht : t ≠ 0) : (w.dropToken t).subscription? s =
    if s = t then (w.subscription? s).map fun sub => { sub with token := none } else w.subscription? s := by
  unfold subscription? dropToken
  by_cases hs : s = 0
  · simp [hs, Ne.symm ht]
  · simp only [hs, if_false, List.getElem?_modify]
    by_cases hst : s = t
    · subst hst; simp
    · have : t - 1 ≠ s - 1 := by omega
      simp [hst, this]

/-! ## Channels -/

theorem channels_modifyChannel (m : Channel → Channel) (j : ChannelId) : (w.modifyChannel ch m).channels[j]? =
    if ch = j then (w.channels[j]?).map m else w.channels[j]? := by
  rw [modifyChannel, List.getElem?_modify]
  split <;> simp

@[simp] theorem componentAlive_setRegistry : (w.setRegistry o r).componentAlive c = w.componentAlive c := rfl
@[simp] theorem subscription?_setRegistry : (w.setRegistry o r).subscription? s = w.subscription? s := rfl
@[simp] theorem handleId_setRegistry : (w.setRegistry o r).handleId h = w.handleId h := rfl
@[simp] theorem subscriptions_setRegistry : (w.setRegistry o r).subscriptions = w.subscriptions := rfl
@[simp] theorem foreigns_setRegistry : (w.setRegistry o r).foreigns = w.foreigns := rfl
@[simp] theorem ledger_setRegistry : (w.setRegistry o r).ledger = w.ledger := rfl

@[simp] theorem channelAlive_setRegistry : (w.setRegistry o r).channelAlive ch = w.channelAlive ch := by
  rw [channelAlive, setRegistry, channels_modifyChannel, channelAlive]
  split <;> cases w.channels[ch]? <;> rfl

@[simp] theorem signal?_setRegistry : (w.setRegistry o r).signal? ch = w.signal? ch := by
  rw [signal?, setRegistry, channels_modifyChannel, signal?]
  split <;> cases w.channels[ch]? <;> rfl

@[simp] theorem slotAt?_setRegistry : (w.setRegistry o r).slotAt? ch = w.slotAt? ch := by
  rw [slotAt?, setRegistry, channels_modifyChannel, slotAt?]
  split <;> cases w.channels[ch]? <;> rfl

theorem registry_setRegistry (ho : (w.slotAt? o).isSome) : (w.setRegistry o r).registry ch =
    if ch = o then r else w.registry ch := by
  rw [registry, setRegistry, channels_modifyChannel, registry]
  by_cases hch : ch = o
  · subst hch
    obtain ⟨x, hx⟩ := Option.isSome_iff_exists.1 ho
    obtain ⟨y, hy, -⟩ := Option.map_eq_some_iff.1 hx
    simp [hy]
  · simp [hch, Ne.symm hch]

/-- Of a channel that does not exist nothing is taken. -/
theorem registry_deregister : (w.deregister o s).registry ch =
    if ch = o then (w.registry ch).erase s else w.registry ch := by
  rw [registry, deregister, setRegistry, channels_modifyChannel, registry]
  by_cases hch : ch = o
  · subst hch
    cases h : w.channels[ch]? <;> simp [registry, h]
  · simp [registry, hch, Ne.symm hch]

/-! ## Signals and ends of channels -/

@[simp] theorem componentAlive_setSignal : (w.setSignal o g).componentAlive c = w.componentAlive c := rfl
@[simp] theorem subscription?_setSignal : (w.setSignal o g).subscription? s = w.subscription? s := rfl
@[simp] theorem handleId_setSignal : (w.setSignal o g).handleId h = w.handleId h := rfl
@[simp] theorem subscriptions_setSignal : (w.setSignal o g).subscriptions = w.subscriptions := rfl
@[simp] theorem foreigns_setSignal : (w.setSignal o g).foreigns = w.foreigns := rfl
@[simp] theorem ledger_setSignal : (w.setSignal o g).ledger = w.ledger := rfl

@[simp] theorem channelAlive_setSignal : (w.setSignal o g).channelAlive ch = w.channelAlive ch := by
  rw [channelAlive, setSignal, channels_modifyChannel, channelAlive]
  split
  · cases w.channels[ch]? <;> simp [Channel.setSignal]
    split <;> rfl
  · rfl

@[simp] theorem registry_setSignal : (w.setSignal o g).registry ch = w.registry ch := by
  rw [registry, setSignal, channels_modifyChannel, registry]
  split
  · cases w.channels[ch]? <;> simp [Channel.setSignal]
    split <;> rfl
  · rfl

@[simp] theorem slotAt?_setSignal : (w.setSignal o g).slotAt? ch = w.slotAt? ch := by
  rw [slotAt?, setSignal, channels_modifyChannel, slotAt?]
  split
  · cases w.channels[ch]? <;> simp [Channel.setSignal, Channel.slot]
    split <;> simp
  · rfl

theorem signal?_setSignal : (w.setSignal o g).signal? ch =
    if ch = o then (w.signal? ch).map fun _ => g else w.signal? ch := by
  rw [signal?, setSignal, channels_modifyChannel, signal?]
  by_cases hch : ch = o
  · subst hch
    rcases w.channels[ch]? with _ | x
    · simp
    · cases hx : x.role <;> simp [Channel.signal?, Channel.setSignal, hx]
  · simp [hch, Ne.symm hch]

@[simp] theorem componentAlive_markEnded : (w.markEnded o).componentAlive c = w.componentAlive c := rfl
@[simp] theorem subscription?_markEnded : (w.markEnded o).subscription? s = w.subscription? s := rfl
@[simp] theorem handleId_markEnded : (w.markEnded o).handleId h = w.handleId h := rfl
@[simp] theorem subscriptions_markEnded : (w.markEnded o).subscriptions = w.subscriptions := rfl
@[simp] theorem foreigns_markEnded : (w.markEnded o).foreigns = w.foreigns := rfl
@[simp] theorem ledger_markEnded : (w.markEnded o).ledger = .ended o :: w.ledger := rfl

@[simp] theorem signal?_markEnded : (w.markEnded o).signal? ch = w.signal? ch := by
  rw [markEnded, signal?_record, signal?, channels_modifyChannel, signal?]
  split <;> cases w.channels[ch]? <;> rfl

@[simp] theorem registry_markEnded : (w.markEnded o).registry ch = w.registry ch := by
  rw [markEnded, registry_record, registry, channels_modifyChannel, registry]
  split <;> cases w.channels[ch]? <;> rfl

@[simp] theorem slotAt?_markEnded : (w.markEnded o).slotAt? ch = w.slotAt? ch := by
  rw [markEnded, slotAt?_record, slotAt?, channels_modifyChannel, slotAt?]
  split <;> cases w.channels[ch]? <;> rfl

/-- A channel lives on when another one ends. -/
@[simp] theorem channelAlive_markEnded : (w.markEnded o).channelAlive ch = (w.channelAlive ch && ch != o) := by
  rw [markEnded, channelAlive_record, channelAlive, channels_modifyChannel, channelAlive]
  by_cases hch : ch = o
  · subst hch; cases w.channels[ch]? <;> simp
  · simp [hch, Ne.symm hch]

end Views

end Conduit.World
