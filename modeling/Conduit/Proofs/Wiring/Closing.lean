/-
What closing a subscription does, view by view: the subscription loses its token; of its two ends
those that live forget its number; a living output has its place taken out of the signal; the ledger
tells of it. A closed subscription is closed once more without any effect.
-/
import Conduit.Proofs.Wiring.View

namespace Conduit.World

/-! ## What closing leaves alone -/

/-- `v` differs from `w` in registries, signals, log and ledger at most. -/
structure SameParts (v w : World) : Prop where
  components : v.components = w.components
  subscriptions : v.subscriptions = w.subscriptions
  foreigns : v.foreigns = w.foreigns
  channelAlive : ∀ ch, v.channelAlive ch = w.channelAlive ch
  slotAt? : ∀ ch, v.slotAt? ch = w.slotAt? ch

namespace SameParts

variable {u v w : World}

theorem refl (w : World) : SameParts w w := ⟨rfl, rfl, rfl, fun _ => rfl, fun _ => rfl⟩

theorem trans (h₁ : SameParts u v) (h₂ : SameParts v w) : SameParts u w :=
  ⟨h₁.components.trans h₂.components, h₁.subscriptions.trans h₂.subscriptions,
    h₁.foreigns.trans h₂.foreigns, fun ch => (h₁.channelAlive ch).trans (h₂.channelAlive ch),
    fun ch => (h₁.slotAt? ch).trans (h₂.slotAt? ch)⟩

theorem note (w : World) (e : Entry) : SameParts (w.note e) w :=
  ⟨rfl, rfl, rfl, fun _ => rfl, fun _ => rfl⟩

theorem record (w : World) (d : Deed) : SameParts (w.record d) w :=
  ⟨rfl, rfl, rfl, fun _ => rfl, fun _ => rfl⟩

theorem setRegistry (w : World) (ch : ChannelId) (r : Registry Handle) : SameParts (w.setRegistry ch r) w :=
  ⟨rfl, rfl, rfl, fun _ => by simp, fun _ => by simp⟩

theorem setSignal (w : World) (ch : ChannelId) (g : Signal Slot) : SameParts (w.setSignal ch g) w :=
  ⟨rfl, rfl, rfl, fun _ => by simp, fun _ => by simp⟩

theorem disconnect (w : World) (o : ChannelId) (place : Nat) : SameParts (w.disconnect o place) w := by
  unfold World.disconnect
  split
  · exact refl w
  · split
    · exact setSignal ..
    · exact note ..

theorem noteIfCounting (w : World) (o : ChannelId) (e : Entry) : SameParts (w.noteIfCounting o e) w := by
  unfold World.noteIfCounting
  split
  · exact note ..
  · exact refl w

theorem release (w : World) (s : SubscriptionId) (o : ChannelId) : SameParts (w.release s o) w :=
  (record ..).trans (noteIfCounting ..)

theorem closeAtOutput (w : World) (s : SubscriptionId) (o : ChannelId) (place : Nat) :
    SameParts (w.closeAtOutput s o place) w := by
  unfold World.closeAtOutput
  split
  · refine (setRegistry ..).trans ((release ..).trans ?_)
    exact (disconnect ..).trans ((record ..).trans (noteIfCounting ..))
  · exact release ..

theorem closeAtInput (w : World) (s : SubscriptionId) (i : ChannelId) : SameParts (w.closeAtInput s i) w := by
  unfold World.closeAtInput
  split
  · exact setRegistry ..
  · exact refl w

theorem componentAlive (h : SameParts v w) (c : ComponentId) : v.componentAlive c = w.componentAlive c := by
  rw [World.componentAlive, h.components, World.componentAlive]

theorem subscription? (h : SameParts v w) (s : SubscriptionId) : v.subscription? s = w.subscription? s := by
  rw [World.subscription?, h.subscriptions, World.subscription?]

end SameParts

/-! ## Registries, signals and ledger -/

section Parts
variable (w : World) (o i ch : ChannelId) (s place : Nat) (e : Entry)

@[simp] theorem registry_disconnect : (w.disconnect o place).registry ch = w.registry ch := by
  unfold disconnect
  split
  · rfl
  · split <;> simp

@[simp] theorem ledger_disconnect : (w.disconnect o place).ledger = w.ledger := by
  unfold disconnect
  split
  · rfl
  · split <;> simp

theorem signal?_disconnect : (w.disconnect o place).signal? ch =
    if ch = o then (w.signal? ch).map (·.without place) else w.signal? ch := by
  unfold disconnect
  split
  · rename_i hg
    by_cases hch : ch = o
    · subst hch; simp [hg]
    · simp [hch]
  · rename_i g hg
    -- A signal that has no such place stays as it is.
    cases hh : g.has place with
    | false =>
      rw [Signal.disconnect?_eq_none_iff.2 hh]
      by_cases hch : ch = o
      · subst hch; simp [hg, Signal.without_of_not_has hh]
      · simp [hch]
    | true =>
      rw [Signal.disconnect?_of_has hh]
      by_cases hch : ch = o
      · subst hch; simp [signal?_setSignal, hg]
      · simp [signal?_setSignal, hch]

@[simp] theorem registry_noteIfCounting : (w.noteIfCounting o e).registry ch = w.registry ch := by
  unfold noteIfCounting; split <;> rfl

@[simp] theorem signal?_noteIfCounting : (w.noteIfCounting o e).signal? ch = w.signal? ch := by
  unfold noteIfCounting; split <;> rfl

@[simp] theorem ledger_noteIfCounting : (w.noteIfCounting o e).ledger = w.ledger := by
  unfold noteIfCounting; split <;> rfl

theorem registry_closeAtOutput : (w.closeAtOutput s o place).registry ch =
    if ch = o ∧ w.channelAlive o = true then (w.registry ch).erase s else w.registry ch := by
  unfold closeAtOutput
  cases w.channelAlive o <;> by_cases hch : ch = o <;>
    simp [registry_deregister, release, disconnectFor, hch]

theorem signal?_closeAtOutput : (w.closeAtOutput s o place).signal? ch =
    if ch = o ∧ w.channelAlive o = true then (w.signal? ch).map (·.without place) else w.signal? ch := by
  unfold closeAtOutput
  cases w.channelAlive o <;> by_cases hch : ch = o <;>
    simp [deregister, release, disconnectFor, signal?_disconnect, hch]

theorem ledger_closeAtOutput : (w.closeAtOutput s o place).ledger =
    if w.channelAlive o then .released s :: .disconnected s (w.hasPlace o place) :: w.ledger
    else .released s :: w.ledger := by
  unfold closeAtOutput
  cases w.channelAlive o <;> simp [deregister, release, disconnectFor, hasPlace]

end Parts

/-! ## Closing -/

section Close
variable {w : World} {o i : ChannelId} {s place : Nat}

/-- A subscription that is not connected is closed without any effect. -/
theorem close_of_not_isConnected (h : w.isConnected s = false) : w.close s = w := by
  unfold close
  split
  · rename_i hs
    rw [isConnected, hs] at h
    cases h
  · rfl

/-- A subscription with a token has a number. -/
theorem pos_of_subscription? {sub : Subscription} (h : w.subscription? s = some sub) : s ≠ 0 := by
  rintro rfl
  simp [subscription?] at h

/-- Numbers are given out without a gap. -/
theorem le_length_of_subscription? {sub : Subscription} (h : w.subscription? s = some sub) :
    s ≤ w.subscriptions.length := by
  unfold subscription? at h
  split at h
  · cases h
  · have := (List.getElem?_eq_some_iff.1 h).1
    omega

theorem isConnected_iff : w.isConnected s = true ↔ ∃ o i p, w.subscription? s = some ⟨o, i, some p⟩ := by
  unfold isConnected
  rcases w.subscription? s with _ | ⟨o, i, _ | p⟩ <;> simp

theorem close_of_token (h : w.subscription? s = some ⟨o, i, some place⟩) :
    w.close s = (((w.dropToken s).closeAtOutput s o place).closeAtInput s i).note (.event (.closed s)) := by
  unfold close
  rw [h]

theorem sameParts_close (h : w.subscription? s = some ⟨o, i, some place⟩) :
    SameParts (w.close s) (w.dropToken s) := by
  rw [close_of_token h]
  exact (SameParts.note ..).trans ((SameParts.closeAtInput ..).trans (SameParts.closeAtOutput ..))

/-- A living end forgets the number of a subscription that is closed. -/
theorem registry_close (h : w.subscription? s = some ⟨o, i, some place⟩) (ch : ChannelId) :
    (w.close s).registry ch =
      if (ch = o ∨ ch = i) ∧ w.channelAlive ch = true then (w.registry ch).erase s else w.registry ch := by
  -- Nothing here says that the two ends are different channels, so a number may be erased twice.
  have erase_erase : ∀ r : Registry Handle, (r.erase s).erase s = r.erase s := fun r =>
    Registry.erase_of_not_mem fun hm => (Registry.mem_ids_erase.1 hm).2 rfl
  have hi : ((w.dropToken s).closeAtOutput s o place).channelAlive i = w.channelAlive i := by
    rw [(SameParts.closeAtOutput ..).channelAlive, channelAlive_dropToken]
  rw [close_of_token h, registry_note, closeAtInput, hi]
  cases hai : w.channelAlive i with
  | false =>
    rw [if_neg (by simp), registry_closeAtOutput]
    simp only [registry_dropToken, channelAlive_dropToken]
    by_cases hco : ch = o
    · subst hco; simp
    · by_cases hci : ch = i
      · subst hci; simp [hco, hai]
      · simp [hco, hci]
  | true =>
    rw [if_pos rfl, registry_deregister, registry_closeAtOutput]
    simp only [registry_dropToken, channelAlive_dropToken]
    by_cases hci : ch = i
    · subst hci
      by_cases hco : ch = o
      · simp [hco.symm, hai, erase_erase]
      · simp [hco, hai]
    · by_cases hco : ch = o
      · subst hco; simp [hci]
      · simp [hco, hci]

/-- A living output has the place of a subscription that is closed taken out of its signal. -/
theorem signal?_close (h : w.subscription? s = some ⟨o, i, some place⟩) (ch : ChannelId) :
    (w.close s).signal? ch =
      if ch = o ∧ w.channelAlive o = true then (w.signal? ch).map (·.without place) else w.signal? ch := by
  have hin : ∀ v : World, (v.closeAtInput s i).signal? ch = v.signal? ch := fun v => by
    unfold closeAtInput
    split <;> simp [deregister]
  rw [close_of_token h, signal?_note, hin, signal?_closeAtOutput, channelAlive_dropToken, signal?_dropToken]

/-- Closing is entered in the ledger, and what a living output's signal had. -/
theorem ledger_close (h : w.subscription? s = some ⟨o, i, some place⟩) : (w.close s).ledger =
    if w.channelAlive o then .released s :: .disconnected s (w.hasPlace o place) :: w.ledger
    else .released s :: w.ledger := by
  have hin : ∀ v : World, (v.closeAtInput s i).ledger = v.ledger := fun v => by
    unfold closeAtInput
    split <;> rfl
  rw [close_of_token h, ledger_note, hin, ledger_closeAtOutput]
  cases ha : w.channelAlive o <;> simp [ha, hasPlace]

end Close

section CloseAny
variable (w : World) (s t : Nat) (ch : ChannelId) (c : ComponentId) (h : Handle)

/-- Closing takes the token of the subscription and of no other. -/
theorem subscription?_close : (w.close s).subscription? t =
    if t = s then (w.subscription? t).map fun sub => { sub with token := none } else w.subscription? t := by
  cases hs : w.isConnected s with
  | true =>
    obtain ⟨o, i, p, hs⟩ := isConnected_iff.1 hs
    rw [(sameParts_close hs).subscription?, subscription?_dropToken _ _ _ (pos_of_subscription? hs)]
  | false =>
    rw [close_of_not_isConnected hs]
    by_cases ht : t = s
    · subst ht
      unfold isConnected at hs
      rcases hw : w.subscription? t with _ | ⟨o, i, _ | p⟩
      · simp
      · simp
      · rw [hw] at hs; cases hs
    · simp [ht]

theorem isConnected_close : (w.close s).isConnected t = (w.isConnected t && t != s) := by
  unfold isConnected
  rw [subscription?_close]
  by_cases ht : t = s
  · subst ht
    cases w.subscription? t <;> simp
  · simp [ht]

/-- Whatever shows neither registries nor signals is kept by closing if losing the token keeps it. -/
theorem eq_of_close {α : Type} (f : World → α) (same : ∀ {u v : World}, SameParts u v → f u = f v)
    (drop : f (w.dropToken s) = f w) : f (w.close s) = f w := by
  cases hs : w.isConnected s with
  | true =>
    obtain ⟨o, i, p, hs⟩ := isConnected_iff.1 hs
    rw [same (sameParts_close hs), drop]
  | false => rw [close_of_not_isConnected hs]

@[simp] theorem length_subscriptions_close : (w.close s).subscriptions.length = w.subscriptions.length :=
  eq_of_close w s (·.subscriptions.length) (fun h => by rw [h.subscriptions]) (length_subscriptions_dropToken ..)

@[simp] theorem channelAlive_close : (w.close s).channelAlive ch = w.channelAlive ch :=
  eq_of_close w s (·.channelAlive ch) (fun h => h.channelAlive ch) (channelAlive_dropToken ..)

@[simp] theorem componentAlive_close : (w.close s).componentAlive c = w.componentAlive c :=
  eq_of_close w s (·.componentAlive c) (fun h => h.componentAlive c) (componentAlive_dropToken ..)

@[simp] theorem slotAt?_close : (w.close s).slotAt? ch = w.slotAt? ch :=
  eq_of_close w s (·.slotAt? ch) (fun h => h.slotAt? ch) (slotAt?_dropToken ..)

@[simp] theorem foreigns_close : (w.close s).foreigns = w.foreigns :=
  eq_of_close w s (·.foreigns) SameParts.foreigns (foreigns_dropToken ..)

@[simp] theorem handleId_close : (w.close s).handleId h = w.handleId h := by
  cases h with
  | own k => rfl
  | foreign f => rw [handleId, foreigns_close, handleId]

end CloseAny

end Conduit.World
