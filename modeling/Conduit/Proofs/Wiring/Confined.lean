/-
What a closing reaches, channel by channel and without any views in between. Of the channels only the
two ends of the subscription change, and of these only one that lives: it forgets the number of the
subscription, and an output has the place taken out of its signal (`Confined`). This does not depend on
when the subscription is closed: it may be while a channel is drained (`Moment`).
-/
import Conduit.Proofs.Wiring.Enrolled

namespace Conduit

namespace Registry

variable {η : Type} {r : Registry η} {k : Nat} {a : η}

theorem filter_insertEntry : ∀ {l : List (Nat × η)}, k ∉ l.map (·.1) →
    (insertEntry k a l).filter (·.1 != k) = l
  | [], _ => by simp [insertEntry]
  | (j, b) :: rest, hk => by
    rw [List.map_cons, List.mem_cons, not_or] at hk
    have hj : j ≠ k := Ne.symm hk.1
    have hrest : rest.filter (·.1 != k) = rest := by
      apply List.filter_eq_self.2
      intro e he
      have hne : e.1 ≠ k := fun h => hk.2 (h ▸ List.mem_map_of_mem he)
      simpa using hne
    unfold insertEntry
    split
    · simp [hj, hrest]
    · split
      · omega
      · simp [hj, filter_insertEntry hk.2]

/-- An entry that was put in under a new number leaves no trace when it is taken out. -/
theorem erase_insert (hk : k ∉ r.ids) : (r.insert k a).erase k = r :=
  eq_of_entries (filter_insertEntry hk)

end Registry

/-- The role, with a place taken out of the signal. -/
def Role.vacate (place : Nat) : Role → Role
  | .input synchronized => .input synchronized
  | .output g counting => .output (g.without place) counting

/-- The role, with the next number of the signal left out. -/
def Role.advance : Role → Role
  | .input synchronized => .input synchronized
  | .output g counting => .output { g with nextId := g.nextId + 1 } counting

/-- What a closing leaves of a channel: an end that lives forgets the number, and an output has the
place taken out. -/
def Channel.part (c : Channel) (s : SubscriptionId) (place : Nat) (isOutput isInput : Bool) : Channel :=
  if c.alive && (isOutput || isInput) then
    { c with registry := c.registry.erase s, role := if isOutput then c.role.vacate place else c.role }
  else c

/-- A channel that is at most one of the two ends can be taken as either, one after the other. -/
theorem Channel.part_part (c : Channel) {s p : Nat} {o i ch : ChannelId} (hoi : o ≠ i) :
    (c.part s p (ch == o) false).part s p false (ch == i) = c.part s p (ch == o) (ch == i) := by
  by_cases ho : ch = o
  · subst ho
    simp [Channel.part, hoi]
  · simp [Channel.part, ho]

namespace World

/-- `v` is `w` after the subscription `s` was closed, which goes from `o` to `i` and was connected at
the place `p`. -/
structure Confined (w v : World) (s : SubscriptionId) (o i : ChannelId) (p : Nat) : Prop where
  components : v.components = w.components
  foreigns : v.foreigns = w.foreigns
  length : v.subscriptions.length = w.subscriptions.length
  closed : v.subscription? s = some ⟨o, i, none⟩
  others : ∀ t : Nat, t ≠ s → v.subscription? t = w.subscription? t
  channels : ∀ ch, v.channels[ch]? = (w.channels[ch]?).map fun c : Channel => c.part s p (ch == o) (ch == i)
  /-- The number of the place is that of the subscription's own slot, and of no other. -/
  slot : ∀ g, w.channelAlive o = true → w.signal? o = some g →
    g.places.filter (·.id == p) = (w.placeAt? o s).toList ∧ (g.without p).places = g.places.filter (·.id != p)
  log : w.log <:+ v.log
  ledger : w.ledger <:+ v.ledger

/-- `v` is `w` but for a subscription from `o` to `i` that was made in the meantime, and closed. -/
structure Restored (w v : World) (o i : ChannelId) : Prop where
  components : v.components = w.components
  foreigns : v.foreigns = w.foreigns
  length : v.subscriptions.length = w.subscriptions.length + 1
  closed : v.subscription? (w.subscriptions.length + 1) = some ⟨o, i, none⟩
  others : ∀ t, t ≠ w.subscriptions.length + 1 → v.subscription? t = w.subscription? t
  channels : ∀ ch, v.channels[ch]? =
    (w.channels[ch]?).map fun c => if ch = o then { c with role := c.role.advance } else c

/-! ## The elementary changes -/

section

variable (w : World) (o ch : ChannelId) (s p : Nat)

theorem channels_deregister : (w.deregister o s).channels[ch]? =
    if ch = o then (w.channels[ch]?).map fun c => { c with registry := c.registry.erase s } else w.channels[ch]? :=
  channels_setRegistry w o ch (·.erase s)

theorem channels_disconnect : (w.disconnect o p).channels[ch]? =
    if ch = o then (w.channels[ch]?).map fun c => { c with role := c.role.vacate p } else w.channels[ch]? := by
  unfold disconnect
  by_cases hch : ch = o
  · subst hch
    rw [if_pos rfl]
    rcases hc : w.channels[ch]? with _ | c
    · have hnone : w.signal? ch = none := by rw [signal?, hc]; rfl
      rw [hnone]
      exact hc
    · have hsig : w.signal? ch = c.signal? := by rw [signal?, hc]; rfl
      -- Only an output has a signal, and it changes if it has the place.
      rcases c with ⟨owner, position, payload, synchronized | ⟨g, counting⟩, registry, alive⟩
      · have hnone : w.signal? ch = none := hsig
        rw [hnone]
        exact hc
      · have hsome : w.signal? ch = some g := hsig
        simp only [hsome]
        cases hh : g.has p with
        | true =>
          rw [Signal.disconnect?_of_has hh]
          show (w.setSignal ch (g.without p)).channels[ch]? = _
          rw [setSignal, channels_modifyChannel, if_pos rfl, hc]
          rfl
        | false =>
          rw [Signal.disconnect?_eq_none_iff.2 hh]
          show w.channels[ch]? = _
          rw [hc, Option.map_some, Role.vacate, Signal.without_of_not_has hh]
  · rw [if_neg hch]
    split
    · rfl
    · split
      · rw [setSignal, channels_modifyChannel, if_neg (Ne.symm hch)]
      · rfl

@[simp] theorem channels_noteIfCounting (e : Entry) : (w.noteIfCounting o e).channels = w.channels := by
  unfold noteIfCounting
  split <;> rfl

theorem channels_closeAtOutput : (w.closeAtOutput s o p).channels[ch]? =
    (w.channels[ch]?).map (·.part s p (ch == o) false) := by
  unfold closeAtOutput
  by_cases hch : ch = o
  · subst hch
    have halive : w.channelAlive ch = (w.channels[ch]?).any (·.alive) := rfl
    rcases hc : w.channels[ch]? with _ | c
    · rw [halive, hc]
      simp [release, record, hc]
    · rw [halive, hc]
      -- The place is vacated and the number erased, unless the output has ended.
      cases ha : c.alive with
      | true => simp [ha, channels_deregister, release, record, disconnectFor, channels_disconnect, hc, Channel.part]
      | false => simp [ha, release, record, hc, Channel.part]
  · have hpart : (fun c : Channel => c.part s p (ch == o) false) = id := by
      funext c
      simp [Channel.part, hch]
    rw [hpart, Option.map_id, id]
    split
    · simp [channels_deregister, hch, release, record, disconnectFor, channels_disconnect]
    · simp [release, record]

theorem channels_closeAtInput : (w.closeAtInput s o).channels[ch]? =
    (w.channels[ch]?).map (·.part s p false (ch == o)) := by
  unfold closeAtInput
  by_cases hch : ch = o
  · subst hch
    have halive : w.channelAlive ch = (w.channels[ch]?).any (·.alive) := rfl
    rcases hc : w.channels[ch]? with _ | c
    · rw [halive, hc]
      simp [hc]
    · rw [halive, hc]
      cases ha : c.alive with
      | true => simp [ha, channels_deregister, hc, Channel.part]
      | false => simp [ha, hc, Channel.part]
  · have hpart : (fun c : Channel => c.part s p false (ch == o)) = id := by
      funext c
      simp [Channel.part, hch]
    rw [hpart, Option.map_id, id]
    split
    · rw [channels_deregister, if_neg hch]
    · rfl

end

/-! ## Closing -/

variable {w v : World} {o i : ChannelId} {s p : Nat} {dying : Option ChannelId}

theorem channels_close (hoi : o ≠ i) (hs : w.subscription? s = some ⟨o, i, some p⟩) (ch : ChannelId) :
    (w.close s).channels[ch]? = (w.channels[ch]?).map (·.part s p (ch == o) (ch == i)) := by
  rw [close_of_token hs]
  show (((w.dropToken s).closeAtOutput s o p).closeAtInput s i).channels[ch]? = _
  rw [channels_closeAtInput _ i ch s p, channels_closeAtOutput, Option.map_map]
  show (w.channels[ch]?).map _ = _
  congr 1
  funext c
  exact Channel.part_part c hoi

theorem log_noteIfCounting (w : World) (o : ChannelId) (e : Entry) : w.log <:+ (w.noteIfCounting o e).log := by
  unfold noteIfCounting
  split
  · exact List.suffix_cons ..
  · exact List.suffix_refl _

theorem log_disconnect (w : World) (o : ChannelId) (p : Nat) : w.log <:+ (w.disconnect o p).log := by
  unfold disconnect
  split
  · exact List.suffix_refl _
  · split
    · exact List.suffix_refl _
    · exact List.suffix_cons ..

theorem log_closeAtOutput (w : World) (s : Nat) (o : ChannelId) (p : Nat) :
    w.log <:+ (w.closeAtOutput s o p).log := by
  unfold closeAtOutput
  split
  · have hdisconnected : w.log <:+ (w.disconnectFor s o p).log := by
      apply (log_noteIfCounting w o .disconnected).trans
      exact log_disconnect ((w.noteIfCounting o .disconnected).record _) o p
    exact hdisconnected.trans (log_noteIfCounting ..)
  · exact log_noteIfCounting ..

/-- Closing adds to the log. -/
theorem log_close (hs : w.subscription? s = some ⟨o, i, some p⟩) : w.log <:+ (w.close s).log := by
  rw [close_of_token hs]
  have hin : ∀ u : World, (u.closeAtInput s i).log = u.log := fun u => by
    unfold closeAtInput
    split <;> rfl
  show w.log <:+ _ :: (((w.dropToken s).closeAtOutput s o p).closeAtInput s i).log
  rw [hin]
  exact (log_closeAtOutput (w.dropToken s) s o p).trans (List.suffix_cons ..)

/-- The place that a connected subscription has in the signal of its output is its own. -/
theorem Placed.filter_places (h : Placed w) (hs : w.subscription? s = some ⟨o, i, some p⟩)
    (ha : w.channelAlive o = true) {g : Signal Slot} (hg : w.signal? o = some g) :
    g.places.filter (·.id == p) = (w.placeAt? o s).toList := by
  have htidy := h.tidy o g hg
  have hmem : ∀ q, q ∈ g.places.filter (·.id == p) ↔ w.placeAt? o s = some q := fun q => by
    rw [List.mem_filter, h.places o g ha hg, mem_placesAt, beq_iff_eq]
    constructor
    · rintro ⟨⟨t, ht⟩, hid⟩
      rwa [h.eq_of_id hs ht hid] at ht
    · intro hq
      obtain ⟨j, hj, -⟩ := placeAt?_eq_some_iff.1 hq
      rw [hs] at hj
      cases hj
      exact ⟨⟨s, hq⟩, rfl⟩
  -- Numbers are not repeated, so a list of places of one number has at most one.
  have hnodup : (g.places.filter (·.id == p)).Nodup := htidy.nodup_ids.of_map.filter _
  rcases hq : w.placeAt? o s with _ | q
  · rw [Option.toList_none, List.eq_nil_iff_forall_not_mem]
    intro x hx
    rw [hmem, hq] at hx
    cases hx
  · rw [Option.toList_some]
    apply List.perm_singleton.1
    apply (List.perm_ext_iff_of_nodup hnodup (List.nodup_singleton q)).2
    intro x
    rw [hmem, hq, List.mem_singleton, Option.some.injEq]
    exact eq_comm

/-- A closing is confined to the subscription and to the ends of it that live. -/
theorem confined_close (hsound : Sound dying w) (hplaced : Placed w) (hs : w.subscription? s = some ⟨o, i, some p⟩) :
    Confined w (w.close s) s o i p where
  components := (sameParts_close hs).components
  foreigns := foreigns_close ..
  length := length_subscriptions_close ..
  closed := by rw [subscription?_close, if_pos rfl, hs]; rfl
  others t ht := by rw [subscription?_close, if_neg ht]
  channels := channels_close (hsound.ends_ne hs) hs
  slot g ha hg := ⟨hplaced.filter_places hs ha hg, Signal.places_without (hplaced.tidy o g hg)⟩
  log := log_close hs
  ledger := (Extends.close hs).ledger

theorem close_close (w : World) (s : Nat) : (w.close s).close s = w.close s := by
  apply close_of_not_isConnected
  rw [isConnected_close]
  simp

/-! ## Subscribing, and closing at once -/

/-- The place that a signal gave out last can be taken back, but not its number. -/
theorem Role.vacate_occupy (slot : Slot) {g : Signal Slot} (counting : Bool) (hg : g.Tidy) :
    ((Role.output g counting).occupy slot).vacate g.nextId = (Role.output g counting).advance := by
  have hold : ∀ q ∈ g.places, ¬ (q.id == g.nextId) = true := by
    intro q hq
    have := hg.below q hq
    simpa using (by omega : q.id ≠ g.nextId)
  simp only [Role.occupy, Role.vacate, Role.advance, Signal.without]
  rw [List.eraseP_append_right _ hold]
  simp

/-- A subscription that is closed at once leaves nothing behind but that its numbers are used up. -/
theorem restored_close {n : Nat} (hsound : Sound none w) (hplaced : Placed w) (ho : w.channelAlive o = true)
    (hi : w.channelAlive i = true) (hin : w.signal? i = none) (h : w.subscribe? o i = some (n, v)) :
    Restored w (v.close n) o i := by
  obtain ⟨p, slot, g, g', hmade⟩ := subscribed_of_subscribe? hin h
  have hs : v.subscription? n = some ⟨o, i, some p⟩ := by rw [hmade.subscription?, if_pos rfl]
  have hoi : o ≠ i := (hsound.subscribe ho hi hin h).ends_ne hs
  obtain ⟨-, rfl, -⟩ := Signal.places_of_connect? hmade.connect
  have hn := hmade.number
  refine
    { components := (sameParts_close hs).components.trans hmade.components
      foreigns := by rw [foreigns_close, hmade.foreigns]
      length := by rw [length_subscriptions_close, hmade.length, hn]
      closed := by rw [← hn, subscription?_close, if_pos rfl, hs]; rfl
      others := fun t ht => by rw [← hn] at ht; rw [subscription?_close, if_neg ht, hmade.subscription?, if_neg ht]
      channels := fun ch => ?_ }
  rw [channels_close hoi hs, channels_subscribe? hoi hmade.input h, Option.map_map]
  rcases hc : w.channels[ch]? with _ | c
  · rfl
  rw [Option.map_some, Option.map_some, Option.some.injEq]
  -- Numbers in registries have been given out, and `n` is new.
  have hfresh : (c.registry.insert n (.own n)).erase n = c.registry := by
    apply Registry.erase_insert
    intro hm
    have hreg : w.registry ch = c.registry := by rw [registry, hc]; rfl
    have := hsound.id_le (hreg ▸ hm)
    omega
  have halive : w.channelAlive ch = c.alive := by rw [channelAlive, hc]; rfl
  obtain ⟨owner, position, payload, role, registry, alive⟩ := c
  dsimp only at hfresh halive
  by_cases hco : ch = o
  · subst hco
    have hsig := hmade.output
    rw [ho] at halive
    rw [signal?, hc, Option.bind_some] at hsig
    obtain ⟨counting, rfl⟩ : ∃ counting, role = .output g counting := by
      cases role with
      | input synchronized => cases hsig
      | output k counting => cases hsig; exact ⟨counting, rfl⟩
    have hrole := Role.vacate_occupy slot counting (hplaced.tidy ch g hmade.output)
    simp [Channel.part, ← halive, hfresh, hrole]
  · by_cases hci : ch = i
    · subst hci
      rw [hi] at halive
      simp [Channel.part, hco, ← halive, hfresh]
    · simp [Channel.part, hco, hci]

/-! ## At any moment -/

/-- A wiring that comes up in a history: between two acts, or while a channel is drained. -/
inductive Moment (w : World) : Option ChannelId → World → Prop
  | act {v : World} (h : Acts .any w v) : Moment w none v
  | ended {v : World} {ch : ChannelId} (h : Acts .any w v) (ha : v.channelAlive ch = true) :
      Moment w (some ch) (v.markEnded ch)
  | popped {v : World} {ch : ChannelId} (h : Moment w (some ch) v) (e : Nat × Handle) {rest : Registry Handle}
      (hp : (v.registry ch).popMin? = some (e, rest)) :
      Moment w (some ch) ((v.setRegistry ch rest).note (.event (.draining e.1)))
  | closed {v : World} {ch : ChannelId} (h : Moment w (some ch) v) (a : Handle) :
      Moment w (some ch) (v.closeHandle a)

/-- At every moment the wiring is well formed, but for a registry that is being drained. -/
theorem Moment.sound (h : Moment w dying v) (hw : Sound none w) : Sound dying v := by
  induction h with
  | act h => exact h.induct (P := Sound none) (fun _ _ hu ha => hu.act ha) hw
  | ended h ha => exact (h.induct (P := Sound none) (fun _ _ hu ha => hu.act ha) hw).markEnded
  | popped h e hp ih =>
    rename_i u ch rest
    obtain ⟨-, rfl⟩ := Registry.popMin?_eq_some hp
    exact ih.shrink ((Shrinks.deregister u ch e.1).trans (.note _ _))
  | closed h a ih => exact ih.shrink (.closeHandle _ a)

/-- Up to any moment there are only elementary changes. -/
theorem Moment.rewires (h : Moment w dying v) : Rewires .any w v := by
  induction h with
  | act h => exact h.rewires
  | ended h ha => exact .tail h.rewires (.markEnded _ ha)
  | popped h e hp ih => exact .tail (.tail ih (.same (.setRegistry ..))) (.same (.of_eq rfl rfl rfl))
  | closed h a ih => exact .trans ih (rewire_closeHandle _ a)

/-- At every moment signals have the places of the subscriptions that are connected. -/
theorem Moment.placed (h : Moment w dying v) (hw : Placed w) : Placed v :=
  h.rewires.induct (P := Placed) (fun _ _ hu hr => hu.rewire hr) hw

end World

end Conduit
