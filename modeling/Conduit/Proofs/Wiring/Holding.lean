/-
Who holds a connected subscription. A handle, or the registry of a living channel: there is always
somebody (`Backed`), because a subscription is let go only together with the question whether it was
the last one, and a channel that ends closes what it listed. What the wiring does by itself never
makes a connected subscription lose its registration (`Keeps`); only a number that is taken out of a
registry by hand does.
-/
import Conduit.Proofs.Wiring.Owned

namespace Conduit.World

/-- A living channel lists the subscription by itself. -/
def Listed (w : World) (s : Nat) : Prop :=
  ∃ ch, w.channelAlive ch = true ∧ (s, .own s) ∈ (w.registry ch).entries

/-- What is connected in `v` is listed there, or was so before without being listed. -/
def Keeps (w v : World) : Prop :=
  ∀ s : Nat, v.isConnected s = true → v.Listed s ∨ (w.isConnected s = true ∧ ¬ w.Listed s)

/-- Every connected subscription is held, or listed by a living channel. -/
def Backed (held : Nat → Prop) (w : World) : Prop :=
  ∀ s : Nat, w.isConnected s = true → held s ∨ w.Listed s

section

variable {u v w : World} {held held' : Nat → Prop}

theorem isRegistered_iff {h : Handle} : w.isRegistered h = true ↔
    ∃ ch, w.channelAlive ch = true ∧ h ∈ (w.registry ch).handles := by
  unfold isRegistered
  rw [List.any_eq_true]
  constructor
  · rintro ⟨c, hc, hlist⟩
    rw [Bool.and_eq_true, List.contains_iff_mem] at hlist
    obtain ⟨ch, hch⟩ := List.mem_iff_getElem?.1 hc
    exact ⟨ch, by simp [channelAlive, hch, hlist.1], by simpa [registry, hch] using hlist.2⟩
  · rintro ⟨ch, ha, hm⟩
    obtain ⟨c, hc, hal⟩ := (Option.any_eq_true _ _).1 ha
    refine ⟨c, List.mem_of_getElem? hc, ?_⟩
    rw [Bool.and_eq_true, List.contains_iff_mem]
    exact ⟨hal, by simpa [registry, hc] using hm⟩

/-- A registry lists a subscription under its number only. -/
theorem isRegistered_own_iff {dying : Option ChannelId} (hw : Sound dying w) {s : Nat} :
    w.isRegistered (.own s) = true ↔ w.Listed s := by
  rw [isRegistered_iff]
  constructor
  · rintro ⟨ch, ha, hm⟩
    obtain ⟨k, hk⟩ := Registry.mem_handles.1 hm
    have hkey := (hw.keyed ch _ hk).1
    exact ⟨ch, ha, by rwa [show k = s from hkey] at hk⟩
  · rintro ⟨ch, ha, hm⟩
    exact ⟨ch, ha, Registry.mem_handles.2 ⟨s, hm⟩⟩

theorem Keeps.refl (w : World) : Keeps w w := fun s hs => by
  by_cases hl : w.Listed s
  · exact .inl hl
  · exact .inr ⟨hs, hl⟩

theorem Keeps.trans (h₁ : Keeps w v) (h₂ : Keeps v u) : Keeps w u := fun s hs => by
  rcases h₂ s hs with hl | ⟨hv, hnl⟩
  · exact .inl hl
  · exact .inr ((h₁ s hv).resolve_left hnl)

theorem Keeps.backed (h : Keeps w v) (hw : Backed held w) : Backed held v := fun s hs => by
  rcases h s hs with hl | ⟨hc, hnl⟩
  · exact .inr hl
  · exact .inl ((hw s hc).resolve_right hnl)

theorem Backed.mono (h : Backed held w) (hle : ∀ s, w.isConnected s = true → held s → held' s ∨ w.Listed s) :
    Backed held' w := fun s hs => (h s hs).elim (hle s hs) .inr

/-- Nothing gets lost where registries of living channels lose nothing that stays connected. -/
theorem Keeps.of_registry (hc : ∀ s : Nat, v.isConnected s = true → w.isConnected s = true)
    (ha : ∀ ch, w.channelAlive ch = true → v.channelAlive ch = true)
    (hr : ∀ ch s, w.channelAlive ch = true → v.isConnected s = true → (s, .own s) ∈ (w.registry ch).entries →
      (s, .own s) ∈ (v.registry ch).entries) : Keeps w v := fun s hs => by
  by_cases hl : w.Listed s
  · obtain ⟨ch, hal, hm⟩ := hl
    exact .inl ⟨ch, ha ch hal, hr ch s hal hs hm⟩
  · exact .inr ⟨hc s hs, hl⟩

/-! ## Closing and ends -/

/-- Closing takes only the number of the subscription that it closes out of registries. -/
theorem mem_registry_close {s k : Nat} {ch : ChannelId} (hs : (w.close k).isConnected s = true)
    (hm : (s, .own s) ∈ (w.registry ch).entries) : (s, .own s) ∈ ((w.close k).registry ch).entries := by
  rw [isConnected_close, Bool.and_eq_true, bne_iff_ne] at hs
  cases hk : w.isConnected k with
  | false => rwa [close_of_not_isConnected hk]
  | true =>
    obtain ⟨o, i, p, hk⟩ := isConnected_iff.1 hk
    rw [registry_close hk]
    split
    · exact Registry.mem_erase.2 ⟨hm, hs.2⟩
    · exact hm

theorem mem_registry_closeHandle {s : Nat} {a : Handle} {ch : ChannelId} (hs : (w.closeHandle a).isConnected s = true)
    (hm : (s, .own s) ∈ (w.registry ch).entries) : (s, .own s) ∈ ((w.closeHandle a).registry ch).entries := by
  cases a with
  | own k => exact mem_registry_close hs hm
  | foreign f => rcases closeHandle_foreign w f with hf | ⟨e, hf⟩ <;> rw [hf] <;> exact hm

/-- What is connected after a handle was closed was connected before, and is not behind it. -/
theorem isConnected_of_closeHandle {s : Nat} {a : Handle} (hs : (w.closeHandle a).isConnected s = true) :
    w.isConnected s = true ∧ a ≠ .own s := by
  cases a with
  | own k =>
    have hc : (w.close k).isConnected s = true := hs
    rw [isConnected_close, Bool.and_eq_true, bne_iff_ne] at hc
    exact ⟨hc.1, fun he => hc.2 (Handle.own.inj he).symm⟩
  | foreign f =>
    refine ⟨?_, nofun⟩
    rcases closeHandle_foreign w f with hf | ⟨e, hf⟩ <;> rw [hf] at hs <;> exact hs

theorem Keeps.closeHandle (w : World) (a : Handle) : Keeps w (w.closeHandle a) :=
  .of_registry (fun _ hs => (isConnected_of_closeHandle hs).1) (fun ch ha => by rw [channelAlive_closeHandle, ha])
    fun _ _ _ hs hm => mem_registry_closeHandle hs hm

/-- While a channel is drained, what it still lists may be listed nowhere else. -/
def KeepsBut (ch : ChannelId) (w v : World) : Prop :=
  ∀ s : Nat, v.isConnected s = true →
    v.Listed s ∨ (s, .own s) ∈ (v.registry ch).entries ∨ (w.isConnected s = true ∧ ¬ w.Listed s)

/-- The entry that a round of a drain takes out is that of the handle which it closes, so no subscription that
stays connected loses one. -/
theorem mem_registry_round {ch c : ChannelId} {id s : Nat} {a : Handle} {e : Entry}
    (hs : (((w.deregister ch id).note e).closeHandle a).isConnected s = true) (ha : (id, a) ∈ (w.registry ch).entries)
    (hm : (s, .own s) ∈ (w.registry c).entries) :
    (s, .own s) ∈ ((((w.deregister ch id).note e).closeHandle a).registry c).entries := by
  refine mem_registry_closeHandle hs ?_
  rw [registry_note, registry_deregister]
  split
  · rename_i hc
    subst hc
    refine Registry.mem_erase.2 ⟨hm, fun hid => (isConnected_of_closeHandle hs).2 ?_⟩
    rw [show s = id from hid] at hm
    rw [show s = id from hid]
    exact Registry.handle_unique ha hm
  · exact hm

theorem KeepsBut.round {ch : ChannelId} {id : Nat} {a : Handle} (e : Entry) (h : KeepsBut ch w v)
    (hm : (id, a) ∈ (v.registry ch).entries) :
    KeepsBut ch w (((v.deregister ch id).note e).closeHandle a) := fun s hs => by
  rcases h s (isConnected_of_closeHandle hs).1 with ⟨c, hal, hc⟩ | hc | hold
  · refine .inl ⟨c, ?_, mem_registry_round hs hm hc⟩
    rw [channelAlive_closeHandle, channelAlive_note, (sameParts_deregister ..).channelAlive, hal]
  · exact .inr (.inl (mem_registry_round hs hm hc))
  · exact .inr (.inr hold)

theorem Keeps.endChannel (w : World) (ch : ChannelId) : Keeps w (w.endChannel ch) :=
  endChannel_induct (P := Keeps w) (KeepsBut ch w) (.refl w)
    -- What the channel listed it goes on to list, though it does not live any more.
    (fun _ s hs => by
      by_cases hl : w.Listed s
      · obtain ⟨c, hal, hm⟩ := hl
        by_cases hc : c = ch
        · exact .inr (.inl (by rw [registry_markEnded, ← hc]; exact hm))
        · exact .inl ⟨c, by simp [hal, hc], by rw [registry_markEnded]; exact hm⟩
      · exact .inr (.inr ⟨hs, hl⟩))
    (fun _ _ _ e hv _ hm => hv.round e hm) (fun _ _ hv => hv)
    fun v hv _ hids s hs => by
      have hnot : (s, Handle.own s) ∉ (v.registry ch).entries := fun hm => by
        have := Registry.mem_ids.2 ⟨_, hm⟩
        rw [hids] at this
        cases this
      rcases hv s hs with hl | hm | hold
      · exact .inl hl
      · exact absurd hm hnot
      · exact .inr hold

theorem Keeps.step {held : Ref → Bool} (h : Step held w v) : Keeps w v := by
  cases h with
  | note e => exact .of_registry (fun _ h => h) (fun _ h => h) fun _ _ _ _ h => h
  | close s => exact .closeHandle w (.own s)
  | deny f => exact .of_registry (fun _ h => h) (fun _ h => h) fun _ _ _ _ h => h
  | markDead c => exact .of_registry (fun _ h => h) (fun _ h => h) fun _ _ _ _ h => h
  | endChannel ch => exact .endChannel w ch

theorem Torn.keeps {held : Ref → Bool} (h : Torn held w v) : Keeps w v :=
  h.induct (P := Keeps w) (fun _ _ hv hs => hv.trans (.step hs)) (.refl w)

/-! ## Other acts -/

theorem Keeps.create (w : World) (name : String) (layout : Layout) : Keeps w (w.create name layout).2 :=
  .of_registry (fun s hs => by simpa [isConnected] using hs) (fun ch ha => (channelAlive_create ..).2 (.inl ha))
    fun ch s _ _ hm => by rwa [registry_create]

theorem Keeps.subscribe {o i : ChannelId} {n p : Nat} {slot : Slot} {g g' : Signal Slot}
    (hw : Sound none w) (ho : w.channelAlive o = true) (hs : Subscribed w v o i n p slot g g') :
    Keeps w v := fun s hc => by
  -- Registries only gain here.
  have hmono : ∀ ch e, e ∈ (w.registry ch).entries → e ∈ (v.registry ch).entries := fun ch e he => by
    rw [hs.registry]
    split
    · exact Registry.mem_insert.2 (.inl he)
    · exact he
  by_cases hsn : s = n
  · subst hsn
    -- The output lists the new number.
    refine .inl ⟨o, by rw [hs.channelAlive, ho], ?_⟩
    rw [hs.registry, if_pos (.inl rfl)]
    refine Registry.mem_insert.2 (.inr ⟨rfl, fun hm => ?_⟩)
    have := hw.id_le hm
    have := hs.number
    omega
  · by_cases hl : w.Listed s
    · obtain ⟨ch, hal, hm⟩ := hl
      exact .inl ⟨ch, by rw [hs.channelAlive, hal], hmono ch _ hm⟩
    · refine .inr ⟨?_, hl⟩
      rw [isConnected, hs.subscription?, if_neg hsn] at hc
      exact hc

theorem Keeps.register (w : World) (ch : ChannelId) (h : Handle) : Keeps w (w.register ch h) := by
  refine .of_registry (fun s hs => hs) (fun c ha => by rw [(sameParts_register ..).channelAlive, ha])
    fun c s ha _ hm => ?_
  by_cases hc : c = ch
  · subst hc
    obtain ⟨x, hx, -⟩ := (Option.any_eq_true _ _).1 ha
    rw [registry_register _ _ _ _ (by simp [slotAt?, hx]), if_pos rfl]
    exact Registry.mem_insert.2 (.inl hm)
  · rwa [World.register, registry, setRegistry, channels_modifyChannel, if_neg (Ne.symm hc)]

theorem Keeps.disconnectByHand (w : World) (o : ChannelId) (place : Nat) : Keeps w (w.disconnectByHand o place) := by
  have hp := sameParts_disconnectByHand w o place
  refine .of_registry (fun s hs => ?_) (fun ch ha => by rw [hp.channelAlive, ha]) fun ch s _ _ hm => ?_
  · rw [isConnected, hp.subscription?] at hs
    exact hs
  · rwa [registry_disconnectByHand]

end

end Conduit.World
