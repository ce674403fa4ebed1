/-
What ties a subscription to a channel that lists it: as long as nobody changes registries by hand, the
channel goes on to list it while the two last, and closes it when it ends. So of a connected
subscription everything that has listed it lives (`Tied`).
-/
import Conduit.Proofs.Wiring.Prompt

namespace Conduit.World

/-- As long as the subscription is connected, the channel lives and lists it. -/
def Tied (w : World) (ch : ChannelId) (s : Nat) : Prop :=
  w.isConnected s = true → w.channelAlive ch = true ∧ (s, .own s) ∈ (w.registry ch).entries

namespace Tied

variable {v w : World} {ch : ChannelId} {s : Nat}

/-- What leaves the channel and its entries alone keeps the tie. -/
theorem of_mem (h : Tied w ch s) (hs : v.isConnected s = true → w.isConnected s = true)
    (ha : w.channelAlive ch = true → v.channelAlive ch = true)
    (hm : v.isConnected s = true → (s, .own s) ∈ (w.registry ch).entries → (s, .own s) ∈ (v.registry ch).entries) :
    Tied v ch s := fun hc => by
  obtain ⟨hal, hlist⟩ := h (hs hc)
  exact ⟨ha hal, hm hc hlist⟩

theorem closeHandle (h : Tied w ch s) (a : Handle) : Tied (w.closeHandle a) ch s :=
  h.of_mem (fun hs => (isConnected_of_closeHandle hs).1) (fun ha => by rw [channelAlive_closeHandle, ha])
    fun hs hm => mem_registry_closeHandle hs hm

theorem endChannel (h : Tied w ch s) (o : ChannelId) : Tied (w.endChannel o) ch s := by
  -- A channel that is being drained lists what is connected until its entry has had its turn.
  suffices hend : (w.endChannel o).isConnected s = true → w.isConnected s = true ∧
      (s, .own s) ∈ ((w.endChannel o).registry ch).entries ∧ ch ≠ o by
    intro hs
    obtain ⟨hw, hm, hne⟩ := hend hs
    refine ⟨?_, hm⟩
    rw [channelAlive_endChannel, (h hw).1, bne_iff_ne.2 hne, Bool.and_self]
  by_cases ha : w.channelAlive o = true
  · have hend : w.endChannel o = w ∨ ((w.endChannel o).isConnected s = true → w.isConnected s = true ∧
        (s, Handle.own s) ∈ ((w.endChannel o).registry ch).entries ∧ ch ≠ o) := by
      refine endChannel_induct (P := fun v => v = w ∨ (v.isConnected s = true → w.isConnected s = true ∧
          (s, Handle.own s) ∈ (v.registry ch).entries ∧ ch ≠ o))
        (fun v => v.isConnected s = true → w.isConnected s = true ∧ (s, Handle.own s) ∈ (v.registry ch).entries)
        (.inl rfl) (fun _ hs => ?_) (fun u id a e hu _ hm hs => ?_) (fun u e hu hs => hu hs)
        fun u hu _ hids => .inr fun hs => ?_
      · exact ⟨hs, by rw [registry_markEnded]; exact (h hs).2⟩
      · obtain ⟨hw, hlist⟩ := hu (isConnected_of_closeHandle hs).1
        exact ⟨hw, mem_registry_round hs hm hlist⟩
      · obtain ⟨hw, hlist⟩ := hu hs
        refine ⟨hw, hlist, ?_⟩
        rintro rfl
        have hid := Registry.mem_ids.2 ⟨_, hlist⟩
        rw [hids] at hid
        cases hid
    refine hend.resolve_left fun he => ?_
    have hdead := channelAlive_endChannel w o o
    rw [he, ha, bne_self_eq_false] at hdead
    cases hdead
  · have hsame : w.endChannel o = w := by
      unfold World.endChannel
      split
      · rfl
      · rename_i c hc
        rw [if_neg]
        intro hal
        exact ha (by rw [channelAlive, hc, Option.any_some, hal])
    rw [hsame]
    intro hs
    obtain ⟨hal, hm⟩ := h hs
    exact ⟨hs, hm, fun he => ha (he ▸ hal)⟩

/-- Whatever happens but by hand keeps the tie. -/
theorem act (h : Tied w ch s) (hs : (w.subscription? s).isSome) (ha : Act .orderly w v) : Tied v ch s := by
  cases ha with
  | relog log => exact h
  | step hstep =>
    cases hstep with
    | note e => exact h
    | close k => exact h.closeHandle (.own k)
    | deny f => exact h
    | markDead c => exact h
    | endChannel o => exact h.endChannel o
  | create name layout =>
    refine h.of_mem (fun hc => ?_) (fun hal => (channelAlive_create ..).2 (.inl hal)) fun _ hm => ?_
    · rwa [isConnected, subscription?_create] at hc
    · rwa [registry_create]
  | subscribe _ _ _ hin hsub =>
    obtain ⟨p, slot, g, g', hsub⟩ := subscribed_of_subscribe? hin hsub
    obtain ⟨sub, hsome⟩ := Option.isSome_iff_exists.1 hs
    -- The subscription was known before, so it is not the new one.
    have hne : s ≠ w.subscriptions.length + 1 := by
      have hle := le_length_of_subscription? hsome
      omega
    refine h.of_mem (fun hc => ?_) (fun hal => (hsub.channelAlive ch).trans hal) fun _ hm => ?_
    · rwa [isConnected, hsub.subscription?, hsub.number, if_neg hne] at hc
    · rw [hsub.registry]
      split
      · exact Registry.mem_insert.2 (.inl hm)
      · exact hm
  | register ht => exact ht.elim
  | deregister ht => exact ht.elim
  | adopt g _ => exact h
  | disconnectByHand _ o place =>
    have hp := sameParts_disconnectByHand w o place
    refine h.of_mem (fun hc => ?_) (fun hal => (hp.channelAlive ch).trans hal) fun _ hm => ?_
    · rwa [isConnected, hp.subscription?] at hc
    · rwa [registry_disconnectByHand]

theorem acts (h : Tied w ch s) (hs : (w.subscription? s).isSome) (ha : Acts .orderly w v) : Tied v ch s := by
  refine (ha.induct (P := fun v => Tied v ch s ∧ (v.subscription? s).isSome) (fun u u' hu hact => ?_) ⟨h, hs⟩).1
  refine ⟨hu.1.act hu.2 hact, ?_⟩
  obtain ⟨sub, hsub⟩ := Option.isSome_iff_exists.1 hu.2
  obtain ⟨sub', hsub', -⟩ := hact.rewires.extends.subscription? s sub hsub
  rw [hsub']
  rfl

end Tied

end Conduit.World
