/-
Symmetric registration. As long as nobody changes the registries of channels by hand, the registry
of a channel lists exactly the connected subscriptions that end there. The difficulty is in between:
a channel that has ended does not hear of a closing any more, so what closes a subscription has to
have taken it out of such a registry before.
-/
import Conduit.Proofs.Wiring.Sound

namespace Conduit.World

/-- `s` is a connected subscription and `ch` one of its ends. -/
def Joins (w : World) (s : Nat) (ch : ChannelId) : Prop :=
  ∃ sub, w.subscription? s = some sub ∧ sub.token.isSome = true ∧ (ch = sub.output ∨ ch = sub.input)

/-- Registries list the connected subscriptions at their channel, by themselves. -/
structure Symmetric (w : World) : Prop where
  listed : ∀ ch s, s ∈ (w.registry ch).ids ↔ w.Joins s ch
  own : ∀ ch e, e ∈ (w.registry ch).entries → e.2 = .own e.1

theorem Joins.congr {v w : World} {s : Nat} {ch : ChannelId} (h : v.subscription? s = w.subscription? s) :
    v.Joins s ch ↔ w.Joins s ch := by
  unfold Joins
  rw [h]

theorem joins_close {w : World} {s k : Nat} {ch : ChannelId} :
    (w.close s).Joins k ch ↔ w.Joins k ch ∧ k ≠ s := by
  unfold Joins
  rw [subscription?_close]
  by_cases hk : k = s
  · subst hk
    constructor
    · rintro ⟨sub, hsub, ht, -⟩
      rw [if_pos rfl, Option.map_eq_some_iff] at hsub
      obtain ⟨sub', -, rfl⟩ := hsub
      cases ht
    · rintro ⟨-, hne⟩
      exact absurd rfl hne
  · simp [hk]

namespace Symmetric

variable {v w : World}

theorem congr (h : Symmetric w) (hsub : ∀ s, v.subscription? s = w.subscription? s)
    (hreg : ∀ ch, v.registry ch = w.registry ch) : Symmetric v :=
  ⟨fun ch s => by rw [hreg, h.listed, Joins.congr (hsub s)], fun ch e he => h.own ch e (hreg ch ▸ he)⟩

/-- Closing a subscription makes registration symmetric when it is so for all others, and this one
is listed by living ends of it at most. -/
theorem close_of {o i : ChannelId} {s p : Nat} (hs : w.subscription? s = some ⟨o, i, some p⟩)
    (others : ∀ ch k, k ≠ s → (k ∈ (w.registry ch).ids ↔ w.Joins k ch))
    (own : ∀ ch e, e ∈ (w.registry ch).entries → e.2 = .own e.1)
    (living : ∀ ch, s ∈ (w.registry ch).ids → (ch = o ∨ ch = i) ∧ w.channelAlive ch = true) :
    Symmetric (w.close s) := by
  refine ⟨fun ch k => ?_, fun ch e he => own ch e ((Shrinks.close w s).registry ch e he)⟩
  rw [joins_close, registry_close hs]
  -- Neither end lists the number after closing, and all others are listed as before.
  by_cases hk : k = s
  · subst hk
    have : k ∉ ((if (ch = o ∨ ch = i) ∧ w.channelAlive ch = true then (w.registry ch).erase k
        else w.registry ch) : Registry Handle).ids := by
      split
      · exact fun hm => (Registry.mem_ids_erase.1 hm).2 rfl
      · rename_i hnot
        exact fun hm => hnot (living ch hm)
    exact ⟨fun hm => absurd hm this, fun h => absurd rfl h.2⟩
  · rw [← others ch k hk]
    split
    · rw [Registry.mem_ids_erase]
    · exact ⟨fun h => ⟨h, hk⟩, fun h => h.1⟩

/-- Only a living end lists a connected subscription, or one that is being drained. -/
theorem alive_of_mem {dying : Option ChannelId} (hw : Sound dying w) {ch : ChannelId} {s : Nat}
    (hne : dying ≠ some ch) (hm : s ∈ (w.registry ch).ids) : w.channelAlive ch = true := by
  by_contra ha
  rw [Bool.not_eq_true] at ha
  rw [hw.drained ch hne ha] at hm
  cases hm

theorem close (h : Symmetric w) (hw : Sound none w) (s : Nat) : Symmetric (w.close s) := by
  cases hs : w.isConnected s with
  | false => rwa [close_of_not_isConnected hs]
  | true =>
    obtain ⟨o, i, p, hs⟩ := isConnected_iff.1 hs
    refine close_of hs (fun ch k _ => h.listed ch k) h.own fun ch hm => ?_
    obtain ⟨sub, hsub, -, hend⟩ := (h.listed ch s).1 hm
    rw [hs] at hsub
    cases hsub
    exact ⟨hend, alive_of_mem hw (by simp) hm⟩

/-- A round of a drain takes the entry out of the ended registry before the subscription is closed. -/
theorem round {ch : ChannelId} {id : Nat} {a : Handle} (e : Entry) (h : Symmetric w) (hw : Sound (some ch) w)
    (hm : (id, a) ∈ (w.registry ch).entries) : Symmetric (((w.deregister ch id).note e).closeHandle a) := by
  obtain rfl : a = .own id := h.own ch _ hm
  obtain ⟨⟨o, i, t⟩, hsub, ht, -⟩ := (h.listed ch id).1 (Registry.mem_ids.2 ⟨_, hm⟩)
  obtain ⟨p, rfl⟩ := Option.isSome_iff_exists.1 ht
  have hreg : ∀ c, ((w.deregister ch id).note e).registry c =
      if c = ch then (w.registry c).erase id else w.registry c := fun c => registry_deregister w ch c id
  -- The ended channel has lost the entry by now, so only living ends can list the number still.
  refine close_of (o := o) (i := i) (p := p) hsub (fun c k hk => ?_) (fun c x hx => ?_) fun c hc => ?_
  · have hj : ((w.deregister ch id).note e).Joins k c ↔ w.Joins k c := Joins.congr rfl
    rw [hreg, hj, ← h.listed c k]
    split
    · rw [Registry.mem_ids_erase]
      exact ⟨fun h => h.1, fun h => ⟨h, hk⟩⟩
    · rfl
  · exact h.own c x ((Shrinks.deregister w ch id).registry c x hx)
  · rw [hreg] at hc
    split at hc
    · exact absurd rfl (Registry.mem_ids_erase.1 hc).2
    · rename_i hne
      obtain ⟨sub, hsub', -, hend⟩ := (h.listed c id).1 hc
      rw [hsub] at hsub'
      cases hsub'
      have : w.channelAlive c = true := alive_of_mem hw (fun he => hne (Option.some.inj he).symm) hc
      exact ⟨hend, by rwa [channelAlive_note, (sameParts_deregister ..).channelAlive]⟩

theorem endChannel (h : Symmetric w) (hw : Sound none w) (ch : ChannelId) : Symmetric (w.endChannel ch) :=
  endChannel_induct (fun v => Symmetric v ∧ Sound (some ch) v) h
    (fun _ => ⟨h.congr (fun _ => rfl) fun _ => registry_markEnded .., hw.markEnded⟩)
    (fun v id a e hv _ hm => ⟨hv.1.round e hv.2 hm,
      hv.2.shrink (((Shrinks.deregister v ch id).trans (.note _ e)).trans (.closeHandle _ a))⟩)
    (fun v e hv => ⟨hv.1.congr (fun _ => rfl) fun _ => rfl, hv.2.shrink (.note v e)⟩)
    fun _ hv _ _ => hv.1

theorem step {held : Ref → Bool} (h : Symmetric w) (hw : Sound none w) (hs : Step held w v) : Symmetric v := by
  cases hs with
  | note e => exact h.congr (fun _ => rfl) fun _ => rfl
  | close s => exact h.close hw s
  | deny f => exact h.congr (fun _ => rfl) fun _ => rfl
  | markDead c => exact h.congr (fun _ => rfl) fun _ => rfl
  | endChannel ch => exact h.endChannel hw ch

theorem subscribe (h : Symmetric w) (hw : Sound none w) {o i : ChannelId} {n : Nat} (hin : w.signal? i = none)
    (hs : w.subscribe? o i = some (n, v)) : Symmetric v := by
  obtain ⟨p, slot, g, g', hs⟩ := subscribed_of_subscribe? hin hs
  -- Numbers in registries have been given out, and `n` is new.
  have hfresh : ∀ ch, n ∉ (w.registry ch).ids := fun ch hm => by
    have := hw.id_le hm
    have := hs.number
    omega
  refine ⟨fun ch k => ?_, fun ch e he => ?_⟩
  · unfold Joins
    rw [hs.registry, hs.subscription?]
    by_cases hk : k = n
    · subst hk
      rw [if_pos rfl]
      constructor
      · intro hm
        split at hm
        · rename_i hend
          exact ⟨_, rfl, rfl, hend⟩
        · exact absurd hm (hfresh ch)
      · rintro ⟨sub, hsub, -, hend⟩
        cases hsub
        rw [if_pos hend]
        exact Registry.mem_ids_insert.2 (.inl rfl)
    · rw [if_neg hk]
      refine Iff.trans ?_ (h.listed ch k)
      split
      · rw [Registry.mem_ids_insert]
        exact ⟨fun h => h.resolve_left hk, .inr⟩
      · rfl
  · rw [hs.registry] at he
    split at he
    · rcases Registry.mem_insert.1 he with he | ⟨rfl, -⟩
      · exact h.own ch e he
      · rfl
    · exact h.own ch e he

/-- Every history that leaves the registries of channels to the wiring keeps registration
symmetric. -/
theorem act (h : Symmetric w) (hw : Sound none w) (ha : Act .orderly w v) : Symmetric v := by
  cases ha with
  | relog log => exact h.congr (fun _ => rfl) fun _ => rfl
  | step hs => exact h.step hw hs
  | create name layout => exact h.congr (fun s => by simp) fun ch => by simp
  | subscribe _ _ _ hin hs => exact h.subscribe hw hin hs
  | register ht => exact ht.elim
  | deregister ht => exact ht.elim
  | adopt g _ => exact h.congr (fun _ => rfl) fun _ => rfl
  | disconnectByHand _ o place =>
    exact h.congr (fun s => (sameParts_disconnectByHand ..).subscription? s) fun ch => by simp

/-- Being connected and being listed by a living end are the same. -/
theorem isConnected_iff_listed (h : Symmetric w) (hw : Sound none w) {s : Nat} {sub : Subscription}
    (hs : w.subscription? s = some sub) {ch : ChannelId} (hend : ch = sub.output ∨ ch = sub.input) :
    w.isConnected s = true ↔ w.channelAlive ch = true ∧ (w.registry ch).has s = true := by
  have hconn : w.isConnected s = true ↔ w.Joins s ch := by
    unfold isConnected Joins
    rw [hs]
    constructor
    · exact fun ht => ⟨sub, rfl, by simpa using ht, hend⟩
    · rintro ⟨sub', hsub', ht, -⟩
      cases hsub'
      simpa using ht
  rw [hconn, ← h.listed, Registry.has_iff]
  exact ⟨fun hm => ⟨alive_of_mem hw (by simp) hm, hm⟩, fun hm => hm.2⟩

end Symmetric

end Conduit.World
