/-
The account of a subscription. The ledger tells the whole story of each subscription: it is
connected once; at its closing an output that has not ended is told to disconnect the place, once,
and the token is destroyed, once; after that the ledger never speaks of it again. Whether the output
had ended is read off the ledger too, as it stood when the subscription was closed.
-/
import Conduit.Proofs.Wiring.Places

namespace Conduit

/-- The subscription that a deed is about. -/
def Deed.subscription? : Deed → Option SubscriptionId
  | .connected s _ _ => some s
  | .disconnected s _ => some s
  | .released s => some s
  | .removed _ _ => none
  | .ended _ => none

/-- What a ledger tells of a subscription. -/
def story (s : Nat) (ledger : List Deed) : List Deed := ledger.filter fun d => d.subscription? == some s

/-- What the closing of a subscription adds to the ledger `past`: an output that has not ended
disconnects the place, and finds it unless it was taken out by hand; the token is destroyed. -/
def farewell (s : Nat) (o : ChannelId) (p : Nat) (past : List Deed) : List Deed :=
  if .ended o ∈ past then [.released s] else [.released s, .disconnected s (decide (.removed o p ∉ past))]

/-- The ledger tells of a connected subscription only that it was connected, and of a closed one
that it was connected and then closed. -/
def Account (ledger : List Deed) (s : Nat) (sub : Subscription) : Prop :=
  match sub.token with
  | some p => story s ledger = [.connected s sub.output p]
  | none => ∃ p after past, ledger = after ++ (farewell s sub.output p past ++ past) ∧
      story s past = [.connected s sub.output p] ∧ story s after = []

section Story

variable {s : Nat} {d : Deed} {a b : List Deed} {sub : Subscription}

@[simp] theorem story_append : story s (a ++ b) = story s a ++ story s b := List.filter_append ..

theorem story_eq_nil_iff : story s a = [] ↔ ∀ d ∈ a, d.subscription? ≠ some s := by
  simp [story, List.filter_eq_nil_iff]

theorem story_cons_of_ne (h : d.subscription? ≠ some s) : story s (d :: a) = story s a :=
  List.filter_cons_of_neg (by simpa using h)

theorem story_cons_of_eq (h : d.subscription? = some s) : story s (d :: a) = d :: story s a :=
  List.filter_cons_of_pos (by simpa using h)

/-- Deeds that are not about a subscription leave its account as it is. -/
theorem Account.append (h : Account b s sub) (ha : story s a = []) : Account (a ++ b) s sub := by
  obtain ⟨o, i, t⟩ := sub
  cases t with
  | some p =>
    show story s (a ++ b) = _
    rw [story_append, ha, List.nil_append]
    exact h
  | none =>
    obtain ⟨p, after, past, rfl, hpast, hafter⟩ := h
    exact ⟨p, a ++ after, past, by rw [List.append_assoc], hpast, by rw [story_append, ha, hafter]; rfl⟩

end Story

namespace World

/-- The ledger knows which channels have ended, and has an account of every subscription. -/
structure Accounted (w : World) : Prop where
  ended : ∀ ch, .ended ch ∈ w.ledger ↔ (w.slotAt? ch).isSome ∧ w.channelAlive ch = false
  unknown : ∀ s : Nat, w.subscription? s = none → story s w.ledger = []
  account : ∀ (s : Nat) sub, w.subscription? s = some sub → Account w.ledger s sub

namespace Accounted

variable {v w : World}

theorem same (h : Accounted w) (hs : SameLinks v w) : Accounted v :=
  ⟨fun ch => by rw [hs.ledger, hs.slotAt?, hs.channelAlive, h.ended],
    fun s hsub => by rw [hs.ledger]; exact h.unknown s (hs.subscription? s ▸ hsub),
    fun s sub hsub => by rw [hs.ledger]; exact h.account s sub (hs.subscription? s ▸ hsub)⟩

theorem create (h : Accounted w) (name : String) (layout : Layout) : Accounted (w.create name layout).2 := by
  refine ⟨fun ch => ?_, fun s hsub => ?_, fun s sub hsub => ?_⟩
  · rw [ledger_create, h.ended]
    constructor
    · rintro ⟨hslot, ha⟩
      obtain ⟨x, hx⟩ := Option.isSome_iff_exists.1 hslot
      refine ⟨by rw [slotAt?_create_of_some _ _ _ _ hx]; rfl, ?_⟩
      rw [← Bool.not_eq_true, channelAlive_create, hx, ha]
      simp
    · rintro ⟨hslot, ha⟩
      rw [← Bool.not_eq_true, channelAlive_create, not_or, Bool.not_eq_true] at ha
      refine ⟨?_, ha.1⟩
      by_contra hnone
      exact ha.2 ⟨by simpa using hnone, hslot⟩
  · rw [ledger_create]
    exact h.unknown s (by simpa using hsub)
  · rw [ledger_create]
    exact h.account s sub (by simpa using hsub)

theorem subscribe (h : Accounted w) {o i : ChannelId} {n p : Nat} {slot : Slot} {g g' : Signal Slot}
    (hs : Subscribed w v o i n p slot g g') : Accounted v := by
  -- The number is a new one, so nothing has been told of it, and of the others nothing is told now.
  have hnone : w.subscription? n = none := by
    rw [Option.eq_none_iff_forall_ne_some]
    intro sub hsub
    have := le_length_of_subscription? hsub
    have := hs.number
    omega
  have hother : ∀ s : Nat, s ≠ n → story s [.connected n o p] = [] := fun s hsn => by
    have hne : (Deed.connected n o p).subscription? ≠ some s := fun he => hsn (Option.some.inj he).symm
    rw [story_cons_of_ne hne]
    rfl
  refine ⟨fun ch => ?_, fun s hsub => ?_, fun s sub hsub => ?_⟩
  · rw [hs.ledger, hs.slotAt?, hs.channelAlive, ← h.ended]
    simp
  · rw [hs.subscription?] at hsub
    split at hsub
    · cases hsub
    · rename_i hsn
      rw [hs.ledger, ← List.singleton_append, story_append, hother s hsn, h.unknown s hsub]
      rfl
  · rw [hs.subscription?] at hsub
    rw [hs.ledger]
    split at hsub
    · rename_i hsn
      subst hsn
      cases hsub
      show story s (.connected s o p :: w.ledger) = _
      rw [story_cons_of_eq rfl, h.unknown s hnone]
    · rename_i hsn
      exact (h.account s sub hsub).append (hother s hsn)

/-- Closing a subscription adds its farewell to the ledger. -/
theorem ledger_close (h : Accounted w) (hp : Placed w) {s p : Nat} {o i : ChannelId}
    (hs : w.subscription? s = some ⟨o, i, some p⟩) : (w.close s).ledger = farewell s o p w.ledger ++ w.ledger := by
  have hslot : (w.slotAt? o).isSome := by
    obtain ⟨g, hg, -⟩ := hp.given o p (.inl ⟨s, (hp.token s o i p hs).1⟩)
    obtain ⟨x, hx, -⟩ := Option.bind_eq_some_iff.1 hg
    rw [slotAt?, hx]
    rfl
  rw [World.ledger_close hs, farewell]
  cases ha : w.channelAlive o with
  | false => rw [if_neg (by simp), if_pos ((h.ended o).2 ⟨hslot, ha⟩)]; rfl
  | true =>
    have hfound : w.hasPlace o p = decide (.removed o p ∉ w.ledger) := by
      rw [Bool.eq_iff_iff, hp.hasPlace_iff hs ha, decide_eq_true_iff]
    rw [if_pos rfl, if_neg fun he => by simp [((h.ended o).1 he).2] at ha, hfound]
    rfl

theorem close (h : Accounted w) (hp : Placed w) {s p : Nat} {o i : ChannelId}
    (hs : w.subscription? s = some ⟨o, i, some p⟩) : Accounted (w.close s) := by
  have hl := h.ledger_close hp hs
  -- A farewell is about one subscription.
  have hother : ∀ t : Nat, t ≠ s → story t (farewell s o p w.ledger) = [] := fun t hts => by
    have hst : some s ≠ some t := fun he => hts (Option.some.inj he).symm
    rw [story_eq_nil_iff]
    intro d hd
    unfold farewell at hd
    split at hd <;> simp only [List.mem_cons, List.not_mem_nil, or_false] at hd
    · subst hd; exact hst
    · rcases hd with rfl | rfl <;> exact hst
  refine ⟨fun ch => ?_, fun t ht => ?_, fun t sub ht => ?_⟩
  · rw [hl, slotAt?_close, channelAlive_close, ← h.ended, farewell]
    split <;> simp
  · rw [subscription?_close] at ht
    split at ht
    · rename_i hts
      rw [hts, hs] at ht
      cases ht
    · rename_i hts
      rw [hl, story_append, hother t hts, h.unknown t ht]
      rfl
  · rw [subscription?_close] at ht
    rw [hl]
    split at ht
    · rename_i hts
      rw [hts, hs] at ht
      cases ht
      rw [hts]
      exact ⟨p, [], w.ledger, rfl, h.account s _ hs, rfl⟩
    · rename_i hts
      exact (h.account t sub ht).append (hother t hts)

theorem disconnectByHand (h : Accounted w) (o : ChannelId) (place : Nat) :
    Accounted (w.disconnectByHand o place) := by
  have hp := sameParts_disconnectByHand w o place
  obtain ⟨new, hl, hnew⟩ : ∃ new, (w.disconnectByHand o place).ledger = new ++ w.ledger ∧
      ∀ d ∈ new, d = .removed o place := by
    rw [ledger_disconnectByHand]
    split
    · exact ⟨[_], rfl, by simp⟩
    · exact ⟨[], rfl, by simp⟩
  -- What is removed by hand belongs to no subscription, and is in the story of none.
  have hstory : ∀ s : Nat, story s new = [] := fun s => by
    rw [story_eq_nil_iff]
    intro d hd
    rw [hnew d hd]
    exact nofun
  refine ⟨fun ch => ?_, fun s hs => ?_, fun s sub hs => ?_⟩
  · have hend : .ended ch ∉ new := fun hm => by cases hnew _ hm
    rw [hl, hp.slotAt?, hp.channelAlive, ← h.ended, List.mem_append, or_iff_right hend]
  · rw [hl, story_append, hstory, h.unknown s (hp.subscription? s ▸ hs)]
    rfl
  · rw [hl]
    exact (h.account s sub (hp.subscription? s ▸ hs)).append (hstory s)

theorem markEnded (h : Accounted w) {ch : ChannelId} (ha : w.channelAlive ch = true) :
    Accounted (w.markEnded ch) := by
  have hslot : (w.slotAt? ch).isSome := by
    obtain ⟨x, hx, -⟩ := (Option.any_eq_true _ _).1 ha
    rw [slotAt?, hx]
    rfl
  refine ⟨fun c => ?_, fun s hs => ?_, fun s sub hs => ?_⟩
  · rw [ledger_markEnded, slotAt?_markEnded, channelAlive_markEnded, List.mem_cons, h.ended, Deed.ended.injEq]
    by_cases hc : c = ch
    · subst hc; simp [hslot]
    · simp [hc]
  · have hne : (Deed.ended ch).subscription? ≠ some s := by simp [Deed.subscription?]
    rw [ledger_markEnded, story_cons_of_ne hne]
    exact h.unknown s hs
  · exact (h.account s sub hs).append (a := [.ended ch]) rfl

/-- Every elementary change keeps the accounts. -/
theorem rewire (h : Accounted w) (hp : Placed w) {may : License} (hr : Rewire may w v) : Accounted v := by
  cases hr with
  | same hs => exact h.same hs
  | create name layout => exact h.create name layout
  | subscribe _ _ hs => exact h.subscribe hs
  | close hs => exact h.close hp hs
  | disconnectByHand _ o place _ => exact h.disconnectByHand o place
  | markEnded ch ha => exact h.markEnded ha

/-- Where nobody takes places out by hand, subscriptions find theirs. -/
theorem found (h : Accounted w) (hno : ∀ o p, .removed o p ∉ w.ledger) (s : Nat) :
    .disconnected s false ∉ w.ledger := by
  intro hm
  have hstory : .disconnected s false ∈ story s w.ledger := List.mem_filter.2 ⟨hm, by simp [Deed.subscription?]⟩
  rcases hs : w.subscription? s with _ | ⟨o, i, t⟩
  · rw [h.unknown s hs] at hstory
    cases hstory
  · have hacc := h.account s _ hs
    cases t with
    | some p =>
      have hopen : story s w.ledger = [.connected s o p] := hacc
      rw [hopen] at hstory
      simp at hstory
    | none =>
      obtain ⟨p, after, past, hl, hpast, hafter⟩ := hacc
      -- Such an entry can stem from the farewell only, and that finds what was not taken out.
      have hpresent : .removed o p ∉ past := fun hr => hno o p (by rw [hl]; simp [hr])
      rw [hl, story_append, hafter, story_append, hpast, List.nil_append, List.mem_append] at hstory
      rcases hstory with hf | hf
      · have hf := List.mem_of_mem_filter hf
        unfold farewell at hf
        split at hf <;> simp [hpresent] at hf
      · simp at hf

theorem empty : Accounted {} :=
  ⟨fun ch => by simp [slotAt?], fun s _ => rfl, fun s sub hs => by simp [World.subscription?] at hs⟩

end Accounted

end World

end Conduit
