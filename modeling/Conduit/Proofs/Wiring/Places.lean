/-
The places of a signal. Two things are kept apart: the list of places in an output's signal, with
numbers of its own, and the subscriptions, which know the number of their place. The signal of a
living output has exactly the places of the subscriptions connected there, in the order of the
subscriptions, but for places that somebody who is no subscription took out (`Placed.places`). A
number is used for a place once, so a place that is gone never comes back as another one.
-/
import Conduit.Proofs.Wiring.Rewire

namespace Conduit.World

/-- The place of a subscription at an output: the one that it is connected at there, unless
somebody else has taken it out. -/
def placeAt? (w : World) (o : ChannelId) (s : Nat) : Option (Place Slot) :=
  match w.subscription? s with
  | some ⟨out, i, some p⟩ =>
    if out = o ∧ .removed o p ∉ w.ledger then (w.slotAt? i).map fun slot => ⟨p, slot⟩ else none
  | _ => none

/-- The places of all subscriptions at an output, in the order of the subscriptions. -/
def placesAt (w : World) (o : ChannelId) : List (Place Slot) :=
  (List.range (w.subscriptions.length + 1)).filterMap (w.placeAt? o)

section

variable {v w : World} {o : ChannelId} {s : Nat} {q : Place Slot}

theorem placeAt?_eq_some_iff : w.placeAt? o s = some q ↔ ∃ i, w.subscription? s = some ⟨o, i, some q.id⟩ ∧
    .removed o q.id ∉ w.ledger ∧ w.slotAt? i = some q.slot := by
  unfold placeAt?
  split
  · rename_i out i p hs
    rw [hs]
    constructor
    · intro h
      split at h
      · rename_i hc
        obtain ⟨slot, hslot, rfl⟩ := Option.map_eq_some_iff.1 h
        obtain ⟨rfl, hc⟩ := hc
        exact ⟨i, rfl, hc, hslot⟩
      · cases h
    · rintro ⟨j, hj, hr, hslot⟩
      cases hj
      rw [if_pos ⟨rfl, hr⟩, hslot, Option.map_some]
  · rename_i hs
    constructor
    · intro h; cases h
    · rintro ⟨i, hi, -⟩
      exact (hs o i q.id hi).elim

/-- Whatever leaves a subscription, its channel and the removals alone leaves its place alone. -/
theorem placeAt?_congr (hs : v.subscription? s = w.subscription? s)
    (hl : ∀ p, .removed o p ∈ v.ledger ↔ .removed o p ∈ w.ledger)
    (hslot : ∀ i p, w.subscription? s = some ⟨o, i, some p⟩ → v.slotAt? i = w.slotAt? i) :
    v.placeAt? o s = w.placeAt? o s := by
  refine Option.ext fun q => ?_
  rw [placeAt?_eq_some_iff, placeAt?_eq_some_iff, hs, hl]
  constructor
  · rintro ⟨i, hi, hr, hq⟩
    exact ⟨i, hi, hr, hslot i _ hi ▸ hq⟩
  · rintro ⟨i, hi, hr, hq⟩
    exact ⟨i, hi, hr, (hslot i _ hi).symm ▸ hq⟩

theorem filterMap_snoc {α β : Type} (f : α → Option β) (l : List α) (a : α) :
    (l ++ [a]).filterMap f = l.filterMap f ++ (f a).toList := by
  rw [List.filterMap_append]
  cases h : f a <;> simp [h]

/-- A connected subscription has a place at its own output only. -/
theorem placeAt?_of_ne {out i : ChannelId} {p : Nat} (hs : w.subscription? s = some ⟨out, i, some p⟩) (ho : o ≠ out) :
    w.placeAt? o s = none := by
  rw [Option.eq_none_iff_forall_ne_some]
  intro q hq
  obtain ⟨j, hj, -⟩ := placeAt?_eq_some_iff.1 hq
  rw [hs] at hj
  cases hj
  exact ho rfl

theorem placesAt_congr (hl : v.subscriptions.length = w.subscriptions.length)
    (hp : ∀ s, v.placeAt? o s = w.placeAt? o s) : v.placesAt o = w.placesAt o := by
  rw [placesAt, placesAt, hl, funext hp]

/-- When each subscription keeps its place or loses it by one rule, the list of places is filtered. -/
theorem placesAt_filter {f : Place Slot → Bool} (hl : v.subscriptions.length = w.subscriptions.length)
    (hp : ∀ s, v.placeAt? o s = (w.placeAt? o s).filter f) : v.placesAt o = (w.placesAt o).filter f := by
  rw [placesAt, placesAt, hl, funext hp, List.filter_filterMap]

theorem mem_placesAt : q ∈ w.placesAt o ↔ ∃ s, w.placeAt? o s = some q := by
  rw [placesAt, List.mem_filterMap]
  constructor
  · rintro ⟨s, -, h⟩
    exact ⟨s, h⟩
  · rintro ⟨s, h⟩
    obtain ⟨i, hs, -⟩ := placeAt?_eq_some_iff.1 h
    exact ⟨s, List.mem_range.2 (Nat.lt_succ_of_le (le_length_of_subscription? hs)), h⟩

end

/-! ## The invariant -/

/-- Signals are well formed, a place number is given out to one subscription at most, and the signal
of a living output lists the places of its connected subscriptions. -/
structure Placed (w : World) : Prop where
  tidy : ∀ o g, w.signal? o = some g → g.Tidy
  token : ∀ (s : Nat) o i p, w.subscription? s = some ⟨o, i, some p⟩ →
    .connected s o p ∈ w.ledger ∧ (w.slotAt? i).isSome
  given : ∀ o p, (∃ s, .connected s o p ∈ w.ledger) ∨ .removed o p ∈ w.ledger →
    ∃ g, w.signal? o = some g ∧ p < g.nextId
  apart : ∀ s t o p, .connected s o p ∈ w.ledger → .connected t o p ∈ w.ledger → s = t
  places : ∀ o g, w.channelAlive o = true → w.signal? o = some g → g.places = w.placesAt o

namespace Placed

variable {v w : World}

/-- Taking places out of signals leaves them well formed. -/
theorem tidy_of_without (h : Placed w) (hv : ∀ o g, v.signal? o = some g →
    w.signal? o = some g ∨ ∃ p, (w.signal? o).map (·.without p) = some g) (o : ChannelId) (g : Signal Slot)
    (hg : v.signal? o = some g) : g.Tidy := by
  rcases hv o g hg with hg | ⟨p, hg⟩
  · exact h.tidy o g hg
  · obtain ⟨g', hg', rfl⟩ := Option.map_eq_some_iff.1 hg
    exact (h.tidy o g' hg').without p

theorem same (h : Placed w) (hs : SameLinks v w) : Placed v where
  tidy o g hg := h.tidy o g (hs.signal? o ▸ hg)
  token s o i p hsub := by
    rw [hs.ledger, hs.slotAt?]
    exact h.token s o i p (hs.subscription? s ▸ hsub)
  given := by simpa only [hs.ledger, hs.signal?] using h.given
  apart := by simpa only [hs.ledger] using h.apart
  places o g ha hg := by
    rw [hs.channelAlive] at ha
    rw [hs.signal?] at hg
    rw [h.places o g ha hg]
    exact (placesAt_congr hs.length fun s =>
      placeAt?_congr (hs.subscription? s) (fun p => by rw [hs.ledger]) fun i _ _ => hs.slotAt? i).symm

theorem create (h : Placed w) (name : String) (layout : Layout) : Placed (w.create name layout).2 where
  tidy o g hg := by
    rcases signal?_create _ _ _ _ hg with hg | ⟨-, hnil⟩
    · exact h.tidy o g hg
    · exact Signal.tidy_of_places_nil hnil
  token s o i p hs := by
    rw [subscription?_create] at hs
    obtain ⟨hl, hi⟩ := h.token s o i p hs
    obtain ⟨x, hx⟩ := Option.isSome_iff_exists.1 hi
    rw [ledger_create, slotAt?_create_of_some _ _ _ _ hx]
    exact ⟨hl, rfl⟩
  given o p hm := by
    rw [ledger_create] at hm
    exact (Extends.create w name layout).given (h.given o p hm)
  apart := by simpa only [ledger_create] using h.apart
  places o g ha hg := by
    have hsame : (w.create name layout).2.placesAt o = w.placesAt o := by
      refine placesAt_congr (by simp) fun s => placeAt?_congr (by simp) (by simp) fun i p hs => ?_
      obtain ⟨x, hx⟩ := Option.isSome_iff_exists.1 (h.token s o i p hs).2
      rw [hx, slotAt?_create_of_some _ _ _ _ hx]
    rw [hsame]
    rcases signal?_create _ _ _ _ hg with hw | ⟨hnone, hnil⟩
    · obtain ⟨x, hx, -⟩ := Option.bind_eq_some_iff.1 hw
      have hslot : (w.slotAt? o).isSome := by simp [slotAt?, hx]
      exact h.places o g ((Extends.create w name layout).channelAlive o hslot ha) hw
    -- A new output has no signal in `w`, so no subscription has a place there.
    · rw [hnil, eq_comm, List.eq_nil_iff_forall_not_mem]
      intro q hq
      obtain ⟨s, hs⟩ := mem_placesAt.1 hq
      obtain ⟨i, hs, -⟩ := placeAt?_eq_some_iff.1 hs
      obtain ⟨g', hg', -⟩ := h.given o q.id (.inl ⟨s, (h.token s o i q.id hs).1⟩)
      obtain ⟨x, hx, -⟩ := Option.bind_eq_some_iff.1 hg'
      rw [slotAt?, hx] at hnone
      cases hnone

/-- The number of a place that is given out has not been given out before. -/
theorem not_given (h : Placed w) {o i : ChannelId} {n p : Nat} {slot : Slot} {g g' : Signal Slot}
    (hs : Subscribed w v o i n p slot g g') : (∀ t, .connected t o p ∉ w.ledger) ∧ .removed o p ∉ w.ledger := by
  obtain ⟨-, hp, -⟩ := Signal.places_of_connect? hs.connect
  have hno : ¬ ((∃ t, .connected t o p ∈ w.ledger) ∨ .removed o p ∈ w.ledger) := fun hm => by
    obtain ⟨k, hk, hlt⟩ := h.given o p hm
    rw [hs.output] at hk
    cases hk
    omega
  rw [not_or, not_exists] at hno
  exact hno

/-- A new subscription has its place behind those of the others. -/
theorem placesAt_subscribe (h : Placed w) {o i : ChannelId} {n p : Nat} {slot : Slot} {g g' : Signal Slot}
    (hs : Subscribed w v o i n p slot g g') (c : ChannelId) :
    v.placesAt c = if c = o then w.placesAt c ++ [⟨p, slot⟩] else w.placesAt c := by
  -- The subscriptions of before keep their places, and the new one comes last in the row.
  have hkept : ∀ t ∈ List.range n, v.placeAt? c t = w.placeAt? c t := fun t ht => by
    have htn : t ≠ n := Nat.ne_of_lt (List.mem_range.1 ht)
    exact placeAt?_congr (by rw [hs.subscription?, if_neg htn]) (by simp [hs.ledger]) fun j _ _ => hs.slotAt? j
  have hlist : v.placesAt c = w.placesAt c ++ (v.placeAt? c n).toList := by
    rw [placesAt, hs.length, List.range_succ, filterMap_snoc, List.filterMap_congr hkept, placesAt, ← hs.number]
  have hsub : v.subscription? n = some ⟨o, i, some p⟩ := by rw [hs.subscription?, if_pos rfl]
  rw [hlist]
  split
  · rename_i hco
    subst hco
    have hr : .removed c p ∉ v.ledger := by
      rw [hs.ledger, List.mem_cons, not_or]
      exact ⟨nofun, (h.not_given hs).2⟩
    have hnew : v.placeAt? c n = some ⟨p, slot⟩ :=
      placeAt?_eq_some_iff.2 ⟨i, hsub, hr, by rw [hs.slotAt?, hs.input]⟩
    rw [hnew]
    rfl
  · rename_i hco
    rw [placeAt?_of_ne hsub hco, Option.toList_none, List.append_nil]

theorem subscribe (h : Placed w) {o i : ChannelId} {n p : Nat} {slot : Slot} {g g' : Signal Slot}
    (hs : Subscribed w v o i n p slot g g') : Placed v where
  tidy c k hk := by
    rw [hs.signal?] at hk
    split at hk
    · cases hk
      exact Signal.tidy_of_connect? (h.tidy o g hs.output) hs.connect
    · exact h.tidy c k hk
  token t c j q hsub := by
    rw [hs.subscription?] at hsub
    rw [hs.ledger, hs.slotAt?]
    split at hsub
    · rename_i htn
      cases hsub
      exact ⟨htn ▸ List.mem_cons_self .., by rw [hs.input]; rfl⟩
    · obtain ⟨hl, hi⟩ := h.token t c j q hsub
      exact ⟨List.mem_cons_of_mem _ hl, hi⟩
  given c q hq := by
    rw [hs.ledger] at hq
    -- The place has been given before, or it is the new one.
    have hold : (c = o ∧ q = p) ∨ (∃ t, .connected t c q ∈ w.ledger) ∨ .removed c q ∈ w.ledger := by
      rcases hq with ⟨t, hq⟩ | hq
      · rcases List.mem_cons.1 hq with hq | hq
        · cases hq
          exact .inl ⟨rfl, rfl⟩
        · exact .inr (.inl ⟨t, hq⟩)
      · exact .inr (.inr ((List.mem_cons.1 hq).resolve_left nofun))
    rcases hold with ⟨rfl, rfl⟩ | hold
    · obtain ⟨-, hp, hnext⟩ := Signal.places_of_connect? hs.connect
      exact ⟨g', by rw [hs.signal?, if_pos rfl], by omega⟩
    · exact (Extends.subscribe hs).given (h.given c q hold)
  apart t u c q ht hu := by
    -- Places are given once, so the new one belongs to the new subscription alone.
    obtain ⟨hfresh, -⟩ := h.not_given hs
    rw [hs.ledger, List.mem_cons] at ht hu
    rcases ht with ht | ht <;> rcases hu with hu | hu
    · cases ht; cases hu; rfl
    · cases ht; exact absurd hu (hfresh u)
    · cases hu; exact absurd ht (hfresh t)
    · exact h.apart t u c q ht hu
  places c k ha hk := by
    rw [hs.channelAlive] at ha
    rw [hs.signal?] at hk
    rw [h.placesAt_subscribe hs]
    split at hk
    · rename_i hco
      subst hco
      cases hk
      rw [if_pos rfl, ← h.places c g ha hs.output]
      exact (Signal.places_of_connect? hs.connect).1
    · rename_i hco
      rw [if_neg hco]
      exact h.places c k ha hk

/-- Subscriptions that are connected at the same output have different places. -/
theorem eq_of_id (h : Placed w) {s t p : Nat} {o i : ChannelId} {q : Place Slot}
    (hs : w.subscription? s = some ⟨o, i, some p⟩) (hq : w.placeAt? o t = some q) (hid : q.id = p) : t = s := by
  obtain ⟨j, hj, -⟩ := placeAt?_eq_some_iff.1 hq
  obtain ⟨ht, -⟩ := h.token t o j q.id hj
  exact h.apart t s o p (hid ▸ ht) (h.token s o i p hs).1

/-- Closing takes the place of the subscription from its output, and that only. -/
theorem placesAt_close (h : Placed w) {s p : Nat} {o i : ChannelId} (hs : w.subscription? s = some ⟨o, i, some p⟩)
    (c : ChannelId) :
    (w.close s).placesAt c = if c = o then (w.placesAt c).filter (·.id != p) else w.placesAt c := by
  have hplace : ∀ t, (w.close s).placeAt? c t = if t = s then none else w.placeAt? c t := fun t => by
    by_cases hts : t = s
    · rw [if_pos hts, hts, Option.eq_none_iff_forall_ne_some]
      intro q hq
      obtain ⟨j, hj, -⟩ := placeAt?_eq_some_iff.1 hq
      rw [subscription?_close, if_pos rfl, hs] at hj
      cases hj
    · have hledger : ∀ q, .removed c q ∈ (w.close s).ledger ↔ .removed c q ∈ w.ledger := fun q => by
        rw [ledger_close hs]
        split <;> simp
      rw [if_neg hts]
      exact placeAt?_congr (by rw [subscription?_close, if_neg hts]) hledger fun j _ _ => by simp
  split
  · rename_i hco
    subst hco
    -- The number of the place tells the subscription, so to leave it out is to leave the place out.
    refine placesAt_filter (by simp) fun t => ?_
    rw [hplace]
    rcases hq : w.placeAt? c t with _ | q
    · split <;> rfl
    · split
      · rename_i hts
        obtain ⟨j, hj, -⟩ := placeAt?_eq_some_iff.1 hq
        rw [hts, hs] at hj
        cases hj
        exact (Option.filter_some_neg (by simp)).symm
      · rename_i hts
        have hqp : q.id ≠ p := fun hid => hts (h.eq_of_id hs hq hid)
        exact (Option.filter_some_pos (by simpa using hqp)).symm
  · rename_i hco
    refine placesAt_congr (by simp) fun t => ?_
    rw [hplace]
    split
    · rename_i hts
      rw [hts, placeAt?_of_ne hs hco]
    · rfl

theorem close (h : Placed w) {s p : Nat} {o i : ChannelId} (hs : w.subscription? s = some ⟨o, i, some p⟩) :
    Placed (w.close s) := by
  -- The account says when a place is given or taken out by hand, and closing does neither.
  have hconn : ∀ t c q, .connected t c q ∈ (w.close s).ledger ↔ .connected t c q ∈ w.ledger := fun t c q => by
    rw [ledger_close hs]
    split <;> simp
  have hrem : ∀ c q, .removed c q ∈ (w.close s).ledger ↔ .removed c q ∈ w.ledger := fun c q => by
    rw [ledger_close hs]
    split <;> simp
  exact
    { tidy := h.tidy_of_without fun c k hk => by
        rw [signal?_close hs] at hk
        split at hk
        · exact .inr ⟨p, hk⟩
        · exact .inl hk
      token := fun t c j q ht => by
        rw [subscription?_close] at ht
        rw [hconn, slotAt?_close]
        split at ht
        · rename_i hts
          rw [hts, hs] at ht
          cases ht
        · exact h.token t c j q ht
      given := fun c q hm => by
        simp only [hconn, hrem] at hm
        exact (Extends.close hs).given (h.given c q hm)
      apart := by simpa only [hconn] using h.apart
      places := fun c k ha hk => by
        rw [channelAlive_close] at ha
        rw [signal?_close hs] at hk
        rw [h.placesAt_close hs]
        by_cases hco : c = o
        · subst hco
          rw [if_pos ⟨rfl, ha⟩] at hk
          obtain ⟨k', hk', rfl⟩ := Option.map_eq_some_iff.1 hk
          rw [if_pos rfl, Signal.places_without (h.tidy c k' hk'), h.places c k' ha hk']
        · rw [if_neg fun hc => hco hc.1] at hk
          rw [if_neg hco]
          exact h.places c k ha hk }

/-- Taking a place out by hand takes that place from its output. -/
theorem placesAt_disconnectByHand {o : ChannelId} {place : Nat} (hp : w.hasPlace o place = true) (c : ChannelId) :
    (w.disconnectByHand o place).placesAt c =
      if c = o then (w.placesAt c).filter (·.id != place) else w.placesAt c := by
  have hparts := sameParts_disconnectByHand w o place
  have hledger : ∀ q, .removed c q ∈ (w.disconnectByHand o place).ledger ↔
      c = o ∧ q = place ∨ .removed c q ∈ w.ledger := fun q => by
    rw [ledger_disconnectByHand, if_pos hp, List.mem_cons, Deed.removed.injEq]
  split
  · rename_i hco
    refine placesAt_filter (by rw [hparts.subscriptions]) fun t => Option.ext fun q => ?_
    rw [placeAt?_eq_some_iff, Option.filter_eq_some_iff, placeAt?_eq_some_iff, hparts.subscription?, hledger, not_or]
    simp only [hparts.slotAt?, bne_iff_ne]
    constructor
    · rintro ⟨i, hi, ⟨hne, hr⟩, hslot⟩
      exact ⟨⟨i, hi, hr, hslot⟩, fun hq => hne ⟨hco, hq⟩⟩
    · rintro ⟨⟨i, hi, hr, hslot⟩, hne⟩
      exact ⟨i, hi, ⟨fun hq => hne hq.2, hr⟩, hslot⟩
  · rename_i hco
    exact placesAt_congr (by rw [hparts.subscriptions]) fun t =>
      placeAt?_congr (hparts.subscription? t) (fun q => by rw [hledger, or_iff_right fun hq => hco hq.1])
        fun i _ _ => hparts.slotAt? i

theorem disconnectByHand (h : Placed w) {o : ChannelId} {place : Nat} (hp : w.hasPlace o place = true) :
    Placed (w.disconnectByHand o place) := by
  have hparts := sameParts_disconnectByHand w o place
  have hledger : (w.disconnectByHand o place).ledger = .removed o place :: w.ledger := by
    rw [ledger_disconnectByHand, if_pos hp]
  exact
    { tidy := h.tidy_of_without fun c k hk => by
        rw [signal?_disconnectByHand] at hk
        split at hk
        · exact .inr ⟨place, hk⟩
        · exact .inl hk
      token := fun t c j q ht => by
        rw [hparts.subscription?] at ht
        rw [hledger, hparts.slotAt?]
        obtain ⟨hl, hi⟩ := h.token t c j q ht
        exact ⟨List.mem_cons_of_mem _ hl, hi⟩
      given := fun c q hq => by
        refine (Extends.disconnectByHand w o place).given ?_
        rw [hledger] at hq
        rcases hq with ⟨s, hq⟩ | hq
        · exact h.given c q (.inl ⟨s, (List.mem_cons.1 hq).resolve_left nofun⟩)
        · rcases List.mem_cons.1 hq with hq | hq
          · cases hq
            -- What is removed has been there, so its number is below the next one.
            obtain ⟨g, hg, hplace⟩ := (Option.any_eq_true _ _).1 hp
            obtain ⟨r, hr, hid⟩ := Signal.has_iff.1 hplace
            exact ⟨g, hg, hid ▸ (h.tidy o g hg).below r hr⟩
          · exact h.given c q (.inr hq)
      apart := by simpa [hledger] using h.apart
      places := fun c k ha hk => by
        rw [hparts.channelAlive] at ha
        rw [signal?_disconnectByHand] at hk
        rw [placesAt_disconnectByHand hp]
        split at hk
        · rename_i hco
          obtain ⟨k', hk', rfl⟩ := Option.map_eq_some_iff.1 hk
          rw [if_pos hco, Signal.places_without (h.tidy c k' hk'), h.places c k' ha hk']
        · rename_i hco
          rw [if_neg hco]
          exact h.places c k ha hk }

theorem markEnded (h : Placed w) (ch : ChannelId) : Placed (w.markEnded ch) where
  tidy o g hg := h.tidy o g (by simpa using hg)
  token s o i p hs := by
    obtain ⟨hl, hi⟩ := h.token s o i p hs
    exact ⟨List.mem_cons_of_mem _ hl, by simpa using hi⟩
  given := by simpa using h.given
  apart := by simpa using h.apart
  places o g ha hg := by
    rw [channelAlive_markEnded, Bool.and_eq_true] at ha
    rw [signal?_markEnded] at hg
    rw [h.places o g ha.1 hg, eq_comm]
    exact placesAt_congr rfl fun s => placeAt?_congr rfl (by simp) fun i _ _ => by simp

theorem rewire (h : Placed w) {may : License} (hr : Rewire may w v) : Placed v := by
  cases hr with
  | same hs => exact h.same hs
  | create name layout => exact h.create name layout
  | subscribe _ _ hs => exact h.subscribe hs
  | close hs => exact h.close hs
  | disconnectByHand _ o place hp => exact h.disconnectByHand hp
  | markEnded ch _ => exact h.markEnded ch

theorem empty : Placed {} :=
  ⟨fun o g hg => by simp [World.signal?] at hg, fun s o i p hs => by simp [World.subscription?] at hs,
    fun o p hm => by simp at hm, fun s t o p hs => by simp at hs, fun o g ha => by simp [World.channelAlive] at ha⟩

/-! ## What it says about single places -/

/-- A living output has the place of a connected subscription, unless it was taken out by hand. -/
theorem hasPlace_iff (h : Placed w) {s p : Nat} {o i : ChannelId} (hs : w.subscription? s = some ⟨o, i, some p⟩)
    (ha : w.channelAlive o = true) : w.hasPlace o p = true ↔ .removed o p ∉ w.ledger := by
  obtain ⟨hconn, hi⟩ := h.token s o i p hs
  obtain ⟨slot, hslot⟩ := Option.isSome_iff_exists.1 hi
  obtain ⟨g, hg, -⟩ := h.given o p (.inl ⟨s, hconn⟩)
  rw [hasPlace, hg, Option.any_some, Signal.has_iff, h.places o g ha hg]
  constructor
  · rintro ⟨q, hq, rfl⟩
    obtain ⟨t, ht⟩ := mem_placesAt.1 hq
    obtain ⟨-, -, hr, -⟩ := placeAt?_eq_some_iff.1 ht
    exact hr
  · intro hr
    exact ⟨⟨p, slot⟩, mem_placesAt.2 ⟨s, placeAt?_eq_some_iff.2 ⟨i, hs, hr, hslot⟩⟩, rfl⟩

/-- The place that a subscription had is in no signal of a living output once it is closed. -/
theorem not_hasPlace (h : Placed w) {s p : Nat} {o : ChannelId} (hconn : .connected s o p ∈ w.ledger)
    (hs : w.isConnected s = false) (ha : w.channelAlive o = true) : w.hasPlace o p = false := by
  obtain ⟨g, hg, -⟩ := h.given o p (.inl ⟨s, hconn⟩)
  rw [← Bool.not_eq_true, hasPlace, hg, Option.any_some, Signal.has_iff, h.places o g ha hg]
  rintro ⟨q, hq, rfl⟩
  obtain ⟨t, ht⟩ := mem_placesAt.1 hq
  obtain ⟨i, ht, -⟩ := placeAt?_eq_some_iff.1 ht
  obtain rfl := h.apart s t o q.id hconn (h.token t o i q.id ht).1
  rw [isConnected, ht] at hs
  cases hs

end Placed

end Conduit.World
