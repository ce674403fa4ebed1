/-
The death of a channel, as a whole (`Dies`). It counts as ended from the beginning; then its registry is
drained, and only then does its signal go. Of a subscription that it lists, the other ends that live
hear: an output disconnects the place, and both forget the number. An output that dies does not
disconnect anything in its own signal: of the subscriptions made on it only the tokens are destroyed.
-/
import Conduit.Proofs.Wiring.Falls
import Conduit.Proofs.Wiring.Rounds

namespace Conduit.World

/-- Where the subscription of a handle is connected: the output, and the number of the place. -/
def placeOf? (w : World) : Handle → Option (ChannelId × Nat)
  | .own s => (w.subscription? s).bind fun sub => sub.token.map (sub.output, ·)
  | .foreign _ => none

/-- Whether the registry of `ch` lists a subscription that is connected at this place of the output. -/
def leaving (w : World) (ch o : ChannelId) (p : Nat) : Bool :=
  (w.registry ch).handles.any fun h => w.placeOf? h == some (o, p)

/-- What the log tells last of a channel that has died, newest first: how many handles were closed, if
any, and then that the signal is gone, if that reports such things. -/
def epitaph (w : World) (ch : ChannelId) : List Entry :=
  (if w.counts ch then [.signalDead] else []) ++
    if (w.registry ch).size = 0 then []
    else ((w.channels[ch]?).map fun c => Entry.event (.channelDropped c.direction (w.registry ch).size)).toList

/-- `v` is `w` after the channel `ch` has died. -/
structure Dies (ch : ChannelId) (w v : World) : Prop where
  alive : w.channelAlive ch = true
  order : (w.registry ch).ids.Pairwise (· < ·)
  /-- All entries of the registry are closed, one in each round, and then the loop ends, however many rounds
  it may take; the signal goes after that. -/
  rounds : ∃ u, Rounds ch (w.markEnded ch) (w.registry ch).entries u ∧
    (∀ extra, drain ch ((w.registry ch).size + extra) (w.markEnded ch) 0 = (u, (w.registry ch).size)) ∧
    v = { u with log := w.epitaph ch ++ u.log }
  emptied : (v.registry ch).entries = []
  components : v.components = w.components
  slotAt? : ∀ o, v.slotAt? o = w.slotAt? o
  channelAlive : ∀ o, v.channelAlive o = (w.channelAlive o && o != ch)
  /-- What it lists is closed, and nothing else. -/
  subscription? : ∀ s : Nat, v.subscription? s =
    if .own s ∈ (w.registry ch).handles then (w.subscription? s).map fun sub => { sub with token := none }
    else w.subscription? s
  ledger : v.ledger =
    (w.registry ch).entries.reverse.flatMap (fun e => (w.markEnded ch).parting e.2) ++ .ended ch :: w.ledger
  /-- Living outputs lose the places of what is closed, and no signal else changes. -/
  signal? : ∀ o, v.signal? o = (w.signal? o).map fun g =>
    if v.channelAlive o then { g with places := g.places.filter fun q => !w.leaving ch o q.id } else g
  /-- Living channels forget what is closed and has an end there. -/
  registry : ∀ o, v.channelAlive o = true → (v.registry o).entries = (w.registry o).entries.filter fun e =>
    !((w.registry ch).handles.contains (.own e.1) && w.isConnected e.1 && w.joins e.1 o)
  /-- An output that lives disconnects the place and forgets the number; of one that does not, the channel
  itself too, only the token is destroyed. -/
  output : ∀ (s : Nat) o i p, .own s ∈ (w.registry ch).handles → w.subscription? s = some ⟨o, i, some p⟩ →
    if v.channelAlive o then
      (w.markEnded ch).parting (.own s) = [.released s, .disconnected s (w.hasPlace o p)] ∧
        v.hasPlace o p = false ∧ s ∉ (v.registry o).ids
    else (w.markEnded ch).parting (.own s) = [.released s] ∧ v.signal? o = w.signal? o
  /-- An input that lives forgets the number. -/
  input : ∀ (s : Nat) o i p, .own s ∈ (w.registry ch).handles → w.subscription? s = some ⟨o, i, some p⟩ →
    v.channelAlive i = true → s ∉ (v.registry i).ids

variable {w v : World} {ch : ChannelId}

/-! ## What becomes of subscriptions -/

/-- What a channel lists is closed when it ends, and nothing else. -/
theorem isConnected_endChannel_eq (hw : Sound none w) (ha : w.channelAlive ch = true) (s : Nat) :
    (w.endChannel ch).isConnected s = (w.isConnected s && !(w.registry ch).handles.contains (.own s)) := by
  cases hs : w.isConnected s with
  | false =>
    rw [Bool.false_and, ← Bool.not_eq_true]
    intro hend
    rw [(Forgets.endChannel w ch).isConnected s hend] at hs
    cases hs
  | true =>
    rw [Bool.true_and]
    cases hl : (w.registry ch).handles.contains (.own s) with
    | false =>
      apply isConnected_endChannel hs
      intro _ hm
      rw [List.contains_iff_mem.2 hm] at hl
      cases hl
    | true =>
      -- What the channel lists is tied to it, and the channel does not live any more.
      obtain ⟨k, hk⟩ := Registry.mem_handles.1 (List.contains_iff_mem.1 hl)
      obtain rfl : k = s := (hw.keyed ch _ hk).1
      have htied : Tied w ch k := fun _ => ⟨ha, hk⟩
      rw [Bool.not_true, ← Bool.not_eq_true]
      intro hend
      have hdead := (htied.endChannel ch hend).1
      rw [channelAlive_endChannel, bne_self_eq_false, Bool.and_false] at hdead
      cases hdead

theorem endChannel_rewires (w : World) (ch : ChannelId) : Rewires .any w (w.endChannel ch) := rewire_endChannel w ch

/-- The ends of a subscription stay what they are. -/
theorem ends_of_endChannel (w : World) (ch : ChannelId) (s : Nat) :
    ((w.endChannel ch).subscription? s).map (fun sub => (sub.output, sub.input)) =
      (w.subscription? s).map fun sub => (sub.output, sub.input) :=
  endChannel_induct
    (P := fun v => (v.subscription? s).map (fun sub => (sub.output, sub.input)) =
      (w.subscription? s).map fun sub => (sub.output, sub.input))
    (fun v => (v.subscription? s).map (fun sub => (sub.output, sub.input)) =
      (w.subscription? s).map fun sub => (sub.output, sub.input))
    rfl (fun _ => rfl)
    (fun v id a e hv _ _ => by
      have hs := ((Shrinks.deregister v ch id).trans (.note _ e)).trans (.closeHandle _ a)
      exact (hs.ends s).trans hv)
    (fun _ _ hv => hv) fun _ hv _ _ => hv

theorem subscription?_endChannel (hw : Sound none w) (ha : w.channelAlive ch = true) (s : Nat) :
    (w.endChannel ch).subscription? s =
      if .own s ∈ (w.registry ch).handles then (w.subscription? s).map fun sub => { sub with token := none }
      else w.subscription? s := by
  have hends := ends_of_endChannel w ch s
  have hconn := isConnected_endChannel_eq hw ha s
  rcases hs : w.subscription? s with _ | ⟨o, i, t⟩
  · rw [hs, Option.map_none, Option.map_eq_none_iff] at hends
    rw [hends]
    split <;> rfl
  · have hextends := (endChannel_rewires w ch).extends
    obtain ⟨⟨o', i', t'⟩, hs', rfl, rfl, ht⟩ := hextends.subscription? s _ hs
    dsimp only at ht
    rw [isConnected, hs', isConnected, hs, Option.any_some, Option.any_some] at hconn
    dsimp only at hconn
    rw [hs']
    split
    · -- It was listed, so it is not connected any more, and has no token.
      rename_i hl
      rw [List.contains_iff_mem.2 hl, Bool.not_true, Bool.and_false,
        Option.isSome_eq_false_iff, Option.isNone_iff_eq_none]
        at hconn
      rw [hconn]
      rfl
    · rename_i hl
      rw [← List.contains_iff_mem, Bool.not_eq_true] at hl
      rw [hl, Bool.not_false, Bool.and_true] at hconn
      -- The token is what it was, or it is gone; and it is gone only where it has been closed.
      rcases ht with rfl | rfl
      · rfl
      · cases t with
        | none => rfl
        | some p => cases hconn

/-! ## What becomes of signals and registries -/

/-- The signal of an output that has ended is left alone. -/
theorem signal?_endChannel_of_ended (w : World) (ch : ChannelId) {o : ChannelId}
    (ho : (w.endChannel ch).channelAlive o = false) : (w.endChannel ch).signal? o = w.signal? o := by
  rw [channelAlive_endChannel] at ho
  -- A handle that is closed gives up its place only at an output that lives.
  have hclose : ∀ (v : World) (a : Handle), v.channelAlive o = false → (v.closeHandle a).signal? o = v.signal? o := by
    intro v a hv
    cases a with
    | foreign f => rcases closeHandle_foreign v f with hf | ⟨e, hf⟩ <;> rw [hf]; rfl
    | own s =>
      show (v.close s).signal? o = _
      cases hs : v.isConnected s with
      | false => rw [close_of_not_isConnected hs]
      | true =>
        obtain ⟨o', i, p, hs⟩ := isConnected_iff.1 hs
        rw [signal?_close hs]
        split
        · rename_i h
          obtain ⟨rfl, h⟩ := h
          rw [hv] at h
          cases h
        · rfl
  refine endChannel_induct (P := fun v => v.signal? o = w.signal? o)
    (fun v => v.signal? o = w.signal? o ∧ v.channelAlive o = false) rfl (fun _ => ?_) (fun v id a e hv _ _ => ?_)
    (fun v e hv => hv) fun v hv _ _ => hv.1
  · rw [signal?_markEnded, channelAlive_markEnded]
    exact ⟨rfl, ho⟩
  · have hv' : ((v.deregister ch id).note e).channelAlive o = false := by
      rw [channelAlive_note, (sameParts_deregister ..).channelAlive]
      exact hv.2
    rw [hclose _ a hv', channelAlive_closeHandle, signal?_note, deregister, signal?_setRegistry]
    exact ⟨hv.1, hv'⟩

theorem placeOf?_eq_some_iff {a : Handle} {o : ChannelId} {p : Nat} :
    w.placeOf? a = some (o, p) ↔ ∃ s i, a = .own s ∧ w.subscription? s = some ⟨o, i, some p⟩ := by
  cases a with
  | foreign f => simp [placeOf?]
  | own s =>
    unfold placeOf?
    constructor
    · intro h
      obtain ⟨⟨o', i, t⟩, hs, h⟩ := Option.bind_eq_some_iff.1 h
      obtain ⟨p', rfl, h⟩ := Option.map_eq_some_iff.1 h
      cases h
      exact ⟨s, i, rfl, hs⟩
    · rintro ⟨t, i, ht, hs⟩
      cases ht
      simp [hs]

/-- The place tells the subscription, so it is left just when that is listed. -/
theorem Placed.leaving_iff (h : Placed w) {s p : Nat} {o i : ChannelId} (hs : w.subscription? s = some ⟨o, i, some p⟩) :
    w.leaving ch o p = true ↔ .own s ∈ (w.registry ch).handles := by
  unfold leaving
  rw [List.any_eq_true]
  constructor
  · rintro ⟨a, ha, hplace⟩
    obtain ⟨t, j, rfl, ht⟩ := placeOf?_eq_some_iff.1 (beq_iff_eq.1 hplace)
    rwa [h.apart s t o p (h.token s o i p hs).1 (h.token t o j p ht).1]
  · intro hm
    exact ⟨.own s, hm, beq_iff_eq.2 (placeOf?_eq_some_iff.2 ⟨s, i, rfl, hs⟩)⟩

theorem placesAt_endChannel (hw : Sound none w) (hplaced : Placed w) (ha : w.channelAlive ch = true)
    (hledger : ∀ o p, .removed o p ∈ (w.endChannel ch).ledger ↔ .removed o p ∈ w.ledger) (o : ChannelId) :
    (w.endChannel ch).placesAt o = (w.placesAt o).filter fun q => !w.leaving ch o q.id := by
  have hforgets := Forgets.endChannel w ch
  apply placesAt_filter hforgets.length
  intro s
  apply Option.ext
  intro q
  rw [placeAt?_eq_some_iff, Option.filter_eq_some_iff, placeAt?_eq_some_iff, subscription?_endChannel hw ha, hledger]
  simp only [hforgets.slotAt?, Bool.not_eq_true']
  -- What leaves is what the channel has listed.
  constructor
  · rintro ⟨i, hs, hr, hslot⟩
    split at hs
    · obtain ⟨sub, -, hsub⟩ := Option.map_eq_some_iff.1 hs
      cases hsub
    · rename_i hl
      refine ⟨⟨i, hs, hr, hslot⟩, ?_⟩
      rw [← Bool.not_eq_true, hplaced.leaving_iff hs]
      exact hl
  · rintro ⟨⟨i, hs, hr, hslot⟩, hl⟩
    rw [← Bool.not_eq_true, hplaced.leaving_iff hs] at hl
    refine ⟨i, ?_, hr, hslot⟩
    rw [if_neg hl, hs]

/-- A signal is what its numbering and its places say. -/
theorem signal?_of_numbering {g g' : Signal Slot} {o : ChannelId} (hg : w.signal? o = some g)
    (hg' : v.signal? o = some g') (h : v.numbering? o = w.numbering? o) : g' = { g with places := g'.places } := by
  rw [numbering?, numbering?, hg, hg', Option.map_some, Option.map_some, Option.some.injEq, Prod.mk.injEq] at h
  rcases g' with ⟨cardinality, places, nextId⟩
  obtain ⟨rfl, rfl⟩ := h
  rfl

/-! ## The death of a channel -/

/-- The end of a channel is the drain of its registry, and then a few entries in the log. -/
theorem endChannel_eq (ha : w.channelAlive ch = true) : w.endChannel ch =
    { (drain ch (w.registry ch).size (w.markEnded ch) 0).1 with
      log := w.epitaph ch ++ (drain ch (w.registry ch).size (w.markEnded ch) 0).1.log } := by
  obtain ⟨c, hc, hal⟩ := (Option.any_eq_true _ _).1 ha
  obtain ⟨-, hcount⟩ := @rounds_drain ch (w.registry ch).size 0 (w.markEnded ch) 0 (by simp) (by simp)
  have hcounts : w.counts ch = c.counts := by rw [counts, hc, Option.any_some]
  rw [Nat.add_zero, Nat.zero_add] at hcount
  unfold endChannel epitaph
  rw [hc]
  simp only [hal, if_true, hcounts]
  unfold drainAll
  simp only [registry_markEnded]
  by_cases hsize : (w.registry ch).size = 0
  · simp only [hsize, if_true]
    split <;> rfl
  · simp only [if_neg hsize, Option.map_some, Option.toList_some]
    split <;> simp [note, hcount]

/-- Closing a handle takes nothing out by hand. -/
theorem removed_not_mem_parting (w : World) (a : Handle) (o : ChannelId) (p : Nat) : .removed o p ∉ w.parting a := by
  unfold parting
  split
  · split
    · split <;> simp
    · simp
  · simp

/-- The drain that ends a channel. -/
theorem rounds_endChannel (w : World) (ch : ChannelId) (extra : Nat) :
    Rounds ch (w.markEnded ch) (w.registry ch).entries (drain ch ((w.registry ch).size + extra) (w.markEnded ch) 0).1 ∧
      (drain ch ((w.registry ch).size + extra) (w.markEnded ch) 0).2 = (w.registry ch).size := by
  have hrounds := @rounds_drain ch (w.registry ch).size extra (w.markEnded ch) 0 (by simp) (by simp)
  rwa [registry_markEnded, Nat.zero_add] at hrounds

theorem ledger_endChannel (hw : Sound none w) (hplaced : Placed w) (ha : w.channelAlive ch = true) :
    (w.endChannel ch).ledger =
      (w.registry ch).entries.reverse.flatMap (fun e => (w.markEnded ch).parting e.2) ++ .ended ch :: w.ledger := by
  obtain ⟨hrounds, -⟩ := rounds_endChannel w ch 0
  rw [endChannel_eq ha]
  exact hrounds.ledger hw.markEnded (hplaced.markEnded ch) (by simp)

/-- No place is taken out by hand meanwhile. -/
theorem removed_endChannel (hw : Sound none w) (hplaced : Placed w) (ha : w.channelAlive ch = true) (o : ChannelId)
    (p : Nat) : .removed o p ∈ (w.endChannel ch).ledger ↔ .removed o p ∈ w.ledger := by
  rw [ledger_endChannel hw hplaced ha, List.mem_append, List.mem_cons, List.mem_flatMap]
  constructor
  · rintro (⟨e, -, he⟩ | he | he)
    · exact absurd he (removed_not_mem_parting _ _ o p)
    · cases he
    · exact he
  · intro he
    exact .inr (.inr he)

/-- Living channels forget what is closed. -/
theorem registry_endChannel (hw : Sound none w) (ha : w.channelAlive ch = true) {o : ChannelId}
    (ho : (w.endChannel ch).channelAlive o = true) : ((w.endChannel ch).registry o).entries =
      (w.registry o).entries.filter fun e =>
        !((w.registry ch).handles.contains (.own e.1) && w.isConnected e.1 && w.joins e.1 o) := by
  rw [(Forgets.endChannel w ch).registry o ho]
  apply List.filter_congr
  intro e _
  rw [closedAt, isConnected_endChannel_eq hw ha]
  cases w.isConnected e.1 <;> cases (w.registry ch).handles.contains (.own e.1) <;> rfl

theorem forgotten_endChannel (hw : Sound none w) (ha : w.channelAlive ch = true) {s p : Nat} {o i x : ChannelId}
    (hl : .own s ∈ (w.registry ch).handles) (hs : w.subscription? s = some ⟨o, i, some p⟩) (hend : x = o ∨ x = i)
    (hx : (w.endChannel ch).channelAlive x = true) : s ∉ ((w.endChannel ch).registry x).ids := by
  intro hm
  obtain ⟨a, hm⟩ := Registry.mem_ids.1 hm
  rw [registry_endChannel hw ha hx, List.mem_filter] at hm
  have hconn : w.isConnected s = true := isConnected_iff.2 ⟨o, i, p, hs⟩
  have hjoins : w.joins s x = true := by
    rw [joins, hs, Option.any_some, Bool.or_eq_true, beq_iff_eq, beq_iff_eq]
    exact hend.imp Eq.symm Eq.symm
  have hno : .own s ∉ (w.registry ch).handles := by simpa [hconn, hjoins] using hm.2
  exact hno hl

theorem Placed.endChannel (h : Placed w) (ch : ChannelId) : Placed (w.endChannel ch) :=
  (endChannel_rewires w ch).induct (P := Placed) (fun _ _ hu hr => hu.rewire hr) h

/-- Living outputs lose the places of what is closed, and no signal else changes. -/
theorem signal?_endChannel (hw : Sound none w) (hplaced : Placed w) (ha : w.channelAlive ch = true) (o : ChannelId) :
    (w.endChannel ch).signal? o = (w.signal? o).map fun g =>
      if (w.endChannel ch).channelAlive o then { g with places := g.places.filter fun q => !w.leaving ch o q.id }
      else g := by
  have hforgets := Forgets.endChannel w ch
  rcases hg : w.signal? o with _ | g
  · have hnone := hforgets.numbering? o
    rw [numbering?, numbering?, hg, Option.map_none, Option.map_eq_none_iff] at hnone
    rw [hnone, Option.map_none]
  · rw [Option.map_some]
    cases ho : (w.endChannel ch).channelAlive o with
    | false => rw [signal?_endChannel_of_ended w ch ho, hg, if_neg Bool.false_ne_true]
    | true =>
      obtain ⟨g', hg', -⟩ := (endChannel_rewires w ch).extends.signal? o g hg
      have hplaces : g'.places = g.places.filter fun q => !w.leaving ch o q.id := by
        rw [(hplaced.endChannel ch).places o g' ho hg',
          placesAt_endChannel hw hplaced ha (removed_endChannel hw hplaced ha),
          hplaced.places o g (hforgets.channelAlive o ho) hg]
      rw [if_pos rfl, hg', ← hplaces, ← signal?_of_numbering hg hg' (hforgets.numbering? o)]

/-- What a closing enters depends on whether the output lives still. -/
theorem parting_markEnded {s p : Nat} {o i : ChannelId} (hs : w.subscription? s = some ⟨o, i, some p⟩) :
    (w.markEnded ch).parting (.own s) =
      if (w.endChannel ch).channelAlive o then [.released s, .disconnected s (w.hasPlace o p)] else [.released s] := by
  simp only [parting, subscription?_markEnded, hs, channelAlive_markEnded, channelAlive_endChannel, hasPlace,
    signal?_markEnded]

/-- So dies every channel that ends. -/
theorem dies_endChannel (hw : Sound none w) (hplaced : Placed w) (ha : w.channelAlive ch = true) :
    Dies ch w (w.endChannel ch) where
  alive := ha
  order := (w.registry ch).increasing
  rounds := by
    obtain ⟨hrounds, -⟩ := rounds_endChannel w ch 0
    refine ⟨_, hrounds, ?_, endChannel_eq ha⟩
    intro extra
    obtain ⟨hmore, hcount⟩ := rounds_endChannel w ch extra
    exact Prod.ext (hmore.unique hrounds).2 hcount
  emptied := by
    have hdead : (w.endChannel ch).channelAlive ch = false := by simp [channelAlive_endChannel]
    have hids := (hw.endChannel ch).drained ch (by simp) hdead
    simpa [Registry.ids] using hids
  components := (ends_endChannel w ch).components
  slotAt? := (ends_endChannel w ch).slotAt?
  channelAlive := channelAlive_endChannel w ch
  subscription? := subscription?_endChannel hw ha
  ledger := ledger_endChannel hw hplaced ha
  signal? := signal?_endChannel hw hplaced ha
  registry _ ho := registry_endChannel hw ha ho
  output s o i p hl hs := by
    rw [parting_markEnded hs]
    split
    · rename_i ho
      refine ⟨rfl, ?_, forgotten_endChannel hw ha hl hs (.inl rfl) ho⟩
      -- At an output that lives the place has been given up, since the subscription is closed.
      have hconnected : .connected s o p ∈ (w.endChannel ch).ledger :=
        (endChannel_rewires w ch).extends.ledger.subset (hplaced.token s o i p hs).1
      have hclosed : (w.endChannel ch).isConnected s = false := by
        rw [isConnected_endChannel_eq hw ha, List.contains_iff_mem.2 hl]
        simp
      exact (hplaced.endChannel ch).not_hasPlace hconnected hclosed ho
    · rename_i ho
      exact ⟨rfl, signal?_endChannel_of_ended w ch (Bool.eq_false_iff.2 ho)⟩
  input s o i p hl hs hi := forgotten_endChannel hw ha hl hs (.inr rfl) hi

end Conduit.World
