/-
Subscribing, channel by channel and without any views in between. Whether it is refused is for the
signal to say, which knows nothing of subscriptions; but its places are those of the subscriptions
connected there, so a refusal tells of one of them (`Taken`). What a success changes is told by
`Enrolled`: the number is newer than all others, both ends list it behind theirs, and the slot stands
behind the others.
-/
import Conduit.Proofs.Wiring.Places
import Conduit.Proofs.Wiring.Sound

namespace Conduit

namespace Registry

variable {η : Type} {r : Registry η} {k : Nat} {a : η}

theorem insertEntry_of_lt : ∀ {l : List (Nat × η)}, (∀ e ∈ l, e.1 < k) → insertEntry k a l = l ++ [(k, a)]
  | [], _ => rfl
  | e :: rest, hl => by
    have hlt := hl e (List.mem_cons_self ..)
    unfold insertEntry
    rw [if_neg (by omega), if_neg (by omega), insertEntry_of_lt fun x hx => hl x (List.mem_cons_of_mem _ hx)]
    rfl

/-- An entry of a number above all others comes last. -/
theorem entries_insert_of_lt (hr : ∀ j ∈ r.ids, j < k) : (r.insert k a).entries = r.entries ++ [(k, a)] :=
  insertEntry_of_lt fun _ he => hr _ (List.mem_map_of_mem he)

end Registry

/-- The role, with a slot connected to the signal behind the others. -/
def Role.occupy (slot : Slot) : Role → Role
  | .input synchronized => .input synchronized
  | .output g counting =>
    .output { g with places := g.places ++ [⟨g.nextId, slot⟩], nextId := g.nextId + 1 } counting

namespace World

/-- Some subscription is connected at the output, and nobody has taken its place out by hand. -/
def Taken (w : World) (o : ChannelId) : Prop :=
  ∃ (s : Nat) (i : ChannelId) (p : Nat), w.subscription? s = some ⟨o, i, some p⟩ ∧ .removed o p ∉ w.ledger

/-- `v` is `w` after one more subscription was made, from the output `o` with the signal `g` to the
input `i` with the slot `slot`. -/
structure Enrolled (w v : World) (o i : ChannelId) (g : Signal Slot) (slot : Slot) : Prop where
  components : v.components = w.components
  foreigns : v.foreigns = w.foreigns
  length : v.subscriptions.length = w.subscriptions.length + 1
  made : v.subscription? (w.subscriptions.length + 1) = some ⟨o, i, some g.nextId⟩
  others : ∀ t, t ≠ w.subscriptions.length + 1 → v.subscription? t = w.subscription? t
  /-- The number is above all that a handle shows and all that a registry lists. -/
  newest : (∀ a, w.Knows a → w.handleId a < w.subscriptions.length + 1) ∧
    ∀ ch, ∀ k ∈ (w.registry ch).ids, k < w.subscriptions.length + 1
  entries : ∀ ch, (v.registry ch).entries = (w.registry ch).entries ++
    if ch = o ∨ ch = i then [(w.subscriptions.length + 1, .own (w.subscriptions.length + 1))] else []
  signal : v.signal? o =
    some { g with places := g.places ++ [⟨g.nextId, slot⟩], nextId := g.nextId + 1 }
  channels : ∀ ch, v.channels[ch]? = (w.channels[ch]?).map fun c : Channel =>
    { c with registry := v.registry ch, role := if ch = o then c.role.occupy slot else c.role }
  log : w.log <:+ v.log
  ledger : v.ledger = .connected (w.subscriptions.length + 1) o g.nextId :: w.ledger

variable {w v : World} {o i : ChannelId} {s : Nat} {dying : Option ChannelId}

/-- An output has a signal and an input has none, so the ends are different channels. -/
theorem Sound.ends_ne (h : Sound dying w) {t : Option Nat} (hs : w.subscription? s = some ⟨o, i, t⟩) : o ≠ i := by
  rintro rfl
  have hout := h.output s _ hs
  rw [(h.input s _ hs).1] at hout
  cases hout

/-! ## Refusals -/

/-- The places of a living output's signal are those of subscriptions. -/
theorem Placed.taken_iff (h : Placed w) {g : Signal Slot} (ha : w.channelAlive o = true) (hg : w.signal? o = some g) :
    g.places ≠ [] ↔ w.Taken o := by
  rw [h.places o g ha hg]
  constructor
  · intro hne
    obtain ⟨q, hq⟩ := List.exists_mem_of_ne_nil _ hne
    obtain ⟨t, ht⟩ := mem_placesAt.1 hq
    obtain ⟨j, hj, hr, -⟩ := placeAt?_eq_some_iff.1 ht
    exact ⟨t, j, q.id, hj, hr⟩
  · rintro ⟨t, j, p, ht, hr⟩ hnil
    obtain ⟨slot, hslot⟩ := Option.isSome_iff_exists.1 (h.token t o j p ht).2
    have hq : (⟨p, slot⟩ : Place Slot) ∈ w.placesAt o :=
      mem_placesAt.2 ⟨t, placeAt?_eq_some_iff.2 ⟨j, ht, hr, hslot⟩⟩
    rw [hnil] at hq
    cases hq

/-- Subscribing is refused by one-to-one signals only, and by these when a subscription has the place. -/
theorem subscribe?_eq_none_iff (h : Placed w) {g : Signal Slot} {slot : Slot} (ha : w.channelAlive o = true)
    (hg : w.signal? o = some g) (hi : w.slotAt? i = some slot) :
    w.subscribe? o i = none ↔ g.cardinality = .oneToOne ∧ w.Taken o := by
  obtain ⟨x, hx, hgx⟩ := Option.bind_eq_some_iff.1 hg
  obtain ⟨y, hy, rfl⟩ := Option.map_eq_some_iff.1 hi
  rw [← h.taken_iff ha hg, ← @Signal.connect?_eq_none_iff _ g y.slot]
  rcases hc : g.connect? y.slot with _ | ⟨p, g'⟩
  · simp [subscribe?, hx, hy, hgx, hc]
  · simp [subscribe?, hx, hy, hgx, hc]

/-! ## Successes -/

section

variable (w : World) (o ch : ChannelId)

/-- A channel whose registry is put in place anew, from what it was. -/
theorem channels_setRegistry (f : Registry Handle → Registry Handle) :
    (w.setRegistry o (f (w.registry o))).channels[ch]? =
      if ch = o then (w.channels[ch]?).map fun c => { c with registry := f c.registry } else w.channels[ch]? := by
  rw [setRegistry, channels_modifyChannel]
  by_cases hch : ch = o
  · subst hch
    rw [if_pos rfl, if_pos rfl]
    rcases hc : w.channels[ch]? with _ | c
    · rfl
    · simp [registry, hc]
  · rw [if_neg hch, if_neg (Ne.symm hch)]

theorem channels_register (a : Handle) : (w.register o a).channels[ch]? =
    if ch = o then (w.channels[ch]?).map fun c => { c with registry := c.registry.insert (w.handleId a) a }
    else w.channels[ch]? :=
  channels_setRegistry w o ch (·.insert (w.handleId a) a)

end

/-- Both ends list the number of a new subscription, and the output has the slot. -/
theorem channels_subscribe? {n : Nat} {slot : Slot} (hoi : o ≠ i) (hslot : w.slotAt? i = some slot)
    (h : w.subscribe? o i = some (n, v)) (ch : ChannelId) :
    v.channels[ch]? = (w.channels[ch]?).map fun c : Channel =>
      { c with
        registry := if ch = o ∨ ch = i then c.registry.insert n (.own n) else c.registry
        role := if ch = o then c.role.occupy slot else c.role } := by
  obtain ⟨x, hx, h⟩ := Option.bind_eq_some_iff.1 h
  obtain ⟨y, hy, h⟩ := Option.bind_eq_some_iff.1 h
  obtain ⟨g, hg, h⟩ := Option.bind_eq_some_iff.1 h
  obtain ⟨⟨p, g'⟩, hc, h⟩ := Option.bind_eq_some_iff.1 h
  cases h
  rw [slotAt?, hy, Option.map_some, Option.some.injEq] at hslot
  subst hslot
  obtain ⟨hplaces, -, hnext⟩ := Signal.places_of_connect? hc
  have hg' : g' = { g with places := g.places ++ [⟨g.nextId, y.slot⟩], nextId := g.nextId + 1 } := by
    unfold Signal.connect? at hc
    split at hc
    · cases hc
    · cases hc
      rfl
  -- To connect the slot is to occupy the next place of the role.
  have hrole : x.role.occupy y.slot = (x.setSignal g').role := by
    unfold Channel.signal? at hg
    rcases hr : x.role with synchronized | ⟨k, counting⟩
    · rw [hr] at hg
      cases hg
    · rw [hr] at hg
      cases hg
      rw [Channel.setSignal, hr, hg', Role.occupy]
  show ((((w.setSignal o g').enroll _).record _).register o (.own _) |>.register i (.own _)).channels[ch]? = _
  rw [channels_register, channels_register]
  show (if ch = i then
      (if ch = o then ((w.setSignal o g').channels[ch]?).map _ else (w.setSignal o g').channels[ch]?).map _
    else if ch = o then ((w.setSignal o g').channels[ch]?).map _ else (w.setSignal o g').channels[ch]?) = _
  rw [setSignal, channels_modifyChannel]
  -- The channel is the output, the input, or none of the two.
  by_cases hco : ch = o
  · subst hco
    rw [if_neg hoi, if_pos rfl, if_pos rfl, hx]
    simp only [Option.map_some, true_or, if_true, hrole]
    unfold Channel.setSignal
    split <;> rfl
  · rw [if_neg hco, if_neg (Ne.symm hco)]
    by_cases hci : ch = i
    · subst hci
      rw [if_pos rfl, hy]
      simp only [Option.map_some, or_true, if_true, if_neg hco]
      rfl
    · rw [if_neg hci]
      simp [hco, hci]

theorem log_subscribe? {n : Nat} (h : w.subscribe? o i = some (n, v)) : w.log <:+ v.log := by
  obtain ⟨x, -, h⟩ := Option.bind_eq_some_iff.1 h
  obtain ⟨y, -, h⟩ := Option.bind_eq_some_iff.1 h
  obtain ⟨g, -, h⟩ := Option.bind_eq_some_iff.1 h
  obtain ⟨⟨p, g'⟩, -, h⟩ := Option.bind_eq_some_iff.1 h
  cases h
  exact ⟨[_], rfl⟩

/-- A success makes one subscription, and nothing else. -/
theorem enrolled_of_subscribe? {n : Nat} (hsound : Sound none w) (ho : w.channelAlive o = true)
    (hi : w.channelAlive i = true) (hin : w.signal? i = none) (h : w.subscribe? o i = some (n, v)) :
    n = w.subscriptions.length + 1 ∧
      ∃ g slot, w.signal? o = some g ∧ w.slotAt? i = some slot ∧ Enrolled w v o i g slot := by
  obtain ⟨p, slot, g, g', hmade⟩ := subscribed_of_subscribe? hin h
  obtain ⟨hplaces, rfl, hnext⟩ := Signal.places_of_connect? hmade.connect
  have hcard := Signal.cardinality_of_connect? hmade.connect
  have hs : v.subscription? n = some ⟨o, i, some g.nextId⟩ := by rw [hmade.subscription?, if_pos rfl]
  have hoi : o ≠ i := (hsound.subscribe ho hi hin h).ends_ne hs
  -- Numbers in registries have been given out.
  have hbelow : ∀ ch, ∀ k ∈ (w.registry ch).ids, k < w.subscriptions.length + 1 := fun ch k hk =>
    Nat.lt_succ_of_le (hsound.id_le hk)
  obtain rfl := hmade.number
  refine ⟨rfl, g, slot, hmade.output, hmade.input, ?_⟩
  refine
    { components := hmade.components
      foreigns := hmade.foreigns
      length := hmade.length
      made := hs
      others := fun t ht => by rw [hmade.subscription?, if_neg ht]
      newest := ⟨fun a ha => Nat.lt_succ_of_le (hsound.handleId_le ha), hbelow⟩
      entries := fun ch => ?_
      signal := ?_
      channels := fun ch => ?_
      log := log_subscribe? h
      ledger := hmade.ledger }
  · rw [hmade.registry]
    split
    · exact Registry.entries_insert_of_lt (hbelow ch)
    · rw [List.append_nil]
  · rw [hmade.signal?, if_pos rfl, Option.some.injEq]
    rcases g' with ⟨cardinality, places, nextId⟩
    dsimp only at hplaces hnext hcard
    rw [hplaces, hnext, hcard]
  · rw [channels_subscribe? hoi hmade.input h, hmade.registry]
    rcases hc : w.channels[ch]? with _ | c
    · rfl
    · have hreg : w.registry ch = c.registry := by rw [registry, hc]; rfl
      rw [Option.map_some, Option.map_some, hreg]

end World

end Conduit
