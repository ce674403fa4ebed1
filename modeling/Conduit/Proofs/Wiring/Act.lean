/-
What can happen to a wiring. Components come with channels of their own, subscriptions are made,
numbers are put into registries and taken out by hand, foreign handles appear, places are
disconnected by hand, and things are torn down. `Acts` is any row of these; whatever each of them
keeps, every history keeps.
-/
import Conduit.Proofs.Wiring.Teardown

namespace Conduit.World

/-! ## New components -/

theorem newChannels_length (owner : ComponentId) (layout : Layout) :
    (newChannels owner layout).length = layout.inputs.length + layout.outputs.length := by
  simp [newChannels]

section Create
variable (w : World) (name : String) (layout : Layout) (ch : ChannelId) (c : ComponentId) (s : Nat) (h : Handle)

/-- A component is created at the end of the list, with channels at the end of theirs. -/
theorem create_eq : ∃ comp log, (comp.alive = true ∧ ∀ ch ∈ comp.inputs ++ comp.outputs,
      ∃ k < (newChannels w.components.length layout).length, ch = w.channels.length + k) ∧
    (w.create name layout).2 = { w with
      components := w.components ++ [comp]
      channels := w.channels ++ newChannels w.components.length layout
      log } := by
  -- What is said about a creation goes to the log only.
  have notes : ∀ (es : List Event) (v : World), ∃ log,
      es.foldl (fun w e => w.note (.event e)) v = { v with log } := by
    intro es
    induction es with
    | nil => exact fun v => ⟨v.log, rfl⟩
    | cons e es ih => exact fun v => (ih (v.note (.event e))).imp fun _ h => h
  obtain ⟨log, hlog⟩ := notes (creationEvents name layout) w
  simp only [create, hlog]
  refine ⟨_, log, ⟨rfl, fun ch hch => ?_⟩, rfl⟩
  simp only [List.mem_append, List.mem_map, List.mem_range] at hch
  rw [newChannels_length]
  rcases hch with ⟨k, hk, rfl⟩ | ⟨k, hk, rfl⟩
  · exact ⟨k, by omega, rfl⟩
  · exact ⟨layout.inputs.length + k, by omega, by omega⟩

/-- The channels of a new component live, hold nothing, and have signals without places. -/
theorem of_mem_newChannels {owner : ComponentId} {x : Channel} (hx : x ∈ newChannels owner layout) :
    x.alive = true ∧ x.registry = .empty ∧ x.owner = owner ∧ ∀ g, x.signal? = some g → g.places = [] := by
  rw [newChannels, List.mem_append, List.mem_mapIdx, List.mem_mapIdx] at hx
  rcases hx with ⟨i, hi, rfl⟩ | ⟨i, hi, rfl⟩
  · exact ⟨rfl, rfl, rfl, fun g hg => by cases hg⟩
  · refine ⟨rfl, rfl, rfl, fun g hg => ?_⟩
    cases hg
    rfl

/-- A channel after the creation is one from before or a new one. -/
theorem channels_create {x : Channel} (hx : (w.create name layout).2.channels[ch]? = some x) :
    w.channels[ch]? = some x ∨ (w.channels[ch]? = none ∧ x ∈ newChannels w.components.length layout) := by
  obtain ⟨comp, log, -, he⟩ := create_eq w name layout
  rw [he] at hx
  rcases lt_or_ge ch w.channels.length with hlt | hge
  · rw [List.getElem?_append_left hlt] at hx
    exact .inl hx
  · rw [List.getElem?_append_right hge] at hx
    exact .inr ⟨List.getElem?_eq_none hge, List.mem_of_getElem? hx⟩

theorem channels_create_of_some {x : Channel} (hx : w.channels[ch]? = some x) :
    (w.create name layout).2.channels[ch]? = some x := by
  obtain ⟨comp, log, -, he⟩ := create_eq w name layout
  rw [he]
  have hlt : ch < w.channels.length := (List.getElem?_eq_some_iff.1 hx).1
  show (w.channels ++ _)[ch]? = some x
  rw [List.getElem?_append_left hlt, hx]

@[simp] theorem subscription?_create : (w.create name layout).2.subscription? s = w.subscription? s := by
  obtain ⟨comp, log, -, he⟩ := create_eq w name layout
  rw [he]; rfl

@[simp] theorem subscriptions_create : (w.create name layout).2.subscriptions = w.subscriptions := by
  obtain ⟨comp, log, -, he⟩ := create_eq w name layout
  rw [he]

@[simp] theorem foreigns_create : (w.create name layout).2.foreigns = w.foreigns := by
  obtain ⟨comp, log, -, he⟩ := create_eq w name layout
  rw [he]

@[simp] theorem handleId_create : (w.create name layout).2.handleId h = w.handleId h := by
  obtain ⟨comp, log, -, he⟩ := create_eq w name layout
  rw [he]; cases h <;> rfl

@[simp] theorem ledger_create : (w.create name layout).2.ledger = w.ledger := by
  obtain ⟨comp, log, -, he⟩ := create_eq w name layout
  rw [he]

/-- The new component lives, and nothing else changes in this. -/
theorem componentAlive_create : (w.create name layout).2.componentAlive c =
    (w.componentAlive c || c == w.components.length) := by
  obtain ⟨comp, log, ⟨ha, -⟩, he⟩ := create_eq w name layout
  rw [he]
  simp only [componentAlive]
  rcases lt_trichotomy c w.components.length with hlt | rfl | hgt
  · rw [List.getElem?_append_left hlt]
    simp [Nat.ne_of_lt hlt]
  · simp [ha]
  · have hnone : (w.components ++ [comp])[c]? = none := by
      rw [List.getElem?_eq_none]
      simpa using hgt
    rw [hnone, List.getElem?_eq_none (Nat.le_of_lt hgt)]
    simp [Nat.ne_of_gt hgt]

/-- New channels hold nothing. -/
@[simp] theorem registry_create : (w.create name layout).2.registry ch = w.registry ch := by
  unfold registry
  rcases hx : (w.create name layout).2.channels[ch]? with _ | x
  · rcases hy : w.channels[ch]? with _ | y
    · rfl
    · rw [channels_create_of_some w name layout ch hy] at hx; cases hx
  · rcases channels_create w name layout ch hx with h | ⟨h, hm⟩
    · rw [h]
    · rw [h, Option.map_some, (of_mem_newChannels layout hm).2.1]
      rfl

theorem slotAt?_create_of_some {x : Slot} (hx : w.slotAt? ch = some x) :
    (w.create name layout).2.slotAt? ch = some x := by
  obtain ⟨y, hy, rfl⟩ := Option.map_eq_some_iff.1 hx
  rw [slotAt?, channels_create_of_some w name layout ch hy, Option.map_some]

/-- A new channel has a slot of the new component. -/
theorem slotAt?_create {x : Slot} (hx : (w.create name layout).2.slotAt? ch = some x) :
    w.slotAt? ch = some x ∨ (w.slotAt? ch = none ∧ ∃ p, x = .handler w.components.length p) := by
  obtain ⟨y, hy, rfl⟩ := Option.map_eq_some_iff.1 hx
  rcases channels_create w name layout ch hy with h | ⟨h, hm⟩
  · exact .inl (by rw [slotAt?, h, Option.map_some])
  · refine .inr ⟨by rw [slotAt?, h, Option.map_none], y.position, ?_⟩
    rw [Channel.slot, (of_mem_newChannels layout hm).2.2.1]

theorem channelAlive_create : (w.create name layout).2.channelAlive ch = true ↔
    w.channelAlive ch = true ∨ (w.slotAt? ch = none ∧ ((w.create name layout).2.slotAt? ch).isSome) := by
  unfold channelAlive slotAt?
  rcases hx : (w.create name layout).2.channels[ch]? with _ | x
  · rcases hy : w.channels[ch]? with _ | y
    · simp
    · rw [channels_create_of_some w name layout ch hy] at hx; cases hx
  · rcases channels_create w name layout ch hx with h | ⟨h, hm⟩
    · simp [h]
    · simp [h, (of_mem_newChannels layout hm).1]

theorem signal?_create_of_some {x : Slot} (hx : w.slotAt? ch = some x) :
    (w.create name layout).2.signal? ch = w.signal? ch := by
  obtain ⟨y, hy, rfl⟩ := Option.map_eq_some_iff.1 hx
  rw [signal?, channels_create_of_some w name layout ch hy, signal?, hy]

/-- The signal of a new output has no places. -/
theorem signal?_create {g : Signal Slot} (hg : (w.create name layout).2.signal? ch = some g) :
    w.signal? ch = some g ∨ (w.slotAt? ch = none ∧ g.places = []) := by
  obtain ⟨y, hy, hyg⟩ := Option.bind_eq_some_iff.1 hg
  rcases channels_create w name layout ch hy with h | ⟨h, hm⟩
  · exact .inl (by rw [signal?, h, Option.bind_some, hyg])
  · exact .inr ⟨by rw [slotAt?, h, Option.map_none], (of_mem_newChannels layout hm).2.2.2 g hyg⟩

end Create

/-! ## By hand -/

section Hand
variable (w : World) (o ch : ChannelId) (c : ComponentId) (s place : Nat) (h a : Handle)

theorem registry_register (ho : (w.slotAt? o).isSome) : (w.register o h).registry ch =
    if ch = o then (w.registry ch).insert (w.handleId h) h else w.registry ch := by
  rw [register, registry_setRegistry _ _ _ _ ho]
  by_cases hch : ch = o
  · subst hch; rfl
  · simp [hch]

theorem sameParts_register : SameParts (w.register o h) w := SameParts.setRegistry ..

theorem sameParts_deregister : SameParts (w.deregister o s) w := SameParts.setRegistry ..

theorem sameParts_disconnectByHand : SameParts (w.disconnectByHand o place) w := by
  unfold disconnectByHand
  refine (SameParts.disconnect ..).trans ?_
  split
  · exact SameParts.record ..
  · exact SameParts.refl w

@[simp] theorem registry_disconnectByHand : (w.disconnectByHand o place).registry ch = w.registry ch := by
  unfold disconnectByHand
  split <;> simp

theorem signal?_disconnectByHand : (w.disconnectByHand o place).signal? ch =
    if ch = o then (w.signal? ch).map (·.without place) else w.signal? ch := by
  unfold disconnectByHand
  split <;> simp [signal?_disconnect]

theorem ledger_disconnectByHand : (w.disconnectByHand o place).ledger =
    if w.hasPlace o place then .removed o place :: w.ledger else w.ledger := by
  unfold disconnectByHand
  split <;> simp

end Hand

/-! ## New subscriptions -/

/-- `w'` is `w` after the subscription `n` of the input `i` to the output `o` was made: at the place
`p` of the signal `g`, which is `g'` from then on. -/
structure Subscribed (w w' : World) (o i : ChannelId) (n p : Nat) (slot : Slot) (g g' : Signal Slot) : Prop where
  input : w.slotAt? i = some slot
  output : w.signal? o = some g
  connect : g.connect? slot = some (p, g')
  number : n = w.subscriptions.length + 1
  length : w'.subscriptions.length = n
  foreigns : w'.foreigns = w.foreigns
  ledger : w'.ledger = .connected n o p :: w.ledger
  components : w'.components = w.components
  channelAlive : ∀ ch, w'.channelAlive ch = w.channelAlive ch
  slotAt? : ∀ ch, w'.slotAt? ch = w.slotAt? ch
  subscription? : ∀ t, w'.subscription? t = if t = n then some ⟨o, i, some p⟩ else w.subscription? t
  signal? : ∀ ch, w'.signal? ch = if ch = o then some g' else w.signal? ch
  registry : ∀ ch, w'.registry ch =
    if ch = o ∨ ch = i then (w.registry ch).insert n (.own n) else w.registry ch

section Enroll
variable (w : World) (sub : Subscription) (ch : ChannelId) (c : ComponentId) (t : Nat)

@[simp] theorem componentAlive_enroll : (w.enroll sub).componentAlive c = w.componentAlive c := rfl
@[simp] theorem channelAlive_enroll : (w.enroll sub).channelAlive ch = w.channelAlive ch := rfl
@[simp] theorem signal?_enroll : (w.enroll sub).signal? ch = w.signal? ch := rfl
@[simp] theorem registry_enroll : (w.enroll sub).registry ch = w.registry ch := rfl
@[simp] theorem slotAt?_enroll : (w.enroll sub).slotAt? ch = w.slotAt? ch := rfl
@[simp] theorem foreigns_enroll : (w.enroll sub).foreigns = w.foreigns := rfl
@[simp] theorem ledger_enroll : (w.enroll sub).ledger = w.ledger := rfl

@[simp] theorem length_subscriptions_enroll :
    (w.enroll sub).subscriptions.length = w.subscriptions.length + 1 := by
  simp [enroll]

theorem subscription?_enroll : (w.enroll sub).subscription? t =
    if t = w.subscriptions.length + 1 then some sub else w.subscription? t := by
  unfold subscription? enroll
  by_cases ht : t = 0
  · simp [ht]
  · rw [if_neg ht, if_neg ht]
    rcases lt_trichotomy (t - 1) w.subscriptions.length with hlt | heq | hgt
    · rw [List.getElem?_append_left hlt, if_neg (by omega)]
    · rw [if_pos (by omega), heq]
      simp
    · rw [if_neg (by omega), List.getElem?_eq_none (Nat.le_of_lt hgt)]
      rw [List.getElem?_eq_none]
      simpa using hgt

end Enroll

theorem registry_register_both (v : World) {o i : ChannelId} (hoi : o ≠ i) (n : Nat) (ch : ChannelId)
    (ho : (v.slotAt? o).isSome) (hi : (v.slotAt? i).isSome) :
    ((v.register o (.own n)).register i (.own n)).registry ch =
      if ch = o ∨ ch = i then (v.registry ch).insert n (.own n) else v.registry ch := by
  rw [registry_register _ _ _ _ (by rw [(sameParts_register ..).slotAt?]; exact hi), registry_register _ _ _ _ ho]
  by_cases hci : ch = i
  · subst hci
    rw [if_pos rfl, if_neg (Ne.symm hoi), if_pos (.inr rfl)]
    rfl
  · by_cases hco : ch = o
    · subst hco
      rw [if_neg hci, if_pos rfl, if_pos (.inl rfl)]
      rfl
    · simp [hci, hco]

/-- A subscription that is made, is made in this way. -/
theorem subscribed_of_subscribe? {w w' : World} {o i : ChannelId} {n : Nat}
    (hin : w.signal? i = none) (h : w.subscribe? o i = some (n, w')) :
    ∃ p slot g g', Subscribed w w' o i n p slot g g' := by
  unfold subscribe? at h
  obtain ⟨x, hx, h⟩ := Option.bind_eq_some_iff.1 h
  obtain ⟨y, hy, h⟩ := Option.bind_eq_some_iff.1 h
  obtain ⟨g, hg, h⟩ := Option.bind_eq_some_iff.1 h
  obtain ⟨⟨p, g'⟩, hc, h⟩ := Option.bind_eq_some_iff.1 h
  cases h
  have hsig : w.signal? o = some g := by rw [World.signal?, hx, Option.bind_some, hg]
  -- An input has no signal, so the ends are different channels.
  have hoi : o ≠ i := by
    rintro rfl
    rw [hin] at hsig
    cases hsig
  refine ⟨p, y.slot, g, g', ?_⟩
  have ho : (w.slotAt? o).isSome := by simp [World.slotAt?, hx]
  have hi : (w.slotAt? i).isSome := by simp [World.slotAt?, hy]
  exact
    { input := by rw [World.slotAt?, hy, Option.map_some]
      output := hsig
      connect := hc
      number := rfl
      length := by simp [register]
      foreigns := by simp [register]
      ledger := by simp [register]
      components := rfl
      channelAlive := fun ch => by simp [register]
      slotAt? := fun ch => by simp [register]
      subscription? := fun t => subscription?_enroll (w.setSignal o g') _ t
      signal? := fun ch => by
        by_cases hch : ch = o
        · subst hch; simp [register, signal?_setSignal, hsig]
        · simp [register, signal?_setSignal, hch]
      registry := fun ch => by
        rw [registry_note, registry_register_both _ hoi _ _ (by simpa using ho) (by simpa using hi)]
        simp }

/-! ## New foreign handles -/

section Adopt
variable (w : World) (g : ForeignHandle) (ch : ChannelId) (c : ComponentId) (s f : Nat)

@[simp] theorem componentAlive_adopt : (w.adopt g).componentAlive c = w.componentAlive c := rfl
@[simp] theorem channelAlive_adopt : (w.adopt g).channelAlive ch = w.channelAlive ch := rfl
@[simp] theorem subscription?_adopt : (w.adopt g).subscription? s = w.subscription? s := rfl
@[simp] theorem subscriptions_adopt : (w.adopt g).subscriptions = w.subscriptions := rfl
@[simp] theorem signal?_adopt : (w.adopt g).signal? ch = w.signal? ch := rfl
@[simp] theorem registry_adopt : (w.adopt g).registry ch = w.registry ch := rfl
@[simp] theorem slotAt?_adopt : (w.adopt g).slotAt? ch = w.slotAt? ch := rfl
@[simp] theorem ledger_adopt : (w.adopt g).ledger = w.ledger := rfl

theorem handleId_foreign_adopt (hf : f < w.foreigns.length) :
    (w.adopt g).handleId (.foreign f) = w.handleId (.foreign f) := by
  simp only [handleId, adopt, List.getElem?_append_left hf]

end Adopt

/-! ## Histories -/

/-- Whether a handle stands for something that exists. -/
def Knows (w : World) : Handle → Prop
  | .own s => (w.subscription? s).isSome
  | .foreign f => f < w.foreigns.length

theorem Subscribed.handleId {w w' : World} {o i : ChannelId} {n p : Nat} {slot : Slot} {g g' : Signal Slot}
    (hs : Subscribed w w' o i n p slot g g') (a : Handle) : w'.handleId a = w.handleId a := by
  cases a with
  | own k => rfl
  | foreign f => simp only [World.handleId, hs.foreigns]

theorem Subscribed.knows {w w' : World} {o i : ChannelId} {n p : Nat} {slot : Slot} {g g' : Signal Slot}
    (hs : Subscribed w w' o i n p slot g g') {a : Handle} (ha : w.Knows a) : w'.Knows a := by
  rcases a with k | f
  · show (w'.subscription? k).isSome
    rw [hs.subscription?]
    split
    · rfl
    · exact ha
  · show f < w'.foreigns.length
    rw [hs.foreigns]
    exact ha

theorem knows_create {w : World} (name : String) (layout : Layout) {a : Handle} (ha : w.Knows a) :
    (w.create name layout).2.Knows a := by
  rcases a with k | f
  · show ((w.create name layout).2.subscription? k).isSome
    rw [subscription?_create]
    exact ha
  · show f < (w.create name layout).2.foreigns.length
    rw [foreigns_create]
    exact ha

theorem knows_adopt {w : World} (g : ForeignHandle) {a : Handle} (ha : w.Knows a) : (w.adopt g).Knows a := by
  rcases a with k | f
  · exact ha
  · have hf : f < w.foreigns.length := ha
    show f < (w.foreigns ++ [g]).length
    rw [List.length_append]
    omega

theorem SameParts.knows {v w : World} (h : SameParts v w) {a : Handle} (ha : w.Knows a) : v.Knows a := by
  rcases a with k | f
  · show (v.subscription? k).isSome
    rw [h.subscription?]
    exact ha
  · show f < v.foreigns.length
    rw [h.foreigns]
    exact ha

/-- What is allowed to happen, of what makes a difference to what can be said of a history. -/
structure License where
  /-- Numbers are put into registries of channels and taken out by hand. -/
  registering : Prop
  subscribing : Prop
  /-- Places of outputs are disconnected by hand. -/
  disconnecting : Prop

/-- Everything is allowed. -/
def License.any : License := ⟨True, True, True⟩

/-- Registries of channels are not changed by hand. -/
def License.orderly : License := ⟨False, True, True⟩

/-- One thing that can happen to a wiring, where it is allowed. -/
inductive Act (may : License) (w : World) : World → Prop
  | relog (log : List Entry) : Act may w { w with log }
  | step {held : Ref → Bool} {w' : World} (h : Step held w w') : Act may w w'
  | create (name : String) (layout : Layout) : Act may w (w.create name layout).2
  | subscribe (ht : may.subscribing) {o i : ChannelId} {n : Nat} {w' : World} (ho : w.channelAlive o = true)
      (hi : w.channelAlive i = true) (hin : w.signal? i = none) (h : w.subscribe? o i = some (n, w')) :
      Act may w w'
  | register (ht : may.registering) {ch : ChannelId} (hch : w.channelAlive ch = true) {h : Handle} (hh : w.Knows h) :
      Act may w (w.register ch h)
  | deregister (ht : may.registering) (ch : ChannelId) (s : SubscriptionId) : Act may w (w.deregister ch s)
  | adopt (g : ForeignHandle) (hg : g.id ≤ w.subscriptions.length) : Act may w (w.adopt g)
  | disconnectByHand (ht : may.disconnecting) (o : ChannelId) (place : Nat) : Act may w (w.disconnectByHand o place)

/-- Any row of these. -/
def Acts (may : License) : World → World → Prop := Relation.ReflTransGen (Act may)

theorem Torn.acts {may : License} {held : Ref → Bool} {w w' : World} (h : Torn held w w') : Acts may w w' :=
  Relation.ReflTransGen.mono (fun _ _ h => .step h) _ _ h

theorem Acts.induct {may : License} {P : World → Prop} (act : ∀ v v', P v → Act may v v' → P v')
    {w w' : World} (h : Acts may w w') (hw : P w) : P w' := by
  induction h with
  | refl => exact hw
  | tail _ ha ih => exact act _ _ ih ha

end Conduit.World
