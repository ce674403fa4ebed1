/-
What a history does to connections. Of all that can happen to a wiring only a few things bear on
its connections, and each is elementary: a component is created, a subscription is made or closed, a
place is taken out by hand, a channel is marked as ended. The drain of a channel falls apart into
these, so whoever asks about connections need not look at drains or registries again (`Rewire`).
What has been connected, ended or entered in the ledger stays so (`Extends`).
-/
import Conduit.Proofs.Wiring.Act

namespace Conduit.World

/-! ## Elementary changes -/

/-- `v` has the connections of `w`; its registries, foreign handles and log are its own. -/
structure SameLinks (v w : World) : Prop where
  length : v.subscriptions.length = w.subscriptions.length
  subscription? : ∀ s : Nat, v.subscription? s = w.subscription? s
  signal? : ∀ ch, v.signal? ch = w.signal? ch
  slotAt? : ∀ ch, v.slotAt? ch = w.slotAt? ch
  channelAlive : ∀ ch, v.channelAlive ch = w.channelAlive ch
  ledger : v.ledger = w.ledger

/-- One elementary change, as connections see it, where it is allowed. -/
inductive Rewire (may : License) (w : World) : World → Prop
  | same {v : World} (h : SameLinks v w) : Rewire may w v
  | create (name : String) (layout : Layout) : Rewire may w (w.create name layout).2
  | subscribe (ht : may.subscribing) {v : World} {o i : ChannelId} {n p : Nat} {slot : Slot} {g g' : Signal Slot}
      (ho : w.channelAlive o = true) (h : Subscribed w v o i n p slot g g') : Rewire may w v
  | close {s p : Nat} {o i : ChannelId} (h : w.subscription? s = some ⟨o, i, some p⟩) : Rewire may w (w.close s)
  | disconnectByHand (ht : may.disconnecting) (o : ChannelId) (place : Nat) (h : w.hasPlace o place = true) :
      Rewire may w (w.disconnectByHand o place)
  | markEnded (ch : ChannelId) (h : w.channelAlive ch = true) : Rewire may w (w.markEnded ch)

/-- Any row of elementary changes. -/
def Rewires (may : License) : World → World → Prop := Relation.ReflTransGen (Rewire may)

theorem Rewires.induct {may : License} {P : World → Prop} (rewire : ∀ v v', P v → Rewire may v v' → P v') {w w' : World}
    (h : Rewires may w w') (hw : P w) : P w' := by
  induction h with
  | refl => exact hw
  | tail _ hs ih => exact rewire _ _ ih hs

/-- Whatever leaves subscriptions, channels and ledger alone leaves the connections alone. -/
theorem SameLinks.of_eq {v w : World} (hs : v.subscriptions = w.subscriptions) (hc : v.channels = w.channels)
    (hl : v.ledger = w.ledger) : SameLinks v w where
  length := by rw [hs]
  subscription? s := by rw [World.subscription?, hs, World.subscription?]
  signal? ch := by rw [World.signal?, hc, World.signal?]
  slotAt? ch := by rw [World.slotAt?, hc, World.slotAt?]
  channelAlive ch := by rw [World.channelAlive, hc, World.channelAlive]
  ledger := hl

theorem SameLinks.setRegistry (w : World) (ch : ChannelId) (r : Registry Handle) :
    SameLinks (w.setRegistry ch r) w :=
  ⟨rfl, fun _ => rfl, fun _ => by simp, fun _ => by simp, fun _ => by simp, rfl⟩

section

variable {may : License} (w : World)

theorem rewire_close (s : Nat) : Rewires may w (w.close s) := by
  cases hs : w.isConnected s with
  | false => rw [close_of_not_isConnected hs]; exact .refl
  | true =>
    obtain ⟨o, i, p, hs⟩ := isConnected_iff.1 hs
    exact .single (.close hs)

theorem rewire_closeHandle (h : Handle) : Rewires may w (w.closeHandle h) := by
  cases h with
  | own s => exact rewire_close w s
  | foreign f =>
    rcases closeHandle_foreign w f with hf | ⟨e, hf⟩ <;> rw [hf]
    · exact .refl
    · exact .single (.same (.of_eq rfl rfl rfl))

theorem rewire_endChannel (ch : ChannelId) : Rewires may w (w.endChannel ch) :=
  endChannel_induct (Rewires may w) .refl (fun ha => .single (.markEnded ch ha))
    (fun v id a e hv _ _ => by
      have hd : Rewires may w (v.deregister ch id) := .tail hv (.same (.setRegistry ..))
      have hn : Rewires may w ((v.deregister ch id).note e) := .tail hd (.same (.of_eq rfl rfl rfl))
      exact .trans hn (rewire_closeHandle _ a))
    (fun v e hv => .tail hv (.same (.of_eq rfl rfl rfl))) fun _ hv _ _ => hv

theorem rewire_disconnectByHand (ht : may.disconnecting) (o : ChannelId) (place : Nat) :
    Rewires may w (w.disconnectByHand o place) := by
  cases h : w.hasPlace o place with
  | true => exact .single (.disconnectByHand ht o place h)
  | false =>
    have hp := sameParts_disconnectByHand w o place
    refine .single (.same ⟨by rw [hp.subscriptions], hp.subscription?, fun ch => ?_, hp.slotAt?,
      hp.channelAlive, by rw [ledger_disconnectByHand, h]; rfl⟩)
    rw [signal?_disconnectByHand]
    split
    · rename_i hch
      subst hch
      rcases hg : w.signal? ch with _ | g
      · rfl
      · rw [hasPlace, hg, Option.any_some] at h
        rw [Option.map_some, Signal.without_of_not_has h]
    · rfl

end

/-- Whatever happens to a wiring is a row of elementary changes. -/
theorem Act.rewires {may : License} {w v : World} (h : Act may w v) : Rewires may w v := by
  cases h with
  | relog log => exact .single (.same (.of_eq rfl rfl rfl))
  | step h =>
    cases h with
    | note e => exact .single (.same (.of_eq rfl rfl rfl))
    | close s => exact rewire_close w s
    | deny f => exact .single (.same (.of_eq rfl rfl rfl))
    | markDead c => exact .single (.same (.of_eq rfl rfl rfl))
    | endChannel ch => exact rewire_endChannel w ch
  | create name layout => exact .single (.create name layout)
  | subscribe ht ho _ hin h =>
    obtain ⟨p, slot, g, g', hs⟩ := subscribed_of_subscribe? hin h
    exact .single (.subscribe ht ho hs)
  | register _ _ _ => exact .single (.same (.setRegistry ..))
  | deregister _ ch s => exact .single (.same (.setRegistry ..))
  | adopt g _ => exact .single (.same (.of_eq rfl rfl rfl))
  | disconnectByHand ht o place => exact rewire_disconnectByHand w ht o place

theorem Acts.rewires {may : License} {w v : World} (h : Acts may w v) : Rewires may w v :=
  h.induct (P := Rewires may w) (fun _ _ hv ha => .trans hv ha.rewires) .refl

/-! ## What lasts -/

/-- `v` is a later state of `w`: its ledger goes on from there, its signals are later ones, its
subscriptions have not been connected anew, and nothing has come to life again. -/
structure Extends (w v : World) : Prop where
  ledger : w.ledger <:+ v.ledger
  signal? : ∀ o g, w.signal? o = some g → ∃ g', v.signal? o = some g' ∧ g.Later g'
  subscription? : ∀ (s : Nat) sub, w.subscription? s = some sub → ∃ sub', v.subscription? s = some sub' ∧
    sub'.output = sub.output ∧ sub'.input = sub.input ∧ (sub'.token = sub.token ∨ sub'.token = none)
  slotAt? : ∀ ch x, w.slotAt? ch = some x → v.slotAt? ch = some x
  channelAlive : ∀ ch, (w.slotAt? ch).isSome → v.channelAlive ch = true → w.channelAlive ch = true

namespace Extends

variable {u v w : World}

theorem refl (w : World) : Extends w w :=
  ⟨List.suffix_refl _, fun _ g hg => ⟨g, hg, .refl g⟩, fun _ sub hs => ⟨sub, hs, rfl, rfl, .inl rfl⟩,
    fun _ _ h => h, fun _ _ h => h⟩

theorem trans (h₁ : Extends w v) (h₂ : Extends v u) : Extends w u where
  ledger := h₁.ledger.trans h₂.ledger
  signal? o g hg := by
    obtain ⟨g', hg', hl⟩ := h₁.signal? o g hg
    obtain ⟨g'', hg'', hl'⟩ := h₂.signal? o g' hg'
    exact ⟨g'', hg'', hl.trans hl'⟩
  subscription? s sub hs := by
    obtain ⟨sub', hs', ho, hi, ht⟩ := h₁.subscription? s sub hs
    obtain ⟨sub'', hs'', ho', hi', ht'⟩ := h₂.subscription? s sub' hs'
    refine ⟨sub'', hs'', ho'.trans ho, hi'.trans hi, ?_⟩
    rcases ht' with ht' | ht'
    · rw [ht']
      exact ht
    · exact .inr ht'
  slotAt? ch x hx := h₂.slotAt? ch x (h₁.slotAt? ch x hx)
  channelAlive ch hch ha := by
    obtain ⟨x, hx⟩ := Option.isSome_iff_exists.1 hch
    exact h₁.channelAlive ch hch (h₂.channelAlive ch (by rw [h₁.slotAt? ch x hx]; rfl) ha)

/-- Numbers of places that have been given out stay so. -/
theorem given (h : Extends w v) {o : ChannelId} {p : Nat} (hp : ∃ g, w.signal? o = some g ∧ p < g.nextId) :
    ∃ g, v.signal? o = some g ∧ p < g.nextId := by
  obtain ⟨g, hg, hp⟩ := hp
  obtain ⟨g', hg', hlater⟩ := h.signal? o g hg
  exact ⟨g', hg', lt_of_lt_of_le hp hlater.nextId⟩

/-- A state with the slots of before is a later one when its signals, subscriptions and channels are. -/
theorem of_slotAt? (hslot : ∀ ch, v.slotAt? ch = w.slotAt? ch) (hl : w.ledger <:+ v.ledger)
    (hg : ∀ o g, w.signal? o = some g → ∃ g', v.signal? o = some g' ∧ g.Later g')
    (hs : ∀ (s : Nat) sub, w.subscription? s = some sub → ∃ sub', v.subscription? s = some sub' ∧
      sub'.output = sub.output ∧ sub'.input = sub.input ∧ (sub'.token = sub.token ∨ sub'.token = none))
    (ha : ∀ ch, v.channelAlive ch = true → w.channelAlive ch = true) : Extends w v :=
  ⟨hl, hg, hs, fun ch _ hx => (hslot ch).trans hx, fun ch _ => ha ch⟩

theorem without {o p : Nat} (h : ∀ ch, v.signal? ch = if ch = o then (w.signal? ch).map (·.without p)
    else w.signal? ch) (ch : ChannelId) (g : Signal Slot) (hg : w.signal? ch = some g) :
    ∃ g', v.signal? ch = some g' ∧ g.Later g' := by
  rw [h, hg]
  split
  · exact ⟨_, rfl, Signal.later_without g p⟩
  · exact ⟨g, rfl, .refl g⟩

theorem close {s p : Nat} {o i : ChannelId} (hs : w.subscription? s = some ⟨o, i, some p⟩) :
    Extends w (w.close s) := by
  refine of_slotAt? (fun ch => by simp) ?_ (fun ch g hg => ?_) (fun t sub ht => ?_) fun ch ha => by simpa using ha
  · rw [ledger_close hs]
    split
    · exact ⟨[_, _], rfl⟩
    · exact ⟨[_], rfl⟩
  · rw [signal?_close hs, hg]
    split
    · exact ⟨_, rfl, Signal.later_without g p⟩
    · exact ⟨g, rfl, .refl g⟩
  · rw [subscription?_close, ht]
    split
    · exact ⟨_, rfl, rfl, rfl, .inr rfl⟩
    · exact ⟨sub, rfl, rfl, rfl, .inl rfl⟩

theorem create (w : World) (name : String) (layout : Layout) : Extends w (w.create name layout).2 where
  ledger := by rw [ledger_create]
  signal? o g hg := by
    obtain ⟨x, hx, -⟩ := Option.bind_eq_some_iff.1 hg
    have hslot : w.slotAt? o = some x.slot := by rw [World.slotAt?, hx, Option.map_some]
    exact ⟨g, by rw [signal?_create_of_some _ _ _ _ hslot, hg], .refl g⟩
  subscription? s sub hs := ⟨sub, by rw [subscription?_create, hs], rfl, rfl, .inl rfl⟩
  slotAt? ch x hx := slotAt?_create_of_some _ _ _ _ hx
  channelAlive ch hch ha := by
    rcases (channelAlive_create ..).1 ha with ha | ⟨hnone, -⟩
    · exact ha
    · rw [hnone] at hch
      cases hch

theorem subscribe {o i : ChannelId} {n p : Nat} {slot : Slot} {g g' : Signal Slot}
    (h : Subscribed w v o i n p slot g g') : Extends w v := by
  refine of_slotAt? h.slotAt? ⟨[_], h.ledger.symm⟩ (fun ch k hk => ?_) (fun s sub hs => ?_)
    fun ch ha => (h.channelAlive ch).symm.trans ha
  · rw [h.signal?]
    split
    · rename_i hch
      rw [hch, h.output] at hk
      cases hk
      exact ⟨g', rfl, Signal.later_of_connect? h.connect⟩
    · exact ⟨k, hk, .refl k⟩
  · have hne : s ≠ n := by
      have := le_length_of_subscription? hs
      have := h.number
      omega
    exact ⟨sub, by rw [h.subscription?, if_neg hne, hs], rfl, rfl, .inl rfl⟩

theorem disconnectByHand (w : World) (o : ChannelId) (place : Nat) : Extends w (w.disconnectByHand o place) := by
  have hp := sameParts_disconnectByHand w o place
  refine of_slotAt? hp.slotAt? ?_ (without (signal?_disconnectByHand w o · place))
    (fun s sub hs => ⟨sub, by rw [hp.subscription?, hs], rfl, rfl, .inl rfl⟩)
    fun ch ha => (hp.channelAlive ch).symm.trans ha
  rw [ledger_disconnectByHand]
  split
  · exact ⟨[_], rfl⟩
  · exact List.suffix_refl _

/-- Every elementary change leads to a later state. -/
theorem rewire {may : License} (h : Rewire may w v) : Extends w v := by
  cases h with
  | same h =>
    exact of_slotAt? h.slotAt? (by rw [h.ledger]) (fun o g hg => ⟨g, by rw [h.signal?, hg], .refl g⟩)
      (fun s sub hs => ⟨sub, by rw [h.subscription?, hs], rfl, rfl, .inl rfl⟩)
      fun ch ha => (h.channelAlive ch).symm.trans ha
  | create name layout => exact create w name layout
  | subscribe _ _ h => exact subscribe h
  | close h => exact close h
  | disconnectByHand _ o place _ => exact disconnectByHand w o place
  | markEnded ch _ =>
    refine of_slotAt? (fun _ => by simp) ⟨[_], rfl⟩ (fun o g hg => ⟨g, by rw [signal?_markEnded, hg], .refl g⟩)
      (fun s sub hs => ⟨sub, hs, rfl, rfl, .inl rfl⟩) fun c ha => ?_
    rw [channelAlive_markEnded, Bool.and_eq_true] at ha
    exact ha.1

end Extends

/-- Every history leads to later states. -/
theorem Rewires.extends {may : License} {w v : World} (h : Rewires may w v) : Extends w v :=
  h.induct (P := Extends w) (fun _ _ hv hr => hv.trans (.rewire hr)) (.refl w)

/-! ## What is done only where it is allowed -/

section

variable {may : License} {w v : World}

/-- Only subscribing makes subscriptions. -/
theorem Rewires.length_subscriptions (hm : ¬ may.subscribing) (h : Rewires may w v) :
    v.subscriptions.length = w.subscriptions.length := by
  refine h.induct (P := fun v => v.subscriptions.length = w.subscriptions.length) (fun u u' hu hr => ?_) rfl
  rw [← hu]
  cases hr with
  | same h => exact h.length
  | create name layout => rw [subscriptions_create]
  | subscribe ht _ _ => exact absurd ht hm
  | close _ => exact length_subscriptions_close ..
  | disconnectByHand _ o place _ => rw [(sameParts_disconnectByHand u o place).subscriptions]
  | markEnded ch _ => rfl

/-- Only hands take places out that belong to subscriptions. -/
theorem Rewires.removed (hm : ¬ may.disconnecting) (h : Rewires may w v) {o : ChannelId} {p : Nat}
    (hr : .removed o p ∈ v.ledger) : .removed o p ∈ w.ledger := by
  refine h.induct (P := fun v => .removed o p ∈ v.ledger → .removed o p ∈ w.ledger) (fun u u' hu hr hm' => hu ?_) id hr
  cases hr with
  | same h => rwa [h.ledger] at hm'
  | create name layout => rwa [ledger_create] at hm'
  | subscribe _ _ hs =>
    rw [hs.ledger] at hm'
    exact (List.mem_cons.1 hm').resolve_left nofun
  | close hs =>
    rw [ledger_close hs] at hm'
    split at hm' <;> simpa using hm'
  | disconnectByHand ht _ _ _ => exact absurd ht hm
  | markEnded ch _ => exact (List.mem_cons.1 hm').resolve_left nofun

end

/-- A subscription that is not connected has been closed for good. -/
theorem Extends.not_isConnected {w v : World} (h : Extends w v) {s : Nat} (hs : (w.subscription? s).isSome)
    (hc : w.isConnected s = false) : v.isConnected s = false := by
  obtain ⟨sub, hsub⟩ := Option.isSome_iff_exists.1 hs
  obtain ⟨sub', hsub', -, -, ht⟩ := h.subscription? s sub hsub
  rw [isConnected, hsub, Option.any_some] at hc
  rw [isConnected, hsub', Option.any_some]
  rcases ht with ht | ht
  · rw [ht, hc]
  · rw [ht]
    rfl

end Conduit.World
