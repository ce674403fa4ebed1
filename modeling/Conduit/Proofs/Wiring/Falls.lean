/-
Teardown with its reasons. A subscription is closed because somebody asked for it, because a channel
that lists it ends, or because nothing holds or lists it any more (`Fall`). So which subscriptions are
connected after any row of such steps can be told from the beginning and from what lives at the end,
whatever the order was (`Falls.isConnected_iff`); and what living channels list is what they listed,
less the subscriptions of their own that were closed (`Forgets`).
-/
import Conduit.Proofs.Wiring.Ties

namespace Conduit.World

/-! ## What registries lose -/

/-- Whether the channel is an end of the subscription. -/
def joins (w : World) (s : Nat) (ch : ChannelId) : Bool :=
  (w.subscription? s).any fun sub => sub.output == ch || sub.input == ch

/-- Whether a subscription of the channel has been closed between `w` and `v`. -/
def closedAt (w v : World) (ch : ChannelId) (s : Nat) : Bool := w.isConnected s && !v.isConnected s && w.joins s ch

/-- The cardinality of an output's signal, and the number of its next place. -/
def numbering? (w : World) (ch : ChannelId) : Option (Cardinality × Nat) :=
  (w.signal? ch).map fun g => (g.cardinality, g.nextId)

/-- Signals that number alike and have the same places are the same. -/
theorem signal?_eq {v w : World} {ch : ChannelId} (h : v.numbering? ch = w.numbering? ch)
    (hp : ∀ g g', v.signal? ch = some g → w.signal? ch = some g' → g.places = g'.places) :
    v.signal? ch = w.signal? ch := by
  unfold numbering? at h
  rcases hv : v.signal? ch with _ | g <;> rcases hw : w.signal? ch with _ | g' <;> rw [hv, hw] at h
  · cases h
  · cases h
  · obtain ⟨cardinality, places, nextId⟩ := g
    cases h
    cases hp _ _ hv hw
    rfl

/-- From `w` to `v` some things end, and living channels forget their subscriptions that are closed. -/
structure Forgets (w v : World) : Prop where
  length : v.subscriptions.length = w.subscriptions.length
  joins : ∀ s ch, v.joins s ch = w.joins s ch
  isConnected : ∀ s, v.isConnected s = true → w.isConnected s = true
  slotAt? : ∀ ch, v.slotAt? ch = w.slotAt? ch
  numbering? : ∀ ch, v.numbering? ch = w.numbering? ch
  channelAlive : ∀ ch, v.channelAlive ch = true → w.channelAlive ch = true
  registry : ∀ ch, v.channelAlive ch = true →
    (v.registry ch).entries = (w.registry ch).entries.filter fun e => !w.closedAt v ch e.1

theorem filter_of_closedAt {w v : World} {ch : ChannelId} {l : List (Nat × Handle)}
    (h : ∀ s, w.isConnected s = true → v.isConnected s = true) : l.filter (fun e => !w.closedAt v ch e.1) = l := by
  refine List.filter_eq_self.2 fun e _ => ?_
  unfold closedAt
  cases hw : w.isConnected e.1 with
  | false => rfl
  | true =>
    rw [h e.1 hw]
    rfl

namespace Forgets

variable {u v w : World}

theorem trans (h₁ : Forgets w v) (h₂ : Forgets v u) : Forgets w u where
  length := h₂.length.trans h₁.length
  joins s ch := (h₂.joins s ch).trans (h₁.joins s ch)
  isConnected s hs := h₁.isConnected s (h₂.isConnected s hs)
  slotAt? ch := (h₂.slotAt? ch).trans (h₁.slotAt? ch)
  numbering? ch := (h₂.numbering? ch).trans (h₁.numbering? ch)
  channelAlive ch ha := h₁.channelAlive ch (h₂.channelAlive ch ha)
  registry ch ha := by
    rw [h₂.registry ch ha, h₁.registry ch (h₂.channelAlive ch ha), List.filter_filter]
    refine List.filter_congr fun e _ => ?_
    -- Closed on the whole way is what is closed on one part of it.
    unfold closedAt
    rw [h₁.joins]
    cases hv : v.isConnected e.1 with
    | true =>
      rw [h₁.isConnected e.1 hv]
      simp
    | false =>
      have hu : u.isConnected e.1 = false := by
        rw [← Bool.not_eq_true]
        intro hu
        rw [h₂.isConnected e.1 hu] at hv
        cases hv
      rw [hu]
      simp

/-- Nothing is closed where nothing happens to subscriptions, registries and channels. -/
theorem of_same (hs : v.subscriptions = w.subscriptions) (hslot : ∀ ch, v.slotAt? ch = w.slotAt? ch)
    (hg : ∀ ch, v.signal? ch = w.signal? ch) (ha : ∀ ch, v.channelAlive ch = true → w.channelAlive ch = true)
    (hr : ∀ ch, v.channelAlive ch = true → v.registry ch = w.registry ch) : Forgets w v := by
  have hsub : ∀ s, v.subscription? s = w.subscription? s := fun s => by rw [subscription?, hs, subscription?]
  have hconn : ∀ s : Nat, v.isConnected s = w.isConnected s := fun s => by
    rw [World.isConnected, hsub, World.isConnected]
  refine ⟨by rw [hs], fun s ch => by rw [World.joins, hsub, World.joins], fun s h => (hconn s).symm.trans h, hslot,
    fun ch => by rw [World.numbering?, hg, World.numbering?], ha, fun ch hal => ?_⟩
  rw [hr ch hal, filter_of_closedAt fun s h => (hconn s).trans h]

theorem refl (w : World) : Forgets w w := of_same rfl (fun _ => rfl) (fun _ => rfl) (fun _ h => h) fun _ _ => rfl

theorem close (w : World) (s : Nat) : Forgets w (w.close s) := by
  cases hs : w.isConnected s with
  | false =>
    rw [close_of_not_isConnected hs]
    exact refl w
  | true =>
    obtain ⟨o, i, p, hsub⟩ := isConnected_iff.1 hs
    refine ⟨length_subscriptions_close w s, fun t ch => ?_, fun t ht => ?_, fun ch => slotAt?_close w s ch,
      fun ch => ?_, fun ch ha => (channelAlive_close w s ch).symm.trans ha, fun ch ha => ?_⟩
    · rw [World.joins, subscription?_close, World.joins]
      split
      · cases w.subscription? t <;> rfl
      · rfl
    · rw [isConnected_close, Bool.and_eq_true] at ht
      exact ht.1
    · rw [World.numbering?, signal?_close hsub, World.numbering?]
      split
      · cases w.signal? ch <;> rfl
      · rfl
    · rw [channelAlive_close] at ha
      -- What is closed here is this subscription, at its two ends.
      have hclosed : ∀ t : Nat, w.closedAt (w.close s) ch t = (t == s && (o == ch || i == ch)) := fun t => by
        unfold closedAt
        rw [isConnected_close]
        by_cases hts : t = s
        · subst hts
          rw [hs, World.joins, hsub]
          simp
        · rw [bne_iff_ne.2 hts, beq_false_of_ne hts]
          cases w.isConnected t <;> simp
      rw [registry_close hsub, ha]
      -- Each end erases the number; any other registry has nothing of it to leave out.
      by_cases hend : ch = o ∨ ch = i
      · rw [if_pos ⟨hend, rfl⟩]
        refine List.filter_congr fun e _ => ?_
        have hjoins : (o == ch || i == ch) = true := by
          rcases hend with rfl | rfl
          · rw [beq_self_eq_true, Bool.true_or]
          · rw [beq_self_eq_true, Bool.or_true]
        rw [hclosed, hjoins, Bool.and_true]
        rfl
      · rw [if_neg fun h => hend h.1]
        refine (List.filter_eq_self.2 fun e _ => ?_).symm
        have hjoins : (o == ch || i == ch) = false := by
          rw [not_or] at hend
          rw [beq_false_of_ne (Ne.symm hend.1), beq_false_of_ne (Ne.symm hend.2), Bool.or_false]
        rw [hclosed, hjoins, Bool.and_false, Bool.not_false]

theorem closeHandle (w : World) (a : Handle) : Forgets w (w.closeHandle a) := by
  cases a with
  | own s => exact close w s
  | foreign f =>
    rcases closeHandle_foreign w f with hf | ⟨e, hf⟩ <;> rw [hf]
    · exact refl w
    · exact of_same rfl (fun _ => rfl) (fun _ => rfl) (fun _ h => h) fun _ _ => rfl

theorem endChannel (w : World) (ch : ChannelId) : Forgets w (w.endChannel ch) :=
  endChannel_induct (Forgets w) (refl w)
    (fun _ => of_same rfl (fun _ => slotAt?_markEnded ..) (fun _ => signal?_markEnded ..) (fun o ha => by
      rw [channelAlive_markEnded, Bool.and_eq_true] at ha
      exact ha.1) fun _ _ => registry_markEnded ..)
    (fun v id a e hv ha _ => by
      -- The registry that loses an entry without a closing is that of a channel that does not live.
      have hd : Forgets v (v.deregister ch id) := by
        have hp := sameParts_deregister v ch id
        refine of_same hp.subscriptions hp.slotAt? (fun o => by rw [deregister, signal?_setRegistry])
          (fun o ho => (hp.channelAlive o).symm.trans ho) fun o ho => ?_
        rw [registry_deregister, if_neg]
        rintro rfl
        rw [hp.channelAlive, ha] at ho
        cases ho
      have hn : Forgets (v.deregister ch id) ((v.deregister ch id).note e) :=
        of_same rfl (fun _ => rfl) (fun _ => rfl) (fun _ h => h) fun _ _ => rfl
      exact ((hv.trans hd).trans hn).trans (closeHandle _ a))
    (fun v e hv => hv.trans (of_same rfl (fun _ => rfl) (fun _ => rfl) (fun _ h => h) fun _ _ => rfl))
      fun _ hv _ _ => hv

/-- What a living channel lists it listed before. -/
theorem mem_registry (h : Forgets w v) {ch : ChannelId} (ha : v.channelAlive ch = true) {e : Nat × Handle}
    (he : e ∈ (v.registry ch).entries) : e ∈ (w.registry ch).entries := by
  rw [h.registry ch ha] at he
  exact List.mem_of_mem_filter he

end Forgets

/-! ## Reasons -/

/-- One step of a teardown in which the subscriptions of which `asked` tells are closed by somebody, and those
of which `kept` tells are held to the end. -/
inductive Fall (asked kept : Nat → Prop) (w : World) : World → Prop
  | relog (log : List Entry) : Fall asked kept w { w with log }
  | deny (f : Nat) : Fall asked kept w (w.deny f)
  | markDead (c : ComponentId) : Fall asked kept w (w.markDead c)
  | endChannel (ch : ChannelId) : Fall asked kept w (w.endChannel ch)
  | close (s : Nat) (h : asked s ∨ ¬ kept s ∧ ¬ w.Listed s) : Fall asked kept w (w.close s)

/-- Any row of these. -/
def Falls (asked kept : Nat → Prop) : World → World → Prop := Relation.ReflTransGen (Fall asked kept)

section

variable {asked kept : Nat → Prop} {u v w : World} {s : Nat} {ch : ChannelId}

theorem Fall.forgets (h : Fall asked kept w v) : Forgets w v := by
  cases h with
  | relog log => exact .of_same rfl (fun _ => rfl) (fun _ => rfl) (fun _ h => h) fun _ _ => rfl
  | deny f => exact .of_same rfl (fun _ => rfl) (fun _ => rfl) (fun _ h => h) fun _ _ => rfl
  | markDead c => exact .of_same rfl (fun _ => rfl) (fun _ => rfl) (fun _ h => h) fun _ _ => rfl
  | endChannel ch => exact .endChannel w ch
  | close s _ => exact .close w s

theorem Falls.forgets (h : Falls asked kept w v) : Forgets w v := by
  induction h with
  | refl => exact .refl w
  | tail _ hf ih => exact ih.trans hf.forgets

theorem Fall.tied (h : Fall asked kept w v) (ht : Tied w ch s) : Tied v ch s := by
  cases h with
  | relog log => exact ht
  | deny f => exact ht
  | markDead c => exact ht
  | endChannel o => exact ht.endChannel o
  | close k _ => exact ht.closeHandle (.own k)

theorem Falls.tied (h : Falls asked kept w v) (ht : Tied w ch s) : Tied v ch s := by
  induction h with
  | refl => exact ht
  | tail _ hf ih => exact hf.tied ih

/-- A handle that is closed closes its own subscription only. -/
theorem isConnected_closeHandle_of_ne (hs : w.isConnected s = true) {a : Handle} (ha : a ≠ .own s) :
    (w.closeHandle a).isConnected s = true := by
  cases a with
  | own k =>
    show (w.close k).isConnected s = true
    rw [isConnected_close, hs, Bool.true_and, bne_iff_ne]
    rintro rfl
    exact ha rfl
  | foreign f => rcases closeHandle_foreign w f with hf | ⟨e, hf⟩ <;> rw [hf] <;> exact hs

/-- A channel that ends closes only what it lists. -/
theorem isConnected_endChannel (hs : w.isConnected s = true)
    (hl : (w.channelAlive ch = true → .own s ∉ (w.registry ch).handles)) :
    (w.endChannel ch).isConnected s = true := by
  refine endChannel_induct (P := fun v => v.isConnected s = true)
    (fun v => v.isConnected s = true ∧ Handle.own s ∉ (v.registry ch).handles) hs (fun ha => ?_)
    (fun v id a e hv ha hm => ?_)
    (fun v e hv => ⟨hv.1, hv.2⟩) fun v hv _ _ => hv.1
  · rw [registry_markEnded]
    exact ⟨hs, hl ha⟩
  · have hne : a ≠ .own s := by
      rintro rfl
      exact hv.2 (Registry.mem_handles.2 ⟨id, hm⟩)
    have hconn : ((v.deregister ch id).note e).isConnected s = true := hv.1
    refine ⟨isConnected_closeHandle_of_ne hconn hne, fun hm' => hv.2 ?_⟩
    obtain ⟨k, hk⟩ := Registry.mem_handles.1 hm'
    have hshrinks := ((Shrinks.deregister v ch id).trans (.note _ e)).trans (.closeHandle _ a)
    exact Registry.mem_handles.2 ⟨k, hshrinks.registry ch _ hk⟩

theorem Fall.sound (h : Fall asked kept w v) (hw : Sound none w) : Sound none v := by
  cases h with
  | relog log => exact hw.shrink (.of_sameParts ⟨rfl, rfl, rfl, fun _ => rfl, fun _ => rfl⟩
      (fun _ => rfl) fun _ _ h => h)
  | deny f => exact hw.shrink (.deny w f)
  | markDead c => exact hw.shrink (.markDead w c)
  | endChannel ch => exact hw.endChannel ch
  | close t _ => exact hw.shrink (.close w t)

/-- A subscription goes through a fall if no channel that ends lists it, and there is no reason to close it. -/
theorem Fall.isConnected (h : Fall asked kept w v) (hs : w.isConnected s = true) (hasked : ¬ asked s)
    (hlists : ∀ ch, w.channelAlive ch = true → .own s ∈ (w.registry ch).handles → v.channelAlive ch = true)
    (hheld : kept s ∨ ∃ ch, w.channelAlive ch = true ∧ (s, .own s) ∈ (w.registry ch).entries) :
    v.isConnected s = true := by
  cases h with
  | relog log => exact hs
  | deny f => exact hs
  | markDead c => exact hs
  | endChannel ch =>
    refine isConnected_endChannel hs fun ha hm => ?_
    have hdead := hlists ch ha hm
    rw [channelAlive_endChannel, bne_self_eq_false, Bool.and_false] at hdead
    cases hdead
  | close t hreason =>
    rw [isConnected_close, hs, Bool.true_and, bne_iff_ne]
    rintro rfl
    rcases hreason with hask | ⟨hno, hnl⟩
    · exact hasked hask
    · exact hheld.elim hno hnl

/-- What has no reason to be closed stays connected. -/
theorem Falls.stays (h : Falls asked kept w v) (hw : Sound none w) (hs : w.isConnected s = true) (hasked : ¬ asked s)
    (hlists : ∀ ch, w.channelAlive ch = true → (s, .own s) ∈ (w.registry ch).entries → v.channelAlive ch = true)
    (hheld : kept s ∨ ∃ ch, v.channelAlive ch = true ∧ (s, .own s) ∈ (w.registry ch).entries) :
    v.isConnected s = true := by
  induction h using Relation.ReflTransGen.head_induction_on with
  | refl => exact hs
  | @head u u' hf hrest ih =>
    have hforgets := hf.forgets
    have hlast := Falls.forgets hrest
    have hs' : u'.isConnected s = true := by
      refine hf.isConnected hs hasked (fun ch ha hm => ?_) (hheld.imp_right fun ⟨ch, ha, hm⟩ => ?_)
      · obtain ⟨k, hk⟩ := Registry.mem_handles.1 hm
        have hkey : k = s := (hw.keyed ch _ hk).1
        rw [hkey] at hk
        exact hlast.channelAlive ch (hlists ch ha hk)
      · exact ⟨ch, hforgets.channelAlive ch (hlast.channelAlive ch ha), hm⟩
    refine ih (hf.sound hw) hs' (fun ch ha hm => ?_) ?_
    · have ha' := hforgets.channelAlive ch ha
      exact hlists ch ha' (hforgets.mem_registry ha hm)
    · rcases hheld with hk | ⟨ch, ha, hm⟩
      · exact .inl hk
      -- What lists it goes on to list it as long as both last.
      · have htied : Tied u ch s := fun _ => ⟨hforgets.channelAlive ch (hlast.channelAlive ch ha), hm⟩
        exact .inr ⟨ch, ha, (hf.tied htied hs').2⟩

/-- Which subscriptions are connected at the end of a teardown. -/
theorem Falls.isConnected_iff (h : Falls asked kept w v) (hw : Sound none w) (hback : Backed kept v)
    (hasked : ∀ s, asked s → v.isConnected s = false) : v.isConnected s = true ↔ w.isConnected s = true ∧ ¬ asked s ∧
      (∀ ch, w.channelAlive ch = true → (s, .own s) ∈ (w.registry ch).entries → v.channelAlive ch = true) ∧
        (kept s ∨ ∃ ch, v.channelAlive ch = true ∧ (s, .own s) ∈ (w.registry ch).entries) := by
  have hforgets := h.forgets
  constructor
  · intro hs
    refine ⟨hforgets.isConnected s hs, fun hask => ?_, fun ch ha hm => ?_, ?_⟩
    · rw [hasked s hask] at hs
      cases hs
    · exact (h.tied (fun _ => ⟨ha, hm⟩) hs).1
    · rcases hback s hs with hk | ⟨ch, ha, hm⟩
      · exact .inl hk
      · exact .inr ⟨ch, ha, hforgets.mem_registry ha hm⟩
  · rintro ⟨hs, hno, hlists, hheld⟩
    exact h.stays hw hs hno hlists hheld

end

/-! ## Letting go -/

section

variable {asked kept : Nat → Prop} {held : Ref → Bool} {w : World}

theorem falls_settleChannels : ∀ (chs : List ChannelId) (w : World),
    Falls asked kept w (chs.foldl (fun w ch => w.settleChannel held ch) w)
  | [], _ => .refl
  | ch :: chs, w => by
    have hone : Falls asked kept w (w.settleChannel held ch) := by
      unfold World.settleChannel
      split
      · exact .refl
      · split
        · exact .refl
        · exact .single (.endChannel ch)
    exact .trans hone (falls_settleChannels chs _)

/-- What is looked after ends and closes for a reason. -/
theorem falls_settle (hw : Sound none w) (hheld : ∀ s, kept s → held (.handle (.own s)) = true) (r : Ref) :
    Falls asked kept w (w.settle held r) := by
  cases r with
  | component c =>
    show Falls asked kept w (w.settleComponent held c)
    unfold World.settleComponent
    split
    · unfold World.endComponent
      split
      · exact .refl
      · rename_i comp _
        have hdead : Falls asked kept w (w.markDead c) := .single (.markDead c)
        have hnote : Falls asked kept (w.markDead c) ((w.markDead c).note (.dead comp.name)) := .single (.relog _)
        exact .trans hdead (.trans hnote (falls_settleChannels _ _))
    · exact .refl
  | channel ch => exact falls_settleChannels [ch] w
  | handle h =>
    cases h with
    | foreign f => exact .refl
    | own s =>
      show Falls asked kept w (if held (.handle (.own s)) || w.isRegistered (.own s) then w else w.close s)
      split
      · exact .refl
      · rename_i hfree
        rw [Bool.or_eq_true, not_or] at hfree
        -- It is neither held nor listed, so it is closed like one that has been asked for.
        exact .single (.close s (.inr ⟨fun hk => hfree.1 (hheld s hk),
          fun hl => hfree.2 ((isRegistered_own_iff hw).2 hl)⟩))
  | signal g => exact .refl
  | callback c => exact .refl

/-- A handle through which somebody closes. -/
theorem falls_closeHandle (a : Handle) (h : ∀ s, a = .own s → asked s) : Falls asked kept w (w.closeHandle a) := by
  cases a with
  | own s => exact .single (.close s (.inl (h s rfl)))
  | foreign f =>
    rcases closeHandle_foreign w f with hf | ⟨e, hf⟩ <;> rw [hf]
    · exact .refl
    · exact .trans (.single (.relog _)) (.single (.deny f))

end

end Conduit.World
