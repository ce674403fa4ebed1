/-
Well-formed wirings. `Sound`: a subscription goes from an output to an input; every registry holds
handles that exist, each under the number that it shows; no foreign handle shows a number that has
not been given out; and a channel that has ended holds nothing. Every history keeps it. While a
channel is being drained it is excused from the last part.

Most of what happens takes something away and leaves the rest (`Shrinks`), so that one lemma serves
all of it.
-/
import Conduit.Proofs.Wiring.Act

namespace Conduit.World

/-! ## Changes that only take away -/

/-- `v` is `w` with less in its registries, and with other tokens, signals, log and ledger. -/
structure Shrinks (w v : World) : Prop where
  ends : ∀ s, (v.subscription? s).map (fun sub => (sub.output, sub.input)) =
    (w.subscription? s).map fun sub => (sub.output, sub.input)
  length : v.subscriptions.length = w.subscriptions.length
  channelAlive : ∀ ch, v.channelAlive ch = w.channelAlive ch
  slotAt? : ∀ ch, v.slotAt? ch = w.slotAt? ch
  output : ∀ ch, (v.signal? ch).isSome = (w.signal? ch).isSome
  registry : ∀ ch e, e ∈ (v.registry ch).entries → e ∈ (w.registry ch).entries
  foreigns : v.foreigns.map (·.id) = w.foreigns.map (·.id)

namespace Shrinks

variable {u v w : World}

theorem refl (w : World) : Shrinks w w :=
  ⟨fun _ => rfl, rfl, fun _ => rfl, fun _ => rfl, fun _ => rfl, fun _ _ h => h, rfl⟩

theorem trans (h₁ : Shrinks w v) (h₂ : Shrinks v u) : Shrinks w u :=
  ⟨fun s => (h₂.ends s).trans (h₁.ends s), h₂.length.trans h₁.length,
    fun ch => (h₂.channelAlive ch).trans (h₁.channelAlive ch), fun ch => (h₂.slotAt? ch).trans (h₁.slotAt? ch),
    fun ch => (h₂.output ch).trans (h₁.output ch), fun ch e he => h₁.registry ch e (h₂.registry ch e he),
    h₂.foreigns.trans h₁.foreigns⟩

/-- A change of registries and signals shrinks when no entry and no signal is added. -/
theorem of_sameParts (h : SameParts v w) (output : ∀ ch, (v.signal? ch).isSome = (w.signal? ch).isSome)
    (registry : ∀ ch e, e ∈ (v.registry ch).entries → e ∈ (w.registry ch).entries) : Shrinks w v :=
  ⟨fun s => by rw [h.subscription? s], by rw [h.subscriptions], h.channelAlive, h.slotAt?, output, registry,
    by rw [h.foreigns]⟩

theorem note (w : World) (e : Entry) : Shrinks w (w.note e) :=
  of_sameParts (.note w e) (fun _ => rfl) (fun _ _ h => h)

theorem markDead (w : World) (c : ComponentId) : Shrinks w (w.markDead c) :=
  ⟨fun _ => rfl, rfl, fun _ => rfl, fun _ => rfl, fun _ => rfl, fun _ _ h => h, rfl⟩

theorem deny (w : World) (f : Nat) : Shrinks w (w.deny f) := by
  refine ⟨fun _ => rfl, rfl, fun _ => rfl, fun _ => rfl, fun _ => rfl, fun _ _ h => h, ?_⟩
  refine List.ext_getElem? fun i => ?_
  simp only [World.deny, List.getElem?_map, List.getElem?_modify]
  by_cases hi : f = i
  · subst hi; cases w.foreigns[f]? <;> simp
  · simp [hi]

theorem deregister (w : World) (ch : ChannelId) (s : Nat) : Shrinks w (w.deregister ch s) := by
  refine of_sameParts (sameParts_deregister ..) (fun o => by simp [World.deregister]) fun o e he => ?_
  rw [registry_deregister] at he
  split at he
  · exact (Registry.mem_erase.1 he).1
  · exact he

theorem disconnectByHand (w : World) (o : ChannelId) (place : Nat) : Shrinks w (w.disconnectByHand o place) := by
  refine of_sameParts (sameParts_disconnectByHand ..) (fun ch => ?_) fun ch e he => ?_
  · rw [signal?_disconnectByHand]
    split <;> simp
  · rwa [registry_disconnectByHand] at he

theorem close (w : World) (s : Nat) : Shrinks w (w.close s) := by
  cases hs : w.isConnected s with
  | false => rw [close_of_not_isConnected hs]; exact refl w
  | true =>
    obtain ⟨o, i, p, hs⟩ := isConnected_iff.1 hs
    refine ⟨fun t => ?_, by simp, fun ch => by simp, fun ch => by simp, fun ch => ?_, fun ch e he => ?_, by simp⟩
    · rw [subscription?_close]
      split
      · rw [Option.map_map]; rfl
      · rfl
    · rw [signal?_close hs]
      split <;> simp
    · rw [registry_close hs] at he
      split at he
      · exact (Registry.mem_erase.1 he).1
      · exact he

theorem closeHandle (w : World) (h : Handle) : Shrinks w (w.closeHandle h) := by
  cases h with
  | own s => exact close w s
  | foreign f =>
    rcases closeHandle_foreign w f with hf | ⟨e, hf⟩ <;> rw [hf]
    · exact refl w
    · exact (note w e).trans (deny _ f)

theorem handleId (h : Shrinks w v) (a : Handle) : v.handleId a = w.handleId a := by
  cases a with
  | own s => rfl
  | foreign f =>
    have hf := congrArg (·[f]?) h.foreigns
    simp only [List.getElem?_map] at hf
    simp only [World.handleId, hf]

theorem knows (h : Shrinks w v) {a : Handle} (ha : w.Knows a) : v.Knows a := by
  cases a with
  | own s =>
    have hs := congrArg Option.isSome (h.ends s)
    simp only [Option.isSome_map] at hs
    exact hs.trans ha
  | foreign f =>
    have hf := congrArg List.length h.foreigns
    simp only [List.length_map] at hf
    show f < v.foreigns.length
    rw [hf]
    exact ha

/-- The subscription is the one that was there before, but for its token. -/
theorem subscription? (h : Shrinks w v) {s : Nat} {sub : Subscription} (hs : v.subscription? s = some sub) :
    ∃ sub', w.subscription? s = some sub' ∧ sub'.output = sub.output ∧ sub'.input = sub.input := by
  have he := h.ends s
  rw [hs, Option.map_some] at he
  obtain ⟨sub', hs', heq⟩ := Option.map_eq_some_iff.1 he.symm
  rw [Prod.mk.injEq] at heq
  exact ⟨sub', hs', heq.1, heq.2⟩

end Shrinks

/-! ## Well-formed wirings -/

/-- A well-formed wiring in which at most the channel `dying` is being drained. -/
structure Sound (dying : Option ChannelId) (w : World) : Prop where
  output : ∀ s sub, w.subscription? s = some sub → (w.signal? sub.output).isSome
  input : ∀ s sub, w.subscription? s = some sub → w.signal? sub.input = none ∧ (w.slotAt? sub.input).isSome
  keyed : ∀ ch e, e ∈ (w.registry ch).entries → e.1 = w.handleId e.2 ∧ w.Knows e.2
  adopted : ∀ g ∈ w.foreigns, g.id ≤ w.subscriptions.length
  drained : ∀ ch, dying ≠ some ch → w.channelAlive ch = false → (w.registry ch).ids = []

namespace Sound

variable {dying : Option ChannelId} {v w : World} {ch : ChannelId}

theorem shrink (h : Sound dying w) (hs : Shrinks w v) : Sound dying v where
  output s sub hsub := by
    obtain ⟨sub', hs', ho, hi⟩ := hs.subscription? hsub
    rw [← ho, hs.output]
    exact h.output s sub' hs'
  input s sub hsub := by
    obtain ⟨sub', hs', ho, hi⟩ := hs.subscription? hsub
    obtain ⟨h1, h2⟩ := h.input s sub' hs'
    rw [← hi, hs.slotAt?, ← Option.isNone_iff_eq_none, ← Option.not_isSome, hs.output, h1]
    exact ⟨rfl, h2⟩
  keyed ch e he := by
    obtain ⟨h1, h2⟩ := h.keyed ch e (hs.registry ch e he)
    exact ⟨h1.trans (hs.handleId e.2).symm, hs.knows h2⟩
  adopted g hg := by
    have hm : g.id ∈ w.foreigns.map (·.id) := hs.foreigns ▸ List.mem_map_of_mem hg
    obtain ⟨g', hg', he⟩ := List.mem_map.1 hm
    rw [hs.length, ← he]
    exact h.adopted g' hg'
  drained ch hne ha := by
    have := h.drained ch hne ((hs.channelAlive ch).symm.trans ha)
    -- Nothing comes into a registry, so an empty one stays empty.
    rw [List.eq_nil_iff_forall_not_mem] at this ⊢
    intro k hk
    obtain ⟨a, ha⟩ := Registry.mem_ids.1 hk
    exact this k (Registry.mem_ids.2 ⟨a, hs.registry ch _ ha⟩)

/-- While a channel is drained, it may be ended and hold something. -/
theorem markEnded (h : Sound none w) : Sound (some ch) (w.markEnded ch) where
  output s sub hsub := by
    rw [signal?_markEnded]
    exact h.output s sub hsub
  input s sub hsub := by
    rw [signal?_markEnded, slotAt?_markEnded]
    exact h.input s sub hsub
  keyed c e he := by
    rw [registry_markEnded] at he
    exact h.keyed c e he
  adopted := h.adopted
  drained c hne ha := by
    have hc : c ≠ ch := fun e => hne (by rw [e])
    rw [channelAlive_markEnded] at ha
    rw [registry_markEnded]
    exact h.drained c (by simp) (by simpa [hc] using ha)

theorem finish (h : Sound (some ch) w) (hids : (w.registry ch).ids = []) : Sound none w :=
  { h with
    drained := fun c _ ha => by
      by_cases hc : some ch = some c
      · cases hc; exact hids
      · exact h.drained c hc ha }

theorem endChannel (h : Sound none w) (ch : ChannelId) : Sound none (w.endChannel ch) :=
  endChannel_induct (Sound (some ch)) h (fun _ => h.markEnded)
    (fun v id a e hv _ _ => hv.shrink (((Shrinks.deregister v ch id).trans (.note _ e)).trans (.closeHandle _ a)))
    (fun v e hv => hv.shrink (.note v e)) fun _ hv _ hids => hv.finish hids

theorem step {held : Ref → Bool} (h : Sound none w) (hs : Step held w v) : Sound none v := by
  cases hs with
  | note e => exact h.shrink (.note w e)
  | close s => exact h.shrink (.close w s)
  | deny f => exact h.shrink (.deny w f)
  | markDead c => exact h.shrink (.markDead w c)
  | endChannel ch => exact h.endChannel ch

/-- A number that is shown has been given out. -/
theorem handleId_le (h : Sound dying w) {a : Handle} (ha : w.Knows a) : w.handleId a ≤ w.subscriptions.length := by
  cases a with
  | own s => exact le_length_of_subscription? (Option.get_mem ha)
  | foreign f =>
    have hf : w.foreigns[f]? = some w.foreigns[f] := List.getElem?_eq_getElem ha
    simp only [handleId, hf, Option.map_some, Option.getD_some]
    exact h.adopted _ (List.getElem_mem ha)

theorem id_le (h : Sound dying w) {k : Nat} (hk : k ∈ (w.registry ch).ids) : k ≤ w.subscriptions.length := by
  obtain ⟨a, ha⟩ := Registry.mem_ids.1 hk
  obtain ⟨h1, h2⟩ := h.keyed ch _ ha
  exact le_of_eq_of_le h1 (h.handleId_le h2)

/-- An end of a subscription is a channel. -/
theorem slotAt?_isSome_of_signal? {g : Signal Slot} (hg : w.signal? ch = some g) : (w.slotAt? ch).isSome := by
  obtain ⟨x, hx, -⟩ := Option.bind_eq_some_iff.1 hg
  simp [slotAt?, hx]

theorem create (h : Sound none w) (name : String) (layout : Layout) : Sound none (w.create name layout).2 where
  output s sub hs := by
    rw [subscription?_create] at hs
    have ho := h.output s sub hs
    obtain ⟨g, hg⟩ := Option.isSome_iff_exists.1 ho
    obtain ⟨x, hx⟩ := Option.isSome_iff_exists.1 (slotAt?_isSome_of_signal? hg)
    rwa [signal?_create_of_some _ _ _ _ hx]
  input s sub hs := by
    rw [subscription?_create] at hs
    obtain ⟨h1, h2⟩ := h.input s sub hs
    obtain ⟨x, hx⟩ := Option.isSome_iff_exists.1 h2
    rw [signal?_create_of_some _ _ _ _ hx, slotAt?_create_of_some _ _ _ _ hx]
    exact ⟨h1, rfl⟩
  keyed ch e he := by
    rw [registry_create] at he
    obtain ⟨h1, h2⟩ := h.keyed ch e he
    rw [handleId_create]
    exact ⟨h1, knows_create name layout h2⟩
  adopted g hg := by
    rw [foreigns_create] at hg
    rw [subscriptions_create]
    exact h.adopted g hg
  drained ch _ ha := by
    rw [registry_create]
    -- A channel that is not alive after the creation was not alive before.
    have hna : w.channelAlive ch = false := by
      by_contra hal
      rw [Bool.not_eq_false] at hal
      have := (channelAlive_create w name layout ch).2 (.inl hal)
      rw [ha] at this
      cases this
    exact h.drained ch (by simp) hna

/-- A subscription is made between two living channels, so only registries of living ones grow. -/
theorem subscribed (h : Sound none w) {o i : ChannelId} {n p : Nat} {slot : Slot} {g g' : Signal Slot}
    (ho : w.channelAlive o = true) (hi : w.channelAlive i = true) (hin : w.signal? i = none)
    (hs : Subscribed w v o i n p slot g g') : Sound none v where
  output s sub hsub := by
    rw [hs.subscription?] at hsub
    rw [hs.signal?]
    split at hsub
    · cases hsub
      simp
    · split
      · rfl
      · exact h.output s sub hsub
  input s sub hsub := by
    -- The input of a subscription has no signal, and the output has one.
    have hne : ∀ {c : ChannelId}, w.signal? c = none → c ≠ o := fun hc hco => by
      rw [hco, hs.output] at hc
      cases hc
    rw [hs.subscription?] at hsub
    rw [hs.signal?, hs.slotAt?]
    split at hsub
    · cases hsub
      rw [if_neg (hne hin), hin, hs.input]
      exact ⟨rfl, rfl⟩
    · obtain ⟨h1, h2⟩ := h.input s sub hsub
      rw [if_neg (hne h1)]
      exact ⟨h1, h2⟩
  keyed ch e he := by
    have hold : e ∈ (w.registry ch).entries → e.1 = v.handleId e.2 ∧ v.Knows e.2 := fun he => by
      obtain ⟨h1, h2⟩ := h.keyed ch e he
      exact ⟨h1.trans (hs.handleId e.2).symm, hs.knows h2⟩
    rw [hs.registry] at he
    split at he
    · rcases Registry.mem_insert.1 he with he | ⟨rfl, -⟩
      · exact hold he
      · refine ⟨rfl, ?_⟩
        show (v.subscription? n).isSome
        rw [hs.subscription?, if_pos rfl]
        rfl
    · exact hold he
  adopted a ha := by
    rw [hs.foreigns] at ha
    rw [hs.length, hs.number]
    exact (h.adopted a ha).trans (Nat.le_succ _)
  drained ch _ hal := by
    rw [hs.channelAlive] at hal
    -- Both ends live, so the ended channel is neither.
    have hne : ¬ (ch = o ∨ ch = i) := by
      rintro (rfl | rfl)
      · rw [ho] at hal
        cases hal
      · rw [hi] at hal
        cases hal
    rw [hs.registry, if_neg hne]
    exact h.drained ch nofun hal

theorem subscribe (h : Sound none w) {o i : ChannelId} {n : Nat} (ho : w.channelAlive o = true)
    (hi : w.channelAlive i = true) (hin : w.signal? i = none) (hs : w.subscribe? o i = some (n, v)) :
    Sound none v := by
  obtain ⟨p, slot, g, g', hs⟩ := subscribed_of_subscribe? hin hs
  exact h.subscribed ho hi hin hs

theorem register (h : Sound none w) (hch : w.channelAlive ch = true) {a : Handle} (ha : w.Knows a) :
    Sound none (w.register ch a) := by
  have hp := sameParts_register w ch a
  have hslot : (w.slotAt? ch).isSome := by
    rw [channelAlive, Option.any_eq_true] at hch
    obtain ⟨x, hx, -⟩ := hch
    simp [slotAt?, hx]
  refine ⟨fun s sub hs => ?_, fun s sub hs => ?_, fun c e he => ?_, fun g hg => ?_, fun c _ hal => ?_⟩
  · rw [World.register, signal?_setRegistry]
    exact h.output s sub (hp.subscription? s ▸ hs)
  · rw [World.register, signal?_setRegistry, slotAt?_setRegistry]
    exact h.input s sub (hp.subscription? s ▸ hs)
  · have hkeyed : e.1 = w.handleId e.2 ∧ w.Knows e.2 := by
      rw [registry_register _ _ _ _ hslot] at he
      split at he
      · rcases Registry.mem_insert.1 he with he | ⟨rfl, -⟩
        · exact h.keyed c e he
        · exact ⟨rfl, ha⟩
      · exact h.keyed c e he
    exact hkeyed
  · exact h.adopted g hg
  · rw [hp.channelAlive] at hal
    -- The channel that gets the entry lives.
    have hne : c ≠ ch := by
      rintro rfl
      rw [hch] at hal
      cases hal
    rw [registry_register _ _ _ _ hslot, if_neg hne]
    exact h.drained c (by simp) hal

theorem adopt (h : Sound none w) {g : ForeignHandle} (hg : g.id ≤ w.subscriptions.length) :
    Sound none (w.adopt g) where
  output := h.output
  input := h.input
  drained := h.drained
  adopted a ha := by
    rcases List.mem_append.1 ha with ha | ha
    · exact h.adopted a ha
    · rw [List.mem_singleton.1 ha]
      exact hg
  keyed ch e he := by
    obtain ⟨h1, h2⟩ := h.keyed ch e he
    rcases e with ⟨k, s | f⟩
    · exact ⟨h1, h2⟩
    · refine ⟨h1.trans (handleId_foreign_adopt w g f h2).symm, ?_⟩
      have : f < w.foreigns.length := h2
      show f < (w.foreigns ++ [g]).length
      simp
      omega

/-- Every history keeps a wiring well formed. -/
theorem act {may : License} (h : Sound none w) (ha : Act may w v) : Sound none v := by
  cases ha with
  | relog log => exact h.shrink (.of_sameParts ⟨rfl, rfl, rfl, fun _ => rfl, fun _ => rfl⟩
      (fun _ => rfl) fun _ _ h => h)
  | step hs => exact h.step hs
  | create name layout => exact h.create name layout
  | subscribe _ ho hi hin hs => exact h.subscribe ho hi hin hs
  | register _ hch hh => exact h.register hch hh
  | deregister _ ch s => exact h.shrink (.deregister w ch s)
  | adopt g hg => exact h.adopt hg
  | disconnectByHand _ o place => exact h.shrink (.disconnectByHand w o place)

end Sound

end Conduit.World
