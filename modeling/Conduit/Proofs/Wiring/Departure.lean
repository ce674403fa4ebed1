/-
The death of a component. It has its inputs and its outputs in the order of their positions
(`Arranged`), and when it goes, those of them that nothing else holds die one after another in that
order (`Deaths`). So while an input dies the outputs of the same component live still, and hear of it.
-/
import Conduit.Proofs.Wiring.Dying
import Conduit.Proofs.Wiring.Prompt

namespace Conduit.World

/-! ## Positions -/

/-- Components list their channels, and these only, by position. -/
structure Arranged (w : World) : Prop where
  inputs : ∀ (k : Nat) comp (n : Nat) ch, w.components[k]? = some comp → comp.inputs[n]? = some ch →
    w.slotAt? ch = some (.handler k n) ∧ w.signal? ch = none
  outputs : ∀ (k : Nat) comp (n : Nat) ch, w.components[k]? = some comp → comp.outputs[n]? = some ch →
    w.slotAt? ch = some (.handler k n) ∧ (w.signal? ch).isSome = true
  listed : ∀ ch k p, w.slotAt? ch = some (.handler k p) →
    ∃ comp, w.components[k]? = some comp ∧ ch ∈ comp.inputs ++ comp.outputs

namespace Arranged

variable {v w : World}

/-- Whatever adds no component and no signal and takes none away. -/
theorem congr (h : Arranged w) (hlength : v.components.length = w.components.length)
    (hc : ∀ (k : Nat) comp, v.components[k]? = some comp →
      ∃ comp', w.components[k]? = some comp' ∧ comp.inputs = comp'.inputs ∧ comp.outputs = comp'.outputs)
    (hs : ∀ ch, v.slotAt? ch = w.slotAt? ch) (hg : ∀ ch, (v.signal? ch).isSome = (w.signal? ch).isSome) :
      Arranged v := by
  constructor
  · intro k comp n ch hcomp hn
    obtain ⟨comp', hcomp', hin, -⟩ := hc k comp hcomp
    obtain ⟨hslot, hsig⟩ := h.inputs k comp' n ch hcomp' (hin ▸ hn)
    refine ⟨(hs ch).trans hslot, ?_⟩
    rw [← Option.not_isSome_iff_eq_none, hg, hsig]
    simp
  · intro k comp n ch hcomp hn
    obtain ⟨comp', hcomp', -, hout⟩ := hc k comp hcomp
    obtain ⟨hslot, hsig⟩ := h.outputs k comp' n ch hcomp' (hout ▸ hn)
    exact ⟨(hs ch).trans hslot, (hg ch).trans hsig⟩
  · intro ch k p hslot
    obtain ⟨comp', hcomp', hm⟩ := h.listed ch k p (hs ch ▸ hslot)
    have hlt : k < v.components.length := hlength ▸ (List.getElem?_eq_some_iff.1 hcomp').1
    obtain ⟨comp'', hcomp'', hin, hout⟩ := hc k _ (List.getElem?_eq_getElem hlt)
    obtain rfl : comp'' = comp' := Option.some.inj (hcomp''.symm.trans hcomp')
    exact ⟨_, List.getElem?_eq_getElem hlt, by rwa [hin, hout]⟩

theorem of_same (h : Arranged w) (hs : SameLives v w) (hg : ∀ ch, (v.signal? ch).isSome = (w.signal? ch).isSome) :
    Arranged v :=
  h.congr (by rw [hs.components]) (fun _ comp hcomp => ⟨comp, hs.components ▸ hcomp, rfl, rfl⟩) hs.slotAt? hg

theorem isSome_signal? (h : Forgets w v) (ch : ChannelId) : (v.signal? ch).isSome = (w.signal? ch).isSome := by
  have hn := congrArg Option.isSome (h.numbering? ch)
  simpa [numbering?] using hn

theorem markDead (h : Arranged w) (c : ComponentId) : Arranged (w.markDead c) := by
  refine h.congr (List.length_modify ..) (fun k comp hcomp => ?_) (fun _ => rfl) fun _ => rfl
  rw [World.markDead, List.getElem?_modify] at hcomp
  obtain ⟨comp', hcomp', rfl⟩ := Option.map_eq_some_iff.1 hcomp
  refine ⟨comp', hcomp', ?_⟩
  split
  · exact ⟨rfl, rfl⟩
  · exact ⟨rfl, rfl⟩

theorem endChannel (h : Arranged w) (ch : ChannelId) : Arranged (w.endChannel ch) := by
  have hends := ends_endChannel w ch
  apply h.congr
  · rw [hends.components]
  · intro k comp hcomp
    exact ⟨comp, hends.components ▸ hcomp, rfl, rfl⟩
  · exact hends.slotAt?
  · exact isSome_signal? (.endChannel w ch)

theorem step {held : Ref → Bool} (h : Arranged w) (hs : Step held w v) : Arranged v := by
  cases hs with
  | note e => exact h.of_same (.of_sameParts (.note w e)) fun _ => rfl
  | close s => exact h.of_same (.closeHandle w (.own s)) (isSome_signal? (.close w s))
  | deny f => exact h.of_same ⟨rfl, fun _ => rfl, fun _ => rfl⟩ fun _ => rfl
  | markDead c _ => exact h.markDead c
  | endChannel ch _ _ => exact h.endChannel ch

/-- A new input stands at its position. -/
theorem newChannels_input (owner : ComponentId) (layout : Layout) {n : Nat} (hn : n < layout.inputs.length) :
    ∃ x, (newChannels owner layout)[n]? = some x ∧ x.slot = .handler owner n ∧ x.signal? = none := by
  refine ⟨{ owner, position := n, payload := layout.inputs[n], role := .input layout.synchronized }, ?_, rfl, rfl⟩
  unfold newChannels
  rw [List.getElem?_append_left (by simpa using hn)]
  simp [hn]

/-- A new output stands behind the inputs, at its position. -/
theorem newChannels_output (owner : ComponentId) (layout : Layout) {n : Nat} (hn : n < layout.outputs.length) :
    ∃ x, (newChannels owner layout)[layout.inputs.length + n]? = some x ∧ x.slot = .handler owner n ∧
      x.signal?.isSome = true := by
  refine ⟨{ owner, position := n, payload := layout.outputs[n].1,
            role := .output (newSignal layout.outputs[n].2) (layout.outputs[n].2 == .counting) }, ?_, rfl, rfl⟩
  unfold newChannels
  rw [List.getElem?_append_right (by simp)]
  simp [hn]

theorem create (h : Arranged w) (name : String) (layout : Layout) : Arranged (w.create name layout).2 := by
  have hcomps := congrArg (fun r => r.2.components) (create_def w name layout)
  have hchans := congrArg (fun r => r.2.channels) (create_def w name layout)
  dsimp only at hcomps hchans
  have hnew : ∀ j x, (newChannels w.components.length layout)[j]? = some x →
      (w.create name layout).2.channels[w.channels.length + j]? = some x := by
    intro j x hx
    rw [hchans, List.getElem?_append_right (Nat.le_add_right ..), Nat.add_sub_cancel_left, hx]
  -- The component is one from before or the new one, at the end.
  have hcases : ∀ (k : Nat) comp, (w.create name layout).2.components[k]? = some comp →
      w.components[k]? = some comp ∨ (k = w.components.length ∧
        comp.inputs = (List.range layout.inputs.length).map (w.channels.length + ·) ∧
        comp.outputs = (List.range layout.outputs.length).map (w.channels.length + layout.inputs.length + ·)) := by
    intro k comp hcomp
    rw [hcomps] at hcomp
    rcases lt_or_ge k w.components.length with hlt | hge
    · rw [List.getElem?_append_left hlt] at hcomp
      exact .inl hcomp
    · obtain rfl : k = w.components.length := by
        obtain ⟨hlen, -⟩ := List.getElem?_eq_some_iff.1 hcomp
        rw [List.length_append, List.length_singleton] at hlen
        omega
      rw [List.getElem?_concat_length] at hcomp
      cases hcomp
      exact .inr ⟨rfl, rfl, rfl⟩
  constructor
  · intro k comp n ch hcomp hn
    rcases hcases k comp hcomp with hold | ⟨rfl, hin, -⟩
    · obtain ⟨hslot, hsig⟩ := h.inputs k comp n ch hold hn
      exact ⟨slotAt?_create_of_some _ _ _ _ hslot, (signal?_create_of_some _ _ _ _ hslot).trans hsig⟩
    · rw [hin, List.getElem?_map] at hn
      obtain ⟨j, hj, rfl⟩ := Option.map_eq_some_iff.1 hn
      obtain ⟨hlt, rfl⟩ := List.getElem?_eq_some_iff.1 hj
      rw [List.length_range] at hlt
      rw [List.getElem_range]
      obtain ⟨x, hx, hslot, hsig⟩ := newChannels_input w.components.length layout hlt
      constructor
      · rw [slotAt?, hnew n x hx, Option.map_some, hslot]
      · rw [signal?, hnew n x hx, Option.bind_some, hsig]
  · intro k comp n ch hcomp hn
    rcases hcases k comp hcomp with hold | ⟨rfl, -, hout⟩
    · obtain ⟨hslot, hsig⟩ := h.outputs k comp n ch hold hn
      exact ⟨slotAt?_create_of_some _ _ _ _ hslot,
        (congrArg Option.isSome (signal?_create_of_some _ _ _ _ hslot)).trans hsig⟩
    · rw [hout, List.getElem?_map] at hn
      obtain ⟨j, hj, rfl⟩ := Option.map_eq_some_iff.1 hn
      obtain ⟨hlt, rfl⟩ := List.getElem?_eq_some_iff.1 hj
      rw [List.length_range] at hlt
      rw [List.getElem_range, Nat.add_assoc]
      obtain ⟨x, hx, hslot, hsig⟩ := newChannels_output w.components.length layout hlt
      constructor
      · rw [slotAt?, hnew _ x hx, Option.map_some, hslot]
      · rw [signal?, hnew _ x hx, Option.bind_some, hsig]
  · intro ch k p hslot
    exact listed_create h.listed name layout hslot

theorem act {may : License} (h : Arranged w) (ha : Act may w v) : Arranged v := by
  -- What arranges the channels changes where a component is created, and nowhere else.
  cases ha with
  | relog log => exact h.of_same ⟨rfl, fun _ => rfl, fun _ => rfl⟩ fun _ => rfl
  | step hs => exact h.step hs
  | create name layout => exact h.create name layout
  | subscribe _ _ _ hin hs =>
    obtain ⟨p, slot, g, g', hs⟩ := subscribed_of_subscribe? hin hs
    refine h.of_same (.subscribe hs) fun ch => ?_
    rw [hs.signal?]
    split
    · rename_i hch
      rw [hch, hs.output]
      rfl
    · rfl
  | @register _ ch _ a _ =>
    apply h.of_same (.of_sameParts (sameParts_register ..))
    intro o
    simp [World.register]
  | deregister _ ch s =>
    apply h.of_same (.of_sameParts (sameParts_deregister ..))
    intro o
    simp [World.deregister]
  | adopt g _ => exact h.of_same ⟨rfl, fun _ => rfl, fun _ => rfl⟩ fun _ => rfl
  | disconnectByHand _ o p =>
    apply h.of_same (.of_sameParts (sameParts_disconnectByHand ..))
    intro ch
    rw [signal?_disconnectByHand]
    split <;> simp

/-- Whatever happens, components keep their channels. -/
theorem acts {may : License} (h : Arranged w) (ha : Acts may w v) : Arranged v :=
  ha.induct (P := Arranged) (fun _ _ hu hact => hu.act hact) h

theorem empty : Arranged {} := ⟨nofun, nofun, nofun⟩

/-- A component lists no channel twice. -/
theorem nodup (h : Arranged w) {k : Nat} {comp : Component} (hcomp : w.components[k]? = some comp) :
    (comp.inputs ++ comp.outputs).Nodup := by
  have hinj : ∀ {chs : List ChannelId}, (∀ (n : Nat) ch, chs[n]? = some ch → w.slotAt? ch = some (.handler k n)) →
      chs.Nodup := by
    intro chs hslot
    rw [List.nodup_iff_getElem?_ne_getElem?]
    intro m n hmn hn he
    have hm := hslot m chs[m] (List.getElem?_eq_getElem (Nat.lt_trans hmn hn))
    rw [List.getElem?_eq_getElem (Nat.lt_trans hmn hn), List.getElem?_eq_getElem hn, Option.some.injEq] at he
    rw [he, hslot n chs[n] (List.getElem?_eq_getElem hn)] at hm
    cases hm
    exact absurd hmn (Nat.lt_irrefl m)
  apply List.Nodup.append
  · exact hinj fun n ch hn => (h.inputs k comp n ch hcomp hn).1
  · exact hinj fun n ch hn => (h.outputs k comp n ch hcomp hn).1
  · -- An input has no signal.
    intro ch hin hout
    obtain ⟨m, hm⟩ := List.getElem?_of_mem hin
    obtain ⟨n, hn⟩ := List.getElem?_of_mem hout
    have hsome := (h.outputs k comp n ch hcomp hn).2
    rw [(h.inputs k comp m ch hcomp hm).2] at hsome
    cases hsome

end Arranged

/-! ## The channels of a dead component -/

/-- Channels die one after another, and while one of them dies the later ones live. -/
inductive Deaths : World → List ChannelId → World → Prop
  | nil (w : World) : Deaths w [] w
  | cons {u v w : World} {ch : ChannelId} {chs : List ChannelId} (h : Dies ch u v)
      (later : ∀ o ∈ chs, v.channelAlive o = true) (more : Deaths v chs w) : Deaths u (ch :: chs) w

variable {w : World} {held : Ref → Bool}

/-- Of channels whose components are dead, those die that are not held. -/
theorem deaths_settleChannels : ∀ (chs : List ChannelId) {w : World}, Sound none w → Placed w → chs.Nodup →
    (∀ ch ∈ chs, w.channelAlive ch = true) →
    (∀ ch ∈ chs, ∃ k p, w.slotAt? ch = some (.handler k p) ∧ w.componentAlive k = false) →
      Deaths w (chs.filter fun ch => !held (.channel ch)) (chs.foldl (fun w ch => w.settleChannel held ch) w)
  | [], w, _, _, _, _, _ => .nil w
  | ch :: chs, w, hw, hplaced, hnodup, halive, howner => by
    rw [List.nodup_cons] at hnodup
    obtain ⟨k, p, hslot, hdead⟩ := howner ch (List.mem_cons_self ..)
    obtain ⟨x, hx, hxslot⟩ := Option.map_eq_some_iff.1 hslot
    obtain rfl : x.owner = k := by
      rw [Channel.slot, Slot.handler.injEq] at hxslot
      exact hxslot.1
    -- The owner is dead, so the channel ends if it is not held.
    have hsettle : w.settleChannel held ch = if held (.channel ch) then w else w.endChannel ch := by
      unfold settleChannel
      rw [hx]
      simp [hdead]
    rw [List.foldl_cons, List.filter_cons, hsettle]
    cases hheld : held (.channel ch) with
    | true =>
      rw [if_pos rfl, Bool.not_true, if_neg Bool.false_ne_true]
      apply deaths_settleChannels chs hw hplaced hnodup.2
      · exact fun o ho => halive o (List.mem_cons_of_mem _ ho)
      · exact fun o ho => howner o (List.mem_cons_of_mem _ ho)
    | false =>
      rw [if_neg Bool.false_ne_true, Bool.not_false, if_pos rfl]
      have hends := ends_endChannel w ch
      -- The later channels are other ones, and live on after this one has ended.
      have hlives : ∀ o ∈ chs, (w.endChannel ch).channelAlive o = true := by
        intro o ho
        have hne : o ≠ ch := by
          rintro rfl
          exact hnodup.1 ho
        rw [hends.channelAlive o hne]
        exact halive o (List.mem_cons_of_mem _ ho)
      apply Deaths.cons (dies_endChannel hw hplaced (halive ch (List.mem_cons_self ..)))
      · exact fun o ho => hlives o (List.mem_of_mem_filter ho)
      · apply deaths_settleChannels chs (hw.endChannel ch) (hplaced.endChannel ch) hnodup.2 hlives
        intro o ho
        obtain ⟨k, p, hslot, hdead⟩ := howner o (List.mem_cons_of_mem _ ho)
        refine ⟨k, p, (hends.slotAt? o).trans hslot, ?_⟩
        rw [componentAlive, hends.components]
        exact hdead

/-- With a component its channels die, inputs first, but for those that are held. -/
theorem deaths_endComponent (hw : Sound none w) (hplaced : Placed w) (howned : Owned w) (harranged : Arranged w)
    {k : ComponentId} {comp : Component} (hcomp : w.components[k]? = some comp) (hk : w.componentAlive k = true) :
    Deaths ((w.markDead k).note (.dead comp.name)) ((comp.inputs ++ comp.outputs).filter fun ch => !held (.channel ch))
      (w.endComponent held k) := by
  have hmark : Step (fun _ => false) w (w.markDead k) := .markDead k rfl
  have hnote : Step (fun _ => false) (w.markDead k) ((w.markDead k).note (.dead comp.name)) := .note _
  have hplaced' : Placed ((w.markDead k).note (.dead comp.name)) :=
    (hplaced.same (.of_eq rfl rfl rfl)).same (.of_eq rfl rfl rfl)
  rw [endComponent, hcomp]
  apply deaths_settleChannels _ ((hw.step hmark).step hnote) hplaced' (harranged.nodup hcomp)
  · intro ch hch
    obtain ⟨p, hslot⟩ := howned.listed k comp ch hcomp hch
    exact howned.spared ch k p hslot hk
  · intro ch hch
    obtain ⟨p, hslot⟩ := howned.listed k comp ch hcomp hch
    refine ⟨k, p, hslot, ?_⟩
    rw [componentAlive_note, componentAlive_markDead]
    simp

/-- `v` is `w` after the component `k` has died. -/
structure Departs (held : Ref → Bool) (k : ComponentId) (comp : Component) (w v : World) : Prop where
  component : w.components[k]? = some comp
  alive : w.componentAlive k = true
  unheld : held (.component k) = false
  /-- Its channels live all before. -/
  channels : ∀ ch, ch ∈ comp.inputs ++ comp.outputs ↔ ∃ p, w.slotAt? ch = some (.handler k p)
  lives : ∀ ch ∈ comp.inputs ++ comp.outputs, w.channelAlive ch = true
  inputs : ∀ (p : Nat) ch, comp.inputs[p]? = some ch → w.slotAt? ch = some (.handler k p) ∧ w.signal? ch = none
  outputs : ∀ (p : Nat) ch, comp.outputs[p]? = some ch →
    w.slotAt? ch = some (.handler k p) ∧ (w.signal? ch).isSome = true
  /-- Then inputs die by position and outputs by position, but for those that are held, one after another. -/
  deaths : Deaths ((w.markDead k).note (.dead comp.name))
    ((comp.inputs ++ comp.outputs).filter fun ch => !held (.channel ch)) v

/-- A wiring on which everything is in its place. -/
structure Whole (w : World) : Prop where
  sound : Sound none w
  placed : Placed w
  owned : Owned w
  arranged : Arranged w

/-- Whatever happens, it stays so. -/
theorem Whole.acts {may : License} {v : World} (h : Whole w) (ha : Acts may w v) : Whole v where
  sound := ha.induct (P := Sound none) (fun _ _ hu hact => hu.act hact) h.sound
  placed := ha.rewires.induct (P := Placed) (fun _ _ hu hr => hu.rewire hr) h.placed
  owned := ha.induct (P := Owned) (fun _ _ hu hact => hu.act hact) h.owned
  arranged := h.arranged.acts ha

theorem Whole.departs_endComponent (h : Whole w) {k : ComponentId} (hk : w.componentAlive k = true)
    (hheld : held (.component k) = false) :
    ∃ comp, Departs held k comp w (w.endComponent held k) := by
  obtain ⟨comp, hcomp, -⟩ := (Option.any_eq_true _ _).1 hk
  -- All channels of the component are its own, and live as long as it does.
  have hlisted : ∀ ch ∈ comp.inputs ++ comp.outputs, ∃ p, w.slotAt? ch = some (.handler k p) := fun ch hch =>
    h.owned.listed k comp ch hcomp hch
  refine
    ⟨comp,
      { component := hcomp
        alive := hk
        unheld := hheld
        channels := fun ch => ⟨hlisted ch, ?_⟩
        lives := fun ch hch => ?_
        inputs := fun p ch hp => h.arranged.inputs k comp p ch hcomp hp
        outputs := fun p ch hp => h.arranged.outputs k comp p ch hcomp hp
        deaths := deaths_endComponent h.sound h.placed h.owned h.arranged hcomp hk }⟩
  · rintro ⟨p, hslot⟩
    obtain ⟨comp', hcomp', hm⟩ := h.arranged.listed ch k p hslot
    obtain rfl : comp' = comp := Option.some.inj (hcomp'.symm.trans hcomp)
    exact hm
  · obtain ⟨p, hslot⟩ := hlisted ch hch
    exact h.owned.spared ch k p hslot hk

theorem componentAlive_settleChannel (w : World) (held : Ref → Bool) (ch : ChannelId) (k : ComponentId) :
    (w.settleChannel held ch).componentAlive k = w.componentAlive k := by
  unfold settleChannel
  split
  · rfl
  · split
    · rfl
    · rw [componentAlive, (ends_endChannel w ch).components, componentAlive]

/-- To look after a part ends a component only if it is that part, and nothing holds it. -/
theorem settle_ends {r : Ref} {k : ComponentId} (hk : w.componentAlive k = true)
    (hdead : (w.settle held r).componentAlive k = false) :
    r = .component k ∧ held (.component k) = false ∧ w.settle held r = w.endComponent held k := by
  have hsame : ∀ {v : World}, v.componentAlive k = w.componentAlive k → v.componentAlive k ≠ false := by
    intro v hv
    rw [hv, hk]
    simp
  cases r with
  | component c =>
    by_cases hfree : (w.componentAlive c && !held (.component c)) = true
    · have hsettle : w.settle held (.component c) = w.endComponent held c := by
        rw [settle, settleComponent, if_pos hfree]
      rw [Bool.and_eq_true, Bool.not_eq_true'] at hfree
      obtain ⟨comp, hcomp, -⟩ := (Option.any_eq_true _ _).1 hfree.1
      -- The channels that are settled behind it do not bring it back, so it is this one that died.
      have hchannels : ∀ (chs : List ChannelId) (v : World),
          (chs.foldl (fun w ch => w.settleChannel held ch) v).componentAlive k = v.componentAlive k := by
        intro chs
        induction chs with
        | nil => exact fun _ => rfl
        | cons ch chs ih => exact fun v => (ih _).trans (componentAlive_settleChannel v held ch k)
      obtain rfl : k = c := by
        rw [hsettle, endComponent, hcomp] at hdead
        simpa [hchannels, hk] using hdead
      exact ⟨rfl, hfree.2, hsettle⟩
    · rw [settle, settleComponent, if_neg hfree, hk] at hdead
      cases hdead
  | channel ch => exact absurd hdead (hsame (componentAlive_settleChannel w held ch k))
  | handle a => exact absurd hdead (hsame ((SameLives.letGo w held a).componentAlive k))
  | signal g => exact absurd hdead (hsame rfl)
  | callback c => exact absurd hdead (hsame rfl)

theorem Whole.settle_departs (h : Whole w) {r : Ref} {k : ComponentId} (hk : w.componentAlive k = true)
    (hdead : (w.settle held r).componentAlive k = false) :
    r = .component k ∧ ∃ comp, Departs held k comp w (w.settle held r) := by
  obtain ⟨hr, hheld, hsettle⟩ := settle_ends hk hdead
  refine ⟨hr, ?_⟩
  rw [hsettle]
  exact h.departs_endComponent hk hheld

/-! ## Channels -/

/-- The only act that ends a channel is its death, and its component is dead then. -/
theorem Act.endChannel_of_dies {may : License} {v : World} (h : Act may w v) {ch : ChannelId}
    (ha : w.channelAlive ch = true) (hd : v.channelAlive ch = false) :
    v = w.endChannel ch ∧ ∀ k p, w.slotAt? ch = some (.handler k p) → w.componentAlive k = false := by
  have hsame : v.channelAlive ch = w.channelAlive ch → False := by
    intro he
    rw [hd, ha] at he
    cases he
  -- Of all acts only the end of a channel makes a channel die.
  cases h with
  | relog log => exact absurd rfl hsame
  | step hs =>
    cases hs with
    | note e => exact absurd rfl hsame
    | close s => exact absurd (channelAlive_close ..) hsame
    | deny f => exact absurd rfl hsame
    | markDead k _ => exact absurd rfl hsame
    | endChannel o _ howner =>
      obtain rfl : ch = o := by
        rw [channelAlive_endChannel, ha, Bool.true_and] at hd
        simpa using hd
      exact ⟨rfl, howner⟩
  | create name layout =>
    rw [(channelAlive_create w name layout ch).2 (.inl ha)] at hd
    cases hd
  | subscribe _ _ _ hin hs =>
    obtain ⟨p, slot, g, g', hs⟩ := subscribed_of_subscribe? hin hs
    exact absurd (hs.channelAlive ch) hsame
  | register _ _ _ => exact absurd ((sameParts_register ..).channelAlive ch) hsame
  | deregister _ o s => exact absurd ((sameParts_deregister ..).channelAlive ch) hsame
  | adopt g _ => exact absurd rfl hsame
  | disconnectByHand _ o p => exact absurd ((sameParts_disconnectByHand ..).channelAlive ch) hsame

/-- So a channel that has died in between has died as channels do. -/
theorem Acts.dies {may : License} {v : World} (h : Acts may w v) (hw : Whole w) {ch : ChannelId}
    (ha : w.channelAlive ch = true) (hd : v.channelAlive ch = false) :
    ∃ x, Acts may w x ∧ (∀ k p, x.slotAt? ch = some (.handler k p) → x.componentAlive k = false) ∧
      Dies ch x (x.endChannel ch) ∧ Acts may (x.endChannel ch) v := by
  induction h with
  | refl =>
    rw [ha] at hd
    cases hd
  | @tail u v hu hact ih =>
    cases hlast : u.channelAlive ch with
    | false =>
      obtain ⟨x, hx, howner, hdies, hmore⟩ := ih hlast
      exact ⟨x, hx, howner, hdies, .tail hmore hact⟩
    | true =>
      obtain ⟨rfl, howner⟩ := hact.endChannel_of_dies hlast hd
      have hwhole := hw.acts hu
      exact ⟨u, hu, howner, dies_endChannel hwhole.sound hwhole.placed hlast, .refl⟩

end Conduit.World
