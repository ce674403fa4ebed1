/-
What is done in one part of a wiring. Every operation on parts, given by their names in the whole, does
there what it does in the part alone: closing, letting go, the ends of channels and components,
subscribing, creating. New parts have to find the places that are theirs.
-/
import Conduit.Proofs.Wiring.Parts
import Conduit.Proofs.Wiring.Prompt

namespace Conduit.World

namespace Logged

variable {strict : Prop} {ρ : Atlas} {l m : List Entry}

theorem nil : Logged strict ρ [] [] := ⟨.nil, fun _ => rfl⟩

theorem cons (h : Logged strict ρ l m) (e : Entry) : Logged strict ρ (e :: l) (e.rename ρ :: m) :=
  ⟨h.perm.cons _, fun hs => by rw [h.same hs, List.map_cons]⟩

theorem append (h : Logged strict ρ l m) (new : List Entry) :
    Logged strict ρ (new ++ l) (new.map (Entry.rename ρ) ++ m) :=
  ⟨by rw [List.map_append]; exact h.perm.append_left _, fun hs => by rw [h.same hs, List.map_append]⟩

theorem length (h : Logged strict ρ l m) : m.length = l.length := by
  rw [h.perm.length_eq, List.length_map]

end Logged

namespace Merge

variable {strict : Prop} {ρ σ : Atlas} {n : Kind → Nat} {u v w : World}

/-! ## Single changes -/

section Changes

variable (h : Merge strict ρ σ n v u w)
include h

theorem note (e : Entry) : Merge strict ρ σ n (v.note e) u (w.note (e.rename ρ)) :=
  { h with log := h.log.cons e }

theorem record (d : Deed) : Merge strict ρ σ n (v.record d) u (w.record (d.rename ρ)) :=
  { h with ledger := h.ledger.left }

theorem modifyChannel (ch : Nat) {a a' : Channel → Channel} (ha : ∀ c, a' (c.rename ρ) = (a c).rename ρ) :
    Merge strict ρ σ n (v.modifyChannel ch a) u (w.modifyChannel (ρ.channel ch) a') :=
  { h with
    channels := h.channels.modify (h.beside.split .channel) ch ha
    channels_length := (List.length_modify ..).trans h.channels_length }

theorem setRegistry (ch : Nat) (r : Registry Handle) :
    Merge strict ρ σ n (v.setRegistry ch r) u (w.setRegistry (ρ.channel ch) (r.rename ρ)) :=
  h.modifyChannel ch fun _ => rfl

theorem setSignal (ch : Nat) (g : Signal Slot) :
    Merge strict ρ σ n (v.setSignal ch g) u (w.setSignal (ρ.channel ch) (g.rename ρ)) :=
  h.modifyChannel ch fun c => c.setSignal_rename g

theorem markEnded (ch : Nat) : Merge strict ρ σ n (v.markEnded ch) u (w.markEnded (ρ.channel ch)) := by
  have hch : Merge strict ρ σ n (v.modifyChannel ch fun c => { c with alive := false }) u
      (w.modifyChannel (ρ.channel ch) fun c => { c with alive := false }) := h.modifyChannel ch fun _ => rfl
  exact hch.record (.ended ch)

theorem dropToken (s : Nat) : Merge strict ρ σ n (v.dropToken (s + 1)) u (w.dropToken (ρ.id (s + 1))) :=
  { h with
    subscriptions := h.subscriptions.modify (h.beside.split .subscription) s fun _ => rfl
    subscriptions_length := (List.length_modify ..).trans h.subscriptions_length }

theorem deny (f : Nat) : Merge strict ρ σ n (v.deny f) u (w.deny (ρ.foreign f)) :=
  { h with
    foreigns := h.foreigns.modify (h.beside.split .foreign) f fun _ => rfl
    foreigns_length := (List.length_modify ..).trans h.foreigns_length }

theorem markDead (c : Nat) : Merge strict ρ σ n (v.markDead c) u (w.markDead (ρ.component c)) :=
  { h with
    components := h.components.modify (h.beside.split .component) c fun _ => rfl
    components_length := (List.length_modify ..).trans h.components_length }

theorem deregister (ch s : Nat) : Merge strict ρ σ n (v.deregister ch s) u (w.deregister (ρ.channel ch) (ρ.id s)) := by
  have hset := h.setRegistry ch ((v.registry ch).erase s)
  rw [← Registry.erase_rename, ← h.registry] at hset
  exact hset

theorem register (ch : Nat) (a : Handle) : Merge strict ρ σ n (v.register ch a) u
    (w.register (ρ.channel ch) (a.rename ρ)) := by
  have hset := h.setRegistry ch ((v.registry ch).insert (v.handleId a) a)
  rw [← Registry.insert_rename, ← h.registry, ← h.handleId] at hset
  exact hset

theorem noteIfCounting (o : Nat) (e : Entry) :
    Merge strict ρ σ n (v.noteIfCounting o e) u (w.noteIfCounting (ρ.channel o) (e.rename ρ)) := by
  unfold World.noteIfCounting
  rw [h.counts]
  split
  · exact h.note e
  · exact h

theorem disconnect (o place : Nat) : Merge strict ρ σ n (v.disconnect o place) u
    (w.disconnect (ρ.channel o) place) := by
  unfold World.disconnect
  rw [h.signal?]
  rcases v.signal? o with _ | g
  · exact h
  · rw [Option.map_some]
    dsimp only
    rw [Signal.disconnect?_rename]
    rcases g.disconnect? place with _ | g'
    · exact h.note _
    · exact h.setSignal o g'

end Changes

/-! ## Closing -/

section Closing

variable (h : Merge strict ρ σ n v u w)
include h

theorem disconnectByHand (o place : Nat) :
    Merge strict ρ σ n (v.disconnectByHand o place) u (w.disconnectByHand (ρ.channel o) place) := by
  unfold World.disconnectByHand
  rw [h.hasPlace]
  split
  · exact (h.record (.removed o place)).disconnect o place
  · exact h.disconnect o place

theorem release (s o : Nat) : Merge strict ρ σ n (v.release s o) u (w.release (ρ.id s) (ρ.channel o)) :=
  (h.noteIfCounting o .released).record (.released s)

theorem disconnectFor (s o place : Nat) :
    Merge strict ρ σ n (v.disconnectFor s o place) u (w.disconnectFor (ρ.id s) (ρ.channel o) place) := by
  have hnoted : Merge strict ρ σ n (v.noteIfCounting o .disconnected) u
      (w.noteIfCounting (ρ.channel o) .disconnected) := h.noteIfCounting o .disconnected
  unfold World.disconnectFor
  dsimp only
  rw [hnoted.hasPlace]
  exact (hnoted.record (.disconnected s _)).disconnect o place

theorem closeAtOutput (s o place : Nat) :
    Merge strict ρ σ n (v.closeAtOutput s o place) u (w.closeAtOutput (ρ.id s) (ρ.channel o) place) := by
  unfold World.closeAtOutput
  rw [h.channelAlive]
  split
  · exact ((h.disconnectFor s o place).release s o).deregister o s
  · exact h.release s o

theorem closeAtInput (s i : Nat) : Merge strict ρ σ n (v.closeAtInput s i) u
    (w.closeAtInput (ρ.id s) (ρ.channel i)) := by
  unfold World.closeAtInput
  rw [h.channelAlive]
  split
  · exact h.deregister i s
  · exact h

theorem close (s : Nat) : Merge strict ρ σ n (v.close s) u (w.close (ρ.id s)) := by
  unfold World.close
  rw [h.subscription?]
  cases s with
  | zero => exact h
  | succ s =>
    rcases v.subscription? (s + 1) with _ | ⟨o, i, _ | place⟩
    · exact h
    · exact h
    · exact (((h.dropToken s).closeAtOutput (s + 1) o place).closeAtInput (s + 1) i).note (.event (.closed (s + 1)))

theorem closeHandle (a : Handle) : Merge strict ρ σ n (v.closeHandle a) u (w.closeHandle (a.rename ρ)) := by
  cases a with
  | own s => exact h.close s
  | foreign f =>
    unfold World.closeHandle
    dsimp only [Handle.rename]
    rw [h.foreigns.left]
    rcases v.foreigns[f]? with _ | g
    · exact h
    · exact (h.note (.foreignClose g.name)).deny f

end Closing

theorem closeAll : ∀ (hs : List Handle) {v w : World}, Merge strict ρ σ n v u w →
    Merge strict ρ σ n (v.closeAll hs) u (w.closeAll (hs.map (Handle.rename ρ)))
  | [], _, _, h => h
  | a :: hs, v, w, h => by
    have hnote := h.note (.event (.draining (v.handleId a)))
    have hrest := closeAll hs (hnote.closeHandle a)
    rw [World.closeAll, World.closeAll, List.map_cons, List.foldl_cons, List.foldl_cons, h.handleId]
    exact hrest

/-- A channel is drained as long as it is when the part is alone. -/
theorem drain (ch : Nat) : ∀ (rounds : Nat) {v w : World} (closed : Nat), Merge strict ρ σ n v u w →
    Merge strict ρ σ n (World.drain ch rounds v closed).1 u (World.drain (ρ.channel ch) rounds w closed).1 ∧
      (World.drain (ρ.channel ch) rounds w closed).2 = (World.drain ch rounds v closed).2
  | 0, _, _, _, h => ⟨h, rfl⟩
  | rounds + 1, v, w, closed, h => by
    unfold World.drain
    rw [h.registry, Registry.popMin?_rename]
    rcases (v.registry ch).popMin? with _ | ⟨⟨s, a⟩, rest⟩
    · exact ⟨h, rfl⟩
    · exact drain ch rounds (closed + 1) (((h.setRegistry ch rest).note (.event (.draining s))).closeHandle a)

theorem drainAll (h : Merge strict ρ σ n v u w) (ch : Nat) (d : Direction) :
    Merge strict ρ σ n (v.drainAll ch d) u (w.drainAll (ρ.channel ch) d) := by
  obtain ⟨hdrained, hcount⟩ := drain ch (v.registry ch).size 0 h
  unfold World.drainAll
  rw [h.registry, Registry.size_rename]
  dsimp only
  split
  · exact h
  · rw [hcount]
    exact hdrained.note (.event (.channelDropped d _))

theorem endChannel (h : Merge strict ρ σ n v u w) (ch : Nat) : Merge strict ρ σ n (v.endChannel ch) u
    (w.endChannel (ρ.channel ch)) := by
  unfold World.endChannel
  rw [h.channels.left]
  rcases v.channels[ch]? with _ | c
  · exact h
  · have hended := (h.markEnded ch).drainAll ch c.direction
    show Merge strict ρ σ n (if c.alive then _ else v) u (if c.alive then _ else w)
    dsimp only
    rw [Channel.direction_rename, Channel.counts_rename]
    split
    · split
      · exact hended.note .signalDead
      · exact hended
    · exact h

/-! ## Letting go -/

section LetGo

-- What stands for nothing is let go for nothing, whoever holds it.
variable {held held' : Ref → Bool} (hheld : ∀ r, r ≠ .handle (.own 0) → held' (r.rename ρ) = held r)
include hheld

theorem letGo (h : Merge strict ρ σ n v u w) (a : Handle) :
    Merge strict ρ σ n (v.letGo held a) u (w.letGo held' (a.rename ρ)) := by
  cases a with
  | foreign f => exact h
  | own s =>
    show Merge strict ρ σ n (if held (.handle (.own s)) || v.isRegistered (.own s) then v else v.close s) u
      (if held' (.handle (.own (ρ.id s))) || w.isRegistered (.own (ρ.id s)) then w else w.close (ρ.id s))
    -- Number zero stands for no subscription and may be held differently on the two sides; nothing is closed by it.
    cases s with
    | zero =>
      rw [show v.close 0 = v from rfl, show w.close (ρ.id 0) = w from rfl, ite_self, ite_self]
      exact h
    | succ s =>
      have hproper : Handle.own (s + 1) ≠ .own 0 := fun he => Nat.succ_ne_zero s (Handle.own.inj he)
      rw [show held' (.handle (.own (ρ.id (s + 1)))) = held (.handle (.own (s + 1))) from
          hheld (.handle (.own (s + 1))) fun he => hproper (Ref.handle.inj he),
        show w.isRegistered (.own (ρ.id (s + 1))) = v.isRegistered (.own (s + 1)) from h.isRegistered _ hproper]
      split
      · exact h
      · exact h.close (s + 1)

theorem settleChannel (h : Merge strict ρ σ n v u w) (ch : Nat) :
    Merge strict ρ σ n (v.settleChannel held ch) u (w.settleChannel held' (ρ.channel ch)) := by
  unfold World.settleChannel
  rw [h.channels.left]
  rcases v.channels[ch]? with _ | c
  · exact h
  · rw [Option.map_some]
    dsimp only
    rw [show w.componentAlive (c.rename ρ).owner = v.componentAlive c.owner from h.componentAlive c.owner,
      show held' (.channel (ρ.channel ch)) = held (.channel ch) from
      hheld (.channel ch) Ref.noConfusion]
    split
    · exact h
    · exact h.endChannel ch

theorem settleChannels : ∀ (chs : List Nat) {v w : World}, Merge strict ρ σ n v u w →
    Merge strict ρ σ n (chs.foldl (fun w ch => w.settleChannel held ch) v) u
      ((chs.map ρ.channel).foldl (fun w ch => w.settleChannel held' ch) w)
  | [], _, _, h => h
  | ch :: chs, _, _, h => settleChannels chs (h.settleChannel hheld ch)

theorem settleComponent (h : Merge strict ρ σ n v u w) (c : Nat) :
    Merge strict ρ σ n (v.settleComponent held c) u (w.settleComponent held' (ρ.component c)) := by
  unfold World.settleComponent World.endComponent
  rw [h.componentAlive, show held' (.component (ρ.component c)) = held (.component c) from
    hheld (.component c) Ref.noConfusion, h.components.left]
  split
  · rcases v.components[c]? with _ | comp
    · exact h
    · have hdead := (h.markDead c).note (.dead comp.name)
      have hchannels := settleChannels hheld (comp.inputs ++ comp.outputs) hdead
      rw [List.map_append] at hchannels
      exact hchannels
  · exact h

theorem settle (h : Merge strict ρ σ n v u w) (r : Ref) : Merge strict ρ σ n (v.settle held r) u
    (w.settle held' (r.rename ρ)) := by
  cases r with
  | component c => exact h.settleComponent hheld c
  | channel ch => exact h.settleChannel hheld ch
  | handle a => exact h.letGo hheld a
  | signal g => exact h
  | callback c => exact h

end LetGo

end Merge

/-! ## What is new -/

namespace Measured

variable {n : Kind → Nat} {w : World}

theorem adopt (h : Measured n w) (g : ForeignHandle) : Measured (grown n .foreign 1) (w.adopt g) where
  components_length := h.components_length.trans (grown_of_ne n 1 (by decide)).symm
  channels_length := h.channels_length.trans (grown_of_ne n 1 (by decide)).symm
  subscriptions_length := h.subscriptions_length.trans (grown_of_ne n 1 (by decide)).symm
  foreigns_length := by
    rw [grown_self, ← h.foreigns_length]
    exact List.length_append

theorem enroll (h : Measured n w) (sub : Subscription) : Measured (grown n .subscription 1) (w.enroll sub) where
  components_length := h.components_length.trans (grown_of_ne n 1 (by decide)).symm
  channels_length := h.channels_length.trans (grown_of_ne n 1 (by decide)).symm
  subscriptions_length := by
    rw [grown_self, ← h.subscriptions_length]
    exact List.length_append
  foreigns_length := h.foreigns_length.trans (grown_of_ne n 1 (by decide)).symm

theorem register (h : Measured n w) (ch : Nat) (a : Handle) : Measured n (w.register ch a) :=
  { h with channels_length := (List.length_modify ..).trans h.channels_length }

theorem subscribe? (h : Measured n w) {o i s : Nat} {w' : World} (hs : w.subscribe? o i = some (s, w')) :
    Measured (grown n .subscription 1) w' ∧ s = w.subscriptions.length + 1 := by
  unfold World.subscribe? at hs
  obtain ⟨x, -, hs⟩ := Option.bind_eq_some_iff.1 hs
  obtain ⟨y, -, hs⟩ := Option.bind_eq_some_iff.1 hs
  obtain ⟨g, -, hs⟩ := Option.bind_eq_some_iff.1 hs
  obtain ⟨⟨p, g'⟩, -, hs⟩ := Option.bind_eq_some_iff.1 hs
  cases hs
  have hsignal : Measured n (w.setSignal o g') :=
    { h with channels_length := (List.length_modify ..).trans h.channels_length }
  have henrolled := hsignal.enroll ⟨o, i, some p⟩
  have hrecorded : Measured _ (((w.setSignal o g').enroll ⟨o, i, some p⟩).record
      (.connected (w.subscriptions.length + 1) o p)) := { henrolled with }
  have hregistered := (hrecorded.register o (.own (w.subscriptions.length + 1))).register i
      (.own (w.subscriptions.length + 1))
  exact ⟨{ hregistered with }, rfl⟩

theorem create (h : Measured n w) (name : String) (layout : Layout) :
    Measured (furnished n layout) (w.create name layout).2 := by
  rw [create_def]
  refine ⟨?_, ?_, ?_, ?_⟩
  · rw [furnished, grown_of_ne _ _ (by decide), grown_self, ← h.components_length]
    exact List.length_append
  · rw [furnished, grown_self, grown_of_ne _ _ (by decide), ← h.channels_length, List.length_append, newChannels_length]
  · exact h.subscriptions_length
  · exact h.foreigns_length

end Measured

namespace Merge

variable {strict : Prop} {ρ σ : Atlas} {n : Kind → Nat} {u v w : World}

/-- Lists beside the wiring may grow. -/
theorem beyond (h : Merge strict ρ σ n v u w) {k : Kind} (hk : k = .signal ∨ k = .callback) (d : Nat) :
    Merge strict ρ σ (grown n k d) v u w := by
  have hn : ∀ j : Kind, j ≠ .signal → j ≠ .callback → grown n k d j = n j := fun j hs hc =>
    grown_of_ne n d fun hj => hk.elim (fun he => hs (hj.trans he)) fun he => hc (hj.trans he)
  exact { h with
    components_length := h.components_length.trans (hn _ (by decide) (by decide)).symm
    channels_length := h.channels_length.trans (hn _ (by decide) (by decide)).symm
    subscriptions_length := h.subscriptions_length.trans (hn _ (by decide) (by decide)).symm
    foreigns_length := h.foreigns_length.trans (hn _ (by decide) (by decide)).symm }

theorem adopt (h : Merge strict ρ σ n v u w) (hown : ρ.Owns n (grown n .foreign 1)) (g : ForeignHandle) :
    Merge strict ρ σ (grown n .foreign 1) (v.adopt g) u (w.adopt (g.rename ρ)) ∧
      w.foreigns.length = ρ.foreign v.foreigns.length := by
  have hmine : ∃ i, ρ.foreign i = w.foreigns.length := h.foreigns_length ▸ hown.grown Nat.one_pos
  exact ⟨{ h.toMeasured.adopt (g.rename ρ), h with foreigns := h.foreigns.snoc (h.beside.split .foreign) hmine g },
    (h.foreigns.next (h.beside.split .foreign) hmine).symm⟩

theorem enroll (h : Merge strict ρ σ n v u w) (hown : ρ.Owns n (grown n .subscription 1)) (sub : Subscription) :
    Merge strict ρ σ (grown n .subscription 1) (v.enroll sub) u (w.enroll (sub.rename ρ)) ∧
      w.subscriptions.length + 1 = ρ.id (v.subscriptions.length + 1) := by
  have hmine : ∃ i, ρ.subscription i = w.subscriptions.length := h.subscriptions_length ▸ hown.grown Nat.one_pos
  exact ⟨{ h.toMeasured.enroll (sub.rename ρ), h with
    subscriptions := h.subscriptions.snoc (h.beside.split .subscription) hmine sub },
    congrArg (· + 1) (h.subscriptions.next (h.beside.split .subscription) hmine).symm⟩

/-- A subscription is made in the whole if it is made in the part alone. -/
theorem subscribe? (h : Merge strict ρ σ n v u w) (o i : Nat) :
    (v.subscribe? o i = none ∧ w.subscribe? (ρ.channel o) (ρ.channel i) = none) ∨
      ∃ s t v' w', v.subscribe? o i = some (s, v') ∧ w.subscribe? (ρ.channel o) (ρ.channel i) = some (t, w') ∧
        (ρ.Owns n (grown n .subscription 1) → Merge strict ρ σ (grown n .subscription 1) v' u w' ∧ t = ρ.id s) := by
  unfold World.subscribe?
  -- Each look-up that fails for the part fails for the whole, with the name that the atlas gives.
  rw [h.channels.left o, h.channels.left i]
  rcases v.channels[o]? with _ | x
  · exact .inl ⟨rfl, rfl⟩
  rcases v.channels[i]? with _ | y
  · exact .inl ⟨rfl, rfl⟩
  dsimp only [Option.map_some, Option.bind_eq_bind, Option.bind_some]
  rw [Channel.signal?_rename]
  rcases x.signal? with _ | g
  · exact .inl ⟨rfl, rfl⟩
  dsimp only [Option.map_some, Option.bind_some]
  rw [Channel.slot_rename, Signal.connect?_rename]
  rcases g.connect? y.slot with _ | ⟨p, g'⟩
  · exact .inl ⟨rfl, rfl⟩
  refine .inr ⟨_, _, _, _, rfl, rfl, fun hown => ?_⟩
  -- The signal, the subscriptions, the account, the registries and the log change one after another.
  obtain ⟨henrolled, hid⟩ := (h.setSignal o g').enroll hown ⟨o, i, some p⟩
  have hrecorded := henrolled.record (.connected (v.subscriptions.length + 1) o p)
  have hregistered := hrecorded.register o (.own (v.subscriptions.length + 1))
  have hboth := hregistered.register i (.own (v.subscriptions.length + 1))
  have hnoted := hboth.note (.event (.subscribed (v.subscriptions.length + 1) x.position g'.cardinality))
  have hnumber : w.subscriptions.length + 1 = ρ.id (v.subscriptions.length + 1) := hid
  refine ⟨?_, hnumber⟩
  rw [hnumber]
  exact hnoted

/-- What is said of a creation names no subscriptions. -/
theorem creationEvents_rename (name : String) (layout : Layout) :
    (((creationEvents name layout).map Entry.event).reverse).map (Entry.rename ρ) =
      ((creationEvents name layout).map Entry.event).reverse := by
  unfold creationEvents
  rcases layout.grouping with _ | _ | _ | _ <;> rfl

/-- A component is created with its channels where it belongs. -/
theorem create (h : Merge strict ρ σ n v u w) (name : String) (layout : Layout) (hown : ρ.Owns n (furnished n layout)) :
    Merge strict ρ σ (furnished n layout) (v.create name layout).2 u (w.create name layout).2 ∧
      (w.create name layout).1 = ρ.component (v.create name layout).1 := by
  -- The atlas owns what the creation takes: one number for the component, and one for each channel.
  have hcomponent : ρ.Owns n (grown n .component 1) := hown.mono le_rfl (le_grown _ _ _)
  have hchannel : ∀ j < (newChannels v.components.length layout).length,
      ∃ i, ρ.channel i = w.channels.length + j := fun j hj => by
    rw [newChannels_length] at hj
    rw [h.channels_length]
    have hn : grown n .component 1 .channel = n .channel := grown_of_ne _ _ (by decide)
    obtain ⟨i, hi⟩ := (hown.mono (le_grown n .component 1) le_rfl).grown hj
    exact ⟨i, hi.trans (by rw [hn])⟩
  have hmine := h.components_length ▸ hcomponent.grown Nat.one_pos
  have hnext := h.components.next (h.beside.split .component) hmine
  obtain ⟨hchannels, hplaces⟩ := h.channels.append (h.beside.split .channel)
      (newChannels v.components.length layout) hchannel
  rw [newChannels_length] at hplaces
  rw [← newChannels_rename, hnext] at hchannels
  let made : Component := {
    name, layout
    inputs := (List.range layout.inputs.length).map (v.channels.length + ·)
    outputs := (List.range layout.outputs.length).map (v.channels.length + layout.inputs.length + ·) }
  -- Renaming moves the numbers of the channels from where the part ends to where the whole ends.
  have hmade : made.rename ρ = {
      name, layout
      inputs := (List.range layout.inputs.length).map (w.channels.length + ·)
      outputs := (List.range layout.outputs.length).map (w.channels.length + layout.inputs.length + ·) } := by
    rw [Component.rename, List.map_map, List.map_map]
    congr 1
    · refine List.map_congr_left fun j hj => ?_
      exact hplaces j (by have := List.mem_range.1 hj; omega)
    · refine List.map_congr_left fun j hj => ?_
      rw [Nat.add_assoc, ← hplaces (layout.inputs.length + j) (by have := List.mem_range.1 hj; omega), ← Nat.add_assoc]
      rfl
  have hcomponents := h.components.snoc (h.beside.split .component) hmine made
  rw [hmade] at hcomponents
  have hlog := h.log.append ((creationEvents name layout).map Entry.event).reverse
  rw [creationEvents_rename] at hlog
  have hmeasured := h.toMeasured.create name layout
  rw [create_def] at hmeasured
  rw [create_def, create_def]
  exact ⟨{ hmeasured, h with components := hcomponents, channels := hchannels, log := hlog }, hnext.symm⟩

end Merge

end Conduit.World
