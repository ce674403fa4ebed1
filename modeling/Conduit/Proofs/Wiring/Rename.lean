/-
Renaming. Parts of a wiring are found by their places in lists, so in a larger wiring the same parts
have other places. An atlas tells which; it keeps the order of places, and the number of a subscription
goes with its place. Whatever speaks of parts is renamed by it, and signals and registries work on
renamed things as on the things themselves.
-/
import Conduit.Proofs.Registry
import Conduit.Proofs.Signal
import Conduit.Wiring.Inspection

namespace Conduit

/-- What is found by its place in a list. -/
inductive Kind
  | component
  | channel
  | subscription
  | foreign
  | signal
  | callback
  deriving DecidableEq, Repr

/-- Where the parts of a wiring are in a larger one. -/
structure Atlas where
  place : Kind → Nat → Nat
  mono : ∀ k, StrictMono (place k)

namespace Atlas

abbrev component (ρ : Atlas) : Nat → Nat := ρ.place .component

abbrev channel (ρ : Atlas) : Nat → Nat := ρ.place .channel

abbrev subscription (ρ : Atlas) : Nat → Nat := ρ.place .subscription

abbrev foreign (ρ : Atlas) : Nat → Nat := ρ.place .foreign

abbrev signal (ρ : Atlas) : Nat → Nat := ρ.place .signal

abbrev callback (ρ : Atlas) : Nat → Nat := ρ.place .callback

/-- The number that a subscription has in the larger wiring; numbers begin with 1. -/
def id (ρ : Atlas) : Nat → Nat
  | 0 => 0
  | n + 1 => ρ.subscription n + 1

theorem id_mono (ρ : Atlas) : StrictMono ρ.id := by
  intro s t hst
  cases s with
  | zero =>
    cases t with
    | zero => exact absurd hst (lt_irrefl _)
    | succ m => exact Nat.succ_pos _
  | succ n =>
    cases t with
    | zero => exact absurd hst (Nat.not_lt_zero _)
    | succ m => exact Nat.succ_lt_succ (ρ.mono .subscription (Nat.lt_of_succ_lt_succ hst))

end Atlas

variable (ρ : Atlas)

/-! ## What is renamed -/

def Handle.rename : Handle → Handle
  | .own s => .own (ρ.id s)
  | .foreign f => .foreign (ρ.foreign f)

def Slot.rename : Slot → Slot
  | .handler c position => .handler (ρ.component c) position
  | .callback c => .callback (ρ.callback c)

def Place.rename (p : Place Slot) : Place Slot := { p with slot := p.slot.rename ρ }

def Signal.rename (s : Signal Slot) : Signal Slot := { s with places := s.places.map (Place.rename ρ) }

/-- The renamed entries of a registry are in order, since an atlas keeps the order of subscriptions. -/
def Registry.rename (r : Registry Handle) : Registry Handle :=
  ⟨r.entries.map fun e => (ρ.id e.1, e.2.rename ρ), by
    rw [List.map_map]
    have h := r.increasing
    rw [List.pairwise_map] at h ⊢
    exact h.imp fun hlt => ρ.id_mono hlt⟩

def Role.rename : Role → Role
  | .input synchronized => .input synchronized
  | .output signal counting => .output (signal.rename ρ) counting

def Channel.rename (c : Channel) : Channel :=
  { c with owner := ρ.component c.owner, role := c.role.rename ρ, registry := c.registry.rename ρ }

def Component.rename (c : Component) : Component :=
  { c with inputs := c.inputs.map ρ.channel, outputs := c.outputs.map ρ.channel }

def Subscription.rename (s : Subscription) : Subscription :=
  { s with output := ρ.channel s.output, input := ρ.channel s.input }

def ForeignHandle.rename (g : ForeignHandle) : ForeignHandle := { g with id := ρ.id g.id }

def Ref.rename : Ref → Ref
  | .component c => .component (ρ.component c)
  | .channel ch => .channel (ρ.channel ch)
  | .handle h => .handle (h.rename ρ)
  | .signal g => .signal (ρ.signal g)
  | .callback c => .callback (ρ.callback c)

def Event.rename : Event → Event
  | .subscribed s channel cardinality => .subscribed (ρ.id s) channel cardinality
  | .closed s => .closed (ρ.id s)
  | .draining s => .draining (ρ.id s)
  | e => e

def ChannelView.rename (v : ChannelView) : ChannelView := { v with ids := v.ids.map ρ.id }

def EndsView.rename (v : EndsView) : EndsView := { v with id := ρ.id v.id }

mutual

def Result.rename : Result → Result
  | .subscribed s => .subscribed (ρ.id s)
  | .channel view => .channel (view.rename ρ)
  | .subscription s connected => .subscription (ρ.id s) connected
  | .ends view => .ends (view.rename ρ)
  | .registry ids => .registry (ids.map ρ.id)
  | .several results => .several (Result.renameAll results)
  | r => r

def Result.renameAll : List Result → List Result
  | [] => []
  | r :: rs => r.rename :: Result.renameAll rs

end

theorem Result.renameAll_eq : ∀ rs : List Result, Result.renameAll ρ rs = rs.map (Result.rename ρ)
  | [] => rfl
  | r :: rs => by rw [Result.renameAll, Result.renameAll_eq rs, List.map_cons]

def Deed.rename : Deed → Deed
  | .connected s o p => .connected (ρ.id s) (ρ.channel o) p
  | .disconnected s found => .disconnected (ρ.id s) found
  | .released s => .released (ρ.id s)
  | .removed o p => .removed (ρ.channel o) p
  | .ended ch => .ended (ρ.channel ch)

def Entry.rename : Entry → Entry
  | .did op r => .did op (r.rename ρ)
  | .event e => .event (e.rename ρ)
  | e => e

variable {ρ}

/-! ## Different things get different names -/

theorem Handle.rename_injective : Function.Injective (Handle.rename ρ)
  | .own s, .own t, h => by rw [ρ.id_mono.injective (Handle.own.inj h)]
  | .foreign f, .foreign g, h => by rw [(ρ.mono .foreign).injective (Handle.foreign.inj h)]
  | .own _, .foreign _, h => by cases h
  | .foreign _, .own _, h => by cases h

theorem Ref.rename_injective : Function.Injective (Ref.rename ρ)
  | .component c, .component d, h => by rw [(ρ.mono .component).injective (Ref.component.inj h)]
  | .channel c, .channel d, h => by rw [(ρ.mono .channel).injective (Ref.channel.inj h)]
  | .handle c, .handle d, h => by rw [Handle.rename_injective (Ref.handle.inj h)]
  | .signal c, .signal d, h => by rw [(ρ.mono .signal).injective (Ref.signal.inj h)]
  | .callback c, .callback d, h => by rw [(ρ.mono .callback).injective (Ref.callback.inj h)]
  | .component _, .channel _, h | .component _, .handle _, h | .component _, .signal _, h
  | .component _, .callback _, h => by cases h
  | .channel _, .component _, h | .channel _, .handle _, h | .channel _, .signal _, h
  | .channel _, .callback _, h => by cases h
  | .handle _, .component _, h | .handle _, .channel _, h | .handle _, .signal _, h
  | .handle _, .callback _, h => by cases h
  | .signal _, .component _, h | .signal _, .channel _, h | .signal _, .handle _, h
  | .signal _, .callback _, h => by cases h
  | .callback _, .component _, h | .callback _, .channel _, h | .callback _, .handle _, h
  | .callback _, .signal _, h => by cases h

/-! ## Signals -/

section Signals

variable (g : Signal Slot) (slot : Slot) (n : Nat)

@[simp] theorem Signal.has_rename : (g.rename ρ).has n = g.has n := by
  rw [Signal.has, Signal.has, Signal.rename, List.any_map]
  rfl

@[simp] theorem Signal.size_rename : (g.rename ρ).size = g.size := List.length_map _

theorem Signal.connect?_rename :
    (g.rename ρ).connect? (slot.rename ρ) = (g.connect? slot).map fun r => (r.1, r.2.rename ρ) := by
  have hfull : (g.rename ρ).isFull = g.isFull := by
    rw [Signal.isFull, Signal.isFull, Signal.rename, List.isEmpty_map]
  unfold Signal.connect?
  rw [hfull]
  split
  · rfl
  · rw [Option.map_some, Signal.rename, Signal.rename, List.map_append]
    rfl

theorem Signal.disconnect?_rename : (g.rename ρ).disconnect? n = (g.disconnect? n).map (Signal.rename ρ) := by
  unfold Signal.disconnect?
  rw [Signal.has_rename]
  split
  · rw [Option.map_some, Signal.rename, Signal.rename, List.eraseP_map]
    rfl
  · rfl

end Signals

/-! ## Registries -/

section Registries

variable (r : Registry Handle) (s : Nat) (h : Handle)

theorem Registry.entries_rename : (r.rename ρ).entries = r.entries.map fun e => (ρ.id e.1, e.2.rename ρ) := rfl

@[simp] theorem Registry.size_rename : (r.rename ρ).size = r.size := List.length_map _

@[simp] theorem Registry.ids_rename : (r.rename ρ).ids = r.ids.map ρ.id := by
  rw [Registry.ids, Registry.ids, Registry.entries_rename, List.map_map, List.map_map]
  rfl

@[simp] theorem Registry.handles_rename : (r.rename ρ).handles = r.handles.map (Handle.rename ρ) := by
  rw [Registry.handles, Registry.handles, Registry.entries_rename, List.map_map, List.map_map]
  rfl

@[simp] theorem Registry.rename_empty : (Registry.empty : Registry Handle).rename ρ = .empty := rfl

theorem beq_id (s t : Nat) : (ρ.id s == ρ.id t) = (s == t) := by
  rw [Bool.eq_iff_iff, beq_iff_eq, beq_iff_eq, ρ.id_mono.injective.eq_iff]

@[simp] theorem Registry.has_rename : (r.rename ρ).has (ρ.id s) = r.has s := by
  rw [Registry.has, Registry.has, Registry.entries_rename, List.any_map]
  congr 1
  funext e
  exact beq_id e.1 s

@[simp] theorem Registry.get?_rename : (r.rename ρ).get? (ρ.id s) = (r.get? s).map (Handle.rename ρ) := by
  rw [Registry.get?, Registry.get?, Registry.entries_rename, List.find?_map, Option.map_map, Option.map_map]
  have hsame : (fun e : Nat × Handle => e.1 == ρ.id s) ∘ (fun e : Nat × Handle => (ρ.id e.1, e.2.rename ρ)) =
      fun e => e.1 == s := by
    funext e
    exact beq_id e.1 s
  rw [hsame]
  rfl

@[simp] theorem Registry.erase_rename : (r.rename ρ).erase (ρ.id s) = (r.erase s).rename ρ := by
  refine Registry.eq_of_entries ?_
  show (r.entries.map fun e => (ρ.id e.1, e.2.rename ρ)).filter (·.1 != ρ.id s) =
    (r.entries.filter (·.1 != s)).map fun e => (ρ.id e.1, e.2.rename ρ)
  rw [List.filter_map]
  have hsame : (fun e : Nat × Handle => e.1 != ρ.id s) ∘ (fun e : Nat × Handle => (ρ.id e.1, e.2.rename ρ)) =
      fun e => e.1 != s := by
    funext e
    exact congrArg Bool.not (beq_id e.1 s)
  rw [hsame]

theorem insertEntry_rename : ∀ l : List (Nat × Handle),
    Registry.insertEntry (ρ.id s) (h.rename ρ) (l.map fun e => (ρ.id e.1, e.2.rename ρ)) =
      (Registry.insertEntry s h l).map fun e => (ρ.id e.1, e.2.rename ρ)
  | [] => rfl
  | (i, g) :: rest => by
    rw [List.map_cons, Registry.insertEntry, Registry.insertEntry]
    simp only [ρ.id_mono.lt_iff_lt, ρ.id_mono.injective.eq_iff]
    split
    · rfl
    · split
      · rfl
      · rw [insertEntry_rename rest, List.map_cons]

@[simp] theorem Registry.insert_rename : (r.rename ρ).insert (ρ.id s) (h.rename ρ) = (r.insert s h).rename ρ :=
  Registry.eq_of_entries (insertEntry_rename s h r.entries)

theorem Registry.popMin?_rename : (r.rename ρ).popMin? =
    r.popMin?.map fun p => ((ρ.id p.1.1, p.1.2.rename ρ), p.2.rename ρ) := by
  obtain ⟨entries, hincreasing⟩ := r
  cases entries <;> rfl

end Registries

/-! ## Channels -/

section Channels

variable (c : Channel) (g : Signal Slot)

@[simp] theorem Channel.signal?_rename : (c.rename ρ).signal? = c.signal?.map (Signal.rename ρ) := by
  obtain ⟨owner, position, payload, role, registry, alive⟩ := c
  cases role <;> rfl

@[simp] theorem Channel.direction_rename : (c.rename ρ).direction = c.direction := by
  obtain ⟨owner, position, payload, role, registry, alive⟩ := c
  cases role <;> rfl

@[simp] theorem Channel.counts_rename : (c.rename ρ).counts = c.counts := by
  obtain ⟨owner, position, payload, role, registry, alive⟩ := c
  cases role <;> rfl

@[simp] theorem Channel.isSynchronized_rename : (c.rename ρ).isSynchronized = c.isSynchronized := by
  obtain ⟨owner, position, payload, role, registry, alive⟩ := c
  cases role <;> rfl

@[simp] theorem Channel.payload_rename : (c.rename ρ).payload = c.payload := rfl

@[simp] theorem Channel.slot_rename : (c.rename ρ).slot = c.slot.rename ρ := rfl

theorem Channel.setSignal_rename : (c.rename ρ).setSignal (g.rename ρ) = (c.setSignal g).rename ρ := by
  obtain ⟨owner, position, payload, role, registry, alive⟩ := c
  cases role <;> rfl

theorem World.signalKind?_rename : World.signalKind? (c.rename ρ) = World.signalKind? c := by
  unfold World.signalKind?
  rw [Channel.signal?_rename, Channel.counts_rename, Option.map_map]
  rfl

theorem World.newChannels_rename (owner : Nat) (layout : Layout) :
    World.newChannels (ρ.component owner) layout = (World.newChannels owner layout).map (Channel.rename ρ) := by
  unfold World.newChannels
  dsimp only
  rw [List.map_append]
  congr 1
  · refine List.ext_getElem? fun i => ?_
    rw [List.getElem?_map, List.getElem?_mapIdx, List.getElem?_mapIdx, Option.map_map]
    rfl
  · refine List.ext_getElem? fun i => ?_
    rw [List.getElem?_map, List.getElem?_mapIdx, List.getElem?_mapIdx, Option.map_map]
    rfl

end Channels

end Conduit
