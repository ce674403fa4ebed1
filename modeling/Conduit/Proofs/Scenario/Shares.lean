/-
A bench of two sides. The bench `B` is shared by two others when it has the wiring of both, the tables and
states of both, and whatever is looked up under names of one side is there what it is on that side's
own bench, renamed (`Bench.Shares`). What one side lets go is let go on both.
-/
import Conduit.Proofs.Scenario.Sides
import Conduit.Proofs.Wiring.Merge

namespace Conduit

/-! ## Numbers of two sides -/

namespace Split

variable {f g : Nat → Nat} (h : Split f g) (i j : Nat)
include h

theorem beq : (f i == f j) = (i == j) := by
  rw [Bool.eq_iff_iff, beq_iff_eq, beq_iff_eq, h.mono.injective.eq_iff]

theorem beq_other : (g i == f j) = false := beq_eq_false_iff_ne.2 fun he => h.apart j i he.symm

end Split

namespace Scenario

/-! ## Refusals of two sides -/

/-- Both refuse for the same reason, or what they come to is related. -/
def Agree {α β : Type} (R : α → β → Prop) : Except Refusal α → Except Refusal β → Prop
  | .ok a, .ok b => R a b
  | .error why, .error why' => why = why'
  | _, _ => False

namespace Agree

variable {α β γ δ : Type} {R : α → β → Prop} {S : γ → δ → Prop} {x : Except Refusal α} {y : Except Refusal β}

theorem refl {x : Except Refusal α} : Agree (fun a b => b = a) x x := by
  cases x <;> rfl

theorem bind {k : α → Except Refusal γ} {l : β → Except Refusal δ} (h : Agree R x y)
    (hk : ∀ a b, R a b → Agree S (k a) (l b)) : Agree S (x >>= k) (y >>= l) := by
  cases x with
  | error why =>
    cases y with
    | error why' => exact h
    | ok b => exact h.elim
  | ok a =>
    cases y with
    | error why' => exact h.elim
    | ok b => exact hk a b h

/-- What is done for one field after another agrees if it does for each. -/
theorem mapM {k : α → Except Refusal γ} {l : β → Except Refusal δ} {r : α → β} {s : γ → δ} : ∀ {as : List α},
    (∀ a ∈ as, Agree (fun c d => d = s c) (k a) (l (r a))) →
      Agree (fun cs ds => ds = cs.map s) (as.mapM k) ((as.map r).mapM l)
  | [], _ => rfl
  | a :: as, h => by
    rw [List.map_cons, List.mapM_cons, List.mapM_cons]
    refine (h a (List.mem_cons_self ..)).bind ?_
    rintro c _ rfl
    refine (mapM fun b hb => h b (List.mem_cons_of_mem _ hb)).bind ?_
    rintro cs _ rfl
    rfl

end Agree

/-- The channel at an endpoint and what a step holds of it, renamed. -/
def Endpoint.rename (ρ : Atlas) (p : Endpoint) : Endpoint :=
  { channel := ρ.channel p.channel, holds := p.holds.map (Ref.rename ρ) }

namespace Names.Shared

variable {α : Type} {mine : String → Bool} {r s : α → α} {t u T : Names α} {f : Field}

theorem lookup (h : Names.Shared mine r s t u T) (hf : ∀ name, f = some name → mine name = true) :
    Agree (fun x y => y = (x.1, r x.2) ∧ mine x.1 = true) (Bench.lookup t f) (Bench.lookup T f) := by
  rcases f with _ | name
  · rfl
  · have hn := hf name rfl
    unfold Bench.lookup
    dsimp only [Bench.field, bind, Except.bind]
    rw [h.find? hn]
    rcases t.find? name with _ | a
    · rfl
    · exact ⟨rfl, hn⟩

theorem fresh (h : Names.Shared mine r s t u T) (hf : ∀ name, f = some name → mine name = true) :
    Agree (fun x y => y = x ∧ mine x = true) (Bench.fresh t f) (Bench.fresh T f) := by
  rcases f with _ | name
  · rfl
  · have hn := hf name rfl
    unfold Bench.fresh
    dsimp only [Bench.field, bind, Except.bind]
    rw [h.uses hn]
    split
    · rfl
    · exact ⟨rfl, hn⟩

section Numbers

variable {i j : Nat → Nat} {t u T : Names Nat} (h : Names.Shared mine i j t u T) (hs : Split i j) (k : Nat)
include h hs

theorem any_eq : (T.any fun e => e.2 == i k) = t.any fun e => e.2 == k :=
  h.any (q := (· == i k)) (fun x => hs.beq x k) fun y => hs.beq_other y k

theorem countP_eq : (T.countP fun e => e.2 == i k) = t.countP fun e => e.2 == k :=
  h.countP (q := (· == i k)) (fun x => hs.beq x k) fun y => hs.beq_other y k

end Numbers

end Names.Shared

theorem field_agrees (f : Field) : Agree (fun x y => y = x ∧ f = some y) (Bench.field f) (Bench.field f) := by
  cases f with
  | none => rfl
  | some name => exact ⟨rfl, rfl⟩

namespace Bench

/-! ## Benches of two sides -/

/-- How long the lists of a bench are. -/
def lengths (b : Bench) : Kind → Nat
  | .component => b.world.components.length
  | .channel => b.world.channels.length
  | .subscription => b.world.subscriptions.length
  | .foreign => b.world.foreigns.length
  | .signal => b.signalStates.length
  | .callback => b.callbackStates.length

/-- The tables of `B`, and what stands beside its wiring, are those of `b` and `u`. -/
structure Tabled (mine : Table → String → Bool) (ρ σ : Atlas) (b u B : Bench) : Prop where
  components : Names.Shared (mine .components) ρ.component σ.component b.components u.components B.components
  channels : Names.Shared (mine .channels) ρ.channel σ.channel b.channels u.channels B.channels
  handles : Names.Shared (mine .handles) (Handle.rename ρ) (Handle.rename σ) b.handles u.handles B.handles
  registries : Names.Shared (mine .registries) (Registry.rename ρ)
      (Registry.rename σ) b.registries u.registries B.registries
  signals : Names.Shared (mine .signals) ρ.signal σ.signal b.signals u.signals B.signals
  callbacks : Names.Shared (mine .callbacks) ρ.callback σ.callback b.callbacks u.callbacks B.callbacks
  connections : Names.Shared (mine .connections) id id b.connections u.connections B.connections
  signalStates : Both ρ.signal σ.signal (Signal.rename ρ) (Signal.rename σ) b.signalStates u.signalStates B.signalStates
  callbackStates : Both ρ.callback σ.callback id id b.callbackStates u.callbackStates B.callbackStates
  rules : Both ρ.component σ.component id id b.rules u.rules B.rules

/-- The bench `B` is `b` and `u` put together. -/
structure Joined (mine : Table → String → Bool) (ρ σ : Atlas) (b u B : Bench) : Prop extends Tabled mine ρ σ b u B where
  world : World.Joined ρ σ b.world u.world B.world

/-- Something is done on `b`, by its names on `B`; the lists of `B` are as long as `n` says. -/
structure Shares (mine : Table → String → Bool) (strict : Prop) (ρ σ : Atlas) (n : Kind → Nat) (b u B : Bench) : Prop
    extends Tabled mine ρ σ b u B, Lawful mine strict b where
  world : World.Merge strict ρ σ n b.world u.world B.world
  rules_length : B.rules.length = n .component
  signals_length : B.signalStates.length = n .signal
  callbacks_length : B.callbackStates.length = n .callback

namespace Shares

variable {mine : Table → String → Bool} {strict : Prop} {ρ σ : Atlas} {n : Kind → Nat} {b u B : Bench}
  {pins pins' : Ref → Bool} {f : Field}

theorem lengths (h : Shares mine strict ρ σ n b u B) : B.lengths = n := by
  funext k
  cases k with
  | component => exact h.world.components_length
  | channel => exact h.world.channels_length
  | subscription => exact h.world.subscriptions_length
  | foreign => exact h.world.foreigns_length
  | signal => exact h.signals_length
  | callback => exact h.callbacks_length

theorem joined (h : Shares mine strict ρ σ n b u B) : Joined mine ρ σ b u B := { h with world := h.world.toJoined }

/-- Only the wiring changes. -/
theorem of_world (h : Shares mine strict ρ σ n b u B) {v w : World} (hw : World.Merge strict ρ σ n v u.world w) :
    Shares mine strict ρ σ n { b with world := v } u { B with world := w } :=
  { h with world := hw }

theorem note (h : Shares mine strict ρ σ n b u B) (e : Entry) :
    Shares mine strict ρ σ n (b.note e) u (B.note (e.rename ρ)) :=
  h.of_world (h.world.note e)

/-- Only the wiring changes, and grows. -/
theorem of_grown (h : Shares mine strict ρ σ n b u B) {v w : World} {k : Kind} {d : Nat}
    (hw : World.Merge strict ρ σ (grown n k d) v u.world w)
    (hc : .component ≠ k) (hs : .signal ≠ k) (hk : .callback ≠ k) :
    Shares mine strict ρ σ (grown n k d) { b with world := v } u { B with world := w } :=
  { h with
    world := hw
    rules_length := h.rules_length.trans (grown_of_ne n d hc).symm
    signals_length := h.signals_length.trans (grown_of_ne n d hs).symm
    callbacks_length := h.callbacks_length.trans (grown_of_ne n d hk).symm }

/-! Only one table changes. -/

section Entries

variable (h : Shares mine strict ρ σ n b u B)
include h

theorem of_components {t T : Names ComponentId}
    (ht : Names.Shared (mine .components) ρ.component σ.component t u.components T) :
    Shares mine strict ρ σ n { b with components := t } u { B with components := T } := { h with components := ht }

theorem of_channels {t T : Names ChannelId} (ht : Names.Shared (mine .channels) ρ.channel σ.channel t u.channels T) :
    Shares mine strict ρ σ n { b with channels := t } u { B with channels := T } := { h with channels := ht }

theorem of_handles {t T : Names Handle}
    (ht : Names.Shared (mine .handles) (Handle.rename ρ) (Handle.rename σ) t u.handles T) :
    Shares mine strict ρ σ n { b with handles := t } u { B with handles := T } := { h with handles := ht }

theorem of_registries {t T : Names (Registry Handle)}
    (ht : Names.Shared (mine .registries) (Registry.rename ρ) (Registry.rename σ) t u.registries T) :
    Shares mine strict ρ σ n { b with registries := t } u { B with registries := T } := { h with registries := ht }

theorem of_signals {t T : Names SignalId} (ht : Names.Shared (mine .signals) ρ.signal σ.signal t u.signals T) :
    Shares mine strict ρ σ n { b with signals := t } u { B with signals := T } := { h with signals := ht }

theorem of_callbacks {t T : Names CallbackId}
    (ht : Names.Shared (mine .callbacks) ρ.callback σ.callback t u.callbacks T) :
    Shares mine strict ρ σ n { b with callbacks := t } u { B with callbacks := T } := { h with callbacks := ht }

theorem of_connections {t T : Names Nat} (ht : Names.Shared (mine .connections) id id t u.connections T) :
    Shares mine strict ρ σ n { b with connections := t } u { B with connections := T } := { h with connections := ht }

end Entries

/-! ## What is looked up -/

theorem channelOf?_rename (c : Component) (position : List Char) :
    channelOf? (c.rename ρ) position = (channelOf? c position).map ρ.channel := by
  unfold channelOf?
  split
  · rename_i k
    rcases Numeral.natural? k with _ | i
    · rfl
    · exact List.getElem?_map ..
  · rename_i k
    rcases Numeral.natural? k with _ | i
    · rfl
    · exact List.getElem?_map ..
  · rfl

theorem endpoint (h : Shares mine strict ρ σ n b u B) (hf : Points mine f) :
    Agree (fun p q => q = p.rename ρ) (b.endpoint f) (B.endpoint f) := by
  rcases f with _ | name
  · rfl
  · have hname := hf name rfl
    unfold pointed at hname
    unfold Bench.endpoint
    dsimp only [Bench.field, bind, Except.bind]
    -- An endpoint without a dot names a channel, and one with a dot a place of a component.
    rcases hsplit : splitAtLastDot name with _ | ⟨component, position⟩
    · rw [hsplit] at hname
      refine (h.channels.lookup (f := some name) fun m hm => Option.some.inj hm ▸ hname).bind ?_
      rintro ⟨m, ch⟩ _ ⟨rfl, -⟩
      rfl
    · rw [hsplit] at hname
      refine (h.components.lookup (f := some component) fun m hm => Option.some.inj hm ▸ hname).bind ?_
      rintro ⟨m, c⟩ _ ⟨rfl, -⟩
      have hchannel : ((B.world.components[ρ.component c]?).bind (channelOf? · position)) =
          ((b.world.components[c]?).bind (channelOf? · position)).map ρ.channel := by
        rw [h.world.components.left]
        rcases b.world.components[c]? with _ | x
        · rfl
        · exact channelOf?_rename x position
      dsimp only
      rw [hchannel]
      rcases (b.world.components[c]?).bind (channelOf? · position) with _ | ch
      · rfl
      · rfl

theorem channelAt (h : Shares mine strict ρ σ n b u B) (p : Endpoint) :
    Agree (fun c d => d = c.rename ρ) (b.channelAt p) (B.channelAt (p.rename ρ)) := by
  unfold Bench.channelAt
  rw [show (p.rename ρ).channel = ρ.channel p.channel from rfl, h.world.channels.left]
  rcases b.world.channels[p.channel]? with _ | c
  · rfl
  · rfl

theorem signal? (h : Shares mine strict ρ σ n b u B) (g : SignalId) :
    B.signal? (ρ.signal g) = (b.signal? g).map (Signal.rename ρ) := h.signalStates.left g

theorem signalNamed (h : Shares mine strict ρ σ n b u B) (hf : Calls mine .signals f) :
    Agree (fun x y => y = (ρ.signal x.1, x.2.rename ρ)) (b.signalNamed f) (B.signalNamed f) := by
  unfold Bench.signalNamed
  refine (h.signals.lookup hf).bind ?_
  rintro ⟨name, g⟩ _ ⟨rfl, -⟩
  dsimp only
  rw [h.signal?]
  rcases b.signal? g with _ | s
  · rfl
  · rfl

/-! ## What is held -/

section Pins

variable (h : Shares mine strict ρ σ n b u B) (hp : ∀ r, pins' (r.rename ρ) = pins r)
include h hp

/-- The tables hold on `B` what they hold on `b`, but for what stands for nothing. -/
theorem keeps {r : Ref} (hr : r ≠ .handle (.own 0)) : B.keeps pins' (r.rename ρ) = b.keeps pins r := by
  unfold Bench.keeps
  rw [hp]
  congr 1
  cases r with
  | component c => exact h.components.any_eq (h.world.beside.split .component) c
  | channel ch => exact h.channels.any_eq (h.world.beside.split .channel) ch
  | signal g => exact h.signals.any_eq (h.world.beside.split .signal) g
  | callback c => exact h.callbacks.any_eq (h.world.beside.split .callback) c
  | handle a =>
    -- A handle may be named and listed under either side; number zero is the one that both would take for theirs.
    have hother : ∀ y : Handle, y.rename σ ≠ a.rename ρ := fun y he =>
      hr (congrArg Ref.handle (h.world.beside.handle he.symm))
    have hsame : ∀ x : Handle, (x.rename ρ == a.rename ρ) = (x == a) := fun x => by
      rw [Bool.eq_iff_iff, beq_iff_eq, beq_iff_eq, Handle.rename_injective.eq_iff]
    have hlisted : ∀ x : Registry Handle,
        (x.rename ρ).handles.contains (a.rename ρ) = x.handles.contains a := fun x => by
      rw [Registry.handles_rename, Bool.eq_iff_iff, List.contains_iff_mem, List.contains_iff_mem,
        List.mem_map_of_injective Handle.rename_injective]
    have hunlisted : ∀ y : Registry Handle, (y.rename σ).handles.contains (a.rename ρ) = false := fun y => by
      rw [Bool.eq_false_iff, ne_eq, List.contains_iff_mem, Registry.handles_rename, List.mem_map]
      rintro ⟨x, -, hx⟩
      exact hother x hx
    have hhandles := h.handles.any (p := (· == a)) (q := (· == a.rename ρ)) hsame fun y =>
        beq_eq_false_iff_ne.2 (hother y)
    have hregistries := h.registries.any (p := fun x => x.handles.contains a)
      (q := fun x => x.handles.contains (a.rename ρ)) hlisted hunlisted
    exact congrArg₂ or hhandles hregistries

theorem settle (r : Ref) : Shares mine strict ρ σ n (b.settle pins r) u (B.settle pins' (r.rename ρ)) :=
  h.of_world (h.world.settle (fun _ hr => h.keeps hp hr) r)

end Pins

theorem settle_handles (hp : ∀ r, pins' (r.rename ρ) = pins r) : ∀ (hs : List Handle) {b B : Bench},
    Shares mine strict ρ σ n b u B →
    Shares mine strict ρ σ n (hs.foldl (fun b h => b.settle pins (.handle h)) b) u
      ((hs.map (Handle.rename ρ)).foldl (fun b h => b.settle pins' (.handle h)) B)
  | [], _, _, h => h
  | a :: hs, _, _, h => settle_handles hp hs (h.settle hp (.handle a))

end Shares

end Bench

end Scenario

end Conduit
