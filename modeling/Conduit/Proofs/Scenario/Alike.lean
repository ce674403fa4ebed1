/-
What is alike on a bench of two sides and on one of them: emissions, frames and outcomes under other places
(`Frame.rename`, `Outcome.rename`), and what a step comes to. It is refused for the same reason on both, or it
has the same answer, or it begins the same (`BeginsAlike`).
-/
import Conduit.Proofs.Scenario.Shares

namespace Conduit.Scenario

variable (ρ : Atlas)

/-! ## What is renamed -/

def Source.rename : Source → Source
  | .channel ch => .channel (ρ.channel ch)
  | .signal g => .signal (ρ.signal g)

def Emission.rename (e : Emission) : Emission :=
  { e with
    source := e.source.rename ρ
    snapshot := e.snapshot.map (Place.rename ρ)
    remaining := e.remaining.map (Place.rename ρ) }

def Handling.rename (h : Handling) : Handling := { h with slot := h.slot.rename ρ }

/-- What remains to be published, on renamed outputs. -/
def renameBatch (todo : List (ChannelId × Value)) : List (ChannelId × Value) :=
  todo.map fun x => (ρ.channel x.1, x.2)

def Frame.rename : Frame → Frame
  | .step op holds => .step op (holds.map (Ref.rename ρ))
  | .handling h => .handling (h.rename ρ)
  | .emission e => .emission (e.rename ρ)
  | .call => .call
  | .thread steps given results => .thread steps given (results.map (Result.rename ρ))
  | .batch todo entries => .batch (renameBatch ρ todo) entries

def Outcome.rename : Outcome → Outcome
  | .answer r => .answer (r.rename ρ)
  | .emission e => .emission (e.rename ρ)
  | .call slot v => .call (slot.rename ρ) v
  | .panic p => .panic p
  | .thread steps => .thread steps
  | .batch todo => .batch (renameBatch ρ todo)

variable {ρ}

/-! ## What frames hold -/

theorem Ref.beq_rename (r s : Ref) : (r.rename ρ == s.rename ρ) = (r == s) := by
  rw [Bool.eq_iff_iff, beq_iff_eq, beq_iff_eq, Ref.rename_injective.eq_iff]

theorem contains_rename (holds : List Ref) (r : Ref) :
    (holds.map (Ref.rename ρ)).contains (r.rename ρ) = holds.contains r := by
  rw [Bool.eq_iff_iff, List.contains_iff_mem, List.contains_iff_mem, List.mem_map_of_injective Ref.rename_injective]

theorem Slot.beq_callback_rename (slot : Slot) (c : CallbackId) :
    (slot.rename ρ == .callback (ρ.callback c)) = (slot == .callback c) := by
  rw [Bool.eq_iff_iff, beq_iff_eq, beq_iff_eq]
  cases slot with
  | handler k position =>
    constructor
    · intro he
      cases he
    · intro he
      cases he
  | callback k =>
    constructor
    · intro he
      rw [(ρ.mono .callback).injective (Slot.callback.inj he)]
    · rintro ⟨⟩
      rfl

theorem Frame.pins_rename (f : Frame) (r : Ref) : (f.rename ρ).pins (r.rename ρ) = f.pins r := by
  cases f with
  | step op holds => exact contains_rename holds r
  | handling h =>
    obtain ⟨slot, value, nextRule, doing⟩ := h
    cases slot with
    | handler c position => exact Ref.beq_rename r (.component c)
    | callback c => rfl
  | _ => rfl

theorem Frame.uses_rename (f : Frame) (c : CallbackId) : (f.rename ρ).uses (ρ.callback c) = f.uses c := by
  cases f with
  | step op holds => exact List.count_map_of_injective holds _ Ref.rename_injective (.callback c)
  | emission e =>
    show ((e.snapshot.map (Place.rename ρ)).countP fun p => p.slot == .callback (ρ.callback c)) = _
    rw [List.countP_map]
    exact List.countP_congr fun p _ => by
      show (p.slot.rename ρ == .callback (ρ.callback c)) = true ↔ _
      rw [Slot.beq_callback_rename]
  | _ => rfl

theorem pinned_rename (frames : List Frame) (r : Ref) :
    pinned (frames.map (Frame.rename ρ)) (r.rename ρ) = pinned frames r := by
  unfold pinned
  rw [List.any_map]
  congr 1
  funext f
  exact f.pins_rename r

/-! ## What steps come to -/

/-- What a step comes to on `B` is what it comes to on `b`. Places for what is new belong to the side of
the step, or nothing is said. -/
structure BeginsAlike (mine : Table → String → Bool) (strict : Prop) (ρ σ : Atlas) (n : Kind → Nat) (u : Bench)
    (x X : Begun) : Prop where
  le : n ≤ X.bench.lengths
  shares : ρ.Owns n X.bench.lengths → Bench.Shares mine strict ρ σ X.bench.lengths x.bench u X.bench ∧
    X.outcome = x.outcome.rename ρ
  holds : X.holds = x.holds.map (Ref.rename ρ)
  carried : ∀ steps, x.outcome = .thread steps → ∀ step ∈ steps, step.action.Inside mine strict
  single : strict → ∀ todo, x.outcome ≠ .batch todo

namespace Bench.Shares

variable {mine : Table → String → Bool} {strict : Prop} {σ : Atlas} {n n' : Kind → Nat} {b b' u B B' : Bench}

/-- Something is begun that carries no steps. -/
theorem begins (h : Shares mine strict ρ σ n b u B) {x X : Begun} (hb : x.bench = b) (hB : X.bench = B)
    (ho : X.outcome = x.outcome.rename ρ) (hh : X.holds = x.holds.map (Ref.rename ρ))
    (ht : ∀ steps, x.outcome ≠ .thread steps) (hs : strict → ∀ todo, x.outcome ≠ .batch todo) :
    BeginsAlike mine strict ρ σ n u x X where
  le := by rw [hB, h.lengths]
  shares _ := by
    rw [hb, hB, h.lengths]
    exact ⟨h, ho⟩
  holds := hh
  carried steps he := absurd he (ht steps)
  single := hs

theorem answered (h : Shares mine strict ρ σ n b u B) {r R : Result} (hr : R = r.rename ρ) :
    Agree (BeginsAlike mine strict ρ σ n u) (b.answered r) (B.answered R) :=
  h.begins rfl rfl (congrArg Outcome.answer hr) rfl (fun _ he => Outcome.noConfusion he)
    fun _ _ he => Outcome.noConfusion he

/-- A step that adds to lists is answered at once. -/
theorem answered_grown (hle : n ≤ n') (hlengths : B'.lengths = n') {r R : Result}
    (h : ρ.Owns n n' → Shares mine strict ρ σ n' b' u B' ∧ R = r.rename ρ) :
    Agree (BeginsAlike mine strict ρ σ n u) (b'.answered r) (B'.answered R) := by
  subst hlengths
  exact {
    le := hle
    shares := fun hown => ⟨(h hown).1, congrArg Outcome.answer (h hown).2⟩
    holds := rfl
    carried := fun _ he => Outcome.noConfusion he
    single := fun _ _ he => Outcome.noConfusion he }

theorem lengths_of_measured (hw : World.Measured n B.world) (hs : B.signalStates.length = n .signal)
    (hc : B.callbackStates.length = n .callback) : B.lengths = n := by
  funext k
  cases k with
  | component => exact hw.components_length
  | channel => exact hw.channels_length
  | subscription => exact hw.subscriptions_length
  | foreign => exact hw.foreigns_length
  | signal => exact hs
  | callback => exact hc

end Bench.Shares

end Conduit.Scenario
