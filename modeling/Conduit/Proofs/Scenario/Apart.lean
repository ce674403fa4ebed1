/-
Steps of one side. A step that names only what is on one side comes to the same on a bench of two sides
as on that side's own bench, up to the places of things (`perform`).
-/
import Conduit.Proofs.Scenario.Apart.Handles
import Conduit.Proofs.Scenario.Apart.Signals
import Conduit.Proofs.Scenario.Apart.Wiring

namespace Conduit.Scenario.Bench.Shares

variable {mine : Table → String → Bool} {strict : Prop} {ρ σ : Atlas} {n : Kind → Nat} {b u B : Bench}

/-! ## Threads -/

theorem parallel (h : Shares mine strict ρ σ n b u B) (hs : ¬ strict) {endpoints : Option (List Field)}
    (count : Option Nat) (he : ∀ fields, endpoints = some fields → ∀ f ∈ fields, Points mine f) :
    Agree (BeginsAlike mine strict ρ σ n u) (b.parallel endpoints count) (B.parallel endpoints count) := by
  unfold Bench.parallel
  rcases endpoints with _ | fields
  · rfl
  have hends : Agree (fun ps qs => qs = ps.map (Endpoint.rename ρ)) (fields.mapM b.endpoint)
      ((fields.map id).mapM B.endpoint) :=
    .mapM fun f hf => h.endpoint (he fields rfl f hf)
  rw [List.map_id] at hends
  refine hends.bind ?_
  rintro ps _ rfl
  rcases count with _ | count
  · rfl
  refine (Agree.mapM fun p _ => h.channelAt p).bind ?_
  rintro cs _ rfl
  -- Whether a batch is possible is read off directions and payloads, which no atlas changes.
  have hany : ((cs.map (Channel.rename ρ)).any fun c => c.direction = .input || c.payload = .text) =
      cs.any fun c => c.direction = .input || c.payload = .text := by
    rw [List.any_map]
    congr 1
    funext c
    rw [Function.comp_apply, Channel.direction_rename, Channel.payload_rename]
  dsimp only
  rw [hany]
  split
  · rfl
  · refine {
      le := h.lengths.ge
      shares := fun _ => ⟨by rw [h.lengths]; exact h, congrArg Outcome.batch ?_⟩
      holds := ?_
      carried := fun _ he => Outcome.noConfusion he
      single := fun hstrict => absurd hstrict hs }
    · rw [renameBatch, List.flatMap_map, List.map_flatMap]
      simp only [List.map_map]
      rfl
    · show (ps.map (Endpoint.rename ρ)).flatMap (·.holds) = (ps.flatMap (·.holds)).map (Ref.rename ρ)
      rw [List.flatMap_map, List.map_flatMap]
      rfl

/-! ## Any step -/

/-- Any step of one side comes to the same. -/
theorem perform (h : Shares mine strict ρ σ n b u B) (frames : List Frame) (given : Option Value) {a : Action}
    (ha : a.Inside mine strict) :
    Agree (BeginsAlike mine strict ρ σ n u) (b.perform frames given a)
        (B.perform (frames.map (Frame.rename ρ)) given a) := by
  have hn := ha.named
  have hp : ∀ r, pinned (frames.map (Frame.rename ρ)) (r.rename ρ) = pinned frames r := pinned_rename frames
  have hc := ha.of_carried
  -- One lemma for each action. Only a thread and a batch open frames of their own.
  cases a with
  | create name layout rules => exact h.create hn layout (.of_flatMap hc)
  | keep name component => exact h.keep hn.1 hn.2
  | drop name => exact h.drop hp hn
  | hold name endpoint => exact h.hold hn.1 hn.2
  | release name => exact h.release hp hn
  | inspect endpoint => exact h.inspect hn
  | group name => exact h.group hn
  | publish endpoint value => exact h.publish .plain hn
  | tryPublish endpoint value => exact h.publish .collecting hn
  | callSlot endpoint value => exact h.callSlot hn
  | panic kind text => exact h.panic kind text
  | subscribe output input name via => exact h.subscribe hn.1 hn.2.1 hn.2.2 via
  | close handle => exact h.close hn
  | dropHandle handle => exact h.dropHandle hp hn
  | cloneHandle handle name => exact h.cloneHandle hn.1 hn.2
  | handleInfo handle => exact h.handleInfo hn
  | downcast handle output input => exact h.downcast hn output input
  | has endpoint handle => exact h.has hn.1 hn.2
  | register endpoint handle => exact h.register hn.1 hn.2
  | unregister endpoint handle => exact h.unregister hp hn.1 hn.2
  | forge like name => exact h.forge hn.1 hn.2
  | newRegistry name => exact h.newRegistry hn
  | dropRegistry registry => exact h.dropRegistry hp hn
  | addTo registry handle => exact h.addTo hn.1 hn.2
  | removeFrom registry handle => exact h.removeFrom hp hn.1 hn.2
  | contains registry handle => exact h.contains hn.1 hn.2
  | closeAll registry => exact h.closeAll hn
  | registryInfo registry => exact h.registryInfo hn
  | newSignal name kind => exact h.newSignal hn kind
  | dropSignal signal => exact h.dropSignal hn
  | newCallback name rules => exact h.newCallback hn (.of_flatMap hc)
  | dropCallback callback => exact h.dropCallback hn
  | callCallback callback value => exact h.callCallback hn
  | callbackInfo callback => exact h.callbackInfo hn frames
  | connect signal callback connection => exact h.connect hn.1 hn.2.1 hn.2.2
  | disconnect signal connection => exact h.disconnect hn.1 hn.2
  | emit signal value numbered => exact h.emit hn numbered
  | signalInfo signal => exact h.signalInfo hn
  | disconnectAt endpoint connection => exact h.disconnectAt hn.1 hn.2
  | thread steps =>
    rcases steps with _ | steps
    · rfl
    · exact {
        le := h.lengths.ge
        shares := fun _ => ⟨by rw [h.lengths]; exact h, rfl⟩
        holds := rfl
        carried := fun steps' he => by cases he; exact hc
        single := fun _ _ he => Outcome.noConfusion he }
  | parallel endpoints count => exact h.parallel ha.single count hn
  | unknown => rfl

end Conduit.Scenario.Bench.Shares
