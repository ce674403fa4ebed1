/-
What is asked of the signals of a bench. A step that makes a signal, or connects to one, or hands a token
to one, comes to a request (`Request`), if its names stand for something. The reference serves requests
with rosters alone, and steps do as the reference does: they give the same replies and leave the same
rosters. No other step changes them.
-/
import Conduit.Proofs.Roster
import Conduit.Proofs.Scenario.Aside

namespace Conduit.Scenario

open World (License)

/-! ## The reference -/

/-- Something that is asked of the signals of a bench. -/
inductive Request
  | make (cardinality : Cardinality)
  | connect (g : SignalId) (slot : Slot)
  /-- A token of this number is handed to a signal, whichever it came from. -/
  | disconnect (g : SignalId) (id : Nat)
  deriving DecidableEq

/-- What comes of a request. -/
inductive Reply
  | made
  | connected (id : Nat)
  | refused
  | removed
  | unknown (id : Nat)
  deriving DecidableEq

namespace Request

/-- The rosters after a request. -/
def serve (rs : List (Roster Slot)) : Request → List (Roster Slot)
  | .make cardinality => rs ++ [.blank cardinality]
  | .connect g slot => rs.modify g fun r => (r.connect slot).2
  | .disconnect g id => rs.modify g fun r => (r.disconnect id).2

/-- What comes of a request. -/
def reply (rs : List (Roster Slot)) : Request → Reply
  | .make _ => .made
  | .connect g slot => ((rs[g]?).bind fun r => (r.connect slot).1).elim .refused .connected
  | .disconnect g id => if (rs[g]?).any fun r => (r.disconnect id).1 then .removed else .unknown id

end Request

/-- The answer that tells of a reply. -/
def Reply.result : Reply → Result
  | .made => .ok
  | .connected id => .connection id
  | .refused => .alreadyConnected .oneToOne
  | .removed => .ok
  | .unknown _ => .ok

/-- What the log tells of a reply. -/
def Reply.entries : Reply → List Entry
  | .unknown id => [.event (.unknownSlot id)]
  | _ => []

namespace Bench

/-- The rosters of the signals of the bench. -/
def rosters (b : Bench) : List (Roster Slot) := b.signalStates.map Signal.roster

/-- What a step asks of the signals of the bench, if it asks anything. -/
def request? (b : Bench) : Action → Option Request
  | .newSignal name kind => do
    let _ ← (fresh b.signals name).toOption
    match kind with
    | some "many" => some (.make .oneToMany)
    | some "one" => some (.make .oneToOne)
    | _ => none
  | .connect signal callback connection => do
    let (g, _) ← (b.signalNamed signal).toOption
    let (_, c) ← (lookup b.callbacks callback).toOption
    let _ ← (fresh b.connections connection).toOption
    return .connect g (.callback c)
  | .disconnect signal connection => do
    let (g, _) ← (b.signalNamed signal).toOption
    let (_, id) ← (lookup b.connections connection).toOption
    return .disconnect g id
  | _ => none

variable {b b' : Bench} {r : Begun} {g : SignalId} {s s' : Signal Slot}

/-! ## Signals and rosters -/

theorem rosters_congr (h : b'.signalStates = b.signalStates) : b'.rosters = b.rosters :=
  congrArg (List.map Signal.roster) h

theorem getElem?_rosters (b : Bench) (g : SignalId) : b.rosters[g]? = (b.signal? g).map Signal.roster :=
  List.getElem?_map ..

/-- A signal changes as its roster does. -/
theorem rosters_setSignal (hg : b.signal? g = some s) {f : Roster Slot → Roster Slot} (h : s'.roster = f s.roster) :
    (b.setSignal g s').rosters = b.rosters.modify g f := by
  have hlt : g < b.signalStates.length := (List.getElem?_eq_some_iff.1 hg).1
  apply List.ext_getElem?
  intro k
  rw [List.getElem?_modify, getElem?_rosters, getElem?_rosters]
  unfold signal? setSignal
  rw [List.getElem?_set]
  by_cases hk : g = k
  · subst hk
    rw [show b.signalStates[g]? = some s from hg]
    simp [hlt, h]
  · simp [hk]

/-- A roster that does not change. -/
theorem rosters_of_self (hg : b.signal? g = some s) {f : Roster Slot → Roster Slot} (h : s.roster = f s.roster) :
    b.rosters = b.rosters.modify g f := by
  apply List.ext_getElem?
  intro k
  rw [List.getElem?_modify, getElem?_rosters]
  by_cases hk : g = k
  · subst hk
    rw [hg]
    simp [← h]
  · simp [hk]

/-! ## Steps that ask -/

/-- A step that has begun has done what was asked as the reference would. -/
structure Served (q : Request) (b : Bench) (r : Begun) : Prop where
  rosters : r.bench.rosters = q.serve b.rosters
  outcome : r.outcome = .answer (q.reply b.rosters).result
  world : r.bench.world = { b.world with log := (q.reply b.rosters).entries ++ b.world.log }

theorem toOption_eq_some {ε α : Type} {x : Except ε α} {a : α} : x.toOption = some a ↔ x = .ok a := by
  cases x with
  | error e => simp [Except.toOption]
  | ok y => simp [Except.toOption]

theorem newSignal_served {name kind : Field} {q : Request} (h : b.request? (.newSignal name kind) = some q) :
    ∃ r, b.newSignal name kind = .ok r ∧ Served q b r := by
  obtain ⟨n, hn, h⟩ := Option.bind_eq_some_iff.1 h
  rw [toOption_eq_some] at hn
  have hmade : ∀ cardinality, ({ cardinality } : Signal Slot).roster = .blank cardinality := fun cardinality =>
    Signal.roster_of_places_nil rfl rfl
  unfold newSignal
  rw [hn]
  split at h
  · cases h
    refine ⟨_, rfl, ?_, rfl, rfl⟩
    simp [rosters, Request.serve, hmade]
  · cases h
    refine ⟨_, rfl, ?_, rfl, rfl⟩
    simp [rosters, Request.serve, hmade]
  · cases h

/-- Of well-formed signals the reference can be asked by their rosters. -/
theorem reply_connect (hg : b.signal? g = some s) (ht : s.Tidy) (slot : Slot) :
    (Request.connect g slot).reply b.rosters = (s.connect? slot).elim .refused fun x => .connected x.1 := by
  have hroster := (Signal.roster_connect? ht slot).1
  rw [Request.reply, getElem?_rosters, hg, Option.map_some, Option.bind_some, ← hroster]
  cases s.connect? slot <;> rfl

theorem reply_disconnect (hg : b.signal? g = some s) (ht : s.Tidy) (id : Nat) :
    (Request.disconnect g id).reply b.rosters = if s.has id then .removed else .unknown id := by
  rw [Request.reply, getElem?_rosters, hg, Option.map_some, Option.any_some, ← (Signal.roster_disconnect ht id).1]

theorem connect_served (hb : b.Tidy) {signal callback connection : Field} {q : Request}
    (h : b.request? (.connect signal callback connection) = some q) :
    ∃ r, b.connect signal callback connection = .ok r ∧ Served q b r := by
  obtain ⟨⟨g, s⟩, hs, h⟩ := Option.bind_eq_some_iff.1 h
  obtain ⟨⟨m, c⟩, hc, h⟩ := Option.bind_eq_some_iff.1 h
  obtain ⟨n, hn, h⟩ := Option.bind_eq_some_iff.1 h
  cases h
  rw [toOption_eq_some] at hs hc hn
  have hg := signal?_of_signalNamed hs
  have ht : s.Tidy := hb g s hg
  obtain ⟨-, hroster⟩ := Signal.roster_connect? ht (.callback c)
  have hreply := reply_connect hg ht (.callback c)
  unfold connect
  rw [hs, hc, hn]
  dsimp only [bind, Except.bind]
  rcases hconn : s.connect? (.callback c) with _ | ⟨id, s'⟩
  · rw [hconn] at hroster hreply
    refine ⟨_, rfl, rosters_of_self hg hroster, ?_, ?_⟩
    · -- Only a signal for one refuses.
      rw [hreply, (Signal.connect?_eq_none_iff.1 hconn).1]
      rfl
    · rw [hreply]
      rfl
  · rw [hconn] at hroster hreply
    refine ⟨_, rfl, ?_, ?_, ?_⟩
    · exact rosters_setSignal hg hroster
    · rw [hreply]
      rfl
    · rw [hreply]
      rfl

theorem disconnect_served (hb : b.Tidy) {signal connection : Field} {q : Request}
    (h : b.request? (.disconnect signal connection) = some q) :
    ∃ r, b.disconnect signal connection = .ok r ∧ Served q b r := by
  obtain ⟨⟨g, s⟩, hs, h⟩ := Option.bind_eq_some_iff.1 h
  obtain ⟨⟨n, id⟩, hid, h⟩ := Option.bind_eq_some_iff.1 h
  cases h
  rw [toOption_eq_some] at hs hid
  have hg := signal?_of_signalNamed hs
  have ht : s.Tidy := hb g s hg
  obtain ⟨-, hroster⟩ := Signal.roster_disconnect ht id
  have hreply := reply_disconnect hg ht id
  unfold disconnect
  rw [hs, hid]
  dsimp only [bind, Except.bind]
  -- The number is connected, or the request changes nothing and says so.
  cases hhas : s.has id with
  | true =>
    rw [hhas, if_pos rfl] at hreply
    rw [Signal.disconnect?_of_has hhas]
    refine ⟨_, rfl, ?_, ?_, ?_⟩
    · exact rosters_setSignal hg hroster
    · rw [hreply]
      rfl
    · rw [hreply]
      rfl
  | false =>
    rw [hhas, if_neg Bool.false_ne_true] at hreply
    rw [Signal.disconnect?_eq_none_iff.2 hhas]
    rw [Signal.without_of_not_has hhas] at hroster
    refine ⟨_, rfl, rosters_of_self hg hroster, ?_, ?_⟩
    · rw [hreply]
      rfl
    · rw [hreply]
      rfl

/-- A step that asks something is performed, and does as the reference does. -/
theorem perform_served (hb : b.Tidy) (frames : List Frame) (given : Option Value) {a : Action} {q : Request}
    (h : b.request? a = some q) : ∃ r, b.perform frames given a = .ok r ∧ Served q b r := by
  cases a with
  | newSignal name kind => exact newSignal_served h
  | connect signal callback connection => exact connect_served hb h
  | disconnect signal connection => exact disconnect_served hb h
  | _ => cases h

/-- A step about signals that has begun has asked something. -/
theorem request_of_performed {frames : List Frame} {given : Option Value} {a : Action} (ha : a.Signals)
    (h : b.perform frames given a = .ok r) : ∃ q, b.request? a = some q := by
  cases a with
  | newSignal name kind =>
    obtain ⟨n, cardinality, hn, ⟨rfl, -⟩ | ⟨rfl, -⟩, -⟩ := newSignal_ok h
    · exact ⟨.make .oneToMany, by simp [request?, hn, Except.toOption]⟩
    · exact ⟨.make .oneToOne, by simp [request?, hn, Except.toOption]⟩
  | connect signal callback connection =>
    obtain ⟨g, s, m, c, n, hs, hc, hn, -⟩ := connect_ok h
    refine ⟨.connect g (.callback c), ?_⟩
    simp [request?, hs, hc, hn, Except.toOption]
  | disconnect signal connection =>
    obtain ⟨g, s, n, id, hs, hid, -⟩ := disconnect_ok h
    refine ⟨.disconnect g id, ?_⟩
    simp [request?, hs, hid, Except.toOption]
  | _ => cases ha

/-- A step that asks nothing leaves rosters alone. -/
theorem rosters_performed {frames : List Frame} {given : Option Value} {a : Action} (ha : b.request? a = none)
    (h : b.perform frames given a = .ok r) : r.bench.rosters = b.rosters := by
  apply rosters_congr
  apply (perform_aside h).signals
  intro hsignals
  obtain ⟨q, hq⟩ := request_of_performed hsignals h
  rw [ha] at hq
  cases hq

end Bench

/-! ## Moves -/

namespace Config

variable {may : License} {c d : Config}

/-- What the next move asks of the signals of the bench, if it asks anything. -/
def request? (c : Config) : Option Request :=
  match c.focus with
  | .start step _ => c.bench.request? step.action
  | _ => none

theorem request?_eq_some_iff {q : Request} : c.request? = some q ↔
    ∃ step given, c.focus = .start step given ∧ c.bench.request? step.action = some q := by
  unfold request?
  cases c.focus <;> simp

/-- A step that is to begin does so in the next move. -/
theorem Move.of_start (h : Move may c d) {step : Step Action} {given : Option Value}
    (hf : c.focus = .start step given) : d = c.start step given := by
  cases h with
  | tick _ => rw [Config.tick, hf]
  | act _ hfocus _ =>
    rw [hf] at hfocus
    cases hfocus
  | next hfocus _ =>
    rw [hf] at hfocus
    cases hfocus
  | furnish hfocus _ _ _ =>
    rcases hfocus with ⟨-, hfocus⟩ | ⟨r, hfocus⟩
    · rw [hf] at hfocus
      cases hfocus
    · rw [hf] at hfocus
      cases hfocus

/-- What is asked is done in the next move, and answered as the reference would. -/
theorem Move.served (hs : WellFormed c) (h : Move may c d) {q : Request} (hq : c.request? = some q) :
    d.bench.rosters = q.serve c.bench.rosters ∧ d.focus = .ended (q.reply c.bench.rosters).result ∧
      d.bench.world = { c.bench.world with log := (q.reply c.bench.rosters).entries ++ c.bench.world.log } := by
  obtain ⟨step, given, hfocus, hq⟩ := request?_eq_some_iff.1 hq
  obtain ⟨⟨bench, outcome, holds⟩, hperform, hserved⟩ := Bench.perform_served hs.bench.tidy c.frames given hq
  obtain rfl := h.of_start hfocus
  have houtcome : outcome = .answer (q.reply c.bench.rosters).result := hserved.outcome
  rw [start, hperform, houtcome]
  exact ⟨hserved.rosters, rfl, hserved.world⟩

/-- The next move changes rosters if something is asked, and only as the reference does. -/
theorem Move.rosters (hs : WellFormed c) (h : Move may c d) :
    d.bench.rosters = c.request?.elim c.bench.rosters (·.serve c.bench.rosters) := by
  rcases hq : c.request? with _ | q
  · -- A move that is no request leaves all signals as they are.
    cases h.moved with
    | @begun step given r hfocus hperform hd =>
      rw [hd, bench_start hperform]
      apply Bench.rosters_performed _ hperform
      unfold request? at hq
      rw [hfocus] at hq
      exact hq
    | @ended _ holds rest _ _ hsame =>
      obtain ⟨w, hw⟩ := Bench.letGo_world rest holds c.bench
      rw [hw] at hsame
      exact Bench.rosters_congr hsame.signalStates
    | @left k rest _ _ hleave =>
      obtain ⟨w, hw⟩ := Bench.leave_world c.bench rest k.slot
      rw [hw] at hleave
      exact Bench.rosters_congr (by rw [hleave])
    | furnished _ hd => exact Bench.rosters_congr (hd ▸ rfl)
    | unmoved hsame => exact Bench.rosters_congr hsame.signalStates
  · exact (h.served hs hq).1

end Config

end Conduit.Scenario
