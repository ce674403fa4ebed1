/-
What a worker does tick by tick. The calls that it makes are read off its log, and what a call does off the
plans; the counters follow from the calls. A tick calls whom it finds when it begins, so what callbacks
connect comes into the next one, and one that is told to stop is the last.
-/
import Conduit.Notifier.Periodic
import Mathlib.Algebra.GroupWithZero.Nat
import Mathlib.Data.List.Basic
import Mathlib.Tactic.Set
import Mathlib.Tactic.Spread

namespace Conduit.Notifier

/-! ## What plans say -/

/-- The panic that an act is. -/
def Act.panic? : Act → Option Panic
  | .panic p => some p
  | _ => none

/-- The panic that acts come to. -/
def panicOf (acts : List Act) : Option Panic := acts.findSome? Act.panic?

/-- The acts that are done, which are those before a panic. -/
def doneOf (acts : List Act) : List Act := acts.takeWhile (·.panic?.isNone)

def connectsOf (acts : List Act) : Nat := (doneOf acts).count .connect

def stopsOf (acts : List Act) : Bool := (doneOf acts).contains .stop

/-- What a callback does at a tick. -/
def script (plans : List Plan) (call : Nat × Nat) : List Act :=
  (plans.filter fun plan => plan.callback == call.1 && plan.tick == call.2).flatMap (·.acts)

/-! ## What a log tells -/

/-- The callback and the tick, where a call is told of. -/
def Notice.called? : Notice → Option (Nat × Nat)
  | .called callback tick => some (callback, tick)
  | _ => none

/-- The number of the new callback, where a callback is connected. -/
def Notice.connected? : Notice → Option Nat
  | .connected callback _ => some callback
  | _ => none

/-- The text of the panic, where a call has failed. -/
def Notice.reason? : Notice → Option String
  | .failed reason => some reason
  | _ => none

/-- The calls, in order. -/
def callsOf (notices : List Notice) : List (Nat × Nat) := notices.filterMap Notice.called?

/-- How many callbacks are connected by so many calls. -/
def connectsIn (plans : List Plan) (calls : List (Nat × Nat)) : Nat :=
  (calls.map fun k => connectsOf (script plans k)).sum

theorem callsOf_append (l l' : List Notice) : callsOf (l ++ l') = callsOf l ++ callsOf l' := List.filterMap_append

theorem connectsIn_append (plans : List Plan) (l l' : List (Nat × Nat)) :
    connectsIn plans (l ++ l') = connectsIn plans l + connectsIn plans l' := by
  rw [connectsIn, List.map_append, List.sum_append]
  rfl

namespace Periodic

variable {plans : List Plan} {p q r : Periodic} {acts rest : List Act} {notices later : List Notice}

/-! ## One call -/

/-- What acts have done when they have brought `p` to `q`, and left these notices. -/
structure Did (acts : List Act) (p q : Periodic) (notices : List Notice) : Prop where
  log : q.log = notices.reverse ++ p.log
  interval : q.interval = p.interval
  dropped : q.dropped = p.dropped
  ticks : q.ticks = p.ticks
  failures : q.failures = p.failures
  callbacks : q.callbacks = p.callbacks + connectsOf acts
  interrupted : q.interrupted = (p.interrupted || stopsOf acts)
  calls : callsOf notices = []
  connected : notices.filterMap Notice.connected? = List.range' p.callbacks (connectsOf acts)
  reasons : notices.filterMap Notice.reason? = []
  probes : ∀ t f m b, .probed t f m b ∈ notices → t = p.ticks

/-- An act that is no panic goes before the others. -/
theorem doneOf_cons {a : Act} (h : a.panic? = none) : doneOf (a :: rest) = a :: doneOf rest := by
  rw [doneOf, List.takeWhile_cons, h]
  rfl

theorem connectsOf_cons {a : Act} (h : a.panic? = none) (hne : a ≠ .connect) :
    connectsOf (a :: rest) = connectsOf rest := by
  rw [connectsOf, doneOf_cons h, List.count_cons_of_ne hne]
  rfl

theorem stopsOf_cons {a : Act} (h : a.panic? = none) (hne : a ≠ .stop) : stopsOf (a :: rest) = stopsOf rest := by
  rw [stopsOf, doneOf_cons h, List.contains_cons, beq_eq_false_iff_ne.2 hne.symm, Bool.false_or]
  rfl

/-- An act that nobody is told of. -/
theorem Did.quiet {a : Act} (h : Did rest p q notices) (ha : a.panic? = none) (hc : a ≠ .connect) (hs : a ≠ .stop) :
    Did (a :: rest) p q notices where
  __ := h
  callbacks := by rw [connectsOf_cons ha hc, h.callbacks]
  interrupted := by rw [stopsOf_cons ha hs, h.interrupted]
  connected := by rw [connectsOf_cons ha hc, h.connected]

/-- A look tells what there is to see, and changes nothing. -/
theorem Did.probe (h : Did rest (p.note (.probed p.ticks p.failures p.callbacks p.isRunning)) q notices) :
    Did (.probe :: rest) p q (.probed p.ticks p.failures p.callbacks p.isRunning :: notices) := by
  refine Did.quiet ?_ rfl nofun nofun
  refine { h with log := ?_, probes := fun t f m b hm => ?_ }
  · rw [h.log, List.reverse_cons, List.append_assoc]
    rfl
  · rcases List.mem_cons.1 hm with hm | hm
    · cases hm
      rfl
    · exact h.probes t f m b hm

/-- To stop sets the flag, whatever the acts after it do. -/
theorem Did.stop (h : Did rest p.interrupt q notices) : Did (.stop :: rest) p q notices := by
  have hconnects : connectsOf (.stop :: rest) = connectsOf rest := connectsOf_cons rfl nofun
  have hstops : stopsOf (.stop :: rest) = true := by
    rw [stopsOf, doneOf_cons (a := .stop) rfl, List.contains_cons, beq_self_eq_true, Bool.true_or]
  refine { h with callbacks := ?_, interrupted := ?_, connected := ?_ }
  · rw [hconnects, h.callbacks]
    rfl
  · rw [h.interrupted, hstops, Bool.or_true]
    rfl
  · rw [hconnects, h.connected]
    rfl

/-- One more callback gets the next number. -/
theorem Did.connect (h : Did rest ((p.connect).note (.connected p.callbacks (p.callbacks + 1))) q notices) :
    Did (.connect :: rest) p q (.connected p.callbacks (p.callbacks + 1) :: notices) := by
  have hconnects : connectsOf (.connect :: rest) = connectsOf rest + 1 := by
    rw [connectsOf, doneOf_cons (a := .connect) rfl, List.count_cons_self]
    rfl
  refine { h with log := ?_, callbacks := ?_, interrupted := ?_, connected := ?_, probes := fun t f m b hm => ?_ }
  · rw [h.log, List.reverse_cons, List.append_assoc]
    rfl
  · rw [h.callbacks, hconnects, Nat.add_comm (connectsOf rest), ← Nat.add_assoc]
    rfl
  · rw [stopsOf_cons (a := .connect) rfl nofun, h.interrupted]
    rfl
  · rw [List.filterMap_cons_some (by rfl), h.connected, hconnects, List.range'_succ]
    rfl
  · exact h.probes t f m b ((List.mem_cons.1 hm).resolve_left nofun)

theorem act_did : ∀ {acts : List Act} {p : Periodic}, p.dropped = false → .drop ∉ acts →
    (p.act acts).2 = panicOf acts ∧ ∃ notices, Did acts p (p.act acts).1 notices
  | [], p, _, _ => ⟨rfl, [], by constructor <;> simp [act, connectsOf, stopsOf, doneOf, callsOf]⟩
  | a :: rest, p, hp, hno => by
    have hrest : .drop ∉ rest := fun h => hno (List.mem_cons_of_mem _ h)
    -- By induction on the acts: each adds its notice, and a panic is the last.
    cases a with
    | panic cause => exact ⟨rfl, [], by constructor <;> simp [act, connectsOf, stopsOf, doneOf, callsOf, Act.panic?]⟩
    | drop => exact absurd (List.mem_cons_self ..) hno
    | idle =>
      obtain ⟨hpanic, notices, h⟩ := act_did hp hrest
      exact ⟨hpanic, notices, h.quiet rfl nofun nofun⟩
    | sleep ms =>
      obtain ⟨hpanic, notices, h⟩ :=
        act_did (p := { p with now := p.now + (Duration.ofMilliseconds ms).nanoseconds }) hp hrest
      refine ⟨hpanic, notices, Did.quiet ?_ rfl nofun nofun⟩
      exact { h with }
    | probe =>
      obtain ⟨hpanic, notices, h⟩ :=
        act_did (p := p.note (.probed p.ticks p.failures p.callbacks p.isRunning)) hp hrest
      rw [act, if_neg (by rw [hp]; exact Bool.false_ne_true)]
      exact ⟨hpanic, _, h.probe⟩
    | stop =>
      obtain ⟨hpanic, notices, h⟩ := act_did (p := p.interrupt) hp hrest
      rw [act, if_neg (by rw [hp]; exact Bool.false_ne_true)]
      exact ⟨hpanic, _, h.stop⟩
    | connect =>
      obtain ⟨hpanic, notices, h⟩ :=
        act_did (p := (p.connect).note (.connected p.callbacks (p.callbacks + 1))) hp hrest
      rw [act, if_neg (by rw [hp]; exact Bool.false_ne_true)]
      exact ⟨hpanic, _, h.connect⟩

/-! ## Calls in a row -/

/-- What the calls told of in some notices have done, when they have brought `p` to `q`. -/
structure Went (plans : List Plan) (p q : Periodic) (notices : List Notice) : Prop where
  log : q.log = notices.reverse ++ p.log
  interval : q.interval = p.interval
  dropped : q.dropped = p.dropped
  callbacks : q.callbacks = p.callbacks + connectsIn plans (callsOf notices)
  failures : q.failures = p.failures + (callsOf notices).countP fun k => (panicOf (script plans k)).isSome
  interrupted : q.interrupted = (p.interrupted || (callsOf notices).any fun k => stopsOf (script plans k))
  /-- New callbacks are numbered one after the other. -/
  connected : notices.filterMap Notice.connected? = List.range' p.callbacks (connectsIn plans (callsOf notices))
  /-- The texts of panics are told of in the order of the calls. -/
  reasons : notices.filterMap Notice.reason? =
    (callsOf notices).filterMap fun k => (panicOf (script plans k)).map Panic.message

theorem Went.refl (plans : List Plan) (p : Periodic) : Went plans p p [] := by
  constructor <;> simp [callsOf, connectsIn]

theorem Went.trans (h : Went plans p q notices) (h' : Went plans q r later) : Went plans p r (notices ++ later) where
  log := by rw [h'.log, h.log, List.reverse_append, List.append_assoc]
  interval := h'.interval.trans h.interval
  dropped := h'.dropped.trans h.dropped
  callbacks := by rw [h'.callbacks, h.callbacks, callsOf_append, connectsIn_append, Nat.add_assoc]
  failures := by rw [h'.failures, h.failures, callsOf_append, List.countP_append, Nat.add_assoc]
  interrupted := by rw [h'.interrupted, h.interrupted, callsOf_append, List.any_append, Bool.or_assoc]
  connected := by
    rw [List.filterMap_append, h.connected, h'.connected, h.callbacks, callsOf_append, connectsIn_append,
      List.range'_append_1]
  reasons := by rw [List.filterMap_append, h.reasons, h'.reasons, callsOf_append, List.filterMap_append]

/-- No plan gives the notifier up. -/
def Keeping (plans : List Plan) : Prop := ∀ plan ∈ plans, .drop ∉ plan.acts

theorem Keeping.script (h : Keeping plans) (k : Nat × Nat) : .drop ∉ script plans k := fun hd => by
  obtain ⟨plan, hm, hd⟩ := List.mem_flatMap.1 hd
  exact h plan (List.mem_of_mem_filter hm) hd

/-- What calls at the tick under way have done, of the callbacks of these numbers. -/
structure Calls (plans : List Plan) (numbers : List Nat) (p q : Periodic) (notices : List Notice) : Prop
    extends Went plans p q notices where
  calls : callsOf notices = numbers.map (·, p.ticks + 1)
  ticks : q.ticks = p.ticks
  probes : ∀ t f m b, .probed t f m b ∈ notices → t = p.ticks

/-- What is told of a panic. -/
def failedOf (cause : Option Panic) : List Notice := (cause.map fun p => .failed p.message).toList

/-- Tells of the panic that a call has come to, and counts it. -/
def settle (p : Periodic) (cause : Option Panic) : Periodic :=
  { p with failures := p.failures + cause.toList.length, log := failedOf cause ++ p.log }

theorem call_eq (hp : p.dropped = false) {q : Periodic} {cause : Option Panic} {callback : Nat}
    (hact : (p.note (.called callback (p.ticks + 1))).act (script plans (callback, p.ticks + 1)) = (q, cause)) :
    call plans p callback = q.settle cause := by
  rw [call, if_neg (by rw [hp]; exact Bool.false_ne_true)]
  dsimp only [script] at hact ⊢
  rw [hact]
  cases cause <;> rfl

/-- A callback is called, and does what plans say; if it panics that is told of, and counted. -/
theorem call_calls (hplans : Keeping plans) (hp : p.dropped = false) (callback : Nat) :
    ∃ notices, Calls plans [callback] p (call plans p callback) notices := by
  have hno := hplans.script (callback, p.ticks + 1)
  obtain ⟨hpanic, notices, h⟩ := act_did (p := p.note (.called callback (p.ticks + 1))) hp hno
  rcases hact : (p.note (.called callback (p.ticks + 1))).act (script plans (callback, p.ticks + 1)) with ⟨q, cause⟩
  rw [hact] at hpanic h
  dsimp only at hpanic h
  rw [call_eq hp hact, hpanic]
  -- What the log tells of the call itself stands around what it tells of the acts.
  set acts := script plans (callback, p.ticks + 1) with hacts
  have htail : callsOf (failedOf (panicOf acts)) = [] ∧ (failedOf (panicOf acts)).filterMap Notice.connected? = [] ∧
      (failedOf (panicOf acts)).filterMap Notice.reason? = ((panicOf acts).map Panic.message).toList := by
    rcases panicOf acts with _ | cause <;> exact ⟨rfl, rfl, rfl⟩
  have hcalls : callsOf (.called callback (p.ticks + 1) :: (notices ++ failedOf (panicOf acts))) =
      [(callback, p.ticks + 1)] := by
    rw [callsOf, List.filterMap_cons_some (by rfl), List.filterMap_append]
    exact congrArg _ (List.append_eq_nil_iff.2 ⟨h.calls, htail.1⟩)
  have hconnects : connectsIn plans [(callback, p.ticks + 1)] = connectsOf acts := by simp [connectsIn, hacts]
  refine ⟨_, ⟨?_, h.interval, h.dropped, ?_, ?_, ?_, ?_, ?_⟩, hcalls, h.ticks, fun t f m b hm => ?_⟩
  · show failedOf (panicOf acts) ++ q.log = _
    rw [h.log]
    rcases panicOf acts <;> simp [failedOf, note]
  · rw [hcalls, hconnects]
    exact h.callbacks
  · show q.failures + (panicOf acts).toList.length = _
    rw [hcalls, h.failures]
    rcases hcause : panicOf acts <;> simp [← hacts, hcause, note]
  · show q.interrupted = _
    rw [hcalls, h.interrupted]
    simp [← hacts, note]
  · rw [hcalls, hconnects, List.filterMap_cons_none (by rfl), List.filterMap_append, h.connected, htail.2.1,
      List.append_nil]
    rfl
  · rw [hcalls, List.filterMap_cons_none (by rfl), List.filterMap_append, h.reasons, htail.2.2, List.nil_append]
    rcases hcause : panicOf acts <;> simp [← hacts, hcause]
  · rcases List.mem_append.1 ((List.mem_cons.1 hm).resolve_left nofun) with hm | hm
    · exact h.probes t f m b hm
    · obtain ⟨cause, -, hcause⟩ := Option.map_eq_some_iff.1 (Option.mem_toList.1 hm)
      cases hcause

theorem calls_calls (hplans : Keeping plans) : ∀ (numbers : List Nat) {p : Periodic}, p.dropped = false →
    ∃ notices, Calls plans numbers p (numbers.foldl (call plans) p) notices
  | [], p, _ => ⟨[], { Went.refl plans p with calls := rfl, ticks := rfl, probes := nofun }⟩
  | n :: numbers, p, hp => by
    obtain ⟨first, h⟩ := call_calls hplans hp n
    obtain ⟨later, h'⟩ := calls_calls hplans numbers (h.dropped.trans hp)
    refine ⟨first ++ later, { h.toWent.trans h'.toWent with
      calls := ?_, ticks := h'.ticks.trans h.ticks, probes := fun t f m b hm => ?_ }⟩
    · rw [callsOf_append, h.calls, h'.calls, h.ticks]
      rfl
    · rcases List.mem_append.1 hm with hm | hm
      · exact h.probes t f m b hm
      · exact (h'.probes t f m b hm).trans h.ticks

/-! ## Tick by tick -/

/-- A tick that begins at `p` and is complete at `q`. -/
structure Tick (plans : List Plan) (p q : Periodic) (notices : List Notice) : Prop extends Went plans p q notices where
  /-- It calls all callbacks there are when it begins, in the order of connection, and no other. -/
  calls : callsOf notices = (List.range p.callbacks).map (·, p.ticks + 1)
  ticks : q.ticks = p.ticks + 1
  /-- Meanwhile the ticks before it are what callbacks see. -/
  probes : ∀ t f m b, .probed t f m b ∈ notices → t = p.ticks

theorem fire_tick (hplans : Keeping plans) (hp : p.dropped = false) :
    ∃ notices, Tick plans p (fire plans p) notices := by
  obtain ⟨notices, h⟩ := calls_calls hplans (List.range p.callbacks) hp
  exact ⟨notices, { h with ticks := congrArg (· + 1) h.ticks }⟩

/-- The time at which a tick begins is nothing to it. -/
theorem Tick.at_time {now : Nat} (h : Tick plans { p with now } q notices) : Tick plans p q notices := { h with }

/-- What a worker does that is at `p` between two ticks, and is to do `limit` more; the notices of each tick
are one of the `parts`. -/
structure Works (plans : List Plan) (limit deadline : Nat) (p : Periodic) (parts : List (List Notice)) : Prop where
  went : ∀ i ≤ parts.length, Went plans p (p.work plans i deadline) (parts.take i).flatten ∧
    (p.work plans i deadline).ticks = p.ticks + i
  ticks : ∀ i part, parts[i]? = some part → Tick plans (p.work plans i deadline) (p.work plans (i + 1) deadline) part ∧
    (p.work plans i deadline).interrupted = false
  ended : p.work plans limit deadline = p.work plans parts.length deadline
  within : parts.length ≤ limit
  /-- It does them all, unless it is told to stop. -/
  all : parts.length < limit → (p.work plans parts.length deadline).interrupted = true

/-- The notifier after one tick more. -/
def ticked (plans : List Plan) (deadline : Nat) (p : Periodic) : Periodic :=
  fire plans { p with now := max p.now deadline }

theorem work_succ (hi : p.interrupted = false) (i deadline : Nat) : p.work plans (i + 1) deadline =
    (p.ticked plans deadline).work plans i
      (nextDeadline (p.ticked plans deadline).interval.nanoseconds deadline (p.ticked plans deadline).now) := by
  rw [work, if_neg (by rw [hi]; exact Bool.false_ne_true)]
  rfl

theorem work_of_interrupted (hi : p.interrupted = true) (i deadline : Nat) : p.work plans i deadline = p := by
  cases i with
  | zero => rfl
  | succ i => rw [work, if_pos hi]

theorem ticked_tick (hplans : Keeping plans) (hp : p.dropped = false) (deadline : Nat) :
    ∃ notices, Tick plans p (p.ticked plans deadline) notices :=
  (fire_tick hplans (p := { p with now := max p.now deadline }) hp).imp fun _ h => h.at_time

/-- What a worker does goes on from its first tick. -/
theorem Works.cons {limit deadline : Nat} {part : List Notice} {parts : List (List Notice)} (hi : p.interrupted = false)
    (ht : Tick plans p (p.ticked plans deadline) part)
    (h : Works plans limit
      (nextDeadline (p.ticked plans deadline).interval.nanoseconds deadline (p.ticked plans deadline).now)
      (p.ticked plans deadline) parts) : Works plans (limit + 1) deadline p (part :: parts) where
  -- In front of the ticks of the rest there is the first one, so each number goes up by one.
  went
    | 0, _ => ⟨Went.refl plans p, rfl⟩
    | i + 1, hl => by
      obtain ⟨hwent, hticks⟩ := h.went i (Nat.le_of_succ_le_succ hl)
      rw [work_succ hi, hticks, ht.ticks]
      exact ⟨ht.toWent.trans hwent, by omega⟩
  ticks
    | 0, _, hpart => by
      cases hpart
      exact ⟨work_succ hi 0 deadline ▸ ht, hi⟩
    | i + 1, part, hpart => by
      rw [work_succ hi, work_succ hi]
      exact h.ticks i part hpart
  ended := by
    rw [work_succ hi, h.ended, List.length_cons, work_succ hi]
  within := Nat.succ_le_succ h.within
  all hl := by
    rw [List.length_cons, work_succ hi]
    exact h.all (Nat.lt_of_succ_lt_succ hl)

theorem Works.nil (plans : List Plan) (deadline : Nat) (p : Periodic) {limit : Nat}
    (hi : 0 < limit → p.interrupted = true) : Works plans limit deadline p [] where
  went
    | 0, _ => ⟨Went.refl plans p, rfl⟩
  ticks := nofun
  ended := by
    rcases Nat.eq_zero_or_pos limit with rfl | hl
    · rfl
    · rw [work_of_interrupted (hi hl), work_of_interrupted (hi hl)]
  within := Nat.zero_le _
  all := hi

theorem work_works (hplans : Keeping plans) : ∀ (limit deadline : Nat) {p : Periodic}, p.dropped = false →
    ∃ parts, Works plans limit deadline p parts
  | 0, deadline, p, _ => ⟨[], .nil plans deadline p nofun⟩
  | limit + 1, deadline, p, hp => by
    rcases hi : p.interrupted with _ | _
    · obtain ⟨part, htick⟩ := ticked_tick hplans hp deadline
      obtain ⟨parts, h⟩ := work_works hplans limit _ (htick.dropped.trans hp)
      exact ⟨part :: parts, h.cons hi htick⟩
    · exact ⟨[], .nil plans deadline p fun _ => hi⟩

/-! ## From the start on -/

/-- A notifier between two ticks: what it counts is what has come of the calls that its log tells of. -/
structure Settled (plans : List Plan) (started : Nat) (p : Periodic) : Prop where
  ticks : p.ticks = started
  failures : p.failures = (callsOf p.log.reverse).countP fun k => (panicOf (script plans k)).isSome
  callbacks : p.callbacks = 1 + connectsIn plans (callsOf p.log.reverse)
  interrupted : p.interrupted = (callsOf p.log.reverse).any fun k => stopsOf (script plans k)
  connected : p.log.reverse.filterMap Notice.connected? = List.range' 1 (connectsIn plans (callsOf p.log.reverse))
  reasons : p.log.reverse.filterMap Notice.reason? =
    (callsOf p.log.reverse).filterMap fun k => (panicOf (script plans k)).map Panic.message

/-- What the worker of a notifier does that has just started as `p`, and whose callbacks follow the plans. -/
structure Rounds (plans : List Plan) (limit deadline : Nat) (p : Periodic) (parts : List (List Notice)) : Prop where
  /-- The log consists of a part for each tick, and in between all is settled. -/
  log : ∀ i ≤ parts.length, (p.work plans i deadline).log.reverse = (parts.take i).flatten
  settled : ∀ i ≤ parts.length, Settled plans i (p.work plans i deadline)
  /-- A tick calls the callbacks that there were before it, each once, in the order of connection, -/
  calls : ∀ i part, parts[i]? = some part →
    callsOf part = (List.range (p.work plans i deadline).callbacks).map (·, i + 1)
  /-- and those connected meanwhile come after them from the next tick on. -/
  connected : ∀ i part, parts[i]? = some part → part.filterMap Notice.connected? =
      List.range' (p.work plans i deadline).callbacks (connectsIn plans (callsOf part)) ∧
    (p.work plans (i + 1) deadline).callbacks = (p.work plans i deadline).callbacks + connectsIn plans (callsOf part)
  /-- Callbacks see the number of the ticks before. -/
  probes : ∀ i part, parts[i]? = some part → ∀ t f m b, Notice.probed t f m b ∈ part → t = i
  /-- A tick in which a callback stops the notifier is the last one, -/
  stopped : ∀ i part, parts[i]? = some part → ∀ k ∈ callsOf part, stopsOf (script plans k) = true → i + 1 = parts.length
  /-- and nothing else ends the worker before its limit. -/
  ended : p.work plans limit deadline = p.work plans parts.length deadline
  within : parts.length ≤ limit
  all : parts.length < limit → ∃ part, parts.getLast? = some part ∧ ∃ k ∈ callsOf part, stopsOf (script plans k) = true

variable {limit deadline : Nat} {parts : List (List Notice)}

theorem Went.settled {interval : Duration} {i : Nat} (h : Went plans { interval } q notices) (hq : q.ticks = i) :
    Settled plans i q := by
  have hlog : q.log.reverse = notices := by rw [h.log, List.append_nil, List.reverse_reverse]
  refine ⟨hq, ?_, ?_, ?_, ?_, ?_⟩
  · rw [hlog, h.failures, Nat.zero_add]
  · rw [hlog, h.callbacks]
  · rw [hlog, h.interrupted, Bool.false_or]
  · rw [hlog, h.connected]
  · rw [hlog, h.reasons]

/-- The tick that comes before another one has been told nothing. -/
theorem Works.stopped (h : Works plans limit deadline p parts) {i : Nat} {part : List Notice}
    (hpart : parts[i]? = some part) {k : Nat × Nat} (hk : k ∈ callsOf part) (hs : stopsOf (script plans k) = true) :
      i + 1 = parts.length := by
  obtain ⟨hl, -⟩ := List.getElem?_eq_some_iff.1 hpart
  by_contra hne
  obtain ⟨next, hnext⟩ : ∃ next, parts[i + 1]? = some next :=
    ⟨_, List.getElem?_eq_getElem (show i + 1 < parts.length by omega)⟩
  have hgoes := (h.ticks (i + 1) next hnext).2
  rw [(h.ticks i part hpart).1.interrupted, Bool.or_eq_false_iff] at hgoes
  exact Bool.false_ne_true (hgoes.2.symm.trans (List.any_eq_true.2 ⟨k, hk, hs⟩))

/-- A worker that has come to its end before its limit has been told so in its last tick. -/
theorem Works.told (h : Works plans limit deadline p parts) (hp : p.interrupted = false) (hl : parts.length < limit) :
    ∃ part, parts.getLast? = some part ∧ ∃ k ∈ callsOf part, stopsOf (script plans k) = true := by
  have hi := h.all hl
  rcases List.eq_nil_or_concat' parts with rfl | ⟨before, part, rfl⟩
  · exact absurd (hp.symm.trans hi) Bool.false_ne_true
  · refine ⟨part, List.getLast?_concat, ?_⟩
    obtain ⟨htick, hgoes⟩ := h.ticks before.length part List.getElem?_concat_length
    rw [List.length_append, List.length_singleton, htick.interrupted, hgoes, Bool.false_or, List.any_eq_true] at hi
    exact hi

/-- Whatever callbacks do, short of giving the notifier up, and however many ticks there are: the worker
makes its rounds. -/
theorem work_rounds {interval : Duration} (hstart : start? interval = .ok p) (hplans : Keeping plans)
    (limit deadline : Nat) : ∃ parts, Rounds plans limit deadline p parts := by
  obtain rfl := eq_of_start? hstart
  obtain ⟨parts, h⟩ := work_works hplans limit deadline (p := { interval }) rfl
  -- As nothing has been before, the number of a tick is its place.
  have hticks : ∀ i part, parts[i]? = some part → (work plans i deadline { interval }).ticks = i := by
    intro i part hpart
    obtain ⟨hl, -⟩ := List.getElem?_eq_some_iff.1 hpart
    rw [(h.went i (Nat.le_of_lt hl)).2, Nat.zero_add]
  refine ⟨parts, fun i hi => ?_, fun i hi => ?_, fun i part hpart => ?_, fun i part hpart => ?_,
    fun i part hpart t f m b hm => ?_, fun i part hpart k hk hs => h.stopped hpart hk hs, h.ended, h.within, h.told rfl⟩
  · rw [(h.went i hi).1.log, List.append_nil, List.reverse_reverse]
  · exact (h.went i hi).1.settled ((h.went i hi).2.trans (Nat.zero_add i))
  · have hcalls := (h.ticks i part hpart).1.calls
    rwa [hticks i part hpart] at hcalls
  · exact ⟨(h.ticks i part hpart).1.connected, (h.ticks i part hpart).1.callbacks⟩
  · exact ((h.ticks i part hpart).1.probes t f m b hm).trans (hticks i part hpart)

/-- For instance a callback that connects another one and panics, and stops the notifier at the second
tick, when the new one panics too. -/
theorem work_rounds_stopped :
    let plans : List Plan := [⟨0, 1, [.connect, .panic (.text "no")]⟩, ⟨0, 2, [.probe, .stop]⟩, ⟨1, 2, [.panic .other]⟩]
    let p : Periodic := { interval := .ofMilliseconds 5 }
    start? (.ofMilliseconds 5) = .ok p ∧ (∃ parts, Rounds plans 9 0 p parts) ∧
      callsOf (p.work plans 9 0).log.reverse = [(0, 1), (0, 2), (1, 2)] ∧ (p.work plans 9 0).ticks = 2 ∧
      (p.work plans 9 0).failures = 2 ∧ (p.work plans 9 0).callbacks = 2 := by
  intro plans p
  have hstart : start? (.ofMilliseconds 5) = .ok p := rfl
  exact ⟨hstart, work_rounds hstart (by simp [Keeping, plans]) 9 0, by decide, by decide, by decide, by decide⟩

end Periodic

end Conduit.Notifier
