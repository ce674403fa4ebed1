/-
The deadlines of a worker. None has passed when the worker begins to wait for it, and there is an interval
between two of them at least; they stay in step with the start for as long as no tick ends later than the next
one is due, and a tick that does puts it off to an interval after its end. So there are never more ticks than
intervals, however late the worker wakes up and however long callbacks take.
-/
import Conduit.Proofs.Notifier.Ticks
import Mathlib.Order.MinMax

namespace Conduit.Notifier

variable {interval first deadline now : Nat}

/-! ## One deadline after another -/

theorem nextDeadline_of_le (h : now ≤ deadline + interval) : nextDeadline interval deadline now = deadline + interval :=
  if_neg (Nat.not_lt.2 h)

theorem nextDeadline_of_lt (h : deadline + interval < now) : nextDeadline interval deadline now = now + interval :=
  if_pos h

theorem le_nextDeadline : now ≤ nextDeadline interval deadline now := by
  unfold nextDeadline
  split <;> omega

theorem add_le_nextDeadline : deadline + interval ≤ nextDeadline interval deadline now := by
  unfold nextDeadline
  split <;> omega

theorem nextDeadline_eq_iff : nextDeadline interval deadline now = deadline + interval ↔ now ≤ deadline + interval := by
  constructor
  · intro h
    by_contra hlt
    rw [nextDeadline_of_lt (by omega)] at h
    omega
  · exact nextDeadline_of_le

/-! ## All deadlines -/

/-- When a tick began that was waited for until `deadline`. -/
def TickTiming.began (t : TickTiming) (deadline : Nat) : Nat := deadline + t.delay

/-- When the ticks began. -/
def begins (interval first : Nat) (timings : List TickTiming) : List Nat :=
  List.zipWith TickTiming.began timings (deadlines interval first timings)

theorem length_deadlines (interval : Nat) : ∀ (timings : List TickTiming) (first : Nat),
    (deadlines interval first timings).length = timings.length + 1
  | [], _ => rfl
  | _ :: timings, _ => congrArg (· + 1) (length_deadlines interval timings _)

theorem deadlines_zero (interval first : Nat) (timings : List TickTiming) :
    (deadlines interval first timings)[0]? = some first := by
  cases timings <;> rfl

/-- What comes after a deadline is told by its tick. -/
theorem deadlines_succ : ∀ {timings : List TickTiming} {first k : Nat} {t : TickTiming},
    (deadlines interval first timings)[k]? = some deadline → timings[k]? = some t →
      (deadlines interval first timings)[k + 1]? = some (nextDeadline interval deadline (t.ended deadline))
  | t :: timings, first, 0, _, hd, ht => by
    cases ht
    cases hd
    exact deadlines_zero interval _ timings
  | _ :: _, _, k + 1, _, hd, ht => deadlines_succ (k := k) hd ht

/-- Ticks that end in time leave the deadlines in step with the start. -/
theorem deadlines_of_punctual {timings : List TickTiming} : ∀ {k : Nat}, k ≤ timings.length →
    (∀ i < k, ∀ d t, (deadlines interval first timings)[i]? = some d → timings[i]? = some t →
      t.ended d ≤ d + interval) →
    (deadlines interval first timings)[k]? = some (first + k * interval)
  | 0, _, _ => by
    rw [Nat.zero_mul, Nat.add_zero]
    exact deadlines_zero interval first timings
  | k + 1, hk, hp => by
    have hd := deadlines_of_punctual (Nat.le_of_succ_le hk) fun i hi => hp i (Nat.lt_succ_of_lt hi)
    have ht : timings[k]? = some timings[k] := List.getElem?_eq_getElem hk
    rw [deadlines_succ hd ht, nextDeadline_of_le (hp k (Nat.lt_succ_self k) _ _ hd ht), Nat.succ_mul, Nat.add_assoc]

/-- No tick begins before the first deadline. -/
theorem first_le_begins : ∀ {timings : List TickTiming} {first : Nat}, ∀ s ∈ begins interval first timings, first ≤ s
  | t :: timings, first, s, hs => by
    rcases List.mem_cons.1 hs with rfl | hs
    · exact Nat.le_add_right _ _
    · have hnext := first_le_begins s hs
      have hlater : first + interval ≤ nextDeadline interval first (t.ended first) := add_le_nextDeadline
      omega

/-- There is an interval for every tick that has begun. -/
theorem countP_begins (hi : 0 < interval) (time : Nat) : ∀ (timings : List TickTiming) (first : Nat),
    (begins interval first timings).countP (· ≤ time) ≤ (time + interval - first) / interval
  | [], _ => Nat.zero_le _
  | t :: timings, first => by
    by_cases hlate : time < first
    · -- Before the first deadline nothing has begun.
      have hnone : (begins interval first (t :: timings)).countP (· ≤ time) = 0 := by
        rw [List.countP_eq_zero]
        intro s hs
        have hfirst := first_le_begins s hs
        simp only [decide_eq_true_eq]
        omega
      rw [hnone]
      exact Nat.zero_le _
    · have hrest := countP_begins hi time timings (nextDeadline interval first (t.ended first))
      have hlater : first + interval ≤ nextDeadline interval first (t.ended first) := add_le_nextDeadline
      have hless : (time + interval - nextDeadline interval first (t.ended first)) / interval ≤
          (time - first) / interval := Nat.div_le_div_right (by omega)
      have hone : (time + interval - first) / interval = (time - first) / interval + 1 := by
        rw [← Nat.add_div_right _ hi]
        congr 1
        omega
      show (t.began first :: begins interval _ timings).countP (· ≤ time) ≤ _
      rw [List.countP_cons, hone]
      have hhead : (if decide (t.began first ≤ time) = true then 1 else 0) ≤ 1 := by
        split <;> omega
      omega

/-! ## The worker -/

namespace Periodic

variable {plans : List Plan} {p q r : Periodic} {delays : List Nat} {timings : List TickTiming}

/-- As `work`, but each time the worker wakes up later than it was to, by one of the delays. -/
def workLate (plans : List Plan) : List Nat → Nat → Periodic → Periodic
  | [], _, p => p
  | delay :: delays, deadline, p =>
    if p.interrupted then p
    else
      let p := fire plans { p with now := max p.now deadline + delay }
      workLate plans delays (nextDeadline p.interval.nanoseconds deadline p.now) p

/-- A worker that is never late works as it does anyway. -/
theorem workLate_zeros (plans : List Plan) : ∀ (ticks deadline : Nat) (p : Periodic),
    p.workLate plans (List.replicate ticks 0) deadline = p.work plans ticks deadline
  | 0, _, _ => rfl
  | ticks + 1, deadline, p => by
    rw [List.replicate_succ, workLate, work]
    split
    · rfl
    · exact workLate_zeros plans ticks _ _

theorem workLate_cons (hi : p.interrupted = false) (hd : p.now ≤ deadline) (delay : Nat) :
    p.workLate plans (delay :: delays) deadline =
      (fire plans { p with now := deadline + delay }).workLate plans delays
        (nextDeadline (fire plans { p with now := deadline + delay }).interval.nanoseconds deadline
          (fire plans { p with now := deadline + delay }).now) := by
  rw [workLate, if_neg (by rw [hi]; exact Bool.false_ne_true), max_eq_right hd]

/-- `q` comes after `p`, with the same interval. -/
structure Onward (p q : Periodic) : Prop where
  interval : q.interval = p.interval
  now : p.now ≤ q.now

theorem Onward.refl (p : Periodic) : Onward p p := ⟨rfl, le_refl _⟩

theorem Onward.trans (h : Onward p q) (h' : Onward q r) : Onward p r :=
  ⟨h'.interval.trans h.interval, h.now.trans h'.now⟩

theorem onward_act : ∀ (acts : List Act) (p : Periodic), Onward p (p.act acts).1
  | [], p => .refl p
  | a :: rest, p => by
    -- No act sets the interval or turns the clock back; only sleep moves it.
    have hsame : ∀ {q : Periodic}, q.interval = p.interval → q.now = p.now → Onward p (q.act rest).1 := by
      intro q hinterval hnow
      exact .trans ⟨hinterval, hnow.ge⟩ (onward_act rest q)
    cases a with
    | panic cause => exact .refl p
    | idle => exact onward_act rest p
    | sleep ms =>
      have hslept : Onward p { p with now := p.now + (Duration.ofMilliseconds ms).nanoseconds } :=
        ⟨rfl, Nat.le_add_right _ _⟩
      exact hslept.trans (onward_act rest _)
    | connect | probe | stop | drop =>
      rw [act]
      split
      · exact onward_act rest p
      · exact hsame rfl rfl

theorem onward_call (plans : List Plan) (p : Periodic) (callback : Nat) : Onward p (call plans p callback) := by
  unfold call
  split
  · exact .refl p
  · dsimp only
    generalize List.flatMap _ _ = acts
    have hact := onward_act acts (p.note (.called callback (p.ticks + 1)))
    split
    · rename_i q heq
      rw [heq] at hact
      exact ⟨hact.interval, hact.now⟩
    · rename_i q cause heq
      rw [heq] at hact
      exact ⟨hact.interval, hact.now⟩

theorem onward_calls (plans : List Plan) : ∀ (numbers : List Nat) (p : Periodic),
    Onward p (numbers.foldl (call plans) p)
  | [], p => .refl p
  | n :: numbers, p => (onward_call plans p n).trans (onward_calls plans numbers _)

theorem onward_fire (plans : List Plan) (p : Periodic) : Onward p (fire plans p) :=
  ⟨(onward_calls plans _ p).interval, (onward_calls plans _ p).now⟩

/-- The ticks of a late worker as they went: before each of them, and after the last one, it waits for one of
the deadlines that come of these ticks. -/
structure Waits (plans : List Plan) (delays : List Nat) (first : Nat) (p : Periodic) (timings : List TickTiming) :
    Prop where
  late : timings.map (·.delay) = delays.take timings.length
  within : timings.length ≤ delays.length
  waits : ∀ k ≤ timings.length, ∃ d, (deadlines p.interval.nanoseconds first timings)[k]? = some d ∧
    (p.workLate plans (delays.take k) first).now ≤ d ∧
    p.workLate plans delays first = (p.workLate plans (delays.take k) first).workLate plans (delays.drop k) d
  ticks : ∀ k d t, (deadlines p.interval.nanoseconds first timings)[k]? = some d → timings[k]? = some t →
    p.workLate plans (delays.take (k + 1)) first =
        fire plans { p.workLate plans (delays.take k) first with now := t.began d } ∧
      (p.workLate plans (delays.take (k + 1)) first).now = t.ended d
  /-- It waits for all, unless it is told to stop. -/
  all : timings.length < delays.length → (p.workLate plans delays first).interrupted = true

theorem Waits.nil (hd : p.now ≤ first) (hi : delays ≠ [] → p.interrupted = true) : Waits plans delays first p [] where
  late := rfl
  within := Nat.zero_le _
  waits
    | 0, _ => ⟨first, rfl, hd, rfl⟩
  ticks := nofun
  all hl := by
    rcases delays with _ | ⟨delay, delays⟩
    · cases hl
    · rw [workLate, if_pos (hi nofun)]
      exact hi nofun

/-- The waiting goes on from the first tick. -/
theorem Waits.cons {delay : Nat} (hi : p.interrupted = false) (hd : p.now ≤ first)
    (hq : q = fire plans { p with now := first + delay })
    (h : Waits plans delays (nextDeadline p.interval.nanoseconds first q.now) q timings) :
    Waits plans (delay :: delays) first p (⟨delay, q.now - (first + delay)⟩ :: timings) := by
  have honward : Onward { p with now := first + delay } q := hq ▸ onward_fire plans _
  have hinterval : q.interval = p.interval := honward.interval
  -- The first tick ends where its callbacks have brought the clock to.
  have hended : (⟨delay, q.now - (first + delay)⟩ : TickTiming).ended first = q.now := by
    have hnow : first + delay ≤ q.now := honward.now
    show first + delay + (q.now - (first + delay)) = q.now
    omega
  -- One tick more is one tick on the way, and then the ticks of the rest.
  have hwork : ∀ l, p.workLate plans (delay :: l) first =
      q.workLate plans l (nextDeadline p.interval.nanoseconds first q.now) := by
    intro l
    rw [workLate_cons hi hd, ← hq, hinterval]
  have hdeadlines : deadlines p.interval.nanoseconds first (⟨delay, q.now - (first + delay)⟩ :: timings) =
      first :: deadlines q.interval.nanoseconds (nextDeadline p.interval.nanoseconds first q.now) timings := by
    rw [deadlines, hended, hinterval]
  constructor
  · rw [List.map_cons, h.late]
    rfl
  · exact Nat.succ_le_succ h.within
  · intro k hk
    rw [hdeadlines]
    cases k with
    | zero => exact ⟨first, rfl, hd, rfl⟩
    | succ k =>
      rw [List.take_succ_cons, List.drop_succ_cons, hwork, hwork]
      exact h.waits k (Nat.le_of_succ_le_succ hk)
  · intro k d t hk ht
    rw [hdeadlines] at hk
    cases k with
    | zero =>
      cases hk
      cases ht
      rw [List.take_succ_cons, hwork, hended]
      exact ⟨hq, rfl⟩
    | succ k =>
      rw [List.take_succ_cons, hwork, List.take_succ_cons, hwork]
      exact h.ticks k d t hk ht
  · intro hl
    rw [hwork]
    exact h.all (Nat.lt_of_succ_lt_succ hl)

/-- However late it wakes up and whatever callbacks do, a worker waits for these deadlines. -/
theorem workLate_waits (plans : List Plan) : ∀ (delays : List Nat) {first : Nat} {p : Periodic}, p.now ≤ first →
    ∃ timings, Waits plans delays first p timings
  | [], _, _, hd => ⟨[], .nil hd fun h => absurd rfl h⟩
  | delay :: delays, first, p, hd => by
    rcases hi : p.interrupted with _ | _
    · let q := fire plans { p with now := first + delay }
      have hfirst : q.now ≤ nextDeadline p.interval.nanoseconds first q.now := le_nextDeadline
      obtain ⟨timings, h⟩ := workLate_waits plans delays hfirst
      exact ⟨_, h.cons hi hd rfl⟩
    · exact ⟨[], .nil hd fun _ => hi⟩

/-! ## The account of the deadlines -/

/-- The deadlines of a worker that starts at some time, with an interval, when its ticks go like this. -/
structure Paced (interval start : Nat) (timings : List TickTiming) : Prop where
  /-- There is one before each tick, and one after the last. -/
  length : (deadlines interval (start + interval) timings).length = timings.length + 1
  first : (deadlines interval (start + interval) timings)[0]? = some (start + interval)
  /-- A deadline has not passed when its turn comes, and is an interval after the one before, or after its tick
  if that ended later. -/
  next : ∀ k d d' t, (deadlines interval (start + interval) timings)[k]? = some d → timings[k]? = some t →
    (deadlines interval (start + interval) timings)[k + 1]? = some d' →
      t.ended d ≤ d' ∧ d + interval ≤ d' ∧ (d' = d + interval ↔ t.ended d ≤ d + interval) ∧
        (d + interval < t.ended d → d' = t.ended d + interval)
  /-- For as long as ticks end in time the deadlines are in step with the start. -/
  punctual : ∀ k ≤ timings.length,
    (∀ i < k, ∀ d t, (deadlines interval (start + interval) timings)[i]? = some d → timings[i]? = some t →
      t.ended d ≤ d + interval) →
    (deadlines interval (start + interval) timings)[k]? = some (start + (k + 1) * interval)
  /-- At no time there have been more ticks than intervals. -/
  begun : ∀ time, (begins interval (start + interval) timings).countP (· ≤ time) ≤ (time - start) / interval

theorem paced (hi : 0 < interval) (start : Nat) (timings : List TickTiming) : Paced interval start timings where
  length := length_deadlines interval timings _
  first := deadlines_zero interval _ timings
  next k d d' t hd ht hd' := by
    rw [deadlines_succ hd ht] at hd'
    cases hd'
    exact ⟨le_nextDeadline, add_le_nextDeadline, nextDeadline_eq_iff, nextDeadline_of_lt⟩
  punctual k hk hp := by
    rw [deadlines_of_punctual hk hp, Nat.succ_mul, Nat.add_assoc, Nat.add_comm interval]
  begun time := by
    have hcount := countP_begins hi time timings (start + interval)
    rwa [Nat.add_sub_add_right] at hcount

/-- Whatever comes between, the deadlines of a notifier that was started keep pace with its interval, and its
worker waits for them, whenever it starts and however late it wakes up; `work` is that worker when it never is. -/
theorem deadlines_keep_pace {interval : Duration} (hstart : start? interval = .ok p) (start : Nat) :
    (∀ timings, Paced interval.nanoseconds start timings) ∧
    (∀ plans delays, ∃ timings,
      Waits plans delays (start + interval.nanoseconds) { p with now := start } timings) ∧
    ∀ plans ticks, workLate plans (List.replicate ticks 0) (start + interval.nanoseconds) { p with now := start } =
      work plans ticks (start + interval.nanoseconds) { p with now := start } := by
  obtain rfl := eq_of_start? hstart
  have hi : 0 < interval.nanoseconds := by
    unfold start? at hstart
    split at hstart
    · cases hstart
    · omega
  refine ⟨paced hi start, fun plans delays => ?_, fun plans ticks => workLate_zeros plans ticks _ _⟩
  exact workLate_waits plans delays (Nat.le_add_right _ _)

/-- For instance a tick in time, one that takes too long, and one that ends just when the next is due. -/
theorem deadlines_keep_pace_overrun :
    let timings : List TickTiming := [⟨3, 1⟩, ⟨0, 25⟩, ⟨4, 6⟩]
    start? ⟨10⟩ = .ok { interval := ⟨10⟩ } ∧ Paced 10 100 timings ∧
      deadlines 10 110 timings = [110, 120, 155, 165] ∧ begins 10 110 timings = [113, 120, 159] := by
  intro timings
  have hstart : start? ⟨10⟩ = .ok { interval := ⟨10⟩ } := rfl
  exact ⟨hstart, (deadlines_keep_pace hstart 100).1 timings, by decide, by decide⟩

end Periodic

end Conduit.Notifier
