/-
The worker alone and the worker among threads. A worker that works through plans does so in one of the ways in
which the threads can take turns, and a stop that finds it waiting is another: what is said of all of them
is said of these.
-/
import Conduit.Proofs.Notifier.Threads

namespace Conduit.Notifier

/-- A notifier without what no other thread sees of it. -/
def Periodic.bare (p : Periodic) : Periodic := { p with now := 0, log := [] }

theorem Periodic.bare_at (p : Periodic) (now : Nat) : { p with now }.bare = p.bare := rfl

namespace Threads

variable {p : Periodic} {plans : List Plan}

/-- Turns that lead from here to there. -/
def Leads (t u : Threads) : Prop := ∃ es, Run t es u

theorem Leads.refl (t : Threads) : Leads t t := ⟨[], .nil⟩

theorem Leads.trans {t u v : Threads} (h : Leads t u) (h' : Leads u v) : Leads t v := by
  obtain ⟨es, h⟩ := h
  obtain ⟨es', h'⟩ := h'
  exact ⟨es ++ es', h.append h'⟩

theorem Step.leads {t u : Threads} {e : Event} (h : Step t e u) : Leads t u := ⟨[e], .cons h .nil⟩

variable {t : Threads}

/-- A stop that nobody disturbs takes the worker away. -/
theorem leads_taken (party : Party) (last : Bool) (hd : t.notifier.dropped = false) (hs : t.stopping = none)
    (hw : t.worker.holds = false) (hin : party = .worker → ∃ callback todo, t.worker = .calling callback todo) :
    Leads t
      { notifier := { t.notifier with interrupted := true, attached := false }
        worker := t.worker.call
        stopping := some
          { party, last, stage := if t.notifier.attached = true ∧ party = .outside then .joining else .done } } :=
  ⟨_, .cons (.ask party last hd hs hin) <| .cons (.acquire rfl rfl (free_of_some hw rfl rfl)) <|
    .cons (.raise rfl rfl) <| .cons (.unlock rfl rfl) <| .cons (.announce rfl rfl) <| .cons (.take rfl rfl) .nil⟩

/-- A stop that is done comes back. -/
theorem leads_back {s : Stopping} (hs : t.stopping = some s) (hstage : s.stage = .done) {d : Bool}
    (hd : (t.notifier.dropped || s.last) = d) :
    Leads t { t with notifier := { t.notifier with dropped := d }, stopping := none } :=
  hd ▸ (Step.back hs hstage).leads

/-! ## The worker and its callbacks -/

/-- A callback stops the notifier, or gives it up. -/
theorem leads_interrupt (hp : p.dropped = false) (callback : Nat) (todo : List Nat) (last : Bool) :
    Leads { notifier := p.bare, worker := .calling callback todo }
      { notifier := { p.interrupt with dropped := last }.bare, worker := .calling callback todo } := by
  have htaken : Leads { notifier := p.bare, worker := .calling callback todo } _ :=
    leads_taken .worker last hp rfl rfl fun _ => ⟨callback, todo, rfl⟩
  rw [if_neg (fun h => by cases h.2)] at htaken
  exact htaken.trans (leads_back (s := ⟨.worker, last, .done⟩) (d := last) rfl rfl (congrArg (· || last) hp))

theorem leads_act (callback : Nat) (todo : List Nat) : ∀ (acts : List Act) (p : Periodic),
    Leads { notifier := p.bare, worker := .calling callback todo }
      { notifier := (p.act acts).1.bare, worker := .calling callback todo }
  | [], _ => .refl _
  | .panic _ :: _, _ => .refl _
  | .sleep ms :: rest, p => by
    have hrest := leads_act callback todo rest { p with now := p.now + (Duration.ofMilliseconds ms).nanoseconds }
    rw [Periodic.bare_at] at hrest
    rw [Periodic.act]
    exact hrest
  | .idle :: rest, p => leads_act callback todo rest p
  | .connect :: rest, p => by
    rw [Periodic.act]
    split
    · exact leads_act callback todo rest p
    · rename_i hp
      exact (Step.connect (Bool.eq_false_iff.2 hp) rfl).leads.trans
        (leads_act callback todo rest (p.connect.note (.connected p.callbacks (p.callbacks + 1))))
  | .probe :: rest, p => by
    rw [Periodic.act]
    split
    · exact leads_act callback todo rest p
    · exact leads_act callback todo rest (p.note (.probed p.ticks p.failures p.callbacks p.isRunning))
  | .stop :: rest, p => by
    rw [Periodic.act]
    split
    · exact leads_act callback todo rest p
    · rename_i hp
      have hp := Bool.eq_false_iff.2 hp
      refine (leads_interrupt hp callback todo false).trans ?_
      -- A stop leaves it open whether the callback still holds the notifier.
      have hsame : { p.interrupt with dropped := false } = p.interrupt := by rw [← hp]; rfl
      rw [hsame]
      exact leads_act callback todo rest _
  | .drop :: rest, p => by
    rw [Periodic.act]
    split
    · exact leads_act callback todo rest p
    · rename_i hp
      exact (leads_interrupt (Bool.eq_false_iff.2 hp) callback todo true).trans
        (leads_act callback todo rest ({ p.interrupt with dropped := true }.note .dropped))

/-- A callback is called, does what plans say, and may panic. Of a notifier that has been given up it does nothing. -/
theorem leads_call (plans : List Plan) (p : Periodic) (callback : Nat) (todo : List Nat) :
    Leads { notifier := p.bare, worker := .ticking (callback :: todo) }
      { notifier := (p.call plans callback).bare, worker := .ticking todo } := by
  refine (Step.enter rfl).leads.trans ?_
  have hout : ∀ s : Stopping, none = some s → s.party = .outside := fun _ h => by cases h
  unfold Periodic.call
  split
  · exact (Step.leave false rfl hout).leads
  · dsimp only
    -- Whether the callback comes to its end or panics, the worker leaves it.
    generalize List.flatMap _ _ = acts
    have hacts := leads_act callback todo acts (p.note (.called callback (p.ticks + 1)))
    split
    · rename_i q hact
      rw [hact] at hacts
      exact hacts.trans (Step.leave false rfl hout).leads
    · rename_i q cause hact
      rw [hact] at hacts
      exact hacts.trans (Step.leave true rfl hout).leads

theorem leads_calls (plans : List Plan) : ∀ (todo : List Nat) (p : Periodic),
    Leads { notifier := p.bare, worker := .ticking todo }
      { notifier := (todo.foldl (Periodic.call plans) p).bare, worker := .ticking [] }
  | [], _ => .refl _
  | callback :: todo, p => (leads_call plans p callback todo).trans (leads_calls plans todo _)

/-- The worker waits until it is late, and ticks. -/
theorem leads_fire (plans : List Plan) (p : Periodic) (hi : p.interrupted = false) :
    Leads { notifier := p.bare } { notifier := (p.fire plans).bare } := by
  have hwait : Leads { notifier := p.bare } { notifier := p.bare, worker := .ticking (List.range p.callbacks) } :=
    ⟨_, .cons (.lock rfl (free_of_none rfl rfl)) <| .cons (.miss rfl hi) <| .cons (.park rfl) <|
      .cons (.wake true rfl) <| .cons (.relock rfl (free_of_none rfl rfl)) <| .cons (.pass rfl hi) <|
      .cons (.release rfl) <| .cons (.start rfl) .nil⟩
  exact (hwait.trans (leads_calls plans _ p)).trans (Step.complete rfl).leads

/-- What the worker does alone it can do among threads that do nothing. -/
theorem leads_work (plans : List Plan) : ∀ (ticks deadline : Nat) (p : Periodic),
    Leads { notifier := p.bare } { notifier := (p.work plans ticks deadline).bare }
  | 0, _, _ => .refl _
  | ticks + 1, deadline, p => by
    rw [Periodic.work]
    split
    · exact .refl _
    · rename_i hi
      have hfire := leads_fire plans { p with now := max p.now deadline } (Bool.eq_false_iff.2 hi)
      rw [Periodic.bare_at] at hfire
      exact hfire.trans (leads_work plans ticks _ _)

/-! ## The owner -/

theorem stop_bare (p : Periodic) : p.stop.bare = { p.bare with interrupted := true, attached := false } := by
  unfold Periodic.stop
  split
  · dsimp only
    split <;> rfl
  · rename_i ha
    rw [Bool.not_eq_true] at ha
    rw [← ha]
    rfl

/-- A stop that finds the worker between two ticks, or failed, comes back when that is at its end. -/
theorem leads_stop (p : Periodic) (hp : p.dropped = false) : ∃ w,
    Leads { notifier := p.bare } { notifier := p.stop.bare, worker := w } ∧
      (p.attached = true → w = .ended p.overflowsClock) := by
  have htaken : Leads { notifier := p.bare } _ := leads_taken .outside false hp rfl rfl nofun
  rw [stop_bare]
  -- Whoever takes the worker waits for it, and the worker quits or has failed.
  by_cases ha : p.attached = true
  · rw [if_pos ⟨ha, rfl⟩] at htaken
    refine ⟨.ended p.overflowsClock, htaken.trans ?_, fun _ => rfl⟩
    have hend : ∀ failed, Leads
        { notifier := { p.bare with interrupted := true, attached := false }
          worker := .ended failed
          stopping := some ⟨.outside, false, .joining⟩ }
        { notifier := { p.bare with interrupted := true, attached := false }, worker := .ended failed } := fun failed =>
      (Step.join rfl rfl rfl).leads.trans (leads_back rfl rfl (Bool.or_false _))
    rcases p.overflowsClock with _ | _
    · have hquit : Leads
          { notifier := { p.bare with interrupted := true, attached := false }
            stopping := some ⟨.outside, false, .joining⟩ }
          { notifier := { p.bare with interrupted := true, attached := false }
            worker := .ended false
            stopping := some ⟨.outside, false, .joining⟩ } :=
        ⟨_, .cons (.lock rfl (free_of_some rfl rfl rfl)) <| .cons (.hit rfl rfl) <| .cons (.quit rfl rfl) .nil⟩
      exact hquit.trans (hend false)
    · exact (Step.fail rfl).leads.trans (hend true)
  · rw [if_neg (fun h => ha h.1)] at htaken
    exact ⟨.resting, htaken.trans (leads_back rfl rfl (Bool.or_false _)), fun h => absurd h ha⟩

end Threads

end Conduit.Notifier
