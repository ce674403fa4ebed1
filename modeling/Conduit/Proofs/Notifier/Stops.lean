/-
No stop gets lost. From the moment at which the flag is set the worker does not find it unset any more, so it
neither parks nor gets past its checks; what may still begin is the one tick that it has been let to before.
And when the announcement has been made, it is not parked, or it has been called.
-/
import Conduit.Proofs.Notifier.Threads

namespace Conduit.Notifier

/-- Whether a worker does this as such. What callbacks ask for is done by them. -/
def Event.ofWorker : Event → Bool
  | .fail | .lock | .miss | .hit | .park | .wake _ | .relock | .pass | .quit | .release | .start | .enter | .leave _
  | .complete => true
  | _ => false

/-- How many ticks may begin without another check. -/
def Station.fires : Station → Nat
  | .cleared => 1
  | _ => 0

theorem Station.eq_of_fires {w : Station} (h : 0 < w.fires) : w = .cleared := by
  cases w with
  | cleared => rfl
  | _ => cases h

@[simp] theorem Station.fires_call (s : Station) : s.call.fires = s.fires := by cases s <;> rfl

namespace Threads

variable {t u v : Threads} {e : Event} {es es' : List Event}

theorem Step.interrupted (h : Step t e u) (hflag : t.notifier.interrupted = true) : u.notifier.interrupted = true := by
  cases h with
  | raise _ _ => rfl
  | _ => exact hflag

theorem Run.interrupted (h : Run t es u) (hflag : t.notifier.interrupted = true) : u.notifier.interrupted = true := by
  induction h with
  | nil => exact hflag
  | cons hstep _ ih => exact ih (hstep.interrupted hflag)

/-! ## With the flag set -/

/-- No check succeeds. -/
theorem Step.ne_of_interrupted (h : Step t e u) (hflag : t.notifier.interrupted = true) :
    e ≠ .miss ∧ e ≠ .pass := by
  cases h with
  | miss _ hno => exact absurd (hno.symm.trans hflag) Bool.false_ne_true
  | pass _ hno => exact absurd (hno.symm.trans hflag) Bool.false_ne_true
  | _ => exact ⟨nofun, nofun⟩

/-- So no tick can begin but one that was let to. -/
theorem Step.starts (ht : Sound t) (h : Step t e u) (hflag : t.notifier.interrupted = true) :
    [e].count .start + u.worker.fires ≤ t.worker.fires := by
  cases h with
  | release hw => exact absurd ((ht.unset (.inr hw)).symm.trans hflag) Bool.false_ne_true
  | start hw => simp [hw, Station.fires]
  | @relock late hw _ => cases late <;> simp [Station.fires]
  | announce _ _ => simp
  | _ => simp [Station.fires]

theorem Run.starts (h : Run t es u) (ht : Sound t) (hflag : t.notifier.interrupted = true) :
    es.count .start + u.worker.fires ≤ t.worker.fires := by
  induction h with
  | nil => simp
  | @cons t u v e es hstep _ ih =>
    have hfirst := hstep.starts ht hflag
    have hrest := ih (hstep.sound ht) (hstep.interrupted hflag)
    rw [← List.singleton_append, List.count_append]
    omega

theorem Run.ne_of_interrupted (h : Run t es u) (hflag : t.notifier.interrupted = true) :
    .miss ∉ es ∧ .pass ∉ es := by
  induction h with
  | nil => exact ⟨nofun, nofun⟩
  | cons hstep _ ih =>
    obtain ⟨hmiss, hpass⟩ := hstep.ne_of_interrupted hflag
    obtain ⟨hmiss', hpass'⟩ := ih (hstep.interrupted hflag)
    exact ⟨fun h => (List.mem_cons.1 h).elim (fun h => hmiss h.symm) hmiss',
      fun h => (List.mem_cons.1 h).elim (fun h => hpass h.symm) hpass'⟩

/-- Nobody parks any more, and who has been called stays so. -/
theorem Step.parked (ht : Sound t) (h : Step t e u) (hflag : t.notifier.interrupted = true) {called : Bool}
    (hu : u.worker = .parked called) : t.worker = .parked false ∨ t.worker = .parked called := by
  cases h with
  | park hw => exact absurd ((ht.unset (.inl hw)).symm.trans hflag) Bool.false_ne_true
  | @relock late _ _ => cases late <;> cases hu
  | announce _ _ =>
    rcases hw : t.worker <;> rw [hw] at hu <;> cases hu
    rename_i before
    cases before
    · exact .inl rfl
    · exact .inr rfl
  | connect _ _ | ask _ _ _ _ _ | acquire _ _ _ | raise _ _ | unlock _ _ | take _ _ | join _ _ _ | back _ _ =>
    exact .inr hu
  | _ => cases hu

theorem Run.parked (h : Run t es u) (ht : Sound t) (hflag : t.notifier.interrupted = true) {called : Bool}
    (hu : u.worker = .parked called) : t.worker = .parked false ∨ t.worker = .parked called := by
  induction h with
  | nil => exact .inr hu
  | cons hstep _ ih =>
    rcases ih (hstep.sound ht) (hstep.interrupted hflag) hu with h | h
    · exact (hstep.parked ht hflag h).elim .inl .inl
    · exact hstep.parked ht hflag h

/-! ## The last turns of a worker -/

/-- Others leave the worker where it is, but may call it. -/
theorem Step.worker_of_other (h : Step t e u) (he : e.ofWorker = false) :
    u.worker = t.worker ∨ u.worker = t.worker.call := by
  cases h with
  | connect _ _ | ask _ _ _ _ _ | acquire _ _ _ | raise _ _ | unlock _ _ | take _ _ | join _ _ _ | back _ _ =>
    exact .inl rfl
  | announce _ _ => exact .inr rfl
  | _ => cases he

theorem Station.eq_of_call {w w' : Station} (hw : ∀ called, w ≠ .parked called) (h : w'.call = w) : w' = w := by
  cases w' with
  | parked called => exact absurd h.symm (hw true)
  | _ => exact h

/-- A worker that is somewhere has been there all the time, or come there in its last turn. -/
theorem Run.last (h : Run t es v) {w : Station} (hw : ∀ called, w ≠ .parked called) (hv : v.worker = w) :
    t.worker = w ∧ es.filter Event.ofWorker = [] ∨ ∃ before e after u u', es = before ++ e :: after ∧ Run t before u ∧
      Step u e u' ∧ u'.worker = w ∧ e.ofWorker = true ∧ after.filter Event.ofWorker = [] := by
  -- By induction from the front: what comes later decides, unless the worker does nothing later.
  induction h with
  | nil => exact .inl ⟨hv, rfl⟩
  | @cons t u v e es hstep hr ih =>
    rcases ih hv with ⟨hu, hes⟩ | ⟨before, e', after, x, x', rfl, hbefore, hx, hx', he', hafter⟩
    · rcases he : e.ofWorker with _ | _
      · refine .inl ⟨?_, by rw [List.filter_cons, he, if_neg Bool.false_ne_true, hes]⟩
        rcases hstep.worker_of_other he with h | h
        · exact h.symm.trans hu
        · exact Station.eq_of_call hw (h.symm.trans hu)
      · exact .inr ⟨[], e, es, t, u, rfl, .nil, hstep, hu, he, hes⟩
    · exact .inr ⟨e :: before, e', after, x, x', rfl, .cons hstep hbefore, hx, hx', he', hafter⟩

theorem Step.to_cleared (h : Step t e u) (he : e.ofWorker = true) (hu : u.worker = .cleared) :
    e = .release ∧ t.worker = .passed := by
  cases h with
  | release hw => exact ⟨rfl, hw⟩
  | @relock late _ _ => cases late <;> cases hu
  | connect _ _ | ask _ _ _ _ _ | acquire _ _ _ | raise _ _ | unlock _ _ | announce _ _
  | take _ _ | join _ _ _ | back _ _ =>
    cases he
  | _ => cases hu

theorem Step.to_passed (h : Step t e u) (he : e.ofWorker = true) (hu : u.worker = .passed) : e = .pass := by
  cases h with
  | pass _ _ => rfl
  | @relock late _ _ => cases late <;> cases hu
  | connect _ _ | ask _ _ _ _ _ | acquire _ _ _ | raise _ _ | unlock _ _ | announce _ _
  | take _ _ | join _ _ _ | back _ _ =>
    cases he
  | _ => cases hu

/-- A tick that is about to begin was let to in the last turns of the worker, by its check. -/
theorem Run.checked (h : Run t es v) (ht : t.worker = .resting) (hv : v.worker = .cleared) :
    ∃ before, es.filter Event.ofWorker = before ++ [.pass, .release] := by
  rcases h.last (w := .cleared) nofun hv with ⟨hw, -⟩ | ⟨es', e, after, u, u', rfl, hes', hu, hu', he, hafter⟩
  · rw [ht] at hw
    cases hw
  · obtain ⟨rfl, hpassed⟩ := hu.to_cleared he hu'
    rcases hes'.last (w := .passed) nofun hpassed with
      ⟨hw, -⟩ | ⟨before, e, between, x, x', rfl, -, hx, hx', he', hbetween⟩
    · rw [ht] at hw
      cases hw
    · obtain rfl := hx.to_passed he' hx'
      refine ⟨before.filter Event.ofWorker, ?_⟩
      rw [List.filter_append, List.filter_append, List.filter_cons_of_pos he', hbetween, List.filter_cons_of_pos he,
        hafter, List.append_assoc]
      rfl

/-! ## What is left to a stop -/

/-- What a worker can do that was at `s` when the flag was set, after the turns `before`, and has come to `t`
through `after`. -/
structure Heard (before after : List Event) (s t : Threads) : Prop where
  flag : t.notifier.interrupted = true
  /-- No check finds the flag unset any more, -/
  checks : .miss ∉ after ∧ .pass ∉ after
  /-- so one tick may begin at most, and only if its check was made before. -/
  starts : after.count .start ≤ 1
  only : .start ∈ after → s.worker = .cleared ∧ ∃ earlier, before.filter Event.ofWorker = earlier ++ [.pass, .release]
  /-- Who is parked, or has just woken up, does not begin one, be it late or not. -/
  parked : ∀ called, s.worker = .parked called → .start ∉ after
  rising : ∀ late, s.worker = .rising late → .start ∉ after
  late : ∀ l, .wake l ∈ after → .start ∉ after

theorem Step.wake_inv {l : Bool} (h : Step t (.wake l) u) : ∃ called, t.worker = .parked called := by
  cases h with
  | @wake called _ hw => exact ⟨called, hw⟩

theorem Step.raise_inv (h : Step t .raise u) : u.notifier.interrupted = true ∧ u.worker = t.worker := by
  cases h with
  | raise _ _ => exact ⟨rfl, rfl⟩

theorem Step.announce_inv (h : Step t .announce u) (ht : Sound t) :
    u.notifier.interrupted = true ∧ u.worker ≠ .parked false := by
  cases h with
  | announce hs hstage =>
    refine ⟨ht.told _ hs (by rw [hstage]; rfl), fun hw => ?_⟩
    rcases hp : t.worker <;> simp [Station.call, hp] at hw

/-- Once a stop has made its announcement, the worker is not parked, or it has been called. -/
theorem Run.announced (h : Run t es u) (ht : Sound t) (hmem : .announce ∈ es) :
    u.notifier.interrupted = true ∧ u.worker ≠ .parked false := by
  obtain ⟨before, after, rfl⟩ := List.append_of_mem hmem
  obtain ⟨x, hx, hafter⟩ := h.split
  cases hafter with
  | cons hstep hr =>
    obtain ⟨hflag, hparked⟩ := hstep.announce_inv (hx.sound ht)
    refine ⟨hr.interrupted hflag, fun hu => ?_⟩
    rcases hr.parked (hstep.sound (hx.sound ht)) hflag hu with h | h <;> exact hparked h

/-- A notifier has been started, and its worker has taken turns with any number of stops, in any order: the
stops that have made their announcements are heard, and so are those that have set the flag. -/
theorem stops_heard {interval : Duration} {p : Periodic} (hp : Periodic.start? interval = .ok p) {before : List Event}
    {s : Threads} (hbefore : Run { notifier := p } before s) :
    (.announce ∈ before → s.notifier.interrupted = true ∧ s.worker ≠ .parked false) ∧
    ∀ s' after t, Step s .raise s' → Run s' after t → Heard before after s t := by
  have hstart := sound_of_start hp
  have hs := hbefore.sound hstart
  refine ⟨hbefore.announced hstart, fun s' after t hraise hafter => ?_⟩
  obtain ⟨hflag, hworker⟩ := hraise.raise_inv
  have hs' := hraise.sound hs
  have hcount := hafter.starts hs' hflag
  rw [hworker] at hcount
  have hcleared : .start ∈ after → s.worker = .cleared := fun hmem => by
    have hpos := List.count_pos_iff.2 hmem
    exact Station.eq_of_fires (by omega)
  have hone : s.worker.fires ≤ 1 := by rcases s.worker <;> simp [Station.fires]
  have hparked : ∀ called, s.worker = .parked called → .start ∉ after := fun called hw hmem => by
    have hc := hcleared hmem
    rw [hw] at hc
    cases hc
  refine ⟨hafter.interrupted hflag, hafter.ne_of_interrupted hflag, by omega,
    fun hmem => ⟨hcleared hmem, hbefore.checked rfl (hcleared hmem)⟩, hparked, fun late hw hmem => ?_,
    fun l hmem => ?_⟩
  · have hc := hcleared hmem
    rw [hw] at hc
    cases hc
  · -- Who wakes up later is parked when the flag is set.
    obtain ⟨first, rest, rfl⟩ := List.append_of_mem hmem
    obtain ⟨x, hx, hrest⟩ := hafter.split
    cases hrest with
    | cons hwake _ =>
      obtain ⟨called, hcalled⟩ := hwake.wake_inv
      rcases hx.parked hs' hflag hcalled with hw | hw <;> exact hparked _ (hworker.symm.trans hw)

/-- For instance a stop sets the flag when the worker is about to tick. -/
theorem stops_heard_ticking : ∃ s t,
    Run { notifier := { interval := .ofMilliseconds 5 } }
      [.lock, .miss, .park, .wake true, .relock, .pass, .release, .ask .outside false, .acquire] s ∧
    Heard [.lock, .miss, .park, .wake true, .relock, .pass, .release, .ask .outside false, .acquire]
      [.unlock, .start, .announce, .enter, .leave false, .complete, .lock, .hit, .quit] s t ∧
    t.notifier.ticks = 1 ∧ t.worker = .ended false := by
  have hstart : Periodic.start? (.ofMilliseconds 5) = .ok { interval := .ofMilliseconds 5 } := rfl
  have hbefore := Run.cons (t := { notifier := { interval := .ofMilliseconds 5 } })
      (.lock rfl (free_of_none rfl rfl)) <|
    .cons (.miss rfl rfl) <| .cons (.park rfl) <| .cons (.wake true rfl) <|
    .cons (.relock rfl (free_of_none rfl rfl)) <|
    .cons (.pass rfl rfl) <| .cons (.release rfl) <| .cons (.ask .outside false rfl rfl nofun) <|
    .cons (.acquire rfl rfl (free_of_some rfl rfl rfl)) .nil
  refine ⟨_, _, hbefore, (stops_heard hstart hbefore).2 _ _ _ (.raise rfl rfl) <|
    .cons (.unlock rfl rfl) <| .cons (.start rfl) <| .cons (.announce rfl rfl) <| .cons (.enter rfl) <|
    .cons (.leave false rfl fun s h => by cases h; rfl) <| .cons (.complete rfl) <|
    .cons (.lock rfl (free_of_some rfl rfl rfl)) <| .cons (.hit rfl rfl) <| .cons (.quit rfl rfl) .nil, rfl, rfl⟩

end Threads

end Conduit.Notifier
