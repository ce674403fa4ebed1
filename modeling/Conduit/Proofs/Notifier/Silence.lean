/-
What is left when a stop has come back. A stop from outside that finds the worker there waits for its end, and
all is silent after it. But a callback that stops its notifier takes the worker away and does not wait, so
that a stop from outside which comes after it has nothing to wait for: the tick under way goes on beyond it.
-/
import Conduit.Proofs.Notifier.Stops

namespace Conduit.Notifier

theorem Party.outside_of_ne {p : Party} (h : p ≠ .worker) : p = .outside := by
  cases p with
  | worker => exact absurd rfl h
  | outside => rfl

/-- How many calls are left of a tick. -/
def Station.left : Station → Nat
  | .ticking todo | .calling _ todo => todo.length
  | _ => 0

/-- How many calls are at work. -/
def Station.calls : Station → Nat
  | .calling _ _ => 1
  | _ => 0

/-- How many ticks are under way. -/
def Station.ticks : Station → Nat
  | .ticking _ | .calling _ _ => 1
  | _ => 0

@[simp] theorem Station.left_call (s : Station) : s.call.left = s.left := by cases s <;> rfl

@[simp] theorem Station.calls_call (s : Station) : s.call.calls = s.calls := by cases s <;> rfl

@[simp] theorem Station.ticks_call (s : Station) : s.call.ticks = s.ticks := by cases s <;> rfl

namespace Threads

variable {t u v : Threads} {e : Event} {es es' : List Event}

/-! ## Who has taken the worker away -/

/-- A worker that has been taken away has come as far as `P`, or somebody waits for its end. -/
structure Handled (P : Threads → Prop) (t : Threads) : Prop where
  come : t.notifier.attached = false → P t ∨ ∃ s, t.stopping = some s ∧ s.stage = .joining
  taken : ∀ s, t.stopping = some s → s.stage = .joining ∨ s.stage = .done → t.notifier.attached = false

theorem Step.attached (h : Step t e u) : u.notifier.attached = t.notifier.attached ∨
    e = .take ∧ u.notifier.attached = false := by
  cases h with
  | take _ _ => exact .inr ⟨rfl, rfl⟩
  | _ => exact .inl rfl

/-- Who waits for the end of the worker gets to it. -/
theorem Step.joining (h : Step t e u) {s : Stopping} (hs : t.stopping = some s) (hstage : s.stage = .joining) :
    u.stopping = some s ∨ ∃ failed, u.worker = .ended failed := by
  cases h with
  | join _ _ hw => exact .inr ⟨_, hw⟩
  | connect _ hno | ask _ _ _ hno _ =>
    rw [hs] at hno
    cases hno
  | acquire hs' hstage' _ | raise hs' hstage' | unlock hs' hstage' | announce hs' hstage' | take hs' hstage'
  | back hs' hstage' =>
    rw [hs] at hs'
    cases hs'
    rw [hstage] at hstage'
    cases hstage'
  | _ => exact .inl hs

/-- Where the worker has been taken away, it has been so before, or it is now. -/
theorem Step.taken (h : Step t e u) {s : Stopping} (hs : u.stopping = some s)
    (hstage : s.stage = .joining ∨ s.stage = .done) :
    e = .take ∨ ∃ r, t.stopping = some r ∧ (r.stage = .joining ∨ r.stage = .done) := by
  cases h with
  | take _ _ => exact .inl rfl
  | join hs' hstage' _ => exact .inr ⟨_, hs', .inl hstage'⟩
  | connect _ hno => cases hno.symm.trans hs
  | back _ _ => cases hs
  | ask _ _ _ _ _ | acquire _ _ _ | raise _ _ | unlock _ _ | announce _ _ =>
    cases hs
    rcases hstage with h | h <;> cases h
  | _ => exact .inr ⟨s, hs, hstage⟩

variable {P : Threads → Prop}

theorem Step.take_over (hh : Handled P t) (h : Step t .take u) (hstays : P t → P u)
    (hinside : ∀ s, t.stopping = some s → s.party = .worker → P u) :
    P u ∨ ∃ s, u.stopping = some s ∧ s.stage = .joining := by
  cases h with
  | @take s hs hstage =>
    by_cases hattached : t.notifier.attached = true
    · by_cases hparty : s.party = .worker
      · exact .inl (hinside s hs hparty)
      · exact .inr ⟨_, rfl, if_pos ⟨hattached, Party.outside_of_ne hparty⟩⟩
    · rcases hh.come (Bool.eq_false_iff.2 hattached) with hp | ⟨r, hr, hj⟩
      · exact .inl (hstays hp)
      · rw [hs] at hr
        cases hr
        rw [hstage] at hj
        cases hj

theorem Step.handled (hh : Handled P t) (h : Step t e u) (hstays : P t → P u)
    (hended : ∀ failed, u.worker = .ended failed → u.notifier.attached = false → P u)
    (hinside : ∀ s, t.stopping = some s → s.party = .worker → e = .take → P u) : Handled P u where
  come hu := by
    rcases h.attached with hsame | ⟨rfl, -⟩
    · rcases hh.come (hsame ▸ hu) with hp | ⟨s, hs, hj⟩
      · exact .inl (hstays hp)
      · exact (h.joining hs hj).symm.imp (fun ⟨failed, hw⟩ => hended failed hw hu) fun hs' => ⟨s, hs', hj⟩
    · exact h.take_over hh hstays fun s hs hparty => hinside s hs hparty rfl
  taken s hs hstage := by
    rcases h.attached with hsame | ⟨-, htaken⟩
    · rcases h.taken hs hstage with rfl | ⟨r, hr, hr'⟩
      · cases h
        rfl
      · exact hsame.trans (hh.taken r hr hr')
    · exact htaken

/-- No tick will begin any more. -/
def Over (t : Threads) : Prop := t.notifier.interrupted = true ∧ t.worker.fires = 0

theorem Step.stays_over (ht : Sound t) (ho : t.Over) (h : Step t e u) : u.Over := by
  obtain ⟨hflag, hfires⟩ := ho
  have hstarts := h.starts ht hflag
  exact ⟨h.interrupted hflag, by omega⟩

/-- A callback that has taken the worker away is in a tick. -/
theorem Step.over_inside (ht : Sound t) (h : Step t .take u) {s : Stopping} (hs : t.stopping = some s)
    (hparty : s.party = .worker) : u.Over := by
  cases h with
  | take hs' hstage =>
    obtain ⟨callback, todo, hw⟩ := ht.inside s hs hparty
    exact ⟨ht.told _ hs' (by rw [hstage]; rfl), by dsimp only; rw [hw]; rfl⟩

theorem Run.handled (h : Run t es u) (ht : Sound t) (hh : Handled Over t) : Handled Over u := by
  induction h with
  | nil => exact hh
  | cons hstep _ ih =>
    have hu := hstep.sound ht
    refine ih hu (hstep.handled hh (hstep.stays_over ht) (fun failed hw hu' => ⟨hu.detached hu', by rw [hw]; rfl⟩) ?_)
    rintro s hs hparty rfl
    exact hstep.over_inside ht hs hparty

/-- The worker is at its end. -/
def Ended (t : Threads) : Prop := ∃ failed, t.worker = .ended failed

theorem Step.ended (h : Step t e u) (he : t.Ended) : u.Ended := by
  obtain ⟨failed, he⟩ := he
  cases h with
  | connect _ _ | ask _ _ _ _ _ | acquire _ _ _ | raise _ _ | unlock _ _ | take _ _ | join _ _ _ | back _ _ =>
    exact ⟨failed, he⟩
  | announce _ _ => exact ⟨failed, by dsimp only; rw [he]; rfl⟩
  | fail hw | lock hw _ | miss hw _ | hit hw _ | park hw | wake _ hw | relock hw _ | pass hw _ | quit hw _ | release hw
  | start hw | enter hw | leave _ hw _ | complete hw =>
    rw [he] at hw
    cases hw

theorem Step.outside (h : Step t e u) (hout : ∀ s, t.stopping = some s → s.party = .outside)
    (hno : ∀ last, e ≠ .ask .worker last) : ∀ s, u.stopping = some s → s.party = .outside := by
  intro s hs
  cases h with
  | ask party last _ _ _ =>
    cases hs
    exact Party.outside_of_ne fun hp => hno last (congrArg (Event.ask · last) hp)
  | acquire hs' _ _ | raise hs' _ | unlock hs' _ | announce hs' _ | take hs' _ | join hs' _ _ =>
    have hparty := hout _ hs'
    cases hs
    exact hparty
  | back _ _ => cases hs
  | _ => exact hout s hs

/-- As long as no callback stops the notifier, whoever takes the worker away waits for its end. -/
theorem Run.awaited (h : Run t es u) (hh : Handled Ended t) (hout : ∀ s, t.stopping = some s → s.party = .outside)
    (hno : ∀ last, .ask .worker last ∉ es) : Handled Ended u := by
  induction h with
  | nil => exact hh
  | cons hstep _ ih =>
    refine ih (hstep.handled hh hstep.ended (fun failed hw _ => ⟨failed, hw⟩) fun s hs hparty _ => ?_)
      (hstep.outside hout fun last he => hno last (he ▸ List.mem_cons_self ..))
      fun last hm => hno last (List.mem_cons_of_mem _ hm)
    rw [hout s hs] at hparty
    cases hparty

theorem handled_of_start {interval : Duration} {p : Periodic} (hp : Periodic.start? interval = .ok p)
    (P : Threads → Prop) : Handled P { notifier := p } := by
  obtain rfl := Periodic.eq_of_start? hp
  exact ⟨nofun, nofun⟩

/-- When a stop is done the worker has come as far as `P`. -/
theorem Handled.of_done (hh : Handled P t) {s : Stopping} (hs : t.stopping = some s) (hstage : s.stage = .done) :
    P t := by
  rcases hh.come (hh.taken s hs (.inr hstage)) with hp | ⟨r, hr, hj⟩
  · exact hp
  · rw [hs] at hr
    cases hr
    rw [hstage] at hj
    cases hj

/-! ## What is left -/

/-- From `t` to `u` no more calls are made, panic and complete a tick than were left. -/
structure Leaves (es : List Event) (t u : Threads) : Prop where
  enters : es.count .enter + u.worker.left ≤ t.worker.left
  ticks : t.notifier.ticks ≤ u.notifier.ticks ∧
    u.notifier.ticks + u.worker.ticks ≤ t.notifier.ticks + t.worker.ticks
  failures : t.notifier.failures ≤ u.notifier.failures ∧
    u.notifier.failures + u.worker.left + u.worker.calls ≤ t.notifier.failures + t.worker.left + t.worker.calls

theorem Leaves.trans (h : Leaves es t u) (h' : Leaves es' u v) : Leaves (es ++ es') t v where
  enters := by
    have h1 := h.enters
    have h2 := h'.enters
    rw [List.count_append]
    omega
  ticks := ⟨Nat.le_trans h.ticks.1 h'.ticks.1, Nat.le_trans h'.ticks.2 h.ticks.2⟩
  failures := ⟨Nat.le_trans h.failures.1 h'.failures.1, Nat.le_trans h'.failures.2 h.failures.2⟩

theorem Step.leaves (h : Step t e u) (hfires : t.worker.fires = 0) : Leaves [e] t u := by
  -- What is left to call goes down by what the worker calls, and a stop or a connection changes neither.
  cases h with
  | start hw =>
    rw [hw] at hfires
    cases hfires
  | enter hw =>
    constructor <;> simp [hw, Station.left, Station.ticks, Station.calls]
    all_goals omega
  | leave panicked hw _ =>
    have hone := panicked.toNat_le
    constructor <;> simp [hw, Station.left, Station.ticks, Station.calls]
    omega
  | complete hw => constructor <;> simp [hw, Station.left, Station.ticks, Station.calls]
  | fail hw | lock hw _ | miss hw _ | hit hw _ | park hw | wake _ hw | pass hw _ | quit hw _ | release hw =>
    constructor <;> simp [hw, Station.left, Station.ticks, Station.calls]
  | @relock late hw _ => cases late <;> constructor <;> simp [hw, Station.left, Station.ticks, Station.calls]
  | connect _ _ | ask _ _ _ _ _ | acquire _ _ _ | raise _ _ | unlock _ _ | announce _ _ | take _ _ | join _ _ _
  | back _ _ => constructor <;> simp [Periodic.connect]

theorem Run.leaves (h : Run t es u) (ht : Sound t) (ho : t.Over) : Leaves es t u := by
  induction h with
  | nil => exact ⟨by simp, ⟨Nat.le_refl _, Nat.le_refl _⟩, ⟨Nat.le_refl _, Nat.le_refl _⟩⟩
  | cons hstep _ ih => exact (hstep.leaves ho.2).trans (ih (hstep.sound ht) (hstep.stays_over ht ho))

/-- What can be after a stop from outside which has come back at `s`, up to `t`. -/
structure Silenced (before after : List Event) (s t : Threads) : Prop where
  /-- No tick begins, and only the one under way can be completed; of its calls those can be made that are left. -/
  starts : .start ∉ after
  enters : after.count .enter ≤ s.worker.left
  ticks : s.notifier.ticks ≤ t.notifier.ticks ∧ t.notifier.ticks ≤ s.notifier.ticks + s.worker.ticks
  failures : s.notifier.failures ≤ t.notifier.failures ∧
    t.notifier.failures ≤ s.notifier.failures + s.worker.left + s.worker.calls
  /-- If no callback has stopped the notifier, the worker is at its end, and nothing can be any more. -/
  waited : (∀ last, .ask .worker last ∉ before) → (∃ failed, s.worker = .ended failed) ∧ .enter ∉ after ∧
    t.notifier.ticks = s.notifier.ticks ∧ t.notifier.failures = s.notifier.failures

theorem Step.back_inv {party : Party} (h : Step t (.back party) u) :
    (∃ s, t.stopping = some s ∧ s.stage = .done) ∧ u.worker = t.worker ∧
      u.notifier.ticks = t.notifier.ticks ∧ u.notifier.failures = t.notifier.failures := by
  cases h with
  | back hs hstage => exact ⟨⟨_, hs, hstage⟩, rfl, rfl, rfl⟩

/-- A notifier has been started, and has been stopped or given up from outside, after whatever turns. -/
theorem stop_silences {interval : Duration} {p : Periodic} (hp : Periodic.start? interval = .ok p)
    {before after : List Event} {s s' t : Threads} (hbefore : Run { notifier := p } before s)
    (hback : Step s (.back .outside) s') (hafter : Run s' after t) : Silenced before after s t := by
  have hstart := sound_of_start hp
  have hs := hbefore.sound hstart
  obtain ⟨⟨r, hr, hdone⟩, hworker, hticks, hfailures⟩ := hback.back_inv
  -- Whoever has taken the worker away, no tick can begin after that.
  have hover : s.Over := (hbefore.handled hstart (handled_of_start hp _)).of_done hr hdone
  have hs' := hback.sound hs
  have hover' := hback.stays_over hs hover
  obtain ⟨henters, ⟨hticks1, hticks2⟩, hfailures1, hfailures2⟩ := hafter.leaves hs' hover'
  rw [hworker] at henters hticks2 hfailures2
  rw [hticks] at hticks1 hticks2
  rw [hfailures] at hfailures1 hfailures2
  refine ⟨fun hmem => ?_, by omega, ⟨hticks1, by omega⟩, ⟨hfailures1, by omega⟩, fun hno => ?_⟩
  · have hcount := hafter.starts hs' hover'.1
    rw [hover'.2] at hcount
    have hpos := List.count_pos_iff.2 hmem
    omega
  · -- Where only stops from outside have been, it has been waited for.
    obtain ⟨failed, hw⟩ : s.Ended := (hbefore.awaited (handled_of_start hp _) nofun hno).of_done hr hdone
    rw [hw] at henters hticks2 hfailures2
    simp only [Station.left, Station.ticks, Station.calls] at henters hticks2 hfailures2
    refine ⟨⟨failed, hw⟩, fun hmem => ?_, by omega, by omega⟩
    have hpos := List.count_pos_iff.2 hmem
    omega

/-- For instance a stop wakes up the worker, which is at its end then; another stop changes nothing. -/
theorem stop_silences_parked : ∃ s t, Silenced
    [.lock, .miss, .park, .ask .outside false, .acquire, .raise, .unlock, .announce, .take, .wake false, .relock, .hit,
      .quit, .join]
    [.ask .outside true, .acquire, .raise, .unlock, .announce, .take, .back .outside] s t ∧
    s.worker = .ended false ∧ t.notifier.dropped = true := by
  have hstart : Periodic.start? (.ofMilliseconds 5) = .ok { interval := .ofMilliseconds 5 } := rfl
  -- The worker is parked when the flag is set, and wakes up to quit.
  have hbefore := Run.cons (t := { notifier := { interval := .ofMilliseconds 5 } })
      (.lock rfl (free_of_none rfl rfl)) <|
    .cons (.miss rfl rfl) <| .cons (.park rfl) <| .cons (.ask .outside false rfl rfl nofun) <|
    .cons (.acquire rfl rfl (free_of_some rfl rfl rfl)) <| .cons (.raise rfl rfl) <| .cons (.unlock rfl rfl) <|
    .cons (.announce rfl rfl) <| .cons (.take rfl rfl) <| .cons (.wake false rfl) <|
    .cons (.relock rfl (free_of_some rfl rfl rfl)) <| .cons (.hit rfl rfl) <| .cons (.quit rfl rfl) <|
    .cons (.join rfl rfl rfl) .nil
  have hsilent := stop_silences hstart hbefore (.back (s := ⟨.outside, false, .done⟩) rfl rfl) <|
    .cons (.ask .outside true rfl rfl nofun) <| .cons (.acquire rfl rfl (free_of_some rfl rfl rfl)) <|
    .cons (.raise rfl rfl) <| .cons (.unlock rfl rfl) <|
    .cons (.announce rfl rfl) <| .cons (.take rfl rfl) <| .cons (.back (s := ⟨.outside, true, .done⟩) rfl rfl) .nil
  exact ⟨_, _, hsilent, rfl, rfl⟩

/-- A callback stops the notifier, and then somebody else does: that stop comes back while the callback is
still at work, and after it the other callback is called, a panic is counted, and the tick. -/
theorem not_always_silent : ∃ s s' t,
    Run { notifier := { interval := .ofMilliseconds 5 } }
      [.connect, .lock, .miss, .park, .wake true, .relock, .pass, .release, .start, .enter,
        .ask .worker false, .acquire, .raise, .unlock, .announce, .take, .back .worker,
        .ask .outside false, .acquire, .raise, .unlock, .announce, .take] s ∧
    Step s (.back .outside) s' ∧ Run s' [.leave false, .enter, .leave true, .complete] t ∧
    s.worker = .calling 0 [1] ∧ s'.notifier.ticks = 0 ∧ s'.notifier.failures = 0 ∧ t.notifier.ticks = 1 ∧
    t.notifier.failures = 1 := by
  -- The first callback takes the worker away, so the stop from outside finds none to wait for.
  have hbefore := Run.cons (t := { notifier := { interval := .ofMilliseconds 5 } }) (.connect rfl rfl) <|
    .cons (.lock rfl (free_of_none rfl rfl)) <| .cons (.miss rfl rfl) <| .cons (.park rfl) <| .cons (.wake true rfl) <|
    .cons (.relock rfl (free_of_none rfl rfl)) <| .cons (.pass rfl rfl) <| .cons (.release rfl) <| .cons (.start rfl) <|
    .cons (.enter rfl) <| .cons (.ask .worker false rfl rfl fun _ => ⟨_, _, rfl⟩) <|
    .cons (.acquire rfl rfl (free_of_some rfl rfl rfl)) <| .cons (.raise rfl rfl) <| .cons (.unlock rfl rfl) <|
    .cons (.announce rfl rfl) <| .cons (.take rfl rfl) <| .cons (.back rfl rfl) <|
    .cons (.ask .outside false rfl rfl nofun) <| .cons (.acquire rfl rfl (free_of_some rfl rfl rfl)) <|
    .cons (.raise rfl rfl) <| .cons (.unlock rfl rfl) <| .cons (.announce rfl rfl) <| .cons (.take rfl rfl) .nil
  have hnone : ∀ s : Stopping, none = some s → s.party = .outside := fun _ h => by cases h
  exact ⟨_, _, _, hbefore, .back (s := ⟨.outside, false, .done⟩) rfl rfl, .cons (.leave false rfl hnone) <|
    .cons (.enter rfl) <| .cons (.leave true rfl hnone) <| .cons (.complete rfl) .nil, rfl, rfl, rfl, rfl, rfl⟩

end Threads

end Conduit.Notifier
