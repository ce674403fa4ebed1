/-
A notifier and its threads, which take turns in any order. Every turn is one thing that one of them does
without the others noticing anything in between.

Of the lock and the condition this is assumed: who waits lets the lock go and parks in one, and has the lock
again before going on; who is parked may wake up at any time, because it is late or for no reason; and all
who are parked are called by an announcement. To stop a notifier, or to give it up, one needs it for
oneself, so stops come one after another: from outside, or out of a callback.
-/
import Conduit.Notifier.Periodic

namespace Conduit.Notifier

/-- Where a worker is. -/
inductive Station
  /-- It has computed its deadline, or has to. -/
  | resting
  /-- It has the lock, and is about to look at the flag. -/
  | looking
  /-- It has found the flag unset, and is about to wait. -/
  | bound
  | parked (called : Bool)
  /-- It is awake, and needs the lock again. -/
  | rising (late : Bool)
  /-- It does not wait any longer, and is about to look at the flag once more. -/
  | deciding
  /-- It has found the flag unset, and is about to let the lock go. -/
  | passed
  /-- It is about to tick. -/
  | cleared
  /-- It ticks, with these callbacks left to call. -/
  | ticking (todo : List Nat)
  | calling (callback : Nat) (todo : List Nat)
  | ended (failed : Bool)
  deriving DecidableEq, Repr

/-- On which thread something is done. -/
inductive Party
  | worker
  | outside
  deriving DecidableEq, Repr

/-- How far a stop has come. -/
inductive Stage
  | asked
  | locked
  /-- The flag is set, and the lock still taken. -/
  | raised
  | unlocked
  | announced
  /-- It waits for the end of the worker. -/
  | joining
  | done
  deriving DecidableEq, Repr

/-- A stop under way; it may be the last thing that is done with the notifier. -/
structure Stopping where
  party : Party
  last : Bool
  stage : Stage := .asked
  deriving DecidableEq, Repr

/-- What threads do. -/
inductive Event
  /-- The deadline cannot be computed. -/
  | fail
  | lock
  | miss
  | hit
  | park
  | wake (late : Bool)
  | relock
  | pass
  | quit
  | release
  | start
  | enter
  | leave (panicked : Bool)
  | complete
  | connect
  | ask (party : Party) (last : Bool)
  | acquire
  | raise
  | unlock
  | announce
  | take
  | join
  | back (party : Party)
  deriving DecidableEq, Repr

/-- A notifier, its worker, and the stop that is under way, if there is one. -/
structure Threads where
  notifier : Periodic
  worker : Station := .resting
  stopping : Option Stopping := none

/-- Whether a worker has the lock there. -/
def Station.holds : Station → Bool
  | .looking | .bound | .deciding | .passed => true
  | _ => false

/-- A worker that is called. -/
def Station.call : Station → Station
  | .parked _ => .parked true
  | s => s

/-- Whether a stop has the lock there. -/
def Stage.holds : Stage → Bool
  | .locked | .raised => true
  | _ => false

/-- Whether a stop has set the flag. -/
def Stage.told : Stage → Bool
  | .asked | .locked => false
  | _ => true

namespace Threads

variable {t u v : Threads} {e : Event} {es es' : List Event}

/-- Nobody has the lock. -/
def Free (t : Threads) : Prop := t.worker.holds = false ∧ ∀ s, t.stopping = some s → s.stage.holds = false

/-- One turn. -/
inductive Step (t : Threads) : Event → Threads → Prop
  | fail (hw : t.worker = .resting) : Step t .fail { t with worker := .ended true }
  | lock (hw : t.worker = .resting) (hfree : t.Free) : Step t .lock { t with worker := .looking }
  | miss (hw : t.worker = .looking) (hflag : t.notifier.interrupted = false) : Step t .miss { t with worker := .bound }
  | hit (hw : t.worker = .looking) (hflag : t.notifier.interrupted = true) : Step t .hit { t with worker := .deciding }
  /-- Waiting lets the lock go. -/
  | park (hw : t.worker = .bound) : Step t .park { t with worker := .parked false }
  | wake {called : Bool} (late : Bool) (hw : t.worker = .parked called) :
    Step t (.wake late) { t with worker := .rising late }
  /-- Who is late waits no longer. -/
  | relock {late : Bool} (hw : t.worker = .rising late) (hfree : t.Free) :
    Step t .relock { t with worker := if late then .deciding else .looking }
  | pass (hw : t.worker = .deciding) (hflag : t.notifier.interrupted = false) :
      Step t .pass { t with worker := .passed }
  | quit (hw : t.worker = .deciding) (hflag : t.notifier.interrupted = true) :
      Step t .quit { t with worker := .ended false }
  | release (hw : t.worker = .passed) : Step t .release { t with worker := .cleared }
  /-- A tick is about the callbacks that there are. -/
  | start (hw : t.worker = .cleared) : Step t .start { t with worker := .ticking (List.range t.notifier.callbacks) }
  | enter {callback : Nat} {todo : List Nat} (hw : t.worker = .ticking (callback :: todo)) :
    Step t .enter { t with worker := .calling callback todo }
  /-- A callback is over when the stop is that it has asked for. -/
  | leave {callback : Nat} {todo : List Nat} (panicked : Bool) (hw : t.worker = .calling callback todo)
    (hout : ∀ s, t.stopping = some s → s.party = .outside) : Step t (.leave panicked)
      { t with
        notifier := { t.notifier with failures := t.notifier.failures + panicked.toNat }
        worker := .ticking todo }
  | complete (hw : t.worker = .ticking []) : Step t .complete
      { t with notifier := { t.notifier with ticks := t.notifier.ticks + 1 }, worker := .resting }
  | connect (hd : t.notifier.dropped = false) (hs : t.stopping = none) :
    Step t .connect { t with notifier := t.notifier.connect }
  | ask (party : Party) (last : Bool) (hd : t.notifier.dropped = false) (hs : t.stopping = none)
    (hin : party = .worker → ∃ callback todo, t.worker = .calling callback todo) :
    Step t (.ask party last) { t with stopping := some { party, last } }
  | acquire {s : Stopping} (hs : t.stopping = some s) (hstage : s.stage = .asked) (hfree : t.Free) :
    Step t .acquire { t with stopping := some { s with stage := .locked } }
  | raise {s : Stopping} (hs : t.stopping = some s) (hstage : s.stage = .locked) : Step t .raise
      { t with
        notifier := { t.notifier with interrupted := true }
        stopping := some { s with stage := .raised } }
  | unlock {s : Stopping} (hs : t.stopping = some s) (hstage : s.stage = .raised) :
    Step t .unlock { t with stopping := some { s with stage := .unlocked } }
  | announce {s : Stopping} (hs : t.stopping = some s) (hstage : s.stage = .unlocked) : Step t .announce
      { t with worker := t.worker.call, stopping := some { s with stage := .announced } }
  /-- The first to stop takes the worker away, and waits for its end unless it is on that thread itself. -/
  | take {s : Stopping} (hs : t.stopping = some s) (hstage : s.stage = .announced) : Step t .take
      { t with
        notifier := { t.notifier with attached := false }
        stopping := some { s with
          stage := if t.notifier.attached = true ∧ s.party = .outside then .joining else .done } }
  | join {s : Stopping} {failed : Bool} (hs : t.stopping = some s) (hstage : s.stage = .joining)
    (hw : t.worker = .ended failed) : Step t .join { t with stopping := some { s with stage := .done } }
  | back {s : Stopping} (hs : t.stopping = some s) (hstage : s.stage = .done) : Step t (.back s.party)
      { t with notifier := { t.notifier with dropped := t.notifier.dropped || s.last }, stopping := none }

/-- Turns in a row. -/
inductive Run : Threads → List Event → Threads → Prop
  | nil {t : Threads} : Run t [] t
  | cons {t u v : Threads} {e : Event} {es : List Event} (h : Step t e u) (hr : Run u es v) : Run t (e :: es) v

theorem free_of_none (hw : t.worker.holds = false) (hs : t.stopping = none) : t.Free :=
  ⟨hw, fun s h => by rw [hs] at h; cases h⟩

theorem free_of_some {s : Stopping} (hw : t.worker.holds = false) (hs : t.stopping = some s)
    (hstage : s.stage.holds = false) : t.Free :=
  ⟨hw, fun r h => by rw [hs] at h; cases h; exact hstage⟩

theorem Run.append (h : Run t es u) (h' : Run u es' v) : Run t (es ++ es') v := by
  induction h with
  | nil => exact h'
  | cons hstep _ ih => exact .cons hstep (ih h')

theorem Run.split : ∀ {es : List Event} {t : Threads}, Run t (es ++ es') v → ∃ u, Run t es u ∧ Run u es' v
  | [], _, h => ⟨_, .nil, h⟩
  | _ :: _, _, .cons hstep hr => by
    obtain ⟨u, hu, hv⟩ := hr.split
    exact ⟨u, .cons hstep hu, hv⟩

/-! ## What threads rely on -/

/-- What holds whenever all threads are between two turns. -/
structure Sound (t : Threads) : Prop where
  exclusive : t.worker.holds = true → ∀ s, t.stopping = some s → s.stage.holds = false
  /-- Who has found the flag unset, and has the lock, can rely on it. -/
  unset : t.worker = .bound ∨ t.worker = .passed → t.notifier.interrupted = false
  told : ∀ s, t.stopping = some s → s.stage.told = true → t.notifier.interrupted = true
  /-- A worker that has parked, and is to stop, has been called, or will be. -/
  parked : t.worker = .parked false → t.notifier.interrupted = true →
    ∃ s, t.stopping = some s ∧ (s.stage = .raised ∨ s.stage = .unlocked)
  inside : ∀ s, t.stopping = some s → s.party = .worker → ∃ callback todo, t.worker = .calling callback todo
  detached : t.notifier.attached = false → t.notifier.interrupted = true

theorem sound_of_start {interval : Duration} {p : Periodic} (h : Periodic.start? interval = .ok p) :
    Sound { notifier := p } := by
  obtain rfl := Periodic.eq_of_start? h
  exact ⟨nofun, fun _ => rfl, nofun, nofun, nofun, nofun⟩

/-- Unless a callback is at work, stops come from outside. -/
theorem Sound.outside (ht : Sound t) (hw : ∀ callback todo, t.worker ≠ .calling callback todo) (s : Stopping)
    (hs : t.stopping = some s) : s.party = .outside := by
  rcases hp : s.party with _ | _
  · obtain ⟨callback, todo, hc⟩ := ht.inside s hs hp
    exact absurd hc (hw callback todo)
  · rfl

section

variable {w : Station} {s s' : Stopping}

/-- The worker goes on, to where it can rely on what it needs. -/
theorem Sound.of_worker (ht : Sound t) (hout : ∀ s, t.stopping = some s → s.party = .outside)
    (hholds : w.holds = true → t.worker.holds = true ∨ t.Free)
    (hunset : w = .bound ∨ w = .passed ∨ w = .parked false → t.notifier.interrupted = false) :
    Sound { t with worker := w } where
  exclusive hw s hs := (hholds hw).elim (fun h => ht.exclusive h s hs) fun h => h.2 s hs
  unset hw := hunset (hw.imp_right .inl)
  told := ht.told
  parked hw hflag := by
    rw [hunset (.inr (.inr hw))] at hflag
    cases hflag
  inside s hs hp := by
    rw [hout s hs] at hp
    cases hp
  detached := ht.detached

/-- A stop goes on, and does not leave the worker parked. -/
theorem Sound.proceeds (ht : Sound t) (hs : t.stopping = some s) (hparty : s'.party = s.party)
    (hholds : s'.stage.holds = true → s.stage.holds = true ∨ t.Free)
    (htold : s'.stage.told = true → t.notifier.interrupted = true)
    (hparked : s.stage = .raised ∨ s.stage = .unlocked → s'.stage = .raised ∨ s'.stage = .unlocked) :
    Sound { t with stopping := some s' } where
  exclusive hw r hr := by
    cases hr
    rcases hh : s'.stage.holds with _ | _
    · rfl
    · rcases hholds hh with h | h
      · exact h ▸ ht.exclusive hw s hs
      · exact hw ▸ h.1
  unset := ht.unset
  told r hr := by
    cases hr
    exact htold
  parked hw hflag := by
    -- There is one stop at a time, so the one that is to call the worker is this one.
    obtain ⟨r, hr, hstage⟩ := ht.parked hw hflag
    rw [hs] at hr
    cases hr
    exact ⟨s', rfl, hparked hstage⟩
  inside r hr hp := by
    cases hr
    exact ht.inside s hs (hparty.symm.trans hp)
  detached := ht.detached

/-- The flag is set by who has the lock, so nobody has relied on it. -/
theorem Sound.raised (ht : Sound t) (hs : t.stopping = some s) (hstage : s.stage = .locked) :
    Sound { t with
      notifier := { t.notifier with interrupted := true }
      stopping := some { s with stage := .raised } } where
  exclusive hw := by
    have hfree := ht.exclusive hw s hs
    rw [hstage] at hfree
    cases hfree
  unset hw := by
    -- A worker that relies on the flag has the lock, and so does the stop: it is one or the other.
    have hfree := ht.exclusive (by rcases hw with h | h <;> (dsimp only at h; rw [h]; rfl)) s hs
    rw [hstage] at hfree
    cases hfree
  told _ _ _ := rfl
  parked _ _ := ⟨_, rfl, .inl rfl⟩
  inside r hr hp := by
    cases hr
    exact ht.inside s hs hp
  detached _ := rfl

/-- An announcement leaves nobody parked who has not been called. -/
theorem Sound.announced (ht : Sound t) (hs : t.stopping = some s) (hstage : s.stage = .unlocked) :
    Sound { t with worker := t.worker.call, stopping := some { s with stage := .announced } } where
  exclusive _ r hr := by
    cases hr
    rfl
  unset hw := ht.unset (by rcases hworker : t.worker <;> simp_all [Station.call])
  told r hr _ := ht.told s hs (by rw [hstage]; rfl)
  parked hw := by rcases hworker : t.worker <;> simp_all [Station.call]
  inside r hr hp := by
    cases hr
    obtain ⟨callback, todo, hw⟩ := ht.inside s hs hp
    exact ⟨callback, todo, by dsimp only; rw [hw]; rfl⟩
  detached := ht.detached

end

theorem Step.sound (ht : Sound t) (h : Step t e u) : Sound u := by
  -- The worker does nothing while a callback of its own stops the notifier.
  have hout {w : Station} (hw : t.worker = w) (hno : ∀ callback todo, w ≠ .calling callback todo) (s : Stopping)
      (hs : t.stopping = some s) : s.party = .outside := ht.outside (by rwa [hw]) s hs
  cases h with
  | fail hw => exact ht.of_worker (hout hw nofun) nofun nofun
  | lock hw hfree => exact ht.of_worker (hout hw nofun) (fun _ => .inr hfree) nofun
  | miss hw hflag => exact ht.of_worker (hout hw nofun) (fun _ => .inl (by rw [hw]; rfl)) fun _ => hflag
  | hit hw hflag => exact ht.of_worker (hout hw nofun) (fun _ => .inl (by rw [hw]; rfl)) nofun
  | park hw => exact ht.of_worker (hout hw nofun) nofun fun _ => ht.unset (.inl hw)
  | wake late hw => exact ht.of_worker (hout hw nofun) nofun nofun
  | @relock late hw hfree => exact ht.of_worker (hout hw nofun) (fun _ => .inr hfree) (by cases late <;> nofun)
  | pass hw hflag => exact ht.of_worker (hout hw nofun) (fun _ => .inl (by rw [hw]; rfl)) fun _ => hflag
  | quit hw hflag => exact ht.of_worker (hout hw nofun) nofun nofun
  | release hw => exact ht.of_worker (hout hw nofun) nofun nofun
  | start hw => exact ht.of_worker (hout hw nofun) nofun nofun
  | enter hw => exact ht.of_worker (hout hw nofun) nofun nofun
  | leave panicked hw hs => exact { ht.of_worker (w := .ticking _) hs nofun nofun with }
  | complete hw => exact { ht.of_worker (w := .resting) (hout hw nofun) nofun nofun with }
  | connect hd hs => exact { ht with }
  | ask party last hd hs hin =>
    refine ⟨fun _ s h => ?_, ht.unset, fun s h => ?_, fun hw hflag => ?_, fun s h hp => ?_, ht.detached⟩
    · cases h
      rfl
    · cases h
      nofun
    · obtain ⟨s, h, -⟩ := ht.parked hw hflag
      rw [hs] at h
      cases h
    · cases h
      exact hin hp
  | acquire hs hstage hfree =>
    exact ht.proceeds hs rfl (fun _ => .inr hfree) nofun (by rw [hstage]; rintro (h | h) <;> cases h)
  | raise hs hstage => exact ht.raised hs hstage
  | unlock hs hstage =>
    exact ht.proceeds hs rfl nofun (fun _ => ht.told _ hs (by rw [hstage]; rfl)) fun _ => .inr rfl
  | announce hs hstage => exact ht.announced hs hstage
  | @take s hs hstage =>
    have hflag := ht.told s hs (by rw [hstage]; rfl)
    have hnext : Sound { t with stopping := some { s with
        stage := if t.notifier.attached = true ∧ s.party = .outside then .joining else .done } } :=
      ht.proceeds hs rfl (by dsimp only; split <;> nofun) (fun _ => hflag) (by rw [hstage]; rintro (h | h) <;> cases h)
    exact { hnext with detached := fun _ => hflag }
  | join hs hstage hw =>
    exact ht.proceeds hs rfl nofun (fun _ => ht.told _ hs (by rw [hstage]; rfl))
      (by rw [hstage]; rintro (h | h) <;> cases h)
  | back hs hstage =>
    refine ⟨nofun, ht.unset, nofun, fun hw hflag => ?_, nofun, ht.detached⟩
    obtain ⟨r, hr, hr'⟩ := ht.parked hw hflag
    rw [hs] at hr
    cases hr
    rw [hstage] at hr'
    rcases hr' with h | h <;> cases h

theorem Run.sound (h : Run t es u) (ht : Sound t) : Sound u := by
  induction h with
  | nil => exact ht
  | cons hstep _ ih => exact ih (hstep.sound ht)

end Threads

end Conduit.Notifier
