/-
Handlers and their locks. What is under way in a configuration is one thread with its calls, whatever locks
slots are wrapped into, and every move is a row of turns of that thread: a handler that begins acquires the
locks of its slot, and one that ends releases them.
-/
import Conduit.Proofs.Locking.Overlap
import Conduit.Proofs.Scenario.Run

namespace Conduit.Locking

open Scenario (Config Frame)

/-- The stack of the thread in which these frames are, when slots are wrapped like this. -/
def stackOf (wrap : Slot → Wrapped) : List Frame → List Activity
  | [] => []
  | .handling h :: rest => .body h.slot :: (guardsOf (wrap h.slot).locks ++ stackOf wrap rest)
  | _ :: rest => stackOf wrap rest

namespace System

/-- One thread with its calls, and the locks as it has them. -/
def alone (stack : List Activity) : System where
  threads := Function.update (fun _ => {}) 0 ⟨stack, .working⟩
  locks L := if .guard L ∈ stack then ⟨some 0, stack.count (.guard L)⟩ else {}

variable {wrap : Slot → Wrapped} {s u : System} {stack base : List Activity} {es : List (ThreadId × Event)}

theorem threads_alone (stack : List Activity) (t : ThreadId) :
    (alone stack).threads t = if t = 0 then ⟨stack, .working⟩ else {} := by
  show Function.update (fun _ => ({} : Thread)) 0 ⟨stack, .working⟩ t = _
  rw [Function.update_apply]

theorem sound_alone (stack : List Activity) : Sound (alone stack) where
  tidy L := by
    unfold alone Lock.Tidy
    dsimp only
    split
    · rename_i hL
      exact iff_of_false nofun (Nat.ne_of_gt (List.count_pos_iff.2 hL))
    · exact ⟨fun _ => rfl, fun _ => rfl⟩
  held L t := by
    rw [guards, threads_alone]
    unfold alone Lock.heldBy
    dsimp only
    by_cases ht : t = 0
    · subst ht
      by_cases hL : .guard L ∈ stack
      · simp [hL]
      · simp [hL, List.count_eq_zero_of_not_mem hL]
    · by_cases hL : .guard L ∈ stack
      · simp [hL, ht, Ne.symm ht]
      · simp [hL, ht]

/-- How locks are can be told from the stacks. -/
theorem Sound.ext (hs : Sound s) (hu : Sound u) (h : s.threads = u.threads) : s = u := by
  have hlocks : s.locks = u.locks := by
    funext L
    have hdepth : ∀ {x : System} {t}, Sound x → (x.locks L).owner = some t → x.locks L = ⟨some t, x.guards L t⟩ := by
      intro x t hx howner
      rw [← howner, ← hx.depth howner]
    by_cases hno : ∀ t, .guard L ∉ (s.threads t).stack
    · rw [hs.free hno, hu.free (h ▸ hno)]
    · push Not at hno
      obtain ⟨t, ht⟩ := hno
      rw [hdepth hs (hs.owner_iff.2 ht), hdepth hu (hu.owner_iff.2 (h ▸ ht)), guards, guards, h]
  obtain ⟨threads, locks⟩ := s
  cases h
  cases hlocks
  rfl

/-- No other thread has begun anything. -/
def Single (s : System) : Prop := ∀ t, t ≠ 0 → s.threads t = {}

theorem eq_alone (hs : Sound s) (hsingle : s.Single) (h : s.threads 0 = ⟨stack, .working⟩) : s = alone stack := by
  apply hs.ext (sound_alone stack)
  funext t
  rw [threads_alone]
  split
  · rename_i ht
    rw [ht, h]
  · rename_i ht
    exact hsingle t ht

theorem Single.step {e : Event} (hs : s.Single) (h : Step s 0 e u) : u.Single := by
  intro t ht
  rw [h.threads_of_ne ht]
  exact hs t ht

/-- A single thread can acquire any lock. -/
theorem Single.admits (hsingle : s.Single) (hs : Sound s) (L : LockId) : (s.locks L).Admits 0 := by
  rcases howner : (s.locks L).owner with _ | t
  · exact .inl howner
  · have hguard := hs.owner_iff.1 howner
    by_cases ht : t = 0
    · exact .inr (by rw [howner, ht])
    · rw [hsingle t ht] at hguard
      cases hguard

/-- A call gets as far as its body. -/
theorem enters : ∀ (slot : Wrapped) {s : System} {base : List Activity}, Sound s → s.Single →
    s.threads 0 = ⟨base, .entering slot⟩ → ∃ es u, Run s es u ∧ u.Single ∧
      u.threads 0 = ⟨.body slot.body :: (guardsOf slot.locks ++ base), .working⟩
  | .plain body, s, base, _, hsingle, h => by
    have hstep : Step s 0 .enter (s.go 0 (.body body :: base) .working) := .enter h
    exact ⟨_, _, .cons hstep .nil, hsingle.step hstep, by rw [threads_go, if_pos rfl]; rfl⟩
  | .guarded lock inner, s, base, hs, hsingle, h => by
    have hstep := Step.acquire h (hsingle.admits hs lock)
    obtain ⟨es, u, hrun, hu, hend⟩ := enters inner (hstep.sound hs) (hsingle.step hstep)
      (by rw [threads_go, if_pos rfl])
    refine ⟨_, u, .cons hstep hrun, hu, ?_⟩
    rw [hend]
    simp [Wrapped.body, Wrapped.locks, guardsOf]

/-- A call whose body has ended comes to its end. -/
theorem exits (panicked : Bool) : ∀ (locks : List Activity) {s : System} {base : List Activity}, s.Single →
    (∀ a ∈ locks, ∃ L, a = .guard L) → (∀ L rest, base ≠ .guard L :: rest) →
    s.threads 0 = ⟨locks ++ base, .leaving panicked⟩ → ∃ es u, Run s es u ∧ u.Single ∧ u.threads 0 = ⟨base, .working⟩
  | [], s, base, hsingle, _, hbase, h => by
    have hstep := Step.resume h hbase
    exact ⟨_, _, .cons hstep .nil, hsingle.step hstep, by rw [threads_go, if_pos rfl]; rfl⟩
  | a :: locks, s, base, hsingle, hlocks, hbase, h => by
    obtain ⟨L, rfl⟩ := hlocks a (List.mem_cons_self ..)
    have hstep := Step.release h
    obtain ⟨es, u, hrun, hu, hend⟩ := exits panicked locks (hsingle.step hstep)
      (fun b hb => hlocks b (List.mem_cons_of_mem _ hb)) hbase (by rw [threads_go, if_pos rfl]; rfl)
    exact ⟨_, u, .cons hstep hrun, hu, hend⟩

theorem single_alone (stack : List Activity) : (alone stack).Single := by
  intro t ht
  rw [threads_alone, if_neg ht]

theorem begins_alone (slot : Wrapped) (base : List Activity) :
    ∃ es, Run (alone base) es (alone (.body slot.body :: (guardsOf slot.locks ++ base))) := by
  have hstep : Step (alone base) 0 (.call slot) _ := .call (by rw [threads_alone, if_pos rfl]) slot
  have hsound := hstep.sound (sound_alone base)
  obtain ⟨es, u, hrun, hu, hend⟩ := enters slot hsound ((single_alone base).step hstep) (by rw [threads_go, if_pos rfl])
  rw [← eq_alone (hrun.sound hsound) hu hend]
  exact ⟨_, .cons hstep hrun⟩

theorem ends_alone (panicked : Bool) (body : Slot) (locks : List LockId) (hbase : ∀ L rest, base ≠ .guard L :: rest) :
    ∃ es, Run (alone (.body body :: (guardsOf locks ++ base))) es (alone base) := by
  have hstep : Step (alone (.body body :: (guardsOf locks ++ base))) 0 (.leave panicked) _ :=
    .leave (by rw [threads_alone, if_pos rfl]) panicked
  have hguards : ∀ a ∈ guardsOf locks, ∃ L, a = .guard L := by
    intro a ha
    obtain ⟨L, -, rfl⟩ := List.mem_map.1 ha
    exact ⟨L, rfl⟩
  obtain ⟨es, u, hrun, hu, hend⟩ := exits panicked (guardsOf locks) ((single_alone _).step hstep) hguards hbase
    (by rw [threads_go, if_pos rfl])
  rw [← eq_alone (hrun.sound (hstep.sound (sound_alone _))) hu hend]
  exact ⟨_, .cons hstep hrun⟩

end System

/-! ## Moves -/

variable {wrap : Slot → Wrapped} {may : World.License} {c d : Config}

theorem stackOf_ne (wrap : Slot → Wrapped) (L : LockId) (rest : List Activity) : ∀ (frames : List Frame),
    stackOf wrap frames ≠ .guard L :: rest
  | [] => nofun
  | .handling _ :: _ => nofun
  | .step _ _ :: frames | .emission _ :: frames | .call :: frames | .thread _ _ _ :: frames | .batch _ _ :: frames =>
    stackOf_ne wrap L rest frames

/-- At most one handler begins or ends in a move. -/
inductive Shifts (wrap : Slot → Wrapped) (fs gs : List Frame) : Prop
  | same (h : stackOf wrap gs = stackOf wrap fs)
  | begins (slot : Slot) (h : stackOf wrap gs = .body slot :: (guardsOf (wrap slot).locks ++ stackOf wrap fs))
  | ends (slot : Slot) (h : stackOf wrap fs = .body slot :: (guardsOf (wrap slot).locks ++ stackOf wrap gs))

theorem Shifts.of_frames {fs fs' gs : List Frame} (hframes : fs = fs') (h : stackOf wrap gs = stackOf wrap fs') :
    Shifts wrap fs gs :=
  .same (hframes ▸ h)

theorem shifts_start (step : Scenario.Step Scenario.Action) (given : Option Value) :
    Shifts wrap c.frames (c.start step given).frames := by
  apply Shifts.same
  unfold Config.start
  split
  · rfl
  · split <;> rfl

theorem shifts_resume (c : Config) : Shifts wrap c.frames c.resume.frames := by
  unfold Config.resume
  split
  · rename_i h rest hframes
    rw [hframes]
    unfold Config.handle
    split
    · exact .same rfl
    · split
      · -- Only a handler that has nothing more to do goes.
        exact .ends h.slot rfl
      · dsimp only
        split
        · exact .same rfl
        · exact .same rfl
  · rename_i e rest hframes
    rw [hframes]
    unfold Config.visit
    split
    · exact .same rfl
    · split
      · exact .same rfl
      · exact .same rfl
  · rename_i hframes
    exact .of_frames hframes rfl
  · rename_i hframes
    exact .of_frames hframes rfl
  · rename_i hframes
    exact .of_frames hframes rfl
  · rename_i hframes
    exact .of_frames hframes rfl
  · rename_i hframes
    exact .of_frames hframes rfl
  · exact .same rfl
  · exact .same rfl

theorem shifts_answer (c : Config) (r : Result) : Shifts wrap c.frames (c.answer r).frames := by
  unfold Config.answer
  split
  · rename_i hframes
    rw [hframes]
    dsimp only
    split
    · exact .same rfl
    · exact .same rfl
    · exact .same rfl
  · exact .same rfl
  · exact .same rfl

theorem shifts_unwind (c : Config) (p : Panic) : Shifts wrap c.frames (c.unwind p).frames := by
  unfold Config.unwind
  split
  · exact .same rfl
  · rename_i hframes
    exact .of_frames hframes rfl
  · rename_i h rest hframes
    rw [hframes]
    -- Of what a panic ends only a handler has been inside locks.
    exact .ends h.slot rfl
  · rename_i hframes
    rw [hframes]
    split
    · exact .same rfl
    · exact .same rfl
  · rename_i hframes
    exact .of_frames hframes rfl
  · rename_i hframes
    exact .of_frames hframes rfl
  · rename_i hframes
    exact .of_frames hframes rfl

theorem shifts_move (hc : Config.WellFormed c) (h : Config.Move may c d) : Shifts wrap c.frames d.frames := by
  cases h with
  | tick _ =>
    unfold Config.tick
    split
    · exact shifts_start _ _
    · rename_i slot value hfocus
      unfold Config.call
      split
      · exact .begins slot rfl
      · exact .same rfl
    · exact shifts_resume c
    · exact shifts_answer c _
    · exact shifts_unwind c _
    · exact .same rfl
  | act _ _ _ => exact .same rfl
  | next hfocus _ => exact .same (by rw [Config.frames_of_finished hc hfocus]; rfl)
  | furnish _ _ _ _ => exact .same rfl

/-- Whatever happens, handlers have the locks of their slots as threads do, when they begin and until they
end. -/
theorem handlers_run (hwrap : ∀ slot, (wrap slot).body = slot) (h : Config.Reachable may c) :
    ∃ es, System.Run {} es (.alone (stackOf wrap c.frames)) := by
  -- By induction on the run: the locks change only where a handler begins or ends.
  induction h with
  | refl =>
    have hstart : ({} : System) = .alone [] := System.eq_alone System.sound_start (fun _ _ => rfl) rfl
    exact ⟨[], hstart ▸ .nil⟩
  | @tail c d hc hmove ih =>
    obtain ⟨es, hes⟩ := ih
    have hshifts : Shifts wrap c.frames d.frames := shifts_move (Config.Reachable.wellFormed hc) hmove
    cases hshifts with
    | same hsame =>
      rw [hsame]
      exact ⟨es, hes⟩
    | begins slot hbegins =>
      obtain ⟨fs, hfs⟩ := System.begins_alone (wrap slot) (stackOf wrap c.frames)
      rw [hwrap, ← hbegins] at hfs
      exact ⟨es ++ fs, hes.append hfs⟩
    | ends slot hends =>
      obtain ⟨fs, hfs⟩ := System.ends_alone false slot (wrap slot).locks fun L rest => stackOf_ne wrap L rest d.frames
      rw [← hends] at hfs
      exact ⟨es ++ fs, hes.append hfs⟩

end Conduit.Locking
