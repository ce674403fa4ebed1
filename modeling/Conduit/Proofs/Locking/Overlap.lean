/-
Slots that share a lock do not overlap, whatever turns threads take. A call that has begun on some stack is
under way (`Underway`) until the stack is as it was; then it is over, with a return or with a panic, and
whatever was acquired in between has been released.
-/
import Conduit.Proofs.Locking.Calls

namespace Conduit.Locking

/-! ## Calls under way -/

/-- The guards of locks that were acquired in this order. -/
def guardsOf (locks : List LockId) : List Activity := locks.reverse.map .guard

theorem guardsOf_snoc (locks : List LockId) (L : LockId) : guardsOf (locks ++ [L]) = .guard L :: guardsOf locks := by
  simp [guardsOf]

/-- A thread to which a call of the slot, which began on the stack `base`, is not over. -/
inductive Underway (slot : Wrapped) (base : List Activity) : Thread → Prop
  | entering {passed : List LockId} {inner : Wrapped} (hlocks : slot.locks = passed ++ inner.locks)
    (hbody : inner.body = slot.body) : Underway slot base ⟨guardsOf passed ++ base, .entering inner⟩
  /-- Its body is at work, with what that has called above it. -/
  | inside (above : List Activity) (focus : Focus) :
    Underway slot base ⟨above ++ .body slot.body :: (guardsOf slot.locks ++ base), focus⟩
  | leaving {left : List LockId} {L : LockId} (hleft : left ++ [L] <+: slot.locks) (panicked : Bool) :
    Underway slot base ⟨guardsOf (left ++ [L]) ++ base, .leaving panicked⟩

/-- A thread to which a call that began on the stack `base` is over. -/
def Over (base : List Activity) (th : Thread) : Prop := ∃ panicked, th = ⟨base, .leaving panicked⟩

variable {slot : Wrapped} {base stack : List Activity}

theorem underway_begun : Underway slot base ⟨base, .entering slot⟩ :=
  @Underway.entering slot base [] slot rfl rfl

/-- The body of a call has ended, and the guards are left. -/
theorem underway_or_over : ∀ {left : List LockId}, left <+: slot.locks → ∀ panicked,
    Underway slot base ⟨guardsOf left ++ base, .leaving panicked⟩ ∨
      Over base ⟨guardsOf left ++ base, .leaving panicked⟩ := by
  intro left hleft panicked
  rcases List.eq_nil_or_concat left with rfl | ⟨rest, L, rfl⟩
  · exact .inr ⟨panicked, rfl⟩
  · rw [List.concat_eq_append] at hleft ⊢
    exact .inl (.leaving hleft panicked)

/-- What comes off the stack is the body of the call itself, or that of one above it. -/
theorem underway_or_over_of_body {above rest : List Activity} {top : Slot}
    (h : above ++ .body slot.body :: (guardsOf slot.locks ++ base) = .body top :: rest) (panicked : Bool) :
    Underway slot base ⟨rest, .leaving panicked⟩ ∨ Over base ⟨rest, .leaving panicked⟩ := by
  cases above with
  | nil =>
    cases h
    exact underway_or_over (List.prefix_refl _) panicked
  | cons a above =>
    cases h
    exact .inl (.inside above _)

namespace System

variable {s u v c d : System} {t x : ThreadId} {L : LockId} {e : Event} {es : List (ThreadId × Event)}

/-- A call that acquires its locks goes on with the next one, or its body begins. -/
theorem Step.underway_entering {passed : List LockId} {inner : Wrapped} (h : Step s t e u)
    (hth : s.threads t = ⟨guardsOf passed ++ base, .entering inner⟩) (hlocks : slot.locks = passed ++ inner.locks)
    (hbody : inner.body = slot.body) : Underway slot base (u.threads t) := by
  cases h with
  | acquire ht hl =>
    rw [hth] at ht
    cases ht
    rw [threads_go, if_pos rfl, ← List.cons_append, ← guardsOf_snoc]
    exact .entering (by rw [hlocks, List.append_assoc]; rfl) hbody
  | enter ht =>
    rw [hth] at ht
    cases ht
    rw [threads_go, if_pos rfl]
    -- No lock is left to be acquired, so the body is entered under all of them.
    have hall : slot.locks = passed := by rw [hlocks]; exact List.append_nil _
    have hinside : Underway slot base _ := .inside [] .working
    rw [hall, ← hbody] at hinside
    exact hinside
  | call ht _ | leave ht _ | release ht | resume ht _ | pass ht =>
    rw [hth] at ht
    have hfocus := congrArg Thread.focus ht
    cases hfocus

/-- A call whose body is at work goes on above it, until the body ends. -/
theorem Step.underway_inside {above : List Activity} {focus : Focus} (h : Step s t e u)
    (hth : s.threads t = ⟨above ++ .body slot.body :: (guardsOf slot.locks ++ base), focus⟩) :
    Underway slot base (u.threads t) ∨ Over base (u.threads t) := by
  cases h with
  | call ht called =>
    rw [hth] at ht
    cases ht
    rw [threads_go, if_pos rfl]
    exact .inl (.inside above _)
  | acquire ht hl =>
    rw [hth] at ht
    cases ht
    rw [threads_go, if_pos rfl]
    exact .inl (.inside (.guard _ :: above) _)
  | enter ht =>
    rw [hth] at ht
    cases ht
    rw [threads_go, if_pos rfl]
    exact .inl (.inside (.body _ :: above) _)
  | leave ht panicked =>
    rw [hth] at ht
    rw [threads_go, if_pos rfl]
    exact underway_or_over_of_body (congrArg Thread.stack ht) panicked
  | release ht =>
    rw [hth] at ht
    rw [threads_go, if_pos rfl]
    -- A guard on top is none of the call's own: those lie below its body.
    cases above with
    | nil => cases ht
    | cons a above =>
      cases ht
      exact .inl (.inside above _)
  | resume ht hover =>
    rw [hth] at ht
    cases ht
    rw [threads_go, if_pos rfl]
    exact .inl (.inside above _)
  | pass ht =>
    rw [hth] at ht
    rw [threads_go, if_pos rfl]
    exact underway_or_over_of_body (congrArg Thread.stack ht) true

/-- A call that is going back gives back its guards one after the other. -/
theorem Step.underway_leaving {left : List LockId} {panicked : Bool} (h : Step s t e u)
    (hth : s.threads t = ⟨guardsOf (left ++ [L]) ++ base, .leaving panicked⟩) (hleft : left ++ [L] <+: slot.locks) :
    Underway slot base (u.threads t) ∨ Over base (u.threads t) := by
  rw [guardsOf_snoc, List.cons_append] at hth
  cases h with
  | release ht =>
    rw [hth] at ht
    cases ht
    rw [threads_go, if_pos rfl]
    exact underway_or_over ((List.prefix_append left [L]).trans hleft) panicked
  | resume ht hover =>
    rw [hth] at ht
    cases ht
    exact absurd rfl (hover _ _)
  | call ht _ | acquire ht _ | enter ht | leave ht _ | pass ht =>
    rw [hth] at ht
    cases ht

/-- A turn that the thread `t` takes itself leaves a call of it under way, or it is over then. -/
theorem Step.underway_self (h : Step s t e u) (hs : Underway slot base (s.threads t)) :
    Underway slot base (u.threads t) ∨ Over base (u.threads t) := by
  generalize hth : s.threads t = th at hs
  cases hs with
  | entering hlocks hbody => exact .inl (h.underway_entering hth hlocks hbody)
  | inside above focus => exact h.underway_inside hth
  | leaving hleft panicked => exact h.underway_leaving hth hleft

theorem Step.threads_of_ne (h : Step s x e u) (hx : t ≠ x) : u.threads t = s.threads t := by
  cases h with
  | acquire _ _ | release _ => rw [threads_go, if_neg hx, threads_setLock]
  | _ => rw [threads_go, if_neg hx]

/-- A turn leaves a call under way, or it is over then. -/
theorem Step.underway (h : Step s x e u) (hs : Underway slot base (s.threads t)) :
    Underway slot base (u.threads t) ∨ Over base (u.threads t) := by
  by_cases hx : t = x
  · subst hx
    exact h.underway_self hs
  · rw [h.threads_of_ne hx]
    exact .inl hs

/-- A call under way stays so, unless it is over at some time. -/
theorem Run.underway (h : Run s es u) (hs : Underway slot base (s.threads t)) :
    Underway slot base (u.threads t) ∨
      ∃ v fs gs, es = fs ++ gs ∧ Run s fs v ∧ Run v gs u ∧ Over base (v.threads t) := by
  induction h with
  | nil => exact .inl hs
  | @cons s u v x e es hstep hr ih =>
    rcases hstep.underway hs with hunder | hover
    · rcases ih hunder with hunder | ⟨w, fs, gs, rfl, hfs, hgs, hover⟩
      · exact .inl hunder
      · exact .inr ⟨w, (x, e) :: fs, gs, rfl, .cons hstep hfs, hgs, hover⟩
    · exact .inr ⟨u, [(x, e)], es, rfl, .cons hstep .nil, hr, hover⟩

/-! ## What is acquired and released -/

/-- A turn makes a guard when it acquires a lock, and unmakes one when it releases it. -/
theorem Step.balance (h : Step s x e u) (L : LockId) (t : ThreadId) :
    u.guards L t + [(x, e)].count (t, .release L) = s.guards L t + [(x, e)].count (t, .acquire L) := by
  have hother : ∀ f, f ≠ e → [(x, e)].count (t, f) = 0 := by
    intro f hf
    simp [Ne.symm hf]
  -- Acquiring and releasing change the guards of one thread by one, and nothing else changes any.
  cases h with
  | call ht called => rw [guards_same (by rw [ht]), hother (.release L) nofun, hother (.acquire L) nofun]
  | enter ht => rw [guards_same (by rw [ht, count_body]), hother (.release L) nofun, hother (.acquire L) nofun]
  | leave ht panicked => rw [guards_same (by rw [ht, count_body]), hother (.release L) nofun, hother (.acquire L) nofun]
  | resume ht hover => rw [guards_same (by rw [ht]), hother (.release L) nofun, hother (.acquire L) nofun]
  | pass ht => rw [guards_same (by rw [ht, count_body]), hother (.release L) nofun, hother (.acquire L) nofun]
  | @acquire stack lock inner ht hl =>
    have hown : [(x, Event.acquire lock)].count (t, .acquire L) = if t = x ∧ L = lock then 1 else 0 := by
      simp only [List.count_singleton, beq_iff_eq, Prod.mk.injEq, Event.acquire.injEq,
        @eq_comm _ x t, @eq_comm _ lock L]
    rw [hother (.release L) nofun, guards_acquire (by rw [ht]), hown, Nat.add_zero]
  | @release lock rest panicked ht =>
    have hown : [(x, Event.release lock)].count (t, .release L) = if t = x ∧ L = lock then 1 else 0 := by
      simp only [List.count_singleton, beq_iff_eq, Prod.mk.injEq, Event.release.injEq,
        @eq_comm _ x t, @eq_comm _ lock L]
    have hstack : (s.threads x).stack = .guard lock :: rest := by rw [ht]
    rw [hother (.acquire L) nofun, hown, guards_release hstack, Nat.add_zero]

/-- The guards that are left of a run are those of locks that were acquired and not released. -/
theorem Run.balance (h : Run s es u) (L : LockId) (t : ThreadId) :
    u.guards L t + es.count (t, .release L) = s.guards L t + es.count (t, .acquire L) := by
  induction h with
  | nil => rfl
  | @cons s u v x e es hstep _ ih =>
    have hfirst := hstep.balance L t
    have hsplit : ∀ f, ((x, e) :: es).count (t, f) = [(x, e)].count (t, f) + es.count (t, f) := by
      intro f
      rw [← List.count_append, List.singleton_append]
    rw [hsplit, hsplit]
    omega

/-! ## Slots at work -/

/-- The slot is at work in a thread, under a call that has a guard of the lock. -/
def Under (s : System) (L : LockId) (t : ThreadId) (slot : Slot) : Prop :=
  ∃ above below, (s.threads t).stack = above ++ below ∧ .body slot ∈ above ∧ .guard L ∈ below

/-- The body of a slot that was called with its locks is at work in a thread. -/
def Inside (s : System) (t : ThreadId) (slot : Wrapped) : Prop :=
  ∃ above below, (s.threads t).stack = above ++ .body slot.body :: (guardsOf slot.locks ++ below)

theorem Under.guard {slot : Slot} (h : s.Under L t slot) : .guard L ∈ (s.threads t).stack := by
  obtain ⟨above, below, hstack, -, hguard⟩ := h
  rw [hstack]
  exact List.mem_append_right _ hguard

theorem Inside.under (h : s.Inside t slot) (hL : L ∈ slot.locks) : s.Under L t slot.body := by
  obtain ⟨above, below, hstack⟩ := h
  refine ⟨above ++ [.body slot.body], guardsOf slot.locks ++ below, ?_, ?_, ?_⟩
  · rw [hstack]
    simp
  · simp
  · apply List.mem_append_left
    exact List.mem_map_of_mem (List.mem_reverse.2 hL)

/-- The depth of a lock is the number of guards that its owner has. -/
theorem Sound.depth (hs : Sound s) (howner : (s.locks L).owner = some t) : (s.locks L).depth = s.guards L t := by
  have hheld := hs.held L t
  rwa [Lock.heldBy, if_pos howner] at hheld

/-- A thread that has a guard of a lock owns that. -/
theorem Sound.owner_iff (hs : Sound s) : (s.locks L).owner = some t ↔ .guard L ∈ (s.threads t).stack := by
  constructor
  · intro howner
    apply List.count_pos_iff.1
    show 0 < s.guards L t
    rw [← hs.depth howner]
    apply Nat.pos_of_ne_zero
    intro hzero
    rw [(hs.tidy L).2 hzero] at howner
    cases howner
  · exact fun hg => (hs.owner_of_guard hg).1

theorem Sound.unique (hs : Sound s) (ht : .guard L ∈ (s.threads t).stack) (hx : .guard L ∈ (s.threads x).stack) :
    t = x := by
  have howner := hs.owner_iff.2 ht
  rw [hs.owner_iff.2 hx] at howner
  exact (Option.some.inj howner).symm

theorem Sound.free (hs : Sound s) (hL : ∀ t, .guard L ∉ (s.threads t).stack) : s.locks L = {} := by
  have howner : (s.locks L).owner = none := by
    rw [Option.eq_none_iff_forall_ne_some]
    intro t ht
    exact hL t (hs.owner_iff.1 ht)
  have hdepth := (hs.tidy L).1 howner
  rcases hl : s.locks L with ⟨owner, depth⟩
  rw [hl] at howner hdepth
  cases howner
  cases hdepth
  rfl

/-! ## Every history -/

/-- From `c` on, through the turns `es`, a call of the thread `t` comes to its end in `e`. -/
structure Ended (t : ThreadId) (c : System) (es : List (ThreadId × Event)) (e : System) : Prop where
  run : Run c es e
  back : Over (c.threads t).stack (e.threads t)
  /-- The thread has each lock as often as before. -/
  held : ∀ L, (e.locks L).heldBy t = (c.locks L).heldBy t
  /-- It has released what it acquired, as often. -/
  released : ∀ L, es.count (t, .release L) = es.count (t, .acquire L)

/-- What can be relied on when things have come to `d`. -/
structure Exclusive (d : System) : Prop where
  /-- All slots at work under a lock are in one thread. -/
  one : ∀ L t u x y, d.Under L t x → d.Under L u y → t = u
  /-- So are the bodies of slots that share a lock. -/
  apart : ∀ L t u x y, L ∈ x.locks → L ∈ y.locks → d.Inside t x → d.Inside u y → t = u
  owner : ∀ L t, (d.locks L).owner = some t ↔ .guard L ∈ (d.threads t).stack
  /-- The depth of a lock is the number of its guards on the stack of its owner. -/
  depth : ∀ L t, (d.locks L).owner = some t → (d.locks L).depth = d.guards L t
  free : ∀ L, (∀ t, .guard L ∉ (d.threads t).stack) → d.locks L = {}
  /-- Every call that has begun is under way, or has ended in the meantime. -/
  calls : ∀ c fs gs t slot, Run {} fs c → Run c gs d → (c.threads t).focus = .entering slot →
    Underway slot (c.threads t).stack (d.threads t) ∨
      ∃ e hs ks, gs = hs ++ ks ∧ Ended t c hs e ∧ Run e ks d

theorem Run.ended (hs : Sound s) (h : Run s es u) (hover : Over (s.threads t).stack (u.threads t)) :
    Ended t s es u where
  run := h
  back := hover
  held L := by
    obtain ⟨panicked, hu⟩ := hover
    rw [(h.sound hs).held, hs.held, guards, guards, hu]
  released L := by
    obtain ⟨panicked, hu⟩ := hover
    have hbalance := h.balance L t
    rw [guards, guards, hu] at hbalance
    dsimp only at hbalance
    omega

/-- So it is in every history of any threads. -/
theorem slots_exclusive (h : Run {} es d) : Exclusive d := by
  have hd := h.sound sound_start
  constructor
  · intro L t u x y ht hu
    exact hd.unique ht.guard hu.guard
  · intro L t u x y hx hy ht hu
    exact hd.unique (ht.under hx).guard (hu.under hy).guard
  · intro L t
    exact hd.owner_iff
  · intro L t howner
    exact hd.depth howner
  · intro L hL
    exact hd.free hL
  · intro c fs gs t slot hfs hgs hfocus
    have hc := hfs.sound sound_start
    -- The call begins on the stack that is there, and from then on it is under way or over.
    have hbegun : Underway slot (c.threads t).stack (c.threads t) := by
      have hentering : c.threads t = ⟨(c.threads t).stack, .entering slot⟩ := by rw [← hfocus]
      rw [hentering]
      exact underway_begun
    rcases hgs.underway hbegun with hunder | ⟨e, hs, ks, rfl, hrun, hrest, hover⟩
    · exact .inl hunder
    · exact .inr ⟨e, hs, ks, rfl, hrun.ended hc hover, hrest⟩

/-! ## A history that is written out -/

/-- Two inputs of one component, which share a lock. -/
def inputs : Channel × Channel :=
  ({ owner := 0, position := 0, payload := .int, role := .input true },
    { owner := 0, position := 1, payload := .int, role := .input true })

/-- A handler calls that of the other input, which panics, while another thread calls the first as well. -/
def shared : List (ThreadId × Event) :=
  [(0, .call (inputs.1.wrapped 5)), (0, .acquire 5), (0, .enter), (1, .call (inputs.1.wrapped 5)),
    (0, .call (inputs.2.wrapped 5)), (0, .acquire 5), (0, .enter)]

/-- For instance the first thread has the lock twice while both handlers are at work, and once when the one
that it called has panicked; the other thread goes on waiting. -/
theorem slots_exclusive_shared : ∃ c d, Run {} shared c ∧ Exclusive c ∧ c.locks 5 = ⟨some 0, 2⟩ ∧
    c.Inside 0 (inputs.1.wrapped 5) ∧ c.Inside 0 (inputs.2.wrapped 5) ∧
    Run c [(0, .leave true), (0, .release 5)] d ∧ Exclusive d ∧ d.locks 5 = ⟨some 0, 1⟩ ∧
    d.threads 0 = ⟨[.body (.handler 0 0), .guard 5], .leaving true⟩ ∧
    d.threads 1 = ⟨[], .entering (inputs.1.wrapped 5)⟩ := by
  obtain ⟨c, hc, hstack, hlock, hlater⟩ : ∃ c, Run {} shared c ∧
      (c.threads 0).stack = [.body (.handler 0 1), .guard 5, .body (.handler 0 0), .guard 5] ∧
      c.locks 5 = ⟨some 0, 2⟩ ∧ ∃ d, Run c [(0, .leave true), (0, .release 5)] d ∧ d.locks 5 = ⟨some 0, 1⟩ ∧
      d.threads 0 = ⟨[.body (.handler 0 0), .guard 5], .leaving true⟩ ∧
      d.threads 1 = ⟨[], .entering (inputs.1.wrapped 5)⟩ :=
    ⟨_, .cons (.call rfl _) <| .cons (.acquire rfl (.inl rfl)) <| .cons (.enter rfl) <|
      .cons (.call rfl _) <| .cons (.call rfl _) <| .cons (.acquire rfl (.inr rfl)) <| .cons (.enter rfl) .nil,
      rfl, rfl, _, .cons (.leave rfl true) <| .cons (.release rfl) .nil, rfl, rfl, rfl⟩
  obtain ⟨d, hd, hrest⟩ := hlater
  exact ⟨c, d, hc, slots_exclusive hc, hlock, ⟨[.body (.handler 0 1), .guard 5], [], hstack⟩,
    ⟨[], [.body (.handler 0 0), .guard 5], hstack⟩, hd, slots_exclusive (hc.append hd), hrest⟩

end System

end Conduit.Locking
