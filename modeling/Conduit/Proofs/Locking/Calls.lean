/-
Threads that call slots, in turns of any order. A slot may be wrapped into locks, any number of times, by
itself or together with others; what it does is not told, so at any point it may call slots, return or panic.
Every turn is one thing that one thread does.

Of a lock this is assumed: it is acquired by a thread only if it is free or that thread owns it already, it
counts how often it has been acquired, and a guard gives it back once when the call that acquired it is over,
be it with a return or with a panic.
-/
import Conduit.Wiring.World
import Mathlib.Tactic

namespace Conduit.Locking

abbrev ThreadId := Nat
abbrev LockId := Nat

/-! ## Slots -/

/-- A slot within the locks that it was wrapped into, the last one outermost. A slot that is synchronized is
wrapped into a lock of its own. -/
inductive Wrapped
  | plain (slot : Slot)
  | guarded (lock : LockId) (inner : Wrapped)
  deriving DecidableEq

namespace Wrapped

/-- The locks that a call acquires, in this order. -/
def locks : Wrapped → List LockId
  | plain _ => []
  | guarded lock inner => lock :: inner.locks

/-- What runs when they are acquired. -/
def body : Wrapped → Slot
  | plain slot => slot
  | guarded _ inner => inner.body

end Wrapped

end Locking

/-- The slot of an input, which is wrapped into the lock of the input if that has one. Inputs may share one. -/
def Channel.wrapped (c : Channel) (lock : Locking.LockId) : Locking.Wrapped :=
  if c.isSynchronized then .guarded lock (.plain c.slot) else .plain c.slot

namespace Locking

/-! ## Locks -/

/-- A lock, with its owner and how often that has it. -/
structure Lock where
  owner : Option ThreadId := none
  depth : Nat := 0
  deriving DecidableEq

namespace Lock

/-- The thread can acquire the lock. -/
def Admits (l : Lock) (t : ThreadId) : Prop := l.owner = none ∨ l.owner = some t

def acquire (l : Lock) (t : ThreadId) : Lock := ⟨some t, l.depth + 1⟩

def release (l : Lock) : Lock := if l.depth ≤ 1 then {} else { l with depth := l.depth - 1 }

/-- How often a thread has the lock. -/
def heldBy (l : Lock) (t : ThreadId) : Nat := if l.owner = some t then l.depth else 0

/-- A lock that is owned is had by its owner, and one that is free by nobody. -/
def Tidy (l : Lock) : Prop := l.owner = none ↔ l.depth = 0

variable {l : Lock} {t u : ThreadId}

theorem tidy_acquire : (l.acquire t).Tidy := by
  constructor
  · exact nofun
  · intro h
    cases h

theorem tidy_release (hl : l.Tidy) : l.release.Tidy := by
  unfold release
  split
  · exact ⟨fun _ => rfl, fun _ => rfl⟩
  · rename_i hdepth
    constructor
    · intro h
      have := hl.1 h
      omega
    · intro h
      have hzero : l.depth - 1 = 0 := h
      omega

theorem heldBy_acquire (hl : l.Tidy) (ha : l.Admits t) (u : ThreadId) :
    (l.acquire t).heldBy u = l.heldBy u + if u = t then 1 else 0 := by
  unfold heldBy acquire
  rcases ha with ha | ha
  · rw [ha, hl.1 ha]
    by_cases hu : u = t
    · simp [hu]
    · simp [hu, Ne.symm hu]
  · rw [ha]
    by_cases hu : u = t
    · simp [hu]
    · simp [hu, Ne.symm hu]

theorem heldBy_release (ho : l.owner = some t) (hd : 0 < l.depth) (u : ThreadId) :
    l.release.heldBy u + (if u = t then 1 else 0) = l.heldBy u := by
  unfold heldBy release
  rw [ho]
  by_cases hu : u = t
  · subst hu
    split
    · simp
      omega
    · simp
      omega
  · split
    · simp [Ne.symm hu]
    · simp [Ne.symm hu]

end Lock

/-! ## Threads -/

/-- Something on the stack of a thread. -/
inductive Activity
  /-- A call has acquired the lock, and has its guard. -/
  | guard (lock : LockId)
  /-- A slot is at work, or waits for what it has called. -/
  | body (slot : Slot)
  deriving DecidableEq

/-- What a thread does next. -/
inductive Focus
  /-- The slot on top of the stack goes on, or, under all calls, the thread. -/
  | working
  /-- A slot is called; it has to acquire the locks that are left, and then its body runs. -/
  | entering (slot : Wrapped)
  /-- A call goes back to where it came from, with a panic or without. -/
  | leaving (panicked : Bool)
  deriving DecidableEq

/-- A thread; what began last is on top of its stack. -/
structure Thread where
  stack : List Activity := []
  focus : Focus := .working
  deriving DecidableEq

/-- Any number of threads and locks. In the beginning all threads are without calls, and all locks free. -/
structure System where
  threads : ThreadId → Thread := fun _ => {}
  locks : LockId → Lock := fun _ => {}

/-- What threads do. -/
inductive Event
  | call (slot : Wrapped)
  | acquire (lock : LockId)
  | enter
  | leave (panicked : Bool)
  | release (lock : LockId)
  | resume
  | pass
  deriving DecidableEq

namespace System

/-- One thread goes on. -/
def go (s : System) (t : ThreadId) (stack : List Activity) (focus : Focus) : System :=
  { s with threads := Function.update s.threads t ⟨stack, focus⟩ }

/-- A lock changes. -/
def setLock (s : System) (lock : LockId) (l : Lock) : System := { s with locks := Function.update s.locks lock l }

/-- One turn of the thread `t`. -/
inductive Step (s : System) (t : ThreadId) : Event → System → Prop
  /-- Any slot is called, by a slot at work or by the thread itself. -/
  | call {stack : List Activity} (ht : s.threads t = ⟨stack, .working⟩) (slot : Wrapped) :
    Step s t (.call slot) (s.go t stack (.entering slot))
  | acquire {stack : List Activity} {lock : LockId} {inner : Wrapped}
    (ht : s.threads t = ⟨stack, .entering (.guarded lock inner)⟩) (hl : (s.locks lock).Admits t) :
    Step s t (.acquire lock) ((s.setLock lock ((s.locks lock).acquire t)).go t (.guard lock :: stack) (.entering inner))
  | enter {stack : List Activity} {slot : Slot} (ht : s.threads t = ⟨stack, .entering (.plain slot)⟩) :
    Step s t .enter (s.go t (.body slot :: stack) .working)
  /-- A slot at work returns or panics. -/
  | leave {slot : Slot} {rest : List Activity} (ht : s.threads t = ⟨.body slot :: rest, .working⟩) (panicked : Bool) :
    Step s t (.leave panicked) (s.go t rest (.leaving panicked))
  | release {lock : LockId} {rest : List Activity} {panicked : Bool}
    (ht : s.threads t = ⟨.guard lock :: rest, .leaving panicked⟩) :
    Step s t (.release lock) ((s.setLock lock (s.locks lock).release).go t rest (.leaving panicked))
  /-- A call is over, and the caller goes on; if there was a panic, it catches that. -/
  | resume {stack : List Activity} {panicked : Bool} (ht : s.threads t = ⟨stack, .leaving panicked⟩)
    (hover : ∀ lock rest, stack ≠ .guard lock :: rest) : Step s t .resume (s.go t stack .working)
  /-- A panic goes through the slot that has made the call. -/
  | pass {slot : Slot} {rest : List Activity} (ht : s.threads t = ⟨.body slot :: rest, .leaving true⟩) :
    Step s t .pass (s.go t rest (.leaving true))

/-- Turns in a row, each with its thread. -/
inductive Run : System → List (ThreadId × Event) → System → Prop
  | nil {s : System} : Run s [] s
  | cons {s u v : System} {t : ThreadId} {e : Event} {es : List (ThreadId × Event)} (h : Step s t e u)
      (hr : Run u es v) :
    Run s ((t, e) :: es) v

variable {s u v : System} {t x : ThreadId} {L lock : LockId} {es es' : List (ThreadId × Event)}

theorem Run.append (h : Run s es u) (h' : Run u es' v) : Run s (es ++ es') v := by
  induction h with
  | nil => exact h'
  | cons hstep _ ih => exact .cons hstep (ih h')

@[simp] theorem threads_go (s : System) (t : ThreadId) (stack : List Activity) (focus : Focus) (x : ThreadId) :
    (s.go t stack focus).threads x = if x = t then ⟨stack, focus⟩ else s.threads x :=
  Function.update_apply ..

@[simp] theorem locks_go (s : System) (t : ThreadId) (stack : List Activity) (focus : Focus) :
    (s.go t stack focus).locks = s.locks := rfl

@[simp] theorem threads_setLock (s : System) (lock : LockId) (l : Lock) : (s.setLock lock l).threads = s.threads := rfl

@[simp] theorem locks_setLock (s : System) (lock : LockId) (l : Lock) (L : LockId) :
    (s.setLock lock l).locks L = if L = lock then l else s.locks L :=
  Function.update_apply ..

/-! ## Locks and stacks -/

/-- How many guards of the lock a thread has. -/
def guards (s : System) (L : LockId) (t : ThreadId) : Nat := (s.threads t).stack.count (.guard L)

theorem count_body (L : LockId) (slot : Slot) (stack : List Activity) :
    (.body slot :: stack).count (.guard L) = stack.count (.guard L) :=
  List.count_cons_of_ne (fun he => Activity.noConfusion he)

theorem count_guard (L lock : LockId) (stack : List Activity) :
    (.guard lock :: stack).count (.guard L) = stack.count (.guard L) + if L = lock then 1 else 0 := by
  by_cases hL : L = lock
  · simp [hL]
  · simp [hL, Ne.symm hL]

theorem guards_go (s : System) (t : ThreadId) (stack : List Activity) (focus : Focus) (L : LockId) (x : ThreadId) :
    (s.go t stack focus).guards L x = if x = t then stack.count (.guard L) else s.guards L x := by
  rw [guards, threads_go]
  split <;> rfl

@[simp] theorem guards_setLock (s : System) (lock : LockId) (l : Lock) : (s.setLock lock l).guards = s.guards := rfl

section

variable {stack rest : List Activity} {focus : Focus} {l : Lock}

theorem guards_same (hstack : stack.count (.guard L) = (s.threads t).stack.count (.guard L)) :
    (s.go t stack focus).guards L x = s.guards L x := by
  rw [guards_go]
  split
  · rename_i hx
    rw [hx, hstack, guards]
  · rfl

theorem guards_acquire (hstack : (s.threads t).stack = stack) :
    ((s.setLock lock l).go t (.guard lock :: stack) focus).guards L x =
      s.guards L x + if x = t ∧ L = lock then 1 else 0 := by
  rw [guards_go, guards_setLock]
  by_cases hx : x = t
  · subst hx
    rw [if_pos rfl, count_guard, guards, hstack]
    simp only [true_and]
  · rw [if_neg hx, if_neg (fun h => hx h.1), Nat.add_zero]

theorem guards_release (hstack : (s.threads t).stack = .guard lock :: rest) :
    ((s.setLock lock l).go t rest focus).guards L x + (if x = t ∧ L = lock then 1 else 0) = s.guards L x := by
  rw [guards_go, guards_setLock]
  by_cases hx : x = t
  · subst hx
    rw [if_pos rfl, guards, hstack, count_guard]
    simp only [true_and]
  · rw [if_neg hx, if_neg (fun h => hx h.1), Nat.add_zero]

end

/-- Threads have locks as often as they have guards. -/
structure Sound (s : System) : Prop where
  tidy : ∀ L, (s.locks L).Tidy
  held : ∀ L t, (s.locks L).heldBy t = s.guards L t

theorem sound_start : Sound {} := ⟨fun _ => ⟨fun _ => rfl, fun _ => rfl⟩, fun _ _ => rfl⟩

/-- A turn that leaves locks alone, and guards on the stack. -/
theorem Sound.go (hs : Sound s) {stack : List Activity} {focus : Focus}
    (hstack : ∀ L, stack.count (.guard L) = (s.threads t).stack.count (.guard L)) : Sound (s.go t stack focus) where
  tidy := hs.tidy
  held L x := by rw [locks_go, hs.held, guards_same (hstack L)]

theorem Sound.owner_of_guard (hs : Sound s) (hg : .guard L ∈ (s.threads t).stack) :
    (s.locks L).owner = some t ∧ 0 < (s.locks L).depth := by
  have hpos : 0 < (s.locks L).heldBy t := by
    rw [hs.held]
    exact List.count_pos_iff.2 hg
  unfold Lock.heldBy at hpos
  split at hpos
  · rename_i howner
    exact ⟨howner, hpos⟩
  · cases hpos

theorem Sound.acquire (hs : Sound s) {stack : List Activity} {focus : Focus} (hstack : (s.threads t).stack = stack)
    (hl : (s.locks lock).Admits t) :
    Sound ((s.setLock lock ((s.locks lock).acquire t)).go t (.guard lock :: stack) focus) where
  tidy L := by
    rw [locks_go, locks_setLock]
    split
    · exact Lock.tidy_acquire
    · exact hs.tidy L
  held L x := by
    rw [locks_go, locks_setLock, guards_acquire hstack, ← hs.held L x]
    by_cases hL : L = lock
    · subst hL
      rw [if_pos rfl, Lock.heldBy_acquire (hs.tidy L) hl]
      simp only [and_true]
    · rw [if_neg hL, if_neg (fun h => hL h.2), Nat.add_zero]

theorem Sound.release (hs : Sound s) {rest : List Activity} {focus : Focus}
    (hstack : (s.threads t).stack = .guard lock :: rest) :
    Sound ((s.setLock lock (s.locks lock).release).go t rest focus) where
  tidy L := by
    rw [locks_go, locks_setLock]
    split
    · exact Lock.tidy_release (hs.tidy lock)
    · exact hs.tidy L
  held L x := by
    have hguards : ((s.setLock lock (s.locks lock).release).go t rest focus).guards L x +
        (if x = t ∧ L = lock then 1 else 0) = s.guards L x := guards_release hstack
    have hold := hs.held L x
    rw [locks_go, locks_setLock]
    by_cases hL : L = lock
    · subst hL
      -- The guard on top says that the thread owns the lock, so it is this thread that has one guard less.
      have hmem : .guard L ∈ (s.threads t).stack := hstack ▸ List.mem_cons_self ..
      obtain ⟨howner, hpos⟩ := hs.owner_of_guard hmem
      have hreleased := Lock.heldBy_release howner hpos x
      simp only [and_true] at hguards
      rw [if_pos rfl]
      omega
    · rw [if_neg (fun h => hL h.2), Nat.add_zero] at hguards
      rw [if_neg hL, hold, hguards]

theorem Step.sound {e : Event} (h : Step s t e u) (hs : Sound s) : Sound u := by
  cases h with
  | call ht slot => exact hs.go fun _ => by rw [ht]
  | acquire ht hl => exact hs.acquire (by rw [ht]) hl
  | enter ht => exact hs.go fun L => by rw [ht, count_body]
  | leave ht panicked => exact hs.go fun L => by rw [ht, count_body]
  | release ht => exact hs.release (by rw [ht])
  | resume ht hover => exact hs.go fun _ => by rw [ht]
  | pass ht => exact hs.go fun L => by rw [ht, count_body]

theorem Run.sound (h : Run s es u) (hs : Sound s) : Sound u := by
  induction h with
  | nil => exact hs
  | cons hstep _ ih => exact ih (hstep.sound hs)

end System

end Locking

end Conduit
