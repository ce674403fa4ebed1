/-
When mutexes are held. A thread holds the mutexes of those sections that are not over, and a section that is over
has released its own before anything foreign can begin, an `add` apart whose handle is one too many: if that was
its last reference, it is destroyed while the registry is still locked.
-/
import Conduit.Proofs.Locking.Mutexes

namespace Conduit.Locking

namespace Machine

variable {s u v : Machine} {seen : List Machine} {choice : Choice} {r : RegistryRef} {m : Mutex} {t : Task}

/-! ## Histories -/

/-- What a thread has gone through since its beginning, and where it is now. -/
inductive Course : List Machine → Machine → Prop
  | start : Course [] {}
  | turn {seen : List Machine} {s u : Machine} (h : Course seen s) (choice : Choice) (ht : s.turn choice = some u) :
    Course (seen ++ [s]) u

theorem Course.play : ∀ {choices : List Choice} {seen : List Machine} {s u : Machine}, Course seen s →
    s.play choices = some u → ∃ more, Course (seen ++ more) u
  | [], seen, s, u, h, hu => by
    cases hu
    exact ⟨[], by simpa using h⟩
  | choice :: choices, seen, s, u, h, hu => by
    obtain ⟨v, hv, hu⟩ := Option.bind_eq_some_iff.1 hu
    obtain ⟨more, hmore⟩ := (h.turn choice hv).play hu
    exact ⟨s :: more, by simpa using hmore⟩

/-- Foreign code is at work, a slot is called or let go, or a handle is closed or destroyed. -/
def Exposed (s : Machine) : Prop := s.tasks.head?.any Task.exposes = true

instance : Decidable s.Exposed := inferInstanceAs (Decidable (_ = true))

/-- The mutex that is to be acquired next. -/
def awaits? (s : Machine) : Option Mutex :=
  match s.tasks with
  | .enter c :: _ => some c.mutex
  | _ => none

/-- A registry adds a handle and lists its number already, and there is no other reference to the handle. -/
def Discards (s : Machine) (r : RegistryRef) : Prop :=
  ∃ h rest, s.tasks = .inside (.insert r h) :: rest ∧ (s.registry r).has (s.world.handleId h) = true ∧
    { s with tasks := rest }.isHeld h = false

/-! ## What a turn adds -/

/-- The mutexes that tasks hold. -/
def owed (tasks : List Task) : List Mutex := tasks.filterMap Task.owes

@[simp] theorem owed_nil : owed [] = [] := rfl

theorem owed_cons (t : Task) (tasks : List Task) : owed (t :: tasks) = t.owes.toList ++ owed tasks := by
  unfold owed
  rw [List.filterMap_cons]
  cases t.owes <;> rfl

@[simp] theorem owed_append (tasks rest : List Task) : owed (tasks ++ rest) = owed tasks ++ owed rest :=
  List.filterMap_append ..

/-- There are more tasks, and none of them holds a mutex. -/
structure Adds (s u : Machine) : Prop where
  held : u.held = s.held
  tasks : ∃ more, u.tasks = more ++ s.tasks ∧ owed more = []

section

variable {world : World} {registries : List (Registry Handle)} {signals : List (Signal Slot)} {kept : List Ref}

theorem Adds.of_push {more : List Task} (hmore : owed more = []) :
    Adds s ({ s with world, registries, signals, kept }.push more) := ⟨rfl, more, rfl, hmore⟩

theorem Adds.of_same : Adds s { s with world, registries, signals, kept } := ⟨rfl, [], rfl, rfl⟩

end

theorem owed_map {α : Type} {f : α → Task} (hf : ∀ a, (f a).owes = none) (l : List α) : owed (l.map f) = [] := by
  unfold owed
  rw [List.filterMap_map]
  exact List.filterMap_eq_nil_iff.2 fun a _ => hf a

theorem adds_sever (s : Machine) (a : SubscriptionId) : Adds s (s.sever a) := by
  unfold sever
  split
  · exact .of_push rfl
  · exact .of_same

@[simp] theorem owed_letGo (s : Machine) (h : Handle) : owed (s.letGo h) = [] := by
  unfold letGo
  split <;> rfl

@[simp] theorem owed_remains (s : Machine) (ch : ChannelId) : owed (s.remains ch) = [] := by
  unfold remains
  have hhandles : owed ((s.world.registry ch).handles.map .drop) = [] := owed_map (fun _ => rfl) _
  rw [owed_append, owed_append, hhandles, owed_map (fun _ => rfl)]
  split <;> rfl

@[simp] theorem owed_announced (s : Machine) (a : SubscriptionId) (o : ChannelId) : owed (s.announced a o) = [] := by
  unfold announced
  cases s.world.channels[o]? with
  | none => rfl
  | some c => cases hc : c.signal? <;> simp [hc, owed, Task.owes]

/-- What is neither a section nor foreign leaves mutexes alone. -/
theorem adds_carry (s : Machine) (t : Task) : Adds s (s.carry t) := by
  -- What a task puts on top of the others has yet to lock a mutex, so none of it owes one.
  cases t with
  | call _ | free _ | sweep _ _ => exact .of_push rfl
  | give _ | note _ => exact .of_same
  | enter _ | inside _ | unlock _ | outside | unwind | rescue => exact .of_same
  | serve g place catching =>
    dsimp only [carry]
    split
    · refine .of_push ?_
      cases catching <;> rfl
    · exact .of_same
  | consult h =>
    cases h with
    | own a => exact .of_same
    | foreign f => exact .of_push rfl
  | close h =>
    cases h with
    | own a => exact adds_sever s a
    | foreign f =>
      dsimp only [carry]
      exact .of_push rfl
  | destroy h =>
    cases h with
    | own a => exact adds_sever s a
    | foreign f => exact .of_push rfl
  | drop h => exact .of_push (owed_letGo s h)
  | atOutput a o place =>
    dsimp only [carry]
    split
    · exact .of_push rfl
    · exact .of_same
  | atInput a i =>
    dsimp only [carry]
    split
    · exact .of_push rfl
    · exact .of_same
  | leave ch | drain ch =>
    dsimp only [carry]
    split
    · exact .of_same
    · exact .of_push rfl
  | perish ch =>
    dsimp only [carry]
    exact .of_push (owed_remains s ch)
  | enlist o i place =>
    dsimp only [carry]
    refine .of_push ?_
    simp [owed_cons, Task.owes]
  | scrap r =>
    dsimp only [carry]
    exact .of_push (owed_map (fun _ => rfl) _)

theorem owed_dropped (a : Ref) : owed (dropped a) = [] := by
  cases a <;> rfl

/-- A request begins without a mutex. -/
theorem adds_ask {a : Request} (h : s.ask a = some u) : Adds s u := by
  have hite : ∀ {p : Prop} [Decidable p] {w : Machine}, (if p then some w else none) = some u → w = u := by
    intro p _ w hw
    split at hw
    · exact Option.some.inj hw
    · cases hw
  cases a with
  | create _ _ | forge _ | newRegistry | newSignal _ =>
    cases h
    exact .of_same
  | look m =>
    cases h
    exact .of_push rfl
  | clone _ | upgrade _ =>
    rw [← hite h]
    exact .of_same
  | drop a =>
    rw [← hite h]
    exact .of_push (owed_dropped a)
  | subscribe o i =>
    dsimp only [ask] at h
    split at h
    · obtain ⟨c, -, rfl⟩ := Option.map_eq_some_iff.1 h
      exact .of_push rfl
    · cases h
  | dropSignal g =>
    obtain ⟨signal, -, rfl⟩ := Option.map_eq_some_iff.1 h
    exact .of_push (owed_map (fun _ => rfl) _)
  | add _ _ | remove _ _ | closeAll _ | close _ | connect _ _ | disconnect _ _ | emit _ _ | dropRegistry _ =>
    rw [← hite h]
    exact .of_push rfl

/-- A mutex is released, and then there are more tasks. -/
structure Releases (s : Machine) (m : Mutex) (u : Machine) : Prop where
  held : u.held = s.held
  tasks : ∃ after, u.tasks = .unlock m :: (after ++ s.tasks) ∧ owed after = []

theorem Releases.of_push {w : Machine} (hw : w.held = s.held ∧ w.tasks = s.tasks) {after : List Task}
    (hafter : owed after = []) : Releases s m (w.push (.unlock m :: after)) :=
  ⟨hw.1, after, by rw [← hw.2]; rfl, hafter⟩

theorem same_setRegistry (s : Machine) (r : RegistryRef) (x : Registry Handle) :
    (s.setRegistry r x).held = s.held ∧ (s.setRegistry r x).tasks = s.tasks := by
  cases r
  · exact ⟨rfl, rfl⟩
  · exact ⟨rfl, rfl⟩

theorem same_setSignal (s : Machine) (g : SignalRef) (x : Signal Slot) :
    (s.setSignal g x).held = s.held ∧ (s.setSignal g x).tasks = s.tasks := by
  cases g
  · exact ⟨rfl, rfl⟩
  · exact ⟨rfl, rfl⟩

theorem same_disconnect (s : Machine) (g : SignalRef) (place : Nat) (client : Option SubscriptionId) :
    (s.disconnect g place client).held = s.held ∧ (s.disconnect g place client).tasks = s.tasks := by
  unfold disconnect
  split
  · split
    · exact ⟨rfl, rfl⟩
    · exact ⟨rfl, rfl⟩
  · split
    · exact ⟨rfl, rfl⟩
    · exact ⟨rfl, rfl⟩

theorem owed_swept (s : Machine) (closed : Nat) (r : RegistryRef) : owed (s.swept closed r) = [] := by
  cases r with
  | channel ch =>
    dsimp only [swept]
    cases s.world.channels[ch]? <;> rfl
  | separate r => rfl

/-- A section that is over has released its mutex before anything else begins, unless it adds a handle that is one
too many and that nothing else refers to. -/
theorem perform_cases (s : Machine) (c : Section) : Releases s c.mutex (s.perform c) ∨
    ∃ r h, c = .insert r h ∧ (s.registry r).has (s.world.handleId h) = true ∧ s.isHeld h = false ∧
      s.perform c = s.push [.destroy h, .unlock c.mutex] := by
  cases c with
  | insert r h =>
    dsimp only [perform]
    split
    · -- The number is listed already, so the handle given is let go while the registry is locked.
      rename_i hhas
      cases hheld : s.isHeld h with
      | true =>
        left
        unfold letGo
        rw [if_pos hheld]
        exact .of_push ⟨rfl, rfl⟩ rfl
      | false =>
        right
        unfold letGo
        rw [if_neg (by simp [hheld])]
        exact ⟨r, h, rfl, hhas, hheld, rfl⟩
    · exact .inl (.of_push (same_setRegistry s r _) rfl)
  | erase r id returned =>
    left
    dsimp only [perform]
    refine .of_push (same_setRegistry s r _) (owed_map (fun h => ?_) _)
    cases returned <;> rfl
  | pop r closed =>
    left
    dsimp only [perform]
    split
    · exact .of_push ⟨rfl, rfl⟩ (owed_swept s closed r)
    · exact .of_push (same_setRegistry s r _) rfl
  | look m => exact .inl (.of_push ⟨rfl, rfl⟩ rfl)
  | connect g slot input =>
    left
    dsimp only [perform]
    split
    · exact .of_push ⟨rfl, rfl⟩ rfl
    · refine .of_push (same_setSignal s g _) ?_
      split <;> rfl
  | disconnect g place client =>
    left
    dsimp only [perform]
    exact .of_push (same_disconnect s g place client) (owed_map (fun _ => rfl) _)
  | copy g catching =>
    left
    dsimp only [perform]
    refine .of_push ⟨rfl, rfl⟩ ?_
    rw [owed_append, owed_map (fun _ => rfl), owed_map (fun _ => rfl), List.append_nil]
  | take a =>
    left
    dsimp only [perform]
    split
    · refine .of_push (s := s) (w := { s with world := s.world.dropToken a }) ⟨rfl, rfl⟩ ?_
      rfl
    · exact .of_push ⟨rfl, rfl⟩ rfl

/-! ## Turns -/

/-- What a turn does about mutexes. -/
inductive Effect (s u : Machine) : Prop
  /-- None is acquired and none released. -/
  | none {t : Task} {rest : List Task} (htasks : s.tasks = t :: rest) (ht : t.owes = none) (hheld : u.held = s.held)
    (howed : owed u.tasks = owed s.tasks)
  | acquires {c : Section} {rest : List Task} (htasks : s.tasks = .enter c :: rest) (hfree : c.mutex ∉ s.held)
    (hheld : u.held = c.mutex :: s.held) (hu : u.tasks = .inside c :: rest)
  | finishes {c : Section} {rest after : List Task} (htasks : s.tasks = .inside c :: rest) (hheld : u.held = s.held)
    (hu : u.tasks = .unlock c.mutex :: (after ++ rest)) (hafter : owed after = [])
  | discards {r : RegistryRef} {h : Handle} {rest : List Task} (hs : s.Discards r)
    (htasks : s.tasks = .inside (.insert r h) :: rest) (hheld : u.held = s.held)
    (hu : u.tasks = .destroy h :: .unlock (.registry r) :: rest)
  | releases {m : Mutex} {rest : List Task} (htasks : s.tasks = .unlock m :: rest) (hheld : u.held = s.held.erase m)
    (hu : u.tasks = rest)

theorem Adds.effect {w : Machine} (h : Adds w u) {rest : List Task} (htasks : s.tasks = t :: rest) (ht : t.owes = .none)
    (hheld : w.held = s.held) (hw : owed w.tasks = owed rest) : Effect s u := by
  obtain ⟨more, hu, hmore⟩ := h.tasks
  refine .none htasks ht (h.held.trans hheld) ?_
  rw [hu, owed_append, hmore, hw, htasks, owed_cons, ht]
  rfl

theorem owed_onPanic (t : Task) : owed t.onPanic = t.owes.toList := by
  cases t with
  | enter c => cases c <;> rfl
  | _ => rfl

theorem effect_choose {rest : List Task} (htasks : s.tasks = .outside :: rest) (h : s.choose rest choice = some u) :
    Effect s u := by
  cases choice with
  | ask a => exact (adds_ask h).effect htasks rfl rfl (by rw [htasks]; rfl)
  | back | panic =>
    cases h
    exact .none htasks rfl rfl (by rw [htasks]; rfl)
  | go | rescue => cases h

theorem effect_pass {rest : List Task} (htasks : s.tasks = .unwind :: t :: rest) (h : s.pass t rest choice = some u) :
    Effect s u := by
  unfold pass at h
  split at h
  · cases h
  · cases h
    exact .none htasks rfl rfl (by rw [htasks]; rfl)
  · cases h
    exact .none htasks rfl rfl (by rw [htasks]; rfl)
  · cases h
    refine .none htasks rfl rfl ?_
    rw [htasks, owed_append, owed_onPanic, owed_cons, owed_cons, owed_cons]
    rfl
  · cases h

theorem effect_perform {c : Section} {rest : List Task} (htasks : s.tasks = .inside c :: rest) :
    Effect s ({ s with tasks := rest }.perform c) := by
  rcases perform_cases { s with tasks := rest } c with hreleases | ⟨r, h, rfl, hhas, hlast, heq⟩
  · obtain ⟨after, hu, hafter⟩ := hreleases.tasks
    exact .finishes htasks hreleases.held hu hafter
  · rw [heq]
    exact .discards ⟨h, rest, htasks, hhas, hlast⟩ htasks rfl rfl

theorem turn_effect (h : s.turn choice = some u) : Effect s u := by
  unfold turn at h
  -- By the task on top, which alone decides what the turn does to the mutexes.
  split at h
  · cases h
  · exact effect_choose ‹_› h
  · cases h
  · exact effect_pass ‹_› h
  · rename_i htasks
    split at h
    · cases h
    · cases h
      exact .acquires htasks ‹_› rfl rfl
  · cases h
    exact effect_perform ‹_›
  · rename_i htasks
    cases h
    exact .releases htasks rfl rfl
  · rename_i t rest _ _ _ _ hinside hunlock htasks
    cases h
    have ht : t.owes = none := by
      cases t with
      | inside c => exact absurd rfl (hinside c)
      | unlock m => exact absurd rfl (hunlock m)
      | _ => rfl
    exact (adds_carry _ t).effect htasks ht rfl rfl

/-! ## Histories -/

/-- The mutex of a registry that was to add a handle and destroys it instead, held ever since. -/
def Spoilt (seen : List Machine) (m : Mutex) : Prop :=
  ∃ r before u after, m = .registry r ∧ seen = before ++ u :: after ∧ u.Discards r ∧ ∀ x ∈ after, m ∈ x.held

theorem Spoilt.later (h : Spoilt seen m) (hm : m ∈ s.held) : Spoilt (seen ++ [s]) m := by
  obtain ⟨r, before, u, after, hr, rfl, hdiscards, hafter⟩ := h
  refine ⟨r, before, u, after ++ [s], hr, by simp, hdiscards, ?_⟩
  intro x hx
  rcases List.mem_append.1 hx with hx | hx
  · exact hafter x hx
  · rwa [List.mem_singleton.1 hx]

/-- What mutexes a thread holds: the task that comes first may hold one, and those that have to wait hold none but
spoilt ones. -/
structure Sound (seen : List Machine) (s : Machine) : Prop where
  held : s.held = owed s.tasks
  below : ∀ m ∈ owed s.tasks.tail, Spoilt seen m

theorem Sound.spoilt (hs : Sound seen s) {rest : List Task} (htasks : s.tasks = t :: rest) (ht : t.owes = none) :
    ∀ m ∈ owed s.tasks, Spoilt seen m := by
  intro m hm
  rw [htasks, owed_cons, ht] at hm
  exact hs.below m (by rw [htasks]; exact hm)

theorem Sound.effect (hs : Sound seen s) (h : Effect s u) : Sound (seen ++ [s]) u := by
  have hheld := hs.held
  have hbelow : ∀ m ∈ owed s.tasks.tail, Spoilt (seen ++ [s]) m := by
    intro m hm
    exact (hs.below m hm).later (hheld ▸ (s.tasks.tail_sublist.filterMap _).subset hm)
  cases h with
  | none htasks ht hu howed =>
    refine ⟨by rw [hu, howed, hheld], ?_⟩
    intro m hm
    have hm' : m ∈ owed u.tasks := (u.tasks.tail_sublist.filterMap _).subset hm
    rw [howed] at hm'
    exact (hs.spoilt htasks ht m hm').later (hheld ▸ hm')
  | acquires htasks _ hacquired hu =>
    rw [htasks] at hheld hbelow
    refine ⟨by rw [hacquired, hheld, hu]; rfl, ?_⟩
    rw [hu]
    exact hbelow
  | finishes htasks hsame hu hafter =>
    rw [htasks] at hheld hbelow
    refine ⟨?_, ?_⟩
    · rw [hsame, hheld, hu, owed_cons, owed_cons, owed_append, hafter]
      rfl
    · rw [hu, List.tail_cons, owed_append, hafter]
      exact hbelow
  | @discards r h rest hdiscards htasks hsame hu =>
    -- The one turn that leaves a mutex to a task below the first: it is released after the handle is destroyed.
    rw [htasks] at hheld hbelow
    refine ⟨by rw [hsame, hheld, hu]; rfl, ?_⟩
    rw [hu]
    intro m hm
    rcases List.mem_cons.1 hm with rfl | hm
    · exact ⟨r, seen, s, [], rfl, rfl, hdiscards, nofun⟩
    · exact hbelow m hm
  | @releases m rest htasks hreleased hu =>
    rw [htasks] at hheld hbelow
    refine ⟨?_, ?_⟩
    · rw [hreleased, hheld, hu]
      exact List.erase_cons_head ..
    · rw [hu]
      intro m hm
      exact hbelow m ((rest.tail_sublist.filterMap _).subset hm)

theorem Course.sound (h : Course seen s) : Sound seen s := by
  induction h with
  | start => exact ⟨rfl, nofun⟩
  | turn _ choice ht ih => exact ih.effect (turn_effect ht)

theorem owes_of_exposes (ht : t.exposes = true) : t.owes = none := by
  cases t <;> first | rfl | cases ht

theorem Exposed.head (h : s.Exposed) : ∃ t rest, s.tasks = t :: rest ∧ t.exposes = true := by
  unfold Exposed at h
  match htasks : s.tasks with
  | [] =>
    rw [htasks] at h
    cases h
  | t :: rest =>
    rw [htasks] at h
    exact ⟨t, rest, rfl, h⟩

theorem awaits?_eq_some_iff : s.awaits? = some m ↔ ∃ c rest, s.tasks = .enter c :: rest ∧ c.mutex = m := by
  unfold awaits?
  split
  · rename_i c rest htasks
    rw [htasks, Option.some.injEq]
    constructor
    · rintro rfl
      exact ⟨c, rest, rfl, rfl⟩
    · rintro ⟨c', rest', heq, rfl⟩
      cases heq
      rfl
  · rename_i hnot
    refine iff_of_false nofun ?_
    rintro ⟨c, rest, htasks, -⟩
    exact hnot c rest htasks

/-- A thread can acquire what it does not hold, and waits in vain for what it holds. -/
theorem turn_of_awaits? (h : s.awaits? = some m) (choice : Choice) : s.turn choice = none ↔ m ∈ s.held := by
  obtain ⟨c, rest, htasks, rfl⟩ := awaits?_eq_some_iff.1 h
  unfold turn
  rw [htasks]
  dsimp only
  split
  · rename_i hheld
    exact iff_of_true rfl hheld
  · rename_i hfree
    exact iff_of_false nofun hfree

theorem Course.of_play (choices : List Choice) (P : Machine → Prop) [DecidablePred P]
    (h : (({} : Machine).play choices).any (fun s => decide (P s)) = true) : ∃ seen s, Course seen s ∧ P s := by
  obtain ⟨s, hs, hp⟩ := (Option.any_eq_true _ _).1 h
  obtain ⟨seen, hseen⟩ := Course.start.play hs
  exact ⟨_, s, hseen, of_decide_eq_true hp⟩

/-- Whenever foreign code is at work, a slot is called or let go, or a handle is closed or destroyed, the thread holds
no mutex, and it never waits for one that it holds itself; unless it is that of a registry whose `add` has been given
the last reference to a handle under a number that was listed already, and which has not been released since. However
that may be, the thread holds none when all is over. -/
theorem mutexes_released (h : Course seen s) : (s.Exposed → ∀ m ∈ s.held, Spoilt seen m) ∧
    (∀ m, s.awaits? = some m → (∃ u, s.turn .go = some u) ∨ Spoilt seen m) ∧ (s.tasks = [.outside] → s.held = []) := by
  have hs := h.sound
  refine ⟨?_, ?_, ?_⟩
  · intro hexposed m hm
    obtain ⟨t, rest, htasks, ht⟩ := hexposed.head
    exact hs.spoilt htasks (owes_of_exposes ht) m (hs.held ▸ hm)
  · intro m hm
    obtain ⟨c, rest, htasks, rfl⟩ := awaits?_eq_some_iff.1 hm
    by_cases hheld : c.mutex ∈ s.held
    · exact .inr (hs.spoilt htasks rfl _ (hs.held ▸ hheld))
    · exact .inl (Option.ne_none_iff_exists'.1 (mt (turn_of_awaits? hm .go).1 hheld))
  · intro htasks
    rw [hs.held, htasks]
    rfl

/-- Foreign code makes a request, and the thread goes on for so many turns. -/
def asks (a : Request) (turns : Nat) : List Choice := .ask a :: List.replicate turns .go

/-- An output gets a subscriber. -/
def linking : List Choice :=
  asks (.create "a" (.source [(.int, .many)])) 0 ++ asks (.create "b" (.sink [.int])) 0 ++ asks (.subscribe 0 1) 12

/-- The subscription, of which foreign code keeps no handle, is removed from both registries by hand. -/
def removing : List Choice :=
  linking ++ asks (.drop (.handle (.own 1))) 1 ++ asks (.remove (.channel 0) 1) 4 ++ asks (.remove (.channel 1) 1) 4

/-- When it is gone from the second and still connected, it is about to be destroyed; and no mutex is in its way. -/
theorem mutexes_released_removing : ∃ seen s, Course seen s ∧
    (s.Exposed ∧ (s.world.registry 1).ids = [] ∧ s.world.isConnected 1 = true) ∧ ∀ m ∈ s.held, Spoilt seen m := by
  obtain ⟨seen, s, h, hs⟩ := Course.of_play removing
    (fun s => s.Exposed ∧ (s.world.registry 1).ids = [] ∧ s.world.isConnected 1 = true) (by decide +kernel)
  exact ⟨seen, s, h, hs, (mutexes_released h).1 hs.1⟩

/-- A subscription is removed from both registries by hand, a foreign handle of the same number is put into that of the
output, and then the subscription is added there again, with the last reference to it. -/
def repeating : List Choice :=
  linking ++ asks (.remove (.channel 0) 1) 4 ++ asks (.remove (.channel 1) 1) 4 ++
    asks (.forge { id := 1, name := "f" }) 0 ++ asks (.add (.channel 0) (.foreign 0)) 1 ++
    .back :: List.replicate 3 .go ++ asks (.add (.channel 0) (.own 1)) 3

/-- The handle is destroyed while its registry is locked. It closes itself, and for that it has to be taken out of the
same registry: there the thread waits for itself, for ever. -/
theorem not_always_released : (∃ seen s, Course seen s ∧ s.Exposed ∧ .registry (.channel 0) ∈ s.held) ∧
    ∃ seen s, Course seen s ∧ s.awaits? = some (.registry (.channel 0)) ∧ ∀ choice, s.turn choice = none := by
  constructor
  · exact Course.of_play repeating _ (by decide +kernel)
  · obtain ⟨seen, s, h, hawaits, hheld⟩ := Course.of_play (repeating ++ List.replicate 9 .go ++ [.back])
      (fun s => s.awaits? = some (.registry (.channel 0)) ∧ .registry (.channel 0) ∈ s.held) (by decide +kernel)
    exact ⟨seen, s, h, hawaits, fun choice => (turn_of_awaits? hawaits choice).2 hheld⟩

end Machine

end Conduit.Locking
