/-
Where a panic goes. It ends one frame after the other, up to the nearest one that catches it: an emission
that collects panics, or a thread. Until then nothing else happens, so the emissions that it ends call no
further slot, and what is below goes through the same as without them.
-/
import Mathlib.Data.List.TakeWhile
import Mathlib.Logic.Function.Iterate
import Conduit.Proofs.Scenario.Emission

namespace Conduit.Scenario

/-- Whether a frame catches panics. A thread does, since its steps have nobody else to answer to. -/
def Frame.catches : Frame → Bool
  | .emission e => e.policy = .collecting
  | .thread _ _ _ => true
  | _ => false

namespace Config

variable {c d : Config} {p : Panic}

/-- The frames that a panic ends: those above the nearest one that catches it. -/
def doomed (c : Config) : List Frame := c.frames.takeWhile (!·.catches)

/-- The frames that are left. -/
def spared (c : Config) : List Frame := c.frames.dropWhile (!·.catches)

theorem doomed_append_spared (c : Config) : c.doomed ++ c.spared = c.frames := List.takeWhile_append_dropWhile

theorem catches_of_doomed {f : Frame} (h : f ∈ c.doomed) : f.catches = false := by
  simpa using List.mem_takeWhile_imp h

theorem catches_of_spared {f : Frame} {base : List Frame} (h : c.spared = f :: base) : f.catches = true := by
  have hhead := List.head?_dropWhile_not (!·.catches) c.frames
  rw [show c.frames.dropWhile (!·.catches) = f :: base from h] at hhead
  simpa using hhead

/-- There is a choice only where a handler is at work, or where all is done. -/
theorem move_iff_tick (hdone : ∀ r, c.focus ≠ .finished r)
    (hwork : c.focus = .resume → ∀ h rest, c.frames ≠ .handling h :: rest) : Move .any c d ↔ d = c.tick := by
  constructor
  · intro hm
    cases hm with
    | tick _ => rfl
    | act hframes hf _ => exact absurd hframes (hwork hf _ _)
    | next hf _ => exact absurd hf (hdone _)
    | furnish hf _ _ _ =>
      rcases hf with ⟨⟨h, rest, hframes⟩, hf⟩ | ⟨r, hf⟩
      · exact absurd hframes (hwork hf h rest)
      · exact absurd hf (hdone r)
  · rintro rfl
    exact .tick fun step _ _ => step.action.within_any

/-- A panic that is on its way goes on. -/
theorem move_iff_of_panicking (hf : c.focus = .panicking p) : Move .any c d ↔ d = c.tick :=
  move_iff_tick (by rw [hf]; nofun) (by rw [hf]; nofun)

theorem tick_of_panicking (hf : c.focus = .panicking p) : c.tick = c.unwind p := by
  rw [tick, hf]

/-- It ends a frame that does not catch it. -/
theorem unwind_of_not_catches {f : Frame} {rest : List Frame} (hframes : c.frames = f :: rest)
    (hno : f.catches = false) :
    (c.unwind p).focus = .panicking p ∧ (c.unwind p).frames = rest := by
  unfold unwind
  rw [hframes]
  cases f with
  | emission e =>
    have hpolicy : ¬ e.policy = .collecting := by simpa [Frame.catches] using hno
    dsimp only
    rw [if_neg hpolicy]
    exact ⟨rfl, rfl⟩
  | thread steps given results => cases hno
  | _ => exact ⟨rfl, rfl⟩

/-- One frame after the other ends. -/
theorem unwinds {rest : List Frame} : ∀ {upper : List Frame} {c : Config}, c.focus = .panicking p →
    c.frames = upper ++ rest →
    (∀ f ∈ upper, f.catches = false) → ∀ n ≤ upper.length,
      (tick^[n] c).focus = .panicking p ∧ (tick^[n] c).frames = upper.drop n ++ rest
  | _, _, hf, hframes, _, 0, _ => ⟨hf, hframes⟩
  | f :: upper, c, hf, hframes, hno, n + 1, hn => by
    obtain ⟨hfocus, hrest⟩ := unwind_of_not_catches (p := p) hframes (hno f (List.mem_cons_self ..))
    rw [← tick_of_panicking hf] at hfocus hrest
    exact unwinds hfocus hrest (fun g hg => hno g (List.mem_cons_of_mem _ hg)) n (Nat.le_of_succ_le_succ hn)

/-- Where the panic `p` goes from the configuration `c` on. -/
structure Lands (p : Panic) (c : Config) : Prop where
  /-- One after the other it ends the frames above the nearest one that catches it, and nothing else happens. -/
  ends : ∀ n ≤ c.doomed.length, (tick^[n] c).focus = .panicking p ∧
    (tick^[n] c).frames = c.doomed.drop n ++ c.spared ∧ ∀ d, Move .any (tick^[n] c) d ↔ d = tick^[n + 1] c
  /-- There it is caught: an emission that collects panics adds its text to those it has, -/
  caught : ∀ e base, c.spared = .emission e :: base → e.policy = .collecting ∧
    tick^[c.doomed.length + 1] c = { tick^[c.doomed.length] c with
      frames := .emission { e with messages := e.messages ++ [p.message] } :: base
      focus := .resume }
  /-- a thread has the panic itself as the answer of its step, -/
  answered : ∀ steps given results base, c.spared = .thread steps given results :: base →
    tick^[c.doomed.length + 1] c = { tick^[c.doomed.length] c with
      frames := .thread steps given (results ++ [.panicked p]) :: base
      focus := .resume }
  /-- and if there is neither it is the answer of the outermost step. -/
  uncaught : c.spared = [] → tick^[c.doomed.length + 1] c = { tick^[c.doomed.length] c with
    focus := .finished (.panicked p) }
  exhausted : c.spared = [] ∨ (∃ e base, c.spared = .emission e :: base) ∨
    ∃ steps given results base, c.spared = .thread steps given results :: base

theorem lands (hf : c.focus = .panicking p) : Lands p c := by
  have hends := unwinds hf (doomed_append_spared c).symm fun f hm => catches_of_doomed hm
  obtain ⟨hfocus, hframes⟩ := hends c.doomed.length le_rfl
  rw [List.drop_length, List.nil_append] at hframes
  -- When the doomed frames are gone, the next one catches the panic, or there is none.
  have hlast : tick^[c.doomed.length + 1] c = (tick^[c.doomed.length] c).unwind p := by
    rw [Function.iterate_succ_apply', tick_of_panicking hfocus]
  refine ⟨fun n hn => ?_, fun e base hs => ?_, fun steps given results base hs => ?_, fun hs => ?_, ?_⟩
  · obtain ⟨hn, hrest⟩ := hends n hn
    refine ⟨hn, hrest, fun d => ?_⟩
    rw [move_iff_of_panicking hn, Function.iterate_succ_apply']
  · have hpolicy : e.policy = .collecting := by simpa [Frame.catches] using catches_of_spared hs
    rw [hlast, unwind, hframes.trans hs]
    dsimp only
    rw [if_pos hpolicy]
    exact ⟨hpolicy, rfl⟩
  · rw [hlast, unwind, hframes.trans hs]
  · rw [hlast, unwind, hframes.trans hs]
    dsimp only
    rw [← hs, ← hframes]
  · rcases hs : c.spared with _ | ⟨f, base⟩
    · exact .inl rfl
    · have hcatches := catches_of_spared hs
      cases f with
      | emission e => exact .inr (.inl ⟨e, base, rfl⟩)
      | thread steps given results => exact .inr (.inr ⟨steps, given, results, base, rfl⟩)
      | _ => cases hcatches

/-- What a panic goes through until it is caught or comes out. -/
def flight (c : Config) : List Config := (List.range (c.doomed.length + 1)).map fun n => tick^[n] c

theorem flight_of_doomed_nil (h : c.doomed = []) : c.flight = [c] := by
  rw [flight, h]
  rfl

/-- Frame by frame it goes through the same. -/
theorem flight_cons (hf : c.focus = .panicking p) {f : Frame} {more : List Frame} (h : c.doomed = f :: more) :
    c.tick.focus = .panicking p ∧ c.tick.doomed = more ∧ c.tick.spared = c.spared ∧ c.flight = c :: c.tick.flight := by
  have hno : f.catches = false := catches_of_doomed (h ▸ List.mem_cons_self ..)
  have hframes := doomed_append_spared c
  rw [h, List.cons_append] at hframes
  obtain ⟨hfocus, hrest⟩ := unwind_of_not_catches (p := p) hframes.symm hno
  rw [← tick_of_panicking hf] at hfocus hrest
  have hdoomed : c.doomed = f :: c.tick.doomed := by
    rw [doomed, ← hframes, doomed, hrest, List.takeWhile_cons, if_pos (by rw [hno]; rfl)]
  have hmore : c.tick.doomed = more := by
    rw [h] at hdoomed
    exact (List.cons.inj hdoomed).2.symm
  have hspared : c.tick.spared = c.spared := by
    rw [← doomed_append_spared c.tick, hmore] at hrest
    exact List.append_cancel_left hrest
  refine ⟨hfocus, hmore, hspared, ?_⟩
  rw [flight, h, List.length_cons, List.range_succ_eq_map, List.map_cons, List.map_map, flight, hmore]
  rfl

/-- The frames that are spared stay, the one that catches it too. -/
theorem spared_le (hf : c.focus = .panicking p) : c.spared.length ≤ c.tick.frames.length := by
  rcases hd : c.doomed with _ | ⟨f, more⟩
  · have hl := lands hf
    rcases hl.exhausted with hs | ⟨e, base, hs⟩ | ⟨steps, given, results, base, hs⟩
    · rw [hs]
      exact Nat.zero_le _
    · obtain ⟨-, hcaught⟩ := hl.caught e base hs
      rw [hd] at hcaught
      rw [show c.tick = _ from hcaught, hs]
      exact le_rfl
    · have hanswered := hl.answered steps given results base hs
      rw [hd] at hanswered
      rw [show c.tick = _ from hanswered, hs]
      exact le_rfl
  · obtain ⟨-, -, hspared, -⟩ := flight_cons hf hd
    rw [← hspared, ← doomed_append_spared c.tick, List.length_append]
    exact Nat.le_add_left _ _

/-! ## Emissions that end with it -/

section

variable {e : Emission} {base : List Frame} {b d' : Config} {past before later : List Config}

theorem Underway.above (h : Underway base e b past d) : base.length < d.frames.length := by
  obtain ⟨e', hf⟩ := h.follows
  obtain ⟨upper, hframes⟩ := hf.frames
  rw [hframes, List.length_append, List.length_cons]
  omega

/-- While an emission that a panic ends is still there, the panic is on its way. -/
theorem Underway.panicking (h : Underway base e b past d) (hf : c.focus = .panicking p)
    (hlow : c.spared.length ≤ base.length) : ∀ {later : List Config}, past = before ++ c :: later →
    d.focus = .panicking p ∧ ∃ n, d.frames = c.doomed.drop n ++ c.spared := by
  induction h with
  | begins _ _ _ _ =>
    intro later hp
    exact absurd hp.symm (List.append_ne_nil_of_right_ne_nil _ (List.cons_ne_nil _ _))
  | @move past d d' h hm _ ih =>
    intro later hp
    -- Whatever has been gone through, the panic is on its way at `d`, and some of its frames are left.
    have hd : d.focus = .panicking p ∧ ∃ n, d.frames = c.doomed.drop n ++ c.spared := by
      rcases List.eq_nil_or_concat' later with rfl | ⟨later, y, rfl⟩
      · obtain ⟨-, hx⟩ := List.append_inj' hp rfl
        cases hx
        exact ⟨hf, 0, (doomed_append_spared _).symm⟩
      · rw [← List.cons_append, ← List.append_assoc] at hp
        obtain ⟨hpast, hy⟩ := List.append_inj' hp rfl
        exact ih hpast
    obtain ⟨hfocus, n, hframes⟩ := hd
    rcases hleft : c.doomed.drop n with _ | ⟨f, more⟩
    · have habove := h.above
      rw [hframes, hleft, List.nil_append] at habove
      omega
    · have hf : f.catches = false :=
        catches_of_doomed (List.mem_of_mem_drop (hleft ▸ List.mem_cons_self .. : f ∈ c.doomed.drop n))
      rw [hleft, List.cons_append] at hframes
      obtain ⟨hfocus', hframes'⟩ := unwind_of_not_catches (p := p) hframes hf
      obtain rfl := (move_iff_of_panicking hfocus).1 hm
      rw [tick_of_panicking hfocus]
      refine ⟨hfocus', n + 1, ?_⟩
      rw [hframes', ← List.tail_drop, hleft, List.tail_cons]

/-- From a panic on, the emissions that it ends call no further slot. -/
theorem Underway.silent (h : Underway base e b (before ++ c :: later) d) (hf : c.focus = .panicking p)
    (hlow : c.spared.length ≤ base.length) : ∀ y ∈ c :: later ++ [d], y.call? base.length = none := by
  intro y hy
  have hy : y.focus = .panicking p := by
    rcases List.mem_append.1 hy with hy | hy
    · rcases List.mem_cons.1 hy with rfl | hy
      · exact hf
      · obtain ⟨l, r, rfl⟩ := List.append_of_mem hy
        have hsplit : before ++ c :: (l ++ y :: r) = (before ++ c :: l) ++ y :: r := by
          rw [List.append_assoc, List.cons_append]
        exact ((h.split hsplit).1.panicking hf hlow rfl).1
    · rw [List.mem_singleton.1 hy]
      exact (h.panicking hf hlow rfl).1
  exact call?_eq_none (by rw [hy]; nofun)

/-- An emission is under way until the next move ends it. -/
theorem Underway.move_of_snoc (h : Underway base e b (past ++ [c]) d) : Move .any c d := by
  generalize hp : past ++ [c] = whole at h
  cases h with
  | begins _ _ _ _ => exact absurd hp (List.append_ne_nil_of_right_ne_nil _ (List.cons_ne_nil _ _))
  | move _ hm _ =>
    obtain ⟨-, hc⟩ := List.append_inj' hp rfl
    cases hc
    exact hm

/-- An emission that a panic does not end sees all of its flight before it ends itself. -/
theorem Underway.flight_prefix (hm : Move .any d d') (hend : d'.frames.length ≤ base.length) :
    ∀ {doomed : List Frame} {c : Config} {before later : List Config}, c.doomed = doomed → c.focus = .panicking p →
      base.length < c.spared.length → Underway base e b (before ++ c :: later) d → c.flight <+: c :: later
  | [], c, before, later, hd, _, _, _ => by
    rw [flight_of_doomed_nil hd]
    exact ⟨later, rfl⟩
  | f :: more, c, before, later, hd, hf, hlow, h => by
    obtain ⟨hfocus, hdoomed, hspared, hflight⟩ := flight_cons hf hd
    rw [← hspared] at hlow
    rcases later with _ | ⟨y, later⟩
    · -- The emission cannot end while the panic is still on its way above it.
      obtain rfl := (move_iff_of_panicking hf).1 h.move_of_snoc
      obtain rfl := (move_iff_of_panicking hfocus).1 hm
      have hleft := spared_le hfocus
      omega
    · rw [show before ++ c :: y :: later = (before ++ [c]) ++ y :: later from List.append_cons ..] at h
      obtain rfl := (move_iff_of_panicking hf).1 (h.split rfl).1.move_of_snoc
      rw [hflight]
      exact List.cons_prefix_cons.2 ⟨rfl, flight_prefix hm hend hdoomed hfocus hlow h⟩

end

end Config

end Conduit.Scenario
