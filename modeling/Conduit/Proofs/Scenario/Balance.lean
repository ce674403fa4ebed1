/-
The books on panics. Whatever steps are done, nested in whatever way: the texts of the panics raised are those told
of in reports, those gone outside and those still kept or on their way. A move keeps this balance (`Balanced`), so
every course does, and one that ends where nothing is outstanding has the books closed.
-/
import Conduit.Proofs.Scenario.Perform
import Conduit.Proofs.Scenario.Run

namespace Conduit.Scenario

/-- The texts of panics that a frame has caught and not yet reported. -/
def Frame.kept : Frame → List String
  | .emission e => if e.policy = .collecting then e.messages else []
  | _ => []

/-- The panic that a step comes to. -/
def Outcome.panic? : Outcome → Option Panic
  | .panic p => some p
  | _ => none

/-- The panic that is on its way. -/
def Focus.panic? : Focus → Option Panic
  | .panicking p => some p
  | _ => none

/-- The failed slots that an answer tells of: how many have been called, and the texts of their panics. -/
def Focus.failed? : Focus → Option (Nat × List String)
  | .ended (.slotsFailed total messages) => some (total, messages)
  | _ => none

/-- There is nothing new of panics in what is done next. -/
def Focus.Plain (f : Focus) : Prop := f.failed? = none ∧ f.panic? = none

theorem Focus.panic?_eq_some_iff {f : Focus} {p : Panic} : f.panic? = some p ↔ f = .panicking p := by
  cases f <;> simp [panic?]

theorem Focus.failed?_eq_some_iff {f : Focus} {total : Nat} {messages : List String} :
    f.failed? = some (total, messages) ↔ f = .ended (.slotsFailed total messages) := by
  cases f with
  | ended r => cases r <;> simp [failed?]
  | _ => simp [failed?]

namespace Config

variable {c d x : Config} {p : Panic}

/-- The panic that the step begun now raises. -/
def raised? (c : Config) : Option Panic :=
  match c.focus with
  | .start step given =>
    match c.bench.perform c.frames given step.action with
    | .ok r => r.outcome.panic?
    | .error _ => none
  | _ => none

/-- The report of failed slots with which the emission on top ends now. -/
def report? (c : Config) : Option (Nat × List String) :=
  match c.focus, c.frames with
  | .resume, .emission e :: _ =>
    match e.remaining, e.result with
    | [], .slotsFailed total messages => some (total, messages)
    | _, _ => none
  | _, _ => none

/-- The panic that comes out of a step asked for from outside, or in a thread of its own. -/
def escaped? (c : Config) : Option Panic :=
  match c.focus, c.frames with
  | .panicking p, [] => some p
  | .panicking p, .thread _ _ _ :: _ => some p
  | _, _ => none

/-- The texts of a report. -/
def told (c : Config) : List String := (c.report?.map (·.2)).getD []

/-- The texts of panics that are neither reported nor gone outside yet. -/
def outstanding (c : Config) : List String :=
  c.focus.panic?.toList.map Panic.message ++ c.frames.flatMap Frame.kept

/-- What is raised and outstanding before is reported, gone outside or outstanding after. -/
def Balanced (c d : Config) : Prop :=
  (c.raised?.toList.map Panic.message ++ c.outstanding).Perm
    (c.told ++ c.escaped?.toList.map Panic.message ++ d.outstanding)

/-! ## One move -/

theorem escaped?_eq_none (hf : c.focus.panic? = none) : c.escaped? = none := by
  unfold escaped?
  split
  · rename_i hfocus _
    rw [hfocus] at hf
    cases hf
  · rename_i hfocus _
    rw [hfocus] at hf
    cases hf
  · rfl

theorem outstanding_eq (hf : c.focus.panic? = none) : c.outstanding = c.frames.flatMap Frame.kept := by
  rw [outstanding, hf]
  rfl

theorem told_eq_nil (hf : c.report? = none) : c.told = [] := by
  rw [told, hf]
  rfl

/-- No panic is raised, reported or on its way. -/
structure Quiet (c : Config) : Prop where
  raised : c.raised? = none
  report : c.report? = none
  panic : c.focus.panic? = none

theorem quiet_call {slot : Slot} {v : Value} (hf : c.focus = .call slot v) : c.Quiet :=
  ⟨by rw [raised?, hf], by rw [report?, hf], by rw [hf]; rfl⟩

theorem quiet_ended {r : Result} (hf : c.focus = .ended r) : c.Quiet :=
  ⟨by rw [raised?, hf], by rw [report?, hf], by rw [hf]; rfl⟩

theorem quiet_finished {r : Result} (hf : c.focus = .finished r) : c.Quiet :=
  ⟨by rw [raised?, hf], by rw [report?, hf], by rw [hf]; rfl⟩

/-- Only emissions have something to report. -/
theorem quiet_resume (hf : c.focus = .resume) (hno : ∀ e rest, c.frames ≠ .emission e :: rest) : c.Quiet where
  raised := by rw [raised?, hf]
  report := by
    unfold report?
    split
    · rename_i e rest _ hframes
      exact absurd hframes (hno e rest)
    · rfl
  panic := by rw [hf]; rfl

/-- Where all is quiet, frames keep what they have. -/
theorem Quiet.balanced (h : c.Quiet) (hsame : d.outstanding = c.frames.flatMap Frame.kept) : Balanced c d := by
  unfold Balanced
  rw [h.raised, told_eq_nil h.report, escaped?_eq_none h.panic, hsame, outstanding_eq h.panic]
  exact .refl _

/-- An emission has caught nothing when it begins. -/
theorem kept_of_begins {b : Bench} {e : Emission} (h : b.Begins e) : (Frame.emission e).kept = [] := by
  show (if e.policy = .collecting then e.messages else []) = []
  rw [h.messages, ite_self]

theorem start_balanced (hc : WellFormed c) {step : Step Action} {given : Option Value}
    (hf : c.focus = .start step given) :
    Balanced c (c.start step given) := by
  have hpanic : c.focus.panic? = none := by rw [hf]; rfl
  unfold Balanced
  rw [told_eq_nil (by rw [report?, hf]), escaped?_eq_none hpanic, outstanding_eq hpanic, raised?, hf]
  dsimp only
  rw [start]
  rcases hperform : c.bench.perform c.frames given step.action with why | ⟨bench, outcome, holds⟩
  · exact .refl _
  · cases outcome with
    | emission e =>
      have hp : Bench.Performed .any (pinned c.frames) c.bench ⟨bench, .emission e, holds⟩ :=
        Bench.perform_performed hc.bench step.action.within_any hperform
      show (c.frames.flatMap Frame.kept).Perm ((Frame.emission e).kept ++ c.frames.flatMap Frame.kept)
      rw [kept_of_begins (hp.emission e rfl).1]
      exact .refl _
    | _ => exact .refl _

theorem call_balanced {slot : Slot} {v : Value} (hf : c.focus = .call slot v) : Balanced c (c.call slot v) := by
  refine (quiet_call hf).balanced ?_
  unfold call
  split <;> rfl

theorem handle_balanced {h : Handling} {rest : List Frame} (hf : c.focus = .resume)
    (hframes : c.frames = .handling h :: rest) : Balanced c (c.handle h rest) := by
  refine (quiet_resume hf (by simp [hframes])).balanced ?_
  rw [hframes]
  unfold handle
  split
  · rfl
  · split
    · rfl
    · dsimp only
      split <;> rfl

/-- An emission that goes on keeps what it has caught, and reports it when it ends. -/
theorem visit_balanced {e : Emission} {rest : List Frame} (hf : c.focus = .resume)
    (hframes : c.frames = .emission e :: rest) : Balanced c (c.visit e rest) := by
  have hbefore : c.outstanding = (Frame.emission e).kept ++ rest.flatMap Frame.kept := by
    rw [outstanding_eq (by rw [hf]; rfl), hframes]
    rfl
  unfold Balanced
  rw [show c.raised? = none by rw [raised?, hf], escaped?_eq_none (by rw [hf]; rfl), hbefore, visit]
  rcases hrem : e.remaining with _ | ⟨place, remaining⟩
  · -- The emission ends, and what it has kept is what it reports.
    have htold : c.told = (Frame.emission e).kept := by
      unfold told report?
      rw [hf, hframes]
      dsimp only
      rw [hrem, Emission.result]
      show _ = if e.policy = .collecting then e.messages else []
      by_cases hpolicy : e.policy = .collecting
      · by_cases hmessages : e.messages = []
        · rw [if_neg fun h => h.2 hmessages, if_pos hpolicy, hmessages]
          rfl
        · rw [if_pos ⟨hpolicy, hmessages⟩, if_pos hpolicy]
          rfl
      · rw [if_neg fun h => hpolicy h.1, if_neg hpolicy]
        rfl
    show ((Frame.emission e).kept ++ rest.flatMap Frame.kept).Perm (c.told ++ [] ++ rest.flatMap Frame.kept)
    rw [htold, List.append_nil]
  · have htold : c.told = [] := by
      unfold told report?
      rw [hf, hframes]
      dsimp only
      rw [hrem]
      rfl
    rw [htold]
    dsimp only
    split
    · exact .refl _
    · exact .refl _

theorem resume_balanced (hf : c.focus = .resume) : Balanced c c.resume := by
  rcases hframes : c.frames with _ | ⟨f, rest⟩
  · refine (quiet_resume hf (by simp [hframes])).balanced ?_
    rw [resume, hframes, outstanding]
    rfl
  · -- Of all frames only that of an emission keeps texts, so anything else on top is quiet.
    cases f with
    | handling h =>
      have hres : c.resume = c.handle h rest := by rw [resume, hframes]
      rw [hres]
      exact handle_balanced hf hframes
    | emission e =>
      have hres : c.resume = c.visit e rest := by rw [resume, hframes]
      rw [hres]
      exact visit_balanced hf hframes
    | thread steps given results =>
      refine (quiet_resume hf (by simp [hframes])).balanced ?_
      rw [resume, hframes]
      cases steps <;> rfl
    | batch todo kept =>
      refine (quiet_resume hf (by simp [hframes])).balanced ?_
      rw [resume, hframes]
      cases todo <;> rfl
    | _ =>
      refine (quiet_resume hf (by simp [hframes])).balanced ?_
      rw [resume, hframes]
      rfl

theorem answer_balanced {r : Result} (hf : c.focus = .ended r) : Balanced c (c.answer r) := by
  refine (quiet_ended hf).balanced ?_
  unfold answer
  split
  · rename_i op holds rest hframes
    rw [hframes]
    dsimp only
    split <;> rfl
  · rfl
  · rfl

/-- A panic goes on, or is kept by the emission on top, or goes outside. -/
theorem unwind_balanced (hf : c.focus = .panicking p) : Balanced c (c.unwind p) := by
  unfold Balanced
  rw [show c.raised? = none by rw [raised?, hf], told_eq_nil (by rw [report?, hf]), escaped?, hf, outstanding, hf,
    unwind]
  rcases hframes : c.frames with _ | ⟨f, rest⟩
  · exact .refl _
  · cases f with
    | emission e =>
      dsimp only
      by_cases hpolicy : e.policy = .collecting
      · rw [if_pos hpolicy]
        simp only [outstanding, Focus.panic?, Frame.kept, if_pos hpolicy, List.flatMap_cons, Option.toList_none,
          List.map_nil, List.nil_append]
        rw [← List.append_assoc]
        exact List.perm_append_comm.append_right _
      · simp [outstanding, Focus.panic?, Frame.kept, hpolicy]
    | _ => exact .refl _

theorem Move.balanced (hc : WellFormed c) (h : Move .any c d) : Balanced c d := by
  cases h with
  | tick _ =>
    unfold Config.tick
    split
    · rename_i hf
      exact start_balanced hc hf
    · rename_i hf
      exact call_balanced hf
    · rename_i hf
      exact resume_balanced hf
    · rename_i hf
      exact answer_balanced hf
    · rename_i hf
      exact unwind_balanced hf
    · rename_i hf
      have hquiet := quiet_finished hf
      exact hquiet.balanced (outstanding_eq hquiet.panic)
  | act hframes hf step => exact (quiet_resume hf (by simp [hframes])).balanced rfl
  | next hf step =>
    refine (quiet_finished hf).balanced ?_
    rw [frames_of_finished hc hf]
    rfl
  | furnish hf _ layout rules =>
    have hquiet : c.Quiet := by
      rcases hf with ⟨⟨k, rest, hframes⟩, hf⟩ | ⟨r, hf⟩
      · exact quiet_resume hf (by simp [hframes])
      · exact quiet_finished hf
    exact hquiet.balanced (outstanding_eq hquiet.panic)

/-! ## Whole runs -/

/-- What is gone through from `x` on. -/
inductive Course (x : Config) : List Config → Config → Prop
  | start : Course x [] x
  | move {past : List Config} {c d : Config} (h : Course x past c) (hm : Move .any c d) : Course x (past ++ [c]) d

variable {past : List Config}

theorem Course.reachable (h : Course x past c) (hx : Reachable .any x) : Reachable .any c := by
  induction h with
  | start => exact hx
  | move _ hm ih => exact .tail ih hm

/-- The texts of the panics in a list. -/
def messagesOf (panics : List Panic) : List String := panics.map Panic.message

/-- No panic is lost, and none is told of twice. -/
theorem Course.balance (h : Course x past c) (hx : Reachable .any x) :
    (x.outstanding ++ messagesOf (past.filterMap raised?)).Perm
      (past.flatMap told ++ messagesOf (past.filterMap escaped?) ++ c.outstanding) := by
  induction h with
  | start => simp [messagesOf]
  | @move past c d h hm ih =>
    have hstep : Balanced c d := hm.balanced (h.reachable hx).wellFormed
    unfold Balanced at hstep
    -- Text by text, the two balances add up.
    rw [List.perm_iff_count] at ih hstep ⊢
    intro a
    have ih := ih a
    have hstep := hstep a
    simp only [World.filterMap_snoc, List.flatMap_append, List.flatMap_singleton, messagesOf, List.map_append,
      List.count_append] at ih hstep ⊢
    omega

theorem outstanding_of_finished (hc : WellFormed c) {r : Result} (hf : c.focus = .finished r) : c.outstanding = [] := by
  rw [outstanding, hf, frames_of_finished hc hf]
  rfl

theorem length_told (past : List Config) :
    (past.flatMap told).length = ((past.filterMap report?).map fun r => r.2.length).sum := by
  induction past with
  | nil => rfl
  | cons c past ih =>
    rw [List.flatMap_cons, List.length_append, ih, List.filterMap_cons, told]
    rcases c.report? with _ | r
    · exact Nat.zero_add _
    · rfl

end Config

end Conduit.Scenario
