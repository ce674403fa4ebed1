/-
The account of panics. Each is raised above the frames that there are, ends frames up to the nearest that catches it
and goes there as it is; emissions report just those that have come to them. None gets lost, and none counts twice
(`Accounts`).
-/
import Conduit.Proofs.Scenario.Flight

namespace Conduit.Scenario.Config

variable {c d x : Config} {p : Panic} {past : List Config}

/-! ## The whole account -/

/-- Where a panic is raised, told of or gone outside there is only one way on. -/
theorem move_iff_tick_of_panic (h : c.raised?.isSome ∨ c.report?.isSome ∨ c.escaped?.isSome) :
    Move .any c d ↔ d = c.tick := by
  have hloud : ¬ c.Quiet := fun hquiet => by
    rw [hquiet.raised, hquiet.report, escaped?_eq_none hquiet.panic] at h
    simp at h
  -- There is a choice only in a handler or at the end, and there all is quiet.
  rcases hf : c.focus with ⟨step, given⟩ | ⟨slot, v⟩ | _ | r | q | r
  case resume =>
    exact move_iff_tick (by simp [hf]) fun _ k rest hframes => hloud (quiet_resume hf (by simp [hframes]))
  case finished => exact absurd (quiet_finished hf) hloud
  all_goals exact move_iff_tick (by simp [hf]) (by simp [hf])

/-- A panic is raised above the frames that there are. -/
theorem frames_of_raised? (h : c.raised? = some p) : ∃ op holds, c.tick.frames = .step op holds :: c.frames := by
  rcases hf : c.focus with ⟨step, given⟩ | ⟨slot, v⟩ | _ | r | q | r
  case start =>
    revert h
    rw [raised?, tick, hf]
    dsimp only
    rw [start]
    rcases c.bench.perform c.frames given step.action with why | ⟨bench, outcome, holds⟩ <;> intro h
    · cases h
    · cases outcome with
      | panic q => exact ⟨_, _, rfl⟩
      | _ => cases h
  all_goals
    rw [raised?, hf] at h
    cases h

theorem raised?_eq_some_iff : c.raised? = some p ↔ c.tick.focus = .panicking p ∧ ∀ q, c.focus ≠ .panicking q := by
  rw [raised?_eq, ← Focus.panic?_eq_some_iff]
  simp only [ne_eq, ← Focus.panic?_eq_some_iff]
  cases c.focus.panic? <;> simp

theorem escaped?_eq_some_iff : c.escaped? = some p ↔ c.focus = .panicking p ∧
    (c.frames = [] ∨ ∃ steps given results base, c.frames = .thread steps given results :: base) := by
  unfold escaped?
  split
  · rename_i q hf hframes
    rw [hf, hframes, Option.some.injEq, Focus.panicking.injEq]
    exact ⟨fun h => ⟨h, .inl rfl⟩, fun h => h.1⟩
  · rename_i q steps given results base hf hframes
    rw [hf, hframes, Option.some.injEq, Focus.panicking.injEq]
    exact ⟨fun h => ⟨h, .inr ⟨_, _, _, _, rfl⟩⟩, fun h => h.1⟩
  · rename_i hnil hthread
    refine iff_of_false (by simp) ?_
    rintro ⟨hf, hframes | ⟨steps, given, results, base, hframes⟩⟩
    · exact hnil p hf hframes
    · exact hthread p steps given results base hf hframes

/-- What becomes of the panics on a course that has come from `x` through `past` to `c`. -/
structure Accounts (x : Config) (past : List Config) (c : Config) : Prop where
  /-- A panic is raised by a step, above the frames that there are then. -/
  raised : ∀ y ∈ past, ∀ p, (y.raised? = some p ↔ y.tick.focus = .panicking p ∧ ∀ q, y.focus ≠ .panicking q) ∧
    (y.raised? = some p → ∃ op holds, y.tick.frames = .step op holds :: y.frames)
  /-- It ends all frames up to the nearest that catches it, and goes there as it is; if there is none it
  is the answer of the outermost step. -/
  lands : ∀ y ∈ past, ∀ p, y.focus = .panicking p → Lands p y
  /-- The emissions that it ends call nothing from then on. -/
  silent : ∀ y ∈ past, ∀ p, y.focus = .panicking p → ∀ base e b before later d,
    Underway base e b (before ++ y :: later) d → y.spared.length ≤ base.length →
      ∀ z ∈ y :: later ++ [d], z.call? base.length = none
  /-- Of those that go on the one that catches it has one more text to report, and the others do not. -/
  credits : ∀ y ∈ past, ∀ p, y.focus = .panicking p → ∀ base e b before later d d',
    Underway base e b (before ++ y :: later) d → base.length < y.spared.length → Move .any d d' →
    d'.frames.length ≤ base.length → texts base.length (before ++ y :: later) = texts base.length before ++
      (if y.spared.length = base.length + 1 then [p.message] else []) ++ texts base.length (later.drop y.doomed.length)
  catcher : ∀ y ∈ past, ∀ base e b before, Underway base e b before y → y.spared.length = base.length + 1 →
    e.policy = .collecting
  /-- An emission that catches panics answers with the texts of those that have come to it. -/
  reports : ∀ y ∈ past, ∀ base e b before d, Underway base e b before y → e.policy = .collecting → Move .any y d →
    d.frames.length ≤ base.length → Reports base e b before y d
  answers : ∀ y ∈ past, ∀ total messages,
    y.report? = some (total, messages) ↔ y.tick.focus = .ended (.slotsFailed total messages)
  outside : ∀ y ∈ past, ∀ p, y.escaped? = some p ↔ y.focus = .panicking p ∧
    (y.frames = [] ∨ ∃ steps given results base, y.frames = .thread steps given results :: base)
  ticks : ∀ y ∈ past, y.raised?.isSome ∨ y.report?.isSome ∨ y.escaped?.isSome → ∀ d, Move .any y d ↔ d = y.tick
  /-- Text by text, what has been raised is what has been reported, has gone outside or is outstanding. -/
  balance : (x.outstanding ++ messagesOf (past.filterMap raised?)).Perm
    (past.flatMap told ++ messagesOf (past.filterMap escaped?) ++ c.outstanding)
  /-- Where nothing is under way, before and after, the numbers agree. -/
  count : ∀ r r', x.focus = .finished r → c.focus = .finished r' → (past.filterMap raised?).length =
    ((past.filterMap report?).map fun r => r.2.length).sum + (past.filterMap escaped?).length

/-- No panic gets lost, none counts twice, and each goes to where it belongs. -/
theorem panics_accounted (hx : Reachable .any x) (h : Course x past c) : Accounts x past c where
  raised _ _ _ := ⟨raised?_eq_some_iff, frames_of_raised?⟩
  lands _ _ _ hf := Config.lands hf
  silent _ _ _ hf _ _ _ _ _ _ hu hlow := hu.silent hf hlow
  credits _ _ _ hf _ _ _ _ _ _ _ hu hlow hm hend := hu.credits hf hlow hm hend
  catcher y _ _ _ _ _ hu hl := by
    obtain ⟨f, rest, hs⟩ := List.exists_cons_of_length_pos (show 0 < y.spared.length by omega)
    rw [hs, List.length_cons, Nat.add_right_cancel_iff] at hl
    obtain ⟨-, -, hpolicy⟩ := hu.catcher hs hl
    exact hpolicy
  reports _ _ _ _ _ _ _ hu hpolicy hm hend := hu.reports hpolicy hm hend
  answers y _ _ _ := by rw [report?_eq, Focus.failed?_eq_some_iff]
  outside _ _ _ := escaped?_eq_some_iff
  ticks _ _ hs _ := move_iff_tick_of_panic hs
  balance := h.balance hx
  count r r' hf hf' := by
    -- At both ends nothing is outstanding, so what has been raised is what has been told.
    have hbalance := (h.balance hx).length_eq
    rw [outstanding_of_finished hx.wellFormed hf, outstanding_of_finished (h.reachable hx).wellFormed hf',
      List.nil_append, List.append_nil, List.length_append, length_told] at hbalance
    simpa [messagesOf] using hbalance

/-- What so many ticks go through. -/
def traced : Nat → Config → List Config
  | 0, _ => []
  | n + 1, c => c :: traced n c.tick

theorem Course.ticks : ∀ {past : List Config} {c : Config} (n : Nat), Course x past c →
    Course x (past ++ c.traced n) (tick^[n] c)
  | past, _, 0, h => by rwa [traced, List.append_nil]
  | past, c, n + 1, h => by
    rw [traced, List.append_cons, Function.iterate_succ_apply]
    exact Course.ticks n (h.move (.tick fun step _ _ => step.action.within_any))

/-- A component hands every value on, trying to publish it to another one that panics, and panics then
itself. -/
def relayed : Config :=
  let relay : Rules := [{ guard := {}, times := none, steps := [⟨none, .tryPublish (some "m.o0") (some (.int 7))⟩,
    ⟨none, .panic (some "static") (some "later")⟩] }]
  let startle : Rules := [{ guard := {}, times := none, steps := [⟨none, .panic (some "static") (some "no")⟩] }]
  { empty with bench := ((empty.bench.furnish "a" { inputs := [], outputs := [(.int, .many)] } []).furnish "m"
      { inputs := [.int], outputs := [(.int, .many)] } relay).furnish "b" { inputs := [.int], outputs := [] } startle }
    |>.play 9 [⟨none, .subscribe (some "a.o0") (some "m.i0") none none⟩,
      ⟨none, .subscribe (some "m.o0") (some "b.i0") none none⟩]

theorem reachable_relayed : Reachable .any relayed :=
  .play 9 _ (.tail (.tail (.tail .refl (.furnish (.inr ⟨_, rfl⟩) (by decide) _ _))
    (.furnish (.inr ⟨_, rfl⟩) (by decide) _ _)) (.furnish (.inr ⟨_, rfl⟩) (by decide) _ _))

/-- For instance of two panics, one below the other, each is told of once. -/
theorem panics_accounted_relayed :
    let begun := relayed.next ⟨none, .tryPublish (some "a.o0") (some (.int 7))⟩
    Accounts relayed (relayed :: begun.traced 23) (tick^[23] begun) ∧
      (relayed :: begun.traced 23).filterMap raised? = [.text "no", .text "later"] ∧
      (relayed :: begun.traced 23).filterMap report? = [(1, ["no"]), (1, ["later"])] ∧
      (relayed :: begun.traced 23).filterMap escaped? = [] := by
  intro begun
  have hbegun : Course relayed [relayed] begun := .move .start (.next rfl _)
  exact ⟨panics_accounted reachable_relayed (hbegun.ticks 23), by decide +kernel, by decide +kernel, by decide +kernel⟩

end Conduit.Scenario.Config
