/-
What an emission counts. Each of its calls returns or ends with a panic; a panic belongs to the last
call made, since the emission goes on only when that is over. So the number of calls and the texts of
panics that an emission keeps are those of what has happened (`Tally`).
-/
import Mathlib.Data.List.ModifyLast
import Conduit.Proofs.Scenario.Emission

namespace Conduit.Scenario.Config

variable {c d : Config}

/-- The panic that comes out of a call of the emission above so many frames. -/
def caught? (depth : Nat) (c : Config) : Option Panic :=
  match c.focus, c.frames with
  | .panicking p, .emission _ :: rest => if rest.length = depth then some p else none
  | _, _ => none

/-- Calls, with the panics that they have ended with, when one more is made or the last one panics. -/
def tell (depth : Nat) (calls : List (Place Slot × Option Panic)) (c : Config) : List (Place Slot × Option Panic) :=
  match c.served? depth, c.caught? depth with
  | some q, _ => calls ++ [(q, none)]
  | none, some p => calls.modifyLast fun k => (k.1, some p)
  | none, none => calls

/-- The calls that the emission above so many frames has made, with the panics that they have ended with. -/
def outcomes (depth : Nat) (past : List Config) : List (Place Slot × Option Panic) := past.foldl (tell depth) []

section

variable {depth : Nat} {e : Emission} {base upper : List Frame} {f : Frame} {p : Panic}

theorem caught?_eq_some_iff : c.caught? depth = some p ↔
    c.focus = .panicking p ∧ ∃ e rest, c.frames = .emission e :: rest ∧ rest.length = depth := by
  unfold caught?
  split
  · rename_i p' e' rest hf hframes
    rw [hframes]
    constructor
    · intro h
      split at h
      · rename_i hl
        cases h
        exact ⟨hf, e', rest, rfl, hl⟩
      · cases h
    · rintro ⟨hf', e'', rest', he, hl⟩
      cases he
      rw [hf] at hf'
      cases hf'
      rw [if_pos hl]
  · rename_i hno
    constructor
    · intro h
      cases h
    · rintro ⟨hf, e', rest, hframes, -⟩
      exact (hno p e' rest hf hframes).elim

theorem caught?_eq_none (hfocus : ∀ p, c.focus ≠ .panicking p) : c.caught? depth = none := by
  rw [Option.eq_none_iff_forall_ne_some]
  exact fun p hp => hfocus p (caught?_eq_some_iff.1 hp).1

/-- With something above the emission, it takes no panic. -/
theorem caught?_below (hf : c.frames = f :: (upper ++ .emission e :: base)) : c.caught? base.length = none := by
  rw [Option.eq_none_iff_forall_ne_some]
  intro p hp
  obtain ⟨-, e', rest, hr, hl⟩ := caught?_eq_some_iff.1 hp
  exact height_ne_of_below hf hr hl

theorem outcomes_snoc (past : List Config) (c : Config) :
    outcomes depth (past ++ [c]) = tell depth (outcomes depth past) c := by
  rw [outcomes, List.foldl_append, List.foldl_cons, List.foldl_nil, outcomes]

theorem tell_idle {calls : List (Place Slot × Option Panic)} (hs : c.served? depth = none)
    (hp : c.caught? depth = none) :
    tell depth calls c = calls := by
  rw [tell, hs, hp]

end

/-- What an emission that is at `e` has counted, when it has come through `past` to `c`. -/
structure Tally (base : List Frame) (past : List Config) (c : Config) (e : Emission) : Prop where
  frames : ∃ upper, c.frames = upper ++ .emission e :: base
  called : e.called = (outcomes base.length past).length
  messages : e.messages = (outcomes base.length past).filterMap fun k => k.2.map Panic.message
  places : (outcomes base.length past).map (·.1) = past.filterMap (served? base.length)
  panics : (outcomes base.length past).filterMap (·.2) = past.filterMap (caught? base.length)
  /-- While the emission waits, its last call is not over. -/
  waits : c.emitting? base.length = none → ∃ calls q, outcomes base.length past = calls ++ [(q, none)]

section

variable {base : List Frame} {past : List Config} {e : Emission} {q : Place Slot} {p : Panic}

/-- Where an emission neither goes on nor takes a panic, it counts nothing. -/
theorem Tally.idle (h : Tally base past c e) (hem : c.emitting? base.length = none) (hc : c.caught? base.length = none)
    (hd : ∃ upper, d.frames = upper ++ .emission e :: base) : Tally base (past ++ [c]) d e := by
  obtain ⟨-, hserved⟩ := no_turn hem
  have hsame : outcomes base.length (past ++ [c]) = outcomes base.length past := by
    rw [outcomes_snoc, tell_idle hserved hc]
  refine ⟨hd, ?_, ?_, ?_, ?_, fun _ => ?_⟩
  · rw [hsame, h.called]
  · rw [hsame, h.messages]
  · rw [hsame, h.places, World.filterMap_snoc, hserved, Option.toList_none, List.append_nil]
  · rw [hsame, h.panics, World.filterMap_snoc, hc, Option.toList_none, List.append_nil]
  · rw [hsame]
    exact h.waits hem

/-- One more call is made. -/
theorem Tally.call (h : Tally base past c e) (hs : c.served? base.length = some q) (hc : c.caught? base.length = none)
    {remaining : List (Place Slot)}
    (hd : d.frames = .emission { e with remaining, called := e.called + 1 } :: base) :
    Tally base (past ++ [c]) d { e with remaining, called := e.called + 1 } := by
  have hmore : outcomes base.length (past ++ [c]) = outcomes base.length past ++ [(q, none)] := by
    rw [outcomes_snoc, tell, hs]
  refine ⟨⟨[], hd⟩, ?_, ?_, ?_, ?_, fun _ => ⟨_, q, hmore⟩⟩
  · rw [hmore, List.length_append, ← h.called]
    rfl
  · rw [hmore, World.filterMap_snoc, ← h.messages]
    exact (List.append_nil _).symm
  · rw [hmore, List.map_append, h.places, World.filterMap_snoc, hs]
    rfl
  · rw [hmore, World.filterMap_snoc, h.panics, World.filterMap_snoc, hc]

/-- A place that is not connected any more is passed over. -/
theorem Tally.skip (h : Tally base past c e) (hs : c.served? base.length = none) (hc : c.caught? base.length = none)
    {remaining : List (Place Slot)} (hd : d.frames = .emission { e with remaining } :: base) (hf : d.focus = .resume) :
    Tally base (past ++ [c]) d { e with remaining } := by
  have hsame : outcomes base.length (past ++ [c]) = outcomes base.length past := by
    rw [outcomes_snoc, tell_idle hs hc]
  refine ⟨⟨[], hd⟩, ?_, ?_, ?_, ?_, fun hno => ?_⟩
  · rw [hsame, ← h.called]
  · rw [hsame, ← h.messages]
  · rw [hsame, h.places, World.filterMap_snoc, hs, Option.toList_none, List.append_nil]
  · rw [hsame, h.panics, World.filterMap_snoc, hc, Option.toList_none, List.append_nil]
  · rw [emitting?_of_frames hd hf] at hno
    cases hno

/-- The last call ends with a panic. -/
theorem Tally.catch (h : Tally base past c e) (hc : c.caught? base.length = some p)
    (hd : d.frames = .emission { e with messages := e.messages ++ [p.message] } :: base) (hf : d.focus = .resume) :
    Tally base (past ++ [c]) d { e with messages := e.messages ++ [p.message] } := by
  obtain ⟨hfocus, -⟩ := caught?_eq_some_iff.1 hc
  have hem : c.emitting? base.length = none := emitting?_eq_none (by rw [hfocus]; nofun)
  obtain ⟨-, hserved⟩ := no_turn hem
  obtain ⟨calls, q, hcalls⟩ := h.waits hem
  -- The panic is that of the last call, which had no outcome yet.
  have hnow : outcomes base.length (past ++ [c]) = calls ++ [(q, some p)] := by
    rw [outcomes_snoc, tell, hserved, hc, hcalls]
    exact List.modifyLast_concat _ _ _
  have hbefore : calls.filterMap (·.2) = past.filterMap (caught? base.length) := by
    rw [← h.panics, hcalls, World.filterMap_snoc]
    exact (List.append_nil _).symm
  refine ⟨⟨[], hd⟩, ?_, ?_, ?_, ?_, fun hno => ?_⟩
  · rw [hnow, List.length_append]
    exact h.called.trans (by rw [hcalls, List.length_append]; rfl)
  · rw [hnow, World.filterMap_snoc, h.messages, hcalls, World.filterMap_snoc]
    exact congrArg (· ++ _) (List.append_nil _)
  · rw [hnow, World.filterMap_snoc, hserved, Option.toList_none, List.append_nil, ← h.places, hcalls, List.map_append,
      List.map_append]
    rfl
  · rw [hnow, World.filterMap_snoc, hbefore, World.filterMap_snoc, hc]
  · rw [emitting?_of_frames hd hf] at hno
    cases hno

/-- An emission that goes on to be under way goes on counting. -/
theorem Tally.move (hs : WellFormed c) (h : Tally base past c e) (hm : Move .any c d)
    (habove : base.length < d.frames.length) :
    ∃ e', Tally base (past ++ [c]) d e' := by
  obtain ⟨upper, hf⟩ := h.frames
  -- The tally changes in a turn of the emission or when it catches a panic.
  rcases upper with _ | ⟨f, upper⟩
  · rw [List.nil_append] at hf
    rcases hm.at_emission hs hf with ⟨hfocus, rfl⟩ | ⟨slot, v, hfocus, rfl⟩ | ⟨p, hfocus, rfl⟩
    · have hc : c.caught? base.length = none := caught?_eq_none (by rw [hfocus]; nofun)
      have hserved := served?_of_emitting? (emitting?_of_frames hf hfocus)
      unfold visit at habove ⊢
      rcases hrem : e.remaining with _ | ⟨q, remaining⟩
      · rw [hrem] at habove
        exact absurd habove (lt_irrefl _)
      · rw [hrem, List.head?_cons, Option.filter_some] at hserved
        dsimp only
        split
        · rename_i hconn
          rw [if_pos hconn] at hserved
          exact ⟨_, h.call hserved hc rfl⟩
        · rename_i hconn
          rw [if_neg hconn] at hserved
          exact ⟨_, h.skip hserved hc rfl rfl⟩
    · have hem : c.emitting? base.length = none := emitting?_eq_none (by rw [hfocus]; nofun)
      refine ⟨e, h.idle hem (caught?_eq_none (by rw [hfocus]; nofun)) ?_⟩
      unfold Config.call
      split
      · exact ⟨[_], congrArg _ hf⟩
      · exact ⟨[], hf⟩
    · have hc : c.caught? base.length = some p := caught?_eq_some_iff.2 ⟨hfocus, e, base, hf, rfl⟩
      have hunwind : c.unwind p = if e.policy = .collecting then
          { c with frames := .emission { e with messages := e.messages ++ [p.message] } :: base, focus := .resume }
          else { c with frames := base, focus := .panicking p } := by rw [unwind, hf]
      rw [hunwind] at habove ⊢
      split at habove
      · rename_i hpol
        rw [if_pos hpol]
        exact ⟨_, h.catch hc rfl rfl⟩
      · exact absurd habove (lt_irrefl _)
  · exact ⟨e, h.idle (emitting?_below hf) (caught?_below hf) (hm.frames_above hs hf)⟩

theorem Underway.tally (h : Underway base e c past d) : ∃ e', Tally base past d e' := by
  induction h with
  | begins hb hm hf hnew =>
    obtain ⟨hfocus, hbegins⟩ := (hm.shift hb.wellFormed).begins e base hf hnew
    refine ⟨e, ⟨[], hf⟩, hbegins.called, hbegins.messages, rfl, rfl, fun hno => ?_⟩
    rw [emitting?_of_frames hf hfocus] at hno
    cases hno
  | move h hm habove ih =>
    obtain ⟨e', htally⟩ := ih
    exact htally.move h.reachable.wellFormed hm habove

end

end Conduit.Scenario.Config
