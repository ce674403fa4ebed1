/-
The course of an emission. It begins with the move that puts it on the frames, and is under way as
long as it stays there; in between its turns whatever is above it may do anything. It visits the places
of its beginning in order, and calls those that are connected at their turn.
-/
import Conduit.Proofs.Scenario.Shift

namespace Conduit.Scenario

open World (License)

namespace Config

variable {may : License} {c d : Config}

/-! ## Turns and calls -/

/-- The emission above so many frames, when it is the next to go on. -/
def emitting? (depth : Nat) (c : Config) : Option Emission :=
  match c.focus, c.frames with
  | .resume, .emission e :: rest => if rest.length = depth then some e else none
  | _, _ => none

/-- The place whose turn it is. -/
def turn? (depth : Nat) (c : Config) : Option (Place Slot) := (c.emitting? depth).bind (·.remaining.head?)

/-- The place whose turn it is, if it is connected. -/
def served? (depth : Nat) (c : Config) : Option (Place Slot) :=
  (c.emitting? depth).bind fun e => e.remaining.head?.filter fun q => c.bench.isConnected e.source q.id

/-- The call that the emission above so many frames makes. -/
def call? (depth : Nat) (c : Config) : Option (Slot × Value) :=
  match c.focus, c.frames with
  | .call slot v, .emission _ :: rest => if rest.length = depth then some (slot, v) else none
  | _, _ => none

section Turns

variable {e : Emission} {base : List Frame} {q : Place Slot} {depth : Nat}

theorem emitting?_eq_some_iff :
    c.emitting? depth = some e ↔ c.focus = .resume ∧ ∃ rest, c.frames = .emission e :: rest ∧ rest.length = depth := by
  unfold emitting?
  split
  · rename_i e' rest hf hframes
    rw [hframes]
    constructor
    · intro h
      split at h
      · rename_i hl
        cases h
        exact ⟨hf, rest, rfl, hl⟩
      · cases h
    · rintro ⟨-, rest', he, hl⟩
      cases he
      rw [if_pos hl]
  · rename_i hno
    constructor
    · intro h
      cases h
    · rintro ⟨hf, rest, hframes, -⟩
      exact (hno e rest hf hframes).elim

theorem call?_eq_some_iff {slot : Slot} {v : Value} : c.call? depth = some (slot, v) ↔
    c.focus = .call slot v ∧ ∃ e rest, c.frames = .emission e :: rest ∧ rest.length = depth := by
  unfold call?
  split
  · rename_i slot' v' e' rest hf hframes
    rw [hframes]
    constructor
    · intro h
      split at h
      · rename_i hl
        cases h
        exact ⟨hf, e', rest, rfl, hl⟩
      · cases h
    · rintro ⟨hf', e'', rest', he, hl⟩
      cases he
      rw [hf] at hf'
      cases hf'
      rw [if_pos hl]
  · rename_i hno
    constructor
    · intro h
      cases h
    · rintro ⟨hf, e', rest, hframes, -⟩
      exact (hno slot v e' rest hf hframes).elim

theorem emitting?_of_frames (hf : c.frames = .emission e :: base) (hfocus : c.focus = .resume) :
    c.emitting? base.length = some e :=
  emitting?_eq_some_iff.2 ⟨hfocus, base, hf, rfl⟩

theorem emitting?_eq_none (hfocus : c.focus ≠ .resume) : c.emitting? depth = none := by
  rw [Option.eq_none_iff_forall_ne_some]
  exact fun e he => hfocus (emitting?_eq_some_iff.1 he).1

theorem call?_eq_none (hfocus : ∀ slot v, c.focus ≠ .call slot v) : c.call? depth = none := by
  rw [Option.eq_none_iff_forall_ne_some]
  exact fun ⟨slot, v⟩ he => hfocus slot v (call?_eq_some_iff.1 he).1

theorem turn?_of_emitting? (h : c.emitting? depth = some e) : c.turn? depth = e.remaining.head? := by
  rw [turn?, h, Option.bind_some]

theorem served?_of_emitting? (h : c.emitting? depth = some e) :
    c.served? depth = e.remaining.head?.filter fun q => c.bench.isConnected e.source q.id := by
  rw [served?, h, Option.bind_some]

theorem no_turn (h : c.emitting? depth = none) : c.turn? depth = none ∧ c.served? depth = none := by
  rw [turn?, served?, h]
  exact ⟨rfl, rfl⟩

/-- A place that is served has its turn. -/
theorem turn?_of_served? (h : c.served? depth = some q) : c.turn? depth = some q := by
  obtain ⟨e, he, h⟩ := Option.bind_eq_some_iff.1 h
  rw [turn?_of_emitting? he]
  exact (Option.filter_eq_some_iff.1 h).1

end Turns

/-! ## One move further -/

/-- From `c`, where the emission is at `e`, to `d`, where it is at `e'`: a place that has its turn is
done with, and its slot is called if it is connected. -/
structure Advance (base : List Frame) (c d : Config) (e e' : Emission) : Prop where
  frames : ∃ upper, d.frames = upper ++ .emission e' :: base
  source : e'.source = e.source
  value : e'.value = e.value
  snapshot : e'.snapshot = e.snapshot
  policy : e'.policy = e.policy
  remaining : e.remaining = (c.turn? base.length).toList ++ e'.remaining
  call : d.call? base.length = (c.served? base.length).map fun q => (q.slot, e.value)
  waits : (c.emitting? base.length).isSome → (d.emitting? base.length).isSome ∨
    ∃ q, c.turn? base.length = some q ∧ c.served? base.length = some q

/-- How an emission ends: all places have had their turn, or a panic comes out of a call. -/
inductive Ends (c d : Config) (e : Emission) : Prop
  | done (hc : c.focus = .resume) (hrem : e.remaining = []) {r : Result} (hd : d.focus = .ended r)
  | panicked {p : Panic} (hc : c.focus = .panicking p) (hd : d.focus = .panicking p) (hpol : e.policy ≠ .collecting)

section Step

variable {e : Emission} {base upper : List Frame}

theorem visit_advance (hf : c.frames = .emission e :: base) (hfocus : c.focus = .resume) :
    (∃ e', Advance base c (c.visit e base) e e') ∨ (c.visit e base).frames = base ∧ Ends c (c.visit e base) e := by
  have hem := emitting?_of_frames hf hfocus
  have hturn := turn?_of_emitting? hem
  have hserved := served?_of_emitting? hem
  unfold visit
  split
  · rename_i hrem
    exact .inr ⟨rfl, .done hfocus hrem rfl⟩
  · rename_i q remaining hrem
    -- The place has its turn, and is served if it is connected now.
    rw [hrem, List.head?_cons] at hturn hserved
    rw [Option.filter_some] at hserved
    split
    · rename_i hconn
      rw [if_pos hconn] at hserved
      refine .inl ⟨_, ⟨[], rfl⟩, rfl, rfl, rfl, rfl, ?_, ?_, fun _ => .inr ⟨q, hturn, hserved⟩⟩
      · rw [hturn, hrem]
        rfl
      · rw [hserved]
        exact call?_eq_some_iff.2 ⟨rfl, _, base, rfl, rfl⟩
    · rename_i hconn
      rw [if_neg hconn] at hserved
      refine .inl ⟨_, ⟨[], rfl⟩, rfl, rfl, rfl, rfl, ?_, ?_, fun _ => .inl ?_⟩
      · rw [hturn, hrem]
        rfl
      · rw [hserved]
        exact call?_eq_none nofun
      · rw [emitting?_of_frames rfl rfl]
        rfl

/-- Where an emission is not next to go on, it stays as it is. -/
theorem advance_of_idle (hc : c.emitting? base.length = none) {e' : Emission}
    (hframes : ∃ upper, d.frames = upper ++ .emission e' :: base) (he : e'.source = e.source ∧ e'.value = e.value ∧
      e'.snapshot = e.snapshot ∧ e'.policy = e.policy ∧ e'.remaining = e.remaining)
    (hcall : d.call? base.length = none) : Advance base c d e e' := by
  obtain ⟨hturn, hserved⟩ := no_turn hc
  obtain ⟨h1, h2, h3, h4, h5⟩ := he
  refine ⟨hframes, h1, h2, h3, h4, ?_, ?_, fun h => ?_⟩
  · rw [hturn, h5]
    rfl
  · rw [hserved, hcall]
    rfl
  · rw [hc] at h
    cases h

/-- Something is above the emission, and an emission on top of that is at another height. -/
theorem height_ne_of_below {f : Frame} (hf : c.frames = f :: (upper ++ .emission e :: base)) {e' : Emission}
    {rest : List Frame} (he : c.frames = .emission e' :: rest) : rest.length ≠ base.length := fun hl => by
  rw [hf, List.cons.injEq] at he
  rw [← he.2, List.length_append, List.length_cons] at hl
  omega

theorem emitting?_below {f : Frame} (hf : c.frames = f :: (upper ++ .emission e :: base)) :
    c.emitting? base.length = none := by
  rw [Option.eq_none_iff_forall_ne_some]
  intro e' he
  obtain ⟨-, rest, hr, hl⟩ := emitting?_eq_some_iff.1 he
  exact height_ne_of_below hf hr hl

theorem Move.advance (hc : WellFormed c) (h : Move may c d) (hf : c.frames = upper ++ .emission e :: base) :
    (∃ e', Advance base c d e e') ∨ d.frames = base ∧ Ends c d e := by
  -- The emission is on top and has its turn, or it waits for what is above it.
  rcases upper with _ | ⟨f, upper⟩
  · rw [List.nil_append] at hf
    rcases h.at_emission hc hf with ⟨hfocus, rfl⟩ | ⟨slot, v, hfocus, rfl⟩ | ⟨p, hfocus, rfl⟩
    · exact visit_advance hf hfocus
    · have hidle : c.emitting? base.length = none := emitting?_eq_none (by rw [hfocus]; nofun)
      refine .inl ⟨e, advance_of_idle hidle ?_ ⟨rfl, rfl, rfl, rfl, rfl⟩ ?_⟩
      · unfold call
        split
        · exact ⟨[_], congrArg _ hf⟩
        · exact ⟨[], hf⟩
      · unfold call
        split <;> exact call?_eq_none nofun
    · have hidle : c.emitting? base.length = none := emitting?_eq_none (by rw [hfocus]; nofun)
      have hunwind : c.unwind p = if e.policy = .collecting then
          { c with frames := .emission { e with messages := e.messages ++ [p.message] } :: base, focus := .resume }
          else { c with frames := base, focus := .panicking p } := by rw [unwind, hf]
      rw [hunwind]
      split
      · exact .inl ⟨_, advance_of_idle hidle ⟨[], rfl⟩ ⟨rfl, rfl, rfl, rfl, rfl⟩ (call?_eq_none nofun)⟩
      · rename_i hpol
        exact .inr ⟨rfl, .panicked hfocus rfl hpol⟩
  · obtain ⟨upper', hd⟩ := h.frames_above hc hf
    refine .inl ⟨e, advance_of_idle (emitting?_below hf) ⟨upper', hd⟩ ⟨rfl, rfl, rfl, rfl, rfl⟩ ?_⟩
    rw [Option.eq_none_iff_forall_ne_some]
    rintro ⟨slot, v⟩ hcall
    obtain ⟨hfocus, e', rest, hr, hl⟩ := call?_eq_some_iff.1 hcall
    obtain ⟨e'', hr'⟩ := (h.shift hc).calls slot v e' rest hfocus hr
    exact height_ne_of_below hf hr' hl

end Step

/-! ## The whole course -/

/-- An emission is under way. It began as `e` above the frames `base`, with the move that put it there
and led to `c`; the configurations `past`, of which `c` is the first, have been gone through since, and
`d` is the one that it has come to. -/
inductive Underway (base : List Frame) (e : Emission) (c : Config) : List Config → Config → Prop
  | begins {b : Config} (hb : Reachable .any b) (hm : Move .any b c) (hf : c.frames = .emission e :: base)
      (hnew : b.frames.length ≤ base.length) : Underway base e c [] c
  | move {past : List Config} {d d' : Config} (h : Underway base e c past d) (hm : Move .any d d')
      (habove : base.length < d'.frames.length) : Underway base e c (past ++ [d]) d'

/-- What an emission has come to, when it is at `e'` now. -/
structure Follows (base : List Frame) (e : Emission) (past : List Config) (c : Config) (e' : Emission) : Prop where
  frames : ∃ upper, c.frames = upper ++ .emission e' :: base
  source : e'.source = e.source
  value : e'.value = e.value
  snapshot : e'.snapshot = e.snapshot
  policy : e'.policy = e.policy
  turns : past.filterMap (turn? base.length) ++ e'.remaining = e.snapshot
  calls : (past ++ [c]).filterMap (call? base.length) =
    (past.filterMap (served? base.length)).map fun q => (q.slot, e.value)
  waits : (c.emitting? base.length).isSome ∨ ∃ q, (past.filterMap (turn? base.length)).getLast? = some q ∧
    (past.filterMap (served? base.length)).getLast? = some q

section Course

variable {e : Emission} {base : List Frame} {past : List Config}

theorem Underway.reachable (h : Underway base e c past d) : Reachable .any d := by
  induction h with
  | begins hb hm _ _ => exact .tail hb hm
  | move _ hm _ ih => exact .tail ih hm

/-- An emission begins at the places connected then. -/
theorem Underway.begin (h : Underway base e c past d) :
    Reachable .any c ∧ c.frames = .emission e :: base ∧ c.focus = .resume ∧ c.bench.Begins e := by
  induction h with
  | begins hb hm hf hnew => exact ⟨.tail hb hm, hf, (hm.shift hb.wellFormed).begins e base hf hnew⟩
  | move _ _ _ ih => exact ih

/-- What has been gone through begins with the beginning. -/
theorem Underway.head (h : Underway base e c past d) : past = [] ∧ d = c ∨ c ∈ past := by
  induction h with
  | begins _ _ _ _ => exact .inl ⟨rfl, rfl⟩
  | move _ _ _ ih =>
    rcases ih with ⟨rfl, rfl⟩ | hm
    · exact .inr (List.mem_singleton_self _)
    · exact .inr (List.mem_append_left _ hm)

/-- What has been gone through was gone through in this order. -/
theorem Underway.split (h : Underway base e c past d) : ∀ {before after : List Config} {x : Config},
    past = before ++ x :: after → Underway base e c before x ∧ Moves .any x d := by
  induction h with
  | begins _ _ _ _ =>
    intro before after x hp
    exact absurd hp.symm (List.append_ne_nil_of_right_ne_nil _ (List.cons_ne_nil _ _))
  | move h hm _ ih =>
    intro before after x hp
    rcases List.eq_nil_or_concat' after with rfl | ⟨after, y, rfl⟩
    · obtain ⟨rfl, hx⟩ := List.append_inj' hp rfl
      cases hx
      exact ⟨h, .single hm⟩
    · rw [← List.cons_append, ← List.append_assoc] at hp
      obtain ⟨rfl, hy⟩ := List.append_inj' hp rfl
      cases hy
      obtain ⟨hbefore, hmoves⟩ := ih rfl
      exact ⟨hbefore, .tail hmoves hm⟩

theorem Underway.moves (h : Underway base e c past d) : Moves .any c d := by
  induction h with
  | begins _ _ _ _ => exact .refl
  | move _ hm _ ih => exact .tail ih hm

/-- When the emission is next to go on, it is on top. -/
theorem Follows.frames_of_emitting? {e' e'' : Emission} (h : Follows base e past c e')
    (he : c.emitting? base.length = some e'') : c.frames = .emission e' :: base ∧ e'' = e' := by
  obtain ⟨-, rest, hrest, hl⟩ := emitting?_eq_some_iff.1 he
  obtain ⟨upper, hframes⟩ := h.frames
  rcases upper with _ | ⟨f, upper⟩
  · refine ⟨hframes, ?_⟩
    rw [hrest] at hframes
    cases hframes
    rfl
  · rw [hframes, List.cons_append, List.cons.injEq] at hrest
    rw [← hrest.2, List.length_append, List.length_cons] at hl
    omega

theorem Follows.advance {e' e'' : Emission} (h : Follows base e past c e') (ha : Advance base c d e' e'') :
    Follows base e (past ++ [c]) d e'' where
  frames := ha.frames
  source := ha.source.trans h.source
  value := ha.value.trans h.value
  snapshot := ha.snapshot.trans h.snapshot
  policy := ha.policy.trans h.policy
  turns := by rw [World.filterMap_snoc, List.append_assoc, ← ha.remaining, h.turns]
  calls := by
    rw [World.filterMap_snoc, h.calls, ha.call, World.filterMap_snoc, List.map_append, h.value]
    cases c.served? base.length <;> rfl
  waits := by
    rw [World.filterMap_snoc, World.filterMap_snoc]
    -- Between two turns the last turn is still the one that was served.
    rcases hc : c.emitting? base.length with _ | x
    · obtain ⟨hturn, hserved⟩ := no_turn hc
      rw [hturn, hserved]
      refine .inr ?_
      simpa [hc] using h.waits
    · refine (ha.waits (by rw [hc]; rfl)).imp id ?_
      rintro ⟨q, hturn, hserved⟩
      exact ⟨q, by simp [hturn], by simp [hserved]⟩

theorem Underway.follows (h : Underway base e c past d) : ∃ e', Follows base e past d e' := by
  induction h with
  | begins hb hm hf hnew =>
    obtain ⟨hfocus, hbegins⟩ := (hm.shift hb.wellFormed).begins e base hf hnew
    refine ⟨e, ⟨[], hf⟩, rfl, rfl, rfl, rfl, hbegins.remaining, ?_, .inl ?_⟩
    · have hcall : c.call? base.length = none := call?_eq_none (by rw [hfocus]; nofun)
      simp [hcall]
    · rw [emitting?_of_frames hf hfocus]
      rfl
  | move h hm habove ih =>
    obtain ⟨e', hfollows⟩ := ih
    obtain ⟨upper, hf⟩ := hfollows.frames
    rcases hm.advance h.reachable.wellFormed hf with ⟨e'', ha⟩ | ⟨hd, -⟩
    · exact ⟨e'', hfollows.advance ha⟩
    -- An emission that ends leaves nothing above its base.
    · rw [hd] at habove
      exact absurd habove (lt_irrefl _)

end Course

end Config

end Conduit.Scenario
