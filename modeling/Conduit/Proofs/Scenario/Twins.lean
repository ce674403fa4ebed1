/-
Publishing with and without catching panics. Two emissions that differ in that only are twins as long as
no call has ended with a panic: whatever happens on one happens on the other, with the same bench. The
first panic ends the one, and leaves with its payload; the other catches that panic and all later ones,
serves all its places, and reports what it caught.
-/
import Conduit.Proofs.Scenario.Graft
import Conduit.Proofs.Scenario.Reports

namespace Conduit.Scenario

namespace Bench

/-- Whether a value can be published does not depend on what becomes of panics. -/
theorem publish_cases (b : Bench) (given : Option Value) (endpoint : Field) (value : Option Expr) :
    (∃ why, ∀ policy, b.publish policy given endpoint value = .error why) ∨ ∃ ch v holds, ∀ policy,
      b.publish policy given endpoint value =
        .ok { bench := b, outcome := .emission (b.emissionAt policy ch v), holds } := by
  -- Endpoint, channel, value and direction are looked at in this order, for any policy.
  unfold publish
  dsimp only [bind, Except.bind]
  rcases b.endpoint endpoint with why | p
  · exact .inl ⟨why, fun _ => rfl⟩
  dsimp only
  rcases b.channelAt p with why | c
  · exact .inl ⟨why, fun _ => rfl⟩
  dsimp only
  rcases valueOf given c.payload value with why | v
  · exact .inl ⟨why, fun _ => rfl⟩
  dsimp only
  by_cases hd : c.direction = .input
  · refine .inl ⟨.badValue, fun _ => ?_⟩
    rw [if_pos hd]
    rfl
  · refine .inr ⟨p.channel, v, p.holds, fun _ => ?_⟩
    rw [if_neg hd]
    rfl

end Bench

namespace Config

/-- Two emissions of the policies `p` and `p'`, on the frames `base` and `base'`, are at the same point, and
no panic has been caught. -/
def Twins (p p' : Policy) (base base' : List Frame) (y x : Config) : Prop :=
  ∃ upper e, y.frames = upper ++ .emission e :: base ∧ e.policy = p ∧ e.messages = [] ∧
    x = { y with frames := upper ++ .emission { e with policy := p' } :: base' }

variable {p p' : Policy} {base base' : List Frame} {c d x x' y y' : Config}

theorem Twins.symm (h : Twins p p' base base' y x) : Twins p' p base' base x y := by
  obtain ⟨upper, e, hf, rfl, hmessages, rfl⟩ := h
  refine ⟨upper, { e with policy := p' }, rfl, rfl, hmessages, ?_⟩
  rw [← hf]

theorem Twins.length_lt (h : Twins p p' base base' y x) : base'.length < x.frames.length := by
  obtain ⟨upper, e, -, -, -, rfl⟩ := h
  rw [List.length_append, List.length_cons]
  omega

/-- Twins make the same calls, and the same panics come out of them. -/
theorem Twins.same (hl : base'.length = base.length) (h : Twins p p' base base' y x) :
    x.bench = y.bench ∧ x.focus = y.focus ∧ x.call? base.length = y.call? base.length ∧
      x.caught? base.length = y.caught? base.length := by
  obtain ⟨upper, e, hf, -, -, rfl⟩ := h
  refine ⟨rfl, rfl, ?_, ?_⟩
  · unfold call?
    dsimp only
    rw [hf]
    rcases upper with _ | ⟨f, upper⟩
    · rcases y.focus <;> simp [hl]
    · rcases f <;> rcases y.focus <;> simp [hl]
  · unfold caught?
    dsimp only
    rw [hf]
    rcases upper with _ | ⟨f, upper⟩
    · rcases y.focus <;> simp [hl]
    · rcases f <;> rcases y.focus <;> simp [hl]

theorem twins_of_graft {e : Emission} (hp : e.policy = p) (hm : e.messages = [])
    (h : Graft (.emission e :: base) (.emission { e with policy := p' } :: base') y x) : Twins p p' base base' y x := by
  obtain ⟨upper, hf, hx⟩ := h
  exact ⟨upper, e, hf, hp, hm, hx⟩

/-- When the emission goes on, its twin does. -/
theorem twins_visit {e : Emission} (hp : p ≠ .numbered) (hp' : p' ≠ .numbered)
    (hpolicy : e.policy = p) (hmessages : e.messages = [])
    (hx : x = { y with frames := .emission { e with policy := p' } :: base' }) :
    Twins p p' base base' (y.visit e base) (x.visit { e with policy := p' } base') ∨
      y.visit e base = { y with frames := base, focus := .ended .ok } ∧
        x.visit { e with policy := p' } base' = { y with frames := base', focus := .ended .ok } := by
  subst hx hpolicy
  unfold visit
  rcases hrem : e.remaining with _ | ⟨place, remaining⟩
  · have hend : ∀ (k : Emission) (low : List Frame), k.messages = [] →
        (⟨k.close y.bench, low, .ended k.result⟩ : Config) = { y with frames := low, focus := .ended .ok } :=
      fun k low hk => by
      rw [show k.close y.bench = y.bench from if_neg fun h => h.2 hk, show k.result = .ok from if_neg fun h => h.2 hk]
    exact .inr ⟨hend e base hmessages, hend { e with policy := p' } base' hmessages⟩
  · refine .inl ?_
    dsimp only
    split
    · exact ⟨[], _, rfl, rfl, hmessages, rfl⟩
    · exact ⟨[], _, rfl, rfl, hmessages, rfl⟩

/-- Whatever happens on an emission happens on its twin: both go on as twins, or both end, or a panic
comes out of a call. -/
theorem Twins.move (h : Twins p p' base base' y x) (hp : p ≠ .numbered) (hp' : p' ≠ .numbered) (hs : WellFormed y)
    (hm : Matched base base') (hmove : Move .any y y') :
    (∃ x', Move .any x x' ∧ Twins p p' base base' y' x' ∧ y.caught? base.length = none) ∨
    (y' = { y with frames := base, focus := .ended .ok } ∧
      Move .any x { y with frames := base', focus := .ended .ok }) ∨
    ∃ e q, y.frames = .emission e :: base ∧ e.policy = p ∧ y.focus = .panicking q ∧ y' = y.unwind q := by
  obtain ⟨upper, e, hf, hpolicy, hmessages, hx⟩ := h
  have hmatched : Matched (.emission e :: base) (.emission { e with policy := p' } :: base') :=
    hm.cons (fun _ => rfl) fun _ => rfl
  have htick : Move .any x x.tick := .tick fun step _ _ => step.action.within_any
  -- The two emissions are on top of both stacks, or the same frames are above them.
  rcases upper with _ | ⟨f, upper⟩
  · rw [List.nil_append] at hf hx
    rcases hmove.at_emission hs hf with ⟨hfocus, rfl⟩ | ⟨slot, v, hfocus, rfl⟩ | ⟨q, hfocus, rfl⟩
    · have hvisit : x.tick = x.visit { e with policy := p' } base' := by
        rw [hx]
        unfold tick
        dsimp only
        rw [hfocus]
        rfl
      rw [hvisit] at htick
      rcases twins_visit hp hp' hpolicy hmessages hx with htwins | ⟨hy, hx'⟩
      · exact .inl ⟨_, htick, htwins, caught?_eq_none (by rw [hfocus]; nofun)⟩
      · exact .inr (.inl ⟨hy, hx' ▸ htick⟩)
    · have hcall : x.tick = x.call slot v := by
        rw [hx]
        unfold tick
        dsimp only
        rw [hfocus]
      rw [hcall] at htick
      have hgraft : Graft (.emission e :: base) (.emission { e with policy := p' } :: base') (y.call slot v)
          (x.call slot v) :=
        graft_call ⟨[], hf, hx⟩ slot v
      exact .inl ⟨_, htick, twins_of_graft hpolicy hmessages hgraft, caught?_eq_none (by rw [hfocus]; nofun)⟩
    · exact .inr (.inr ⟨e, q, hf, hpolicy, hfocus, rfl⟩)
  · obtain ⟨x', hx', hgraft⟩ := graft_move hs hmatched hf hmove
    rw [← hx] at hx'
    exact .inl ⟨x', hx', twins_of_graft hpolicy hmessages hgraft, caught?_below hf⟩

/-! ## Runs side by side -/

/-- What is gone through from `x` on, with more than so many frames. -/
inductive Through (depth : Nat) (x : Config) : List Config → Config → Prop
  | start : Through depth x [] x
  | move {past : List Config} {d d' : Config} (h : Through depth x past d) (hm : Move .any d d')
      (habove : depth < d'.frames.length) : Through depth x (past ++ [d]) d'

theorem Through.moves {depth : Nat} {past : List Config} (h : Through depth x past d) : Moves .any x d := by
  induction h with
  | start => exact .refl
  | move _ hm _ ih => exact .tail ih hm

section

variable {e : Emission} {past past' : List Config} {q : Panic}

theorem no_panic_of_snoc {depth : Nat} (h : (past ++ [d]).filterMap (caught? depth) = []) :
    past.filterMap (caught? depth) = [] ∧ d.caught? depth = none := by
  rw [World.filterMap_snoc, List.append_eq_nil_iff] at h
  refine ⟨h.1, ?_⟩
  rcases hd : d.caught? depth with _ | p
  · rfl
  · rw [hd] at h
    cases h.2

/-- As long as no call has panicked, the twin goes the same way. -/
theorem Underway.twins (h : Underway base e y past d) (hm : Matched base base')
    (htwins : Twins .collecting .plain base base' y x)
    (hno : past.filterMap (caught? base.length) = []) : ∃ past' d', Through base'.length x past' d' ∧
      List.Forall₂ (Twins .collecting .plain base base') past past' ∧ Twins .collecting .plain base base' d d' := by
  induction h with
  | begins _ _ _ _ => exact ⟨[], x, .start, .nil, htwins⟩
  | @move past d d' h hmove habove ih =>
    obtain ⟨hbefore, hd⟩ := no_panic_of_snoc hno
    obtain ⟨past', z, hthrough, hpast, hz⟩ := ih hbefore
    rcases hz.move (by decide) (by decide) h.reachable.wellFormed hm hmove with
      ⟨z', hz', htwins', -⟩ | ⟨rfl, -⟩ | ⟨e', q, hf, -, hfocus, -⟩
    · exact ⟨past' ++ [z], z', hthrough.move hz' htwins'.length_lt, List.rel_append hpast (.cons hz .nil), htwins'⟩
    · exact absurd habove (lt_irrefl _)
    · rw [caught?_eq_some_iff.2 ⟨hfocus, e', base, hf, rfl⟩] at hd
      cases hd

/-- And it cannot go another way. -/
theorem Through.twins (h : Through base'.length x past' d) (hx : WellFormed x) (hm : Matched base base')
    (hl : base'.length = base.length) (hy : Underway base e y [] y) (htwins : Twins .collecting .plain base base' y x) :
    ∃ past z, Underway base e y past z ∧ past.filterMap (caught? base.length) = [] ∧
      List.Forall₂ (Twins .collecting .plain base base') past past' ∧ Twins .collecting .plain base base' z d := by
  induction h with
  | start => exact ⟨[], y, hy, rfl, .nil, htwins⟩
  | @move past' d d' h hmove habove ih =>
    obtain ⟨past, z, hunder, hno, hpast, hz⟩ := ih
    have hwell := h.moves.wellFormed hx
    rcases hz.symm.move (by decide) (by decide) hwell hm.symm hmove with
      ⟨z', hz', htwins', hd⟩ | ⟨rfl, -⟩ | ⟨e', q, hf, hplain, hfocus, rfl⟩
    · have hcaught : z.caught? base.length = none := by
        obtain ⟨-, -, -, hsame⟩ := hz.same hl
        rw [← hsame, ← hl]
        exact hd
      refine ⟨past ++ [z], z', hunder.move hz' htwins'.length_lt, ?_,
        List.rel_append hpast (.cons hz .nil), htwins'.symm⟩
      rw [World.filterMap_snoc, hno, hcaught]
      rfl
    · exact absurd habove (lt_irrefl _)
    · -- A panic would end the plain emission, and then there is nothing above its base.
      have hunwind : d.unwind q = { d with frames := base', focus := .panicking q } := by
        rw [unwind, hf]
        dsimp only
        rw [if_neg (by rw [hplain]; decide)]
      rw [hunwind] at habove
      exact absurd habove (lt_irrefl _)

end

/-! ## Publishing and trying to publish -/

/-- How publishing, begun at `x` on the frames `base'`, compares with trying to publish, begun at `y` on `base`. -/
structure Compares (base base' : List Frame) (e : Emission) (y x : Config) : Prop where
  /-- Twins are on the same bench, do the same next and make the same calls. -/
  same : ∀ d z, Twins .collecting .plain base base' d z → z.bench = d.bench ∧ z.focus = d.focus ∧
    z.call? base.length = d.call? base.length ∧ z.caught? base.length = d.caught? base.length
  /-- As long as no call of the one has ended with a panic, the other goes the same way, -/
  follows : ∀ past d, Underway base e y past d → past.filterMap (caught? base.length) = [] → ∃ past' d',
    Through base.length x past' d' ∧ List.Forall₂ (Twins .collecting .plain base base') past past' ∧
      Twins .collecting .plain base base' d d'
  /-- and it goes no other. -/
  only : ∀ past' d', Through base.length x past' d' → ∃ past d, Underway base e y past d ∧
    past.filterMap (caught? base.length) = [] ∧ List.Forall₂ (Twins .collecting .plain base base') past past' ∧
      Twins .collecting .plain base base' d d'
  /-- Without any panic both end, on the same bench. -/
  succeeds : ∀ past d d', Underway base e y past d → past.filterMap (caught? base.length) = [] → Move .any d d' →
    d'.frames.length ≤ base.length → d' = { d with frames := base, focus := .ended .ok } ∧
      ∀ z z', Twins .collecting .plain base base' d z →
        (Move .any z z' ↔ z' = { d with frames := base', focus := .ended .ok })
  /-- The first panic ends publishing, and leaves it; -/
  fails : ∀ past d q, Underway base e y past d → d.caught? base.length = some q → ∀ z z',
    Twins .collecting .plain base base' d z → (Move .any z z' ↔ z' = { d with frames := base', focus := .panicking q })
  /-- trying to publish goes on after a panic, -/
  catches : ∀ past d q d', Underway base e y past d → d.caught? base.length = some q → Move .any d d' →
    base.length < d'.frames.length ∧ d'.focus = .resume
  /-- and tells of them all at its end. -/
  reports : ∀ past d d', Underway base e y past d → Move .any d d' → d'.frames.length ≤ base.length →
    Reports base e y past d d'

/-- With an emission on top there is only one way on: it goes on itself, -/
theorem move_iff_visit {e : Emission} (hf : y.frames = .emission e :: base) (hfocus : y.focus = .resume) :
    Move .any y y' ↔ y' = y.visit e base := by
  constructor
  · intro hm
    rcases hm.at_emission_of_fits (by rw [hf, hfocus]; trivial) hf with ⟨-, rfl⟩ | ⟨slot, v, hc, -⟩ | ⟨q, hq, -⟩
    · rfl
    · rw [hfocus] at hc
      cases hc
    · rw [hfocus] at hq
      cases hq
  · rintro rfl
    have htick : y.tick = y.visit e base := by rw [tick, hfocus]; dsimp only; rw [resume, hf]
    rw [← htick]
    exact .tick fun step _ _ => step.action.within_any

/-- or a panic comes out of it. -/
theorem move_iff_unwind {e : Emission} {q : Panic} (hf : y.frames = .emission e :: base)
    (hfocus : y.focus = .panicking q) :
    Move .any y y' ↔ y' = y.unwind q := by
  constructor
  · intro hm
    rcases hm.at_emission_of_fits (by rw [hf, hfocus]; trivial) hf with ⟨hr, -⟩ | ⟨slot, v, hc, -⟩ | ⟨q', hq, rfl⟩
    · rw [hfocus] at hr
      cases hr
    · rw [hfocus] at hc
      cases hc
    · rw [hfocus] at hq
      cases hq
      rfl
  · rintro rfl
    have htick : y.tick = y.unwind q := by rw [tick, hfocus]
    rw [← htick]
    exact .tick fun step _ _ => step.action.within_any

/-- The twin of a configuration with the emission on top has its own on top. -/
theorem Twins.on_top {e : Emission} (h : Twins p p' base base' y x) (hf : y.frames = .emission e :: base) :
    e.policy = p ∧ e.messages = [] ∧ x = { y with frames := .emission { e with policy := p' } :: base' } := by
  obtain ⟨upper, k, hframes, hpolicy, hmessages, hx⟩ := h
  rw [hf] at hframes
  have hupper : upper = [] := by
    have hl := congrArg List.length hframes
    rw [List.length_append, List.length_cons, List.length_cons] at hl
    exact List.length_eq_zero_iff.1 (by omega)
  subst hupper
  cases hframes
  exact ⟨hpolicy, hmessages, hx⟩

/-- When a panic comes out of a call, the emission is on top. -/
theorem Underway.on_top_of_caught? {e : Emission} {past : List Config} {q : Panic} (h : Underway base e y past d)
    (hq : d.caught? base.length = some q) :
    ∃ e', d.frames = .emission e' :: base ∧ d.focus = .panicking q ∧ e'.policy = e.policy := by
  obtain ⟨hfocus, e', rest, hrest, hlength⟩ := caught?_eq_some_iff.1 hq
  obtain ⟨k, hk⟩ := h.follows
  obtain ⟨upper, hupper⟩ := hk.frames
  refine ⟨k, ?_, hfocus, hk.policy⟩
  rcases upper with _ | ⟨f, upper⟩
  · exact hupper
  · rw [hrest, List.cons_append, List.cons.injEq] at hupper
    rw [hupper.2, List.length_append, List.length_cons] at hlength
    omega

/-- Emissions that begin as twins compare. -/
theorem Underway.compares {e : Emission} (hy : Underway base e y [] y) (hpolicy : e.policy = .collecting)
    (hx : WellFormed x) (hm : Matched base base') (hl : base'.length = base.length)
    (htwins : Twins .collecting .plain base base' y x) :
    Compares base base' e y x where
  same _ _ hz := hz.same hl
  follows past d h hno := by
    obtain ⟨past', d', hthrough, hpast, hd⟩ := h.twins hm htwins hno
    exact ⟨past', d', hl ▸ hthrough, hpast, hd⟩
  only past' d' h := (hl ▸ h : Through base'.length x past' d').twins hx hm hl hy htwins
  succeeds past d d' h hno hmove hend := by
    obtain ⟨e', hf⟩ := h.follows
    obtain ⟨hframes, hfocus, hrem, -⟩ := h.collecting_ends hpolicy hmove hend hf
    have hreport := (h.reports hpolicy hmove hend).answer
    have htexts : texts base.length past = [] := by rw [texts, hno]; rfl
    rw [if_pos htexts, if_pos htexts] at hreport
    refine ⟨hreport, fun z z' hz => ?_⟩
    obtain ⟨-, hmessages, hx'⟩ := hz.on_top hframes
    have hend' : z.visit { e' with policy := .plain } base' = { d with frames := base', focus := .ended .ok } := by
      rw [hx', visit, hrem]
      dsimp only
      rw [Emission.close, if_neg fun h => h.2 hmessages, Emission.result, if_neg fun h => h.2 hmessages]
    rw [move_iff_visit (by rw [hx']) (by rw [hx']; exact hfocus), hend']
  fails past d q h hq z z' hz := by
    obtain ⟨e', hframes, hfocus, -⟩ := h.on_top_of_caught? hq
    obtain ⟨-, -, hx'⟩ := hz.on_top hframes
    have hunwind : z.unwind q = { d with frames := base', focus := .panicking q } := by
      rw [hx', unwind]
      dsimp only
      rw [if_neg (by decide)]
    rw [move_iff_unwind (by rw [hx']) (by rw [hx']; exact hfocus), hunwind]
  catches past d q d' h hq hmove := by
    obtain ⟨e', hframes, hfocus, hsame⟩ := h.on_top_of_caught? hq
    have hunwind : d.unwind q =
        { d with
          frames := .emission { e' with messages := e'.messages ++ [q.message] } :: base, focus := .resume } := by
      rw [unwind, hframes]
      dsimp only
      rw [if_pos (hsame.trans hpolicy)]
    rw [move_iff_unwind hframes hfocus, hunwind] at hmove
    subst hmove
    exact ⟨Nat.lt_succ_self _, rfl⟩
  reports past d d' h hmove hend := h.reports hpolicy hmove hend

/-- To publish a value and to try to publish it, at the same point of any history: both are refused, for the
same reason; or both begin, hold the same, and compare. -/
theorem publish_compares (hc : Reachable .any c) {op op' : Option String} {endpoint : Field}
    {value : Option Expr} {given : Option Value} (hf : c.focus = .start ⟨op, .tryPublish endpoint value⟩ given)
    (hx : x = { c with focus := .start ⟨op', .publish endpoint value⟩ given }) :
    (∃ why, c.tick = { c with frames := .step op [] :: c.frames, focus := .ended (.refused why) } ∧
      x.tick = { c with frames := .step op' [] :: c.frames, focus := .ended (.refused why) }) ∨
    ∃ ch v holds,
      c.tick = { c with
        frames := .emission (c.bench.emissionAt .collecting ch v) :: .step op holds :: c.frames, focus := .resume } ∧
      x.tick = { c with
        frames := .emission (c.bench.emissionAt .plain ch v) :: .step op' holds :: c.frames, focus := .resume } ∧
      Compares (.step op holds :: c.frames) (.step op' holds :: c.frames) (c.bench.emissionAt .collecting ch v)
        c.tick x.tick := by
  have hctick : c.tick = c.start ⟨op, .tryPublish endpoint value⟩ given := by rw [tick, hf]
  have hxtick : x.tick = x.start ⟨op', .publish endpoint value⟩ given := by rw [hx, tick]
  rcases c.bench.publish_cases given endpoint value with ⟨why, hwhy⟩ | ⟨ch, v, holds, hbegun⟩
  · refine .inl ⟨why, ?_, ?_⟩
    · rw [hctick, start]
      dsimp only [Bench.perform]
      rw [hwhy]
    · rw [hxtick, hx, start]
      dsimp only [Bench.perform]
      rw [hwhy]
  · have hcstart : c.tick = { c with
        frames := .emission (c.bench.emissionAt .collecting ch v) :: .step op holds :: c.frames,
        focus := .resume } := by
      rw [hctick, start]
      dsimp only [Bench.perform]
      rw [hbegun]
    -- The same look-ups succeed, so both begin an emission from the same bench.
    have hxstart : x.tick = { c with
        frames := .emission (c.bench.emissionAt .plain ch v) :: .step op' holds :: c.frames, focus := .resume } := by
      rw [hxtick, hx, start]
      dsimp only [Bench.perform]
      rw [hbegun]
    refine .inr ⟨ch, v, holds, hcstart, hxstart, ?_⟩
    have hmove : Move .any c c.tick := .tick fun step _ _ => step.action.within_any
    have hunder : Underway (.step op holds :: c.frames) (c.bench.emissionAt .collecting ch v) c.tick [] c.tick :=
      .begins hc hmove (by rw [hcstart]) (Nat.le_succ _)
    have hwell : WellFormed x := by
      have hs := hc.wellFormed
      have hfits := hs.fits
      rw [hf] at hfits
      rw [hx]
      exact ⟨hs.bench, hs.stacked, hfits⟩
    have hxmove : Move .any x x.tick := .tick fun step _ _ => step.action.within_any
    refine hunder.compares rfl ((hxmove.preserves hwell).wellFormed hwell) ⟨rfl, fun _ _ => rfl⟩ rfl ?_
    rw [hcstart, hxstart]
    exact ⟨[], _, rfl, rfl, rfl, rfl⟩

/-- A component is subscribed to another one, and panics at every value. -/
def startled : Config :=
  let publisher : Layout := { inputs := [], outputs := [(.int, .many)] }
  let rules : Rules := [{ guard := {}, times := none, steps := [⟨none, .panic (some "static") (some "no")⟩] }]
  { empty with bench := (empty.bench.furnish "a" publisher []).furnish "b" { inputs := [.int], outputs := [] } rules }
    |>.play 9 [⟨none, .subscribe (some "a.o0") (some "b.i0") none none⟩]

theorem reachable_startled : Reachable .any startled :=
  .play 9 _ (.tail (.tail .refl (.furnish (.inr ⟨_, rfl⟩) (by decide) _ [])) (.furnish (.inr ⟨_, rfl⟩) (by decide) _ _))

/-- For instance the panic of that component comes out of publishing, and is told of by trying to publish. -/
theorem publish_compares_startled :
    Compares [.step none [.channel 0, .component 0]] [.step none [.channel 0, .component 0]]
      (startled.bench.emissionAt .collecting 0 (.int 7))
      (startled.next ⟨none, .tryPublish (some "a.o0") (some (.int 7))⟩).tick
      (startled.next ⟨none, .publish (some "a.o0") (some (.int 7))⟩).tick ∧
    ((startled.next ⟨none, .tryPublish (some "a.o0") (some (.int 7))⟩).run 20).focus =
      .finished (.slotsFailed 1 ["no"]) ∧
    ((startled.next ⟨none, .publish (some "a.o0") (some (.int 7))⟩).run 20).focus =
      .finished (.panicked (.text "no")) := by
  refine ⟨?_, rfl, rfl⟩
  have hc : Reachable .any (startled.next ⟨none, .tryPublish (some "a.o0") (some (.int 7))⟩) :=
    .tail reachable_startled (.next rfl _)
  have hboth := publish_compares (x := startled.next ⟨none, .publish (some "a.o0") (some (.int 7))⟩) hc rfl rfl
  rcases hboth with ⟨why, hrefused, -⟩ | ⟨ch, v, holds, htick, -, h⟩
  · cases congrArg Config.focus hrefused
  · cases htick
    exact h

end Config

end Conduit.Scenario
