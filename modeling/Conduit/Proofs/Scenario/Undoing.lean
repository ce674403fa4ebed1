/-
Steps that only take down: to close a subscription through a handle, to drop a handle, to drop a
component, to release a channel. Such a step is done as soon as it is answered, from outside or by a
handler at work; it strikes a name, and what ends or closes by that does so for a reason (`Undoing`).
-/
import Conduit.Proofs.Scenario.Upkeep
import Conduit.Proofs.Wiring.Falls

namespace Conduit.Scenario

open World (License Falls Fall Sound)

/-! ## Names that are struck -/

namespace Names

variable {α : Type} {t : Names α}

/-- What is left of a table without some names. -/
def less (t : Names α) (fs : List Field) : Names α := t.filter fun e => !fs.contains (some e.1)

theorem mem_less {fs : List Field} {e : String × α} : e ∈ t.less fs ↔ e ∈ t ∧ some e.1 ∉ fs := by
  rw [less, List.mem_filter, Bool.not_eq_true', ← Bool.not_eq_true, List.contains_iff_mem]

theorem less_cons (f : Field) (fs : List Field) : (t.less [f]).less fs = t.less (f :: fs) := by
  rw [less, less, less, List.filter_filter]
  refine List.filter_congr fun e _ => ?_
  rw [List.contains_cons, List.contains_cons, List.contains_nil, Bool.or_false, Bool.not_or, Bool.and_comm]

theorem less_of_forall {fs : List Field} (h : ∀ e ∈ t, some e.1 ∉ fs) : t.less fs = t := by
  refine List.filter_eq_self.2 fun e he => ?_
  rw [Bool.not_eq_true', ← Bool.not_eq_true, List.contains_iff_mem]
  exact h e he

theorem less_nil : t.less [] = t := less_of_forall fun _ _ => List.not_mem_nil

theorem less_none : t.less [none] = t := by
  refine less_of_forall fun e _ hm => ?_
  cases List.mem_singleton.1 hm

/-- What only matters about names is whether they are struck. -/
theorem less_congr {fs gs : List Field} (h : ∀ f, f ∈ fs ↔ f ∈ gs) : t.less fs = t.less gs := by
  refine List.filter_congr fun e _ => ?_
  rw [Bool.eq_iff_iff, Bool.not_eq_true', Bool.not_eq_true', ← Bool.not_eq_true, ← Bool.not_eq_true,
    List.contains_iff_mem, List.contains_iff_mem, h]

end Names

namespace Bench

/-- A name that is looked up is there, or nothing has it. -/
theorem lookup_cases {α : Type} (t : Names α) (f : Field) : (∃ why, lookup t f = .error why ∧ t.less [f] = t) ∨
    ∃ n a, lookup t f = .ok (n, a) ∧ f = some n ∧ (n, a) ∈ t ∧ t.less [f] = t.strike n := by
  rcases f with _ | n
  · exact .inl ⟨Refusal.badStep, rfl, Names.less_none⟩
  · rcases hfind : t.find? n with _ | a
    · refine .inl ⟨Refusal.noSuchName, ?_, Names.less_of_forall fun e he hm => ?_⟩
      · exact lookup_of_find?_none hfind
      · have hname : e.1 = n := Option.some.inj (List.mem_singleton.1 hm)
        have hnone := List.find?_eq_none.1 (Option.map_eq_none_iff.1 hfind) e he
        exact hnone (decide_eq_true hname)
    · refine .inr ⟨n, a, lookup_of_find? hfind, rfl, Names.mem_of_find? hfind, List.filter_congr fun e _ => ?_⟩
      rw [List.contains_cons, List.contains_nil, Bool.or_false]
      rfl

end Bench

/-! ## Steps of a teardown -/

namespace Action

/-- Whether a step only takes down. -/
def Undoes : Action → Prop
  | .close _ => True
  | .dropHandle _ => True
  | .drop _ => True
  | .release _ => True
  | _ => False

/-- The handle through which a step closes. -/
def closed : Action → Field
  | .close handle => handle
  | _ => none

/-- The handle that a step drops. -/
def droppedHandle : Action → Field
  | .dropHandle handle => handle
  | _ => none

/-- The component that a step drops. -/
def dropped : Action → Field
  | .drop name => name
  | _ => none

/-- The channel that a step releases. -/
def released : Action → Field
  | .release name => name
  | _ => none

theorem Undoes.within {a : Action} (h : a.Undoes) (may : License) : a.Within may := by
  cases a <;> trivial

end Action

namespace Bench

variable {pins : Ref → Bool} {b b' : Bench} {a : Action}

/-- A bench with another wiring, and without the names that some steps strike. -/
def stripped (b : Bench) (w : World) (l : List Action) : Bench :=
  { b with
    world := w
    components := b.components.less (l.map (·.dropped))
    channels := b.channels.less (l.map (·.released))
    handles := b.handles.less (l.map (·.droppedHandle)) }

theorem stripped_nil (b : Bench) : b.stripped b.world [] = b := by
  rw [stripped, List.map_nil, List.map_nil, List.map_nil, Names.less_nil, Names.less_nil, Names.less_nil]

theorem stripped_cons (b : Bench) (v w : World) (a : Action) (l : List Action) :
    (b.stripped v [a]).stripped w l = b.stripped w (a :: l) := by
  simp only [stripped, List.map_cons, List.map_nil, Names.less_cons]

/-- Only which steps strike names matters. -/
theorem stripped_perm (b : Bench) (w : World) {l l' : List Action} (h : l.Perm l') :
    b.stripped w l = b.stripped w l' := by
  have hless : ∀ {α : Type} (t : Names α) (f : Action → Field), t.less (l.map f) = t.less (l'.map f) :=
    fun t f => Names.less_congr fun x => (h.map f).mem_iff
  rw [stripped, hless, hless, hless, stripped]

theorem stripped_eq {cs : Names ComponentId} {chs : Names ChannelId} {hs : Names Handle}
    (hc : b.components.less [a.dropped] = cs)
    (hch : b.channels.less [a.released] = chs) (hh : b.handles.less [a.droppedHandle] = hs) (w : World) :
    { b with world := w, components := cs, channels := chs, handles := hs } = b.stripped w [a] := by
  subst hc hch hh
  rfl

/-- What a step of a teardown makes of a bench. -/
structure Undone (a : Action) (pins : Ref → Bool) (b b' : Bench) : Prop where
  bench : b' = b.stripped b'.world [a]
  falls : ∀ {asked kept : Nat → Prop}, (∀ n s, a.closed = some n → (n, .own s) ∈ b.handles → asked s) →
    (∀ s, kept s → b'.keeps pins (.handle (.own s)) = true) → Falls asked kept b.world b'.world
  closes : ∀ n s, a.closed = some n → (n, .own s) ∈ b.handles → b'.world.isConnected s = false

/-- A step that is refused changes nothing, and had nothing to change. -/
theorem undone_refused (hc : b.components.less [a.dropped] = b.components)
    (hch : b.channels.less [a.released] = b.channels)
    (hh : b.handles.less [a.droppedHandle] = b.handles) (hclosed : ∀ n, a.closed = some n → ∀ h, (n, h) ∉ b.handles) :
    Undone a pins b b :=
  ⟨stripped_eq hc hch hh _, fun _ _ => .refl, fun n _ hn hm => absurd hm (hclosed n hn _)⟩

theorem falls_of_settle (hw : Sound none b.world) {r : Ref} {asked kept : Nat → Prop}
    (hkept : ∀ s, kept s → (b.settle pins r).keeps pins (.handle (.own s)) = true) :
    Falls asked kept b.world (b.settle pins r).world := by
  have hfalls : Falls asked kept b.world (b.world.settle (b.keeps pins) r) := World.falls_settle hw hkept r
  exact hfalls

theorem undone_close (hb : Names.Ordered b.handles) {f : Field} :
    ∃ r b', (b.close f = .ok { bench := b', outcome := .answer r } ∨ ∃ why, b.close f = .error why ∧ b' = b) ∧
      Undone (.close f) pins b b' := by
  rcases lookup_cases b.handles f with ⟨why, hlookup, hless⟩ | ⟨n, h, hlookup, rfl, hm, -⟩
  · refine ⟨.ok, b, .inr ⟨why, by rw [close, hlookup]; rfl, rfl⟩,
      undone_refused Names.less_none Names.less_none Names.less_none fun n hn h hm => ?_⟩
    rw [← hless, Names.mem_less] at hm
    exact hm.2 (by rw [show f = some n from hn]; exact List.mem_singleton_self _)
  · have honly : ∀ {m k}, some n = some m → (m, k) ∈ b.handles → k = h := fun he hk => by
      cases he
      exact hb.unique hk hm
    refine ⟨.ok, { b with world := b.world.closeHandle h }, .inl ?_,
      ⟨stripped_eq Names.less_none Names.less_none Names.less_none _, fun hasked _ => ?_, fun m s hn hk => ?_⟩⟩
    · rw [close, hlookup]
      rfl
    · refine World.falls_closeHandle h fun s hs => hasked n s rfl ?_
      rw [← hs]
      exact hm
    · obtain rfl := honly hn hk
      show (b.world.close s).isConnected s = false
      rw [World.isConnected_close, bne_self_eq_false, Bool.and_false]

theorem undone_dropHandle (hw : Sound none b.world) {f : Field} :
    ∃ r b', (b.dropHandle pins f = .ok { bench := b', outcome := .answer r } ∨
      ∃ why, b.dropHandle pins f = .error why ∧ b' = b) ∧ Undone (.dropHandle f) pins b b' := by
  rcases lookup_cases b.handles f with ⟨why, hlookup, hless⟩ | ⟨n, h, hlookup, rfl, -, hless⟩
  · exact ⟨.ok, b, .inr ⟨why, by rw [dropHandle, hlookup]; rfl, rfl⟩,
      undone_refused Names.less_none Names.less_none hless fun n hn => by cases hn⟩
  · refine ⟨.ok, settle { b with handles := b.handles.strike n } pins (.handle h), .inl ?_,
      ⟨stripped_eq (b := b) (a := .dropHandle (some n)) Names.less_none Names.less_none hless _,
        fun _ hkept => ?_, fun m s hn => by cases hn⟩⟩
    · rw [dropHandle, hlookup]
      rfl
    · exact falls_of_settle (b := { b with handles := b.handles.strike n }) hw hkept

theorem undone_drop (hw : Sound none b.world) {f : Field} :
    ∃ r b', (b.drop pins f = .ok { bench := b', outcome := .answer r } ∨
      ∃ why, b.drop pins f = .error why ∧ b' = b) ∧ Undone (.drop f) pins b b' := by
  rcases lookup_cases b.components f with ⟨why, hlookup, hless⟩ | ⟨n, c, hlookup, rfl, -, hless⟩
  · exact ⟨.ok, b, .inr ⟨why, by rw [drop, hlookup]; rfl, rfl⟩,
      undone_refused hless Names.less_none Names.less_none fun n hn => by cases hn⟩
  · refine ⟨.ok, settle { b with components := b.components.strike n } pins (.component c), .inl ?_,
      ⟨stripped_eq (b := b) (a := .drop (some n)) hless Names.less_none Names.less_none _, fun _ hkept => ?_,
      fun m s hn => by cases hn⟩⟩
    · rw [drop, hlookup]
      rfl
    · exact falls_of_settle (b := { b with components := b.components.strike n }) hw hkept

theorem undone_release (hw : Sound none b.world) {f : Field} :
    ∃ r b', (b.release pins f = .ok { bench := b', outcome := .answer r } ∨
      ∃ why, b.release pins f = .error why ∧ b' = b) ∧ Undone (.release f) pins b b' := by
  rcases lookup_cases b.channels f with ⟨why, hlookup, hless⟩ | ⟨n, ch, hlookup, rfl, -, hless⟩
  · exact ⟨.ok, b, .inr ⟨why, by rw [release, hlookup]; rfl, rfl⟩,
      undone_refused Names.less_none hless Names.less_none fun n hn => by cases hn⟩
  · refine ⟨.ok, settle { b with channels := b.channels.strike n } pins (.channel ch), .inl ?_,
      ⟨stripped_eq (b := b) (a := .release (some n)) Names.less_none hless Names.less_none _, fun _ hkept => ?_,
      fun m s hn => by cases hn⟩⟩
    · rw [release, hlookup]
      rfl
    · exact falls_of_settle (b := { b with channels := b.channels.strike n }) hw hkept

/-- A step of a teardown is answered at once, or refused. -/
theorem undone_perform (hw : Sound none b.world) (hb : Names.Ordered b.handles) (ha : a.Undoes) (frames : List Frame)
    (given : Option Value) : ∃ r b', (b.perform frames given a = .ok { bench := b', outcome := .answer r } ∨
      ∃ why, b.perform frames given a = .error why ∧ b' = b) ∧ Undone a (pinned frames) b b' := by
  cases a with
  | close f => exact undone_close hb
  | dropHandle f => exact undone_dropHandle hw
  | drop f => exact undone_drop hw
  | release f => exact undone_release hw
  | _ => exact ha.elim

end Bench

/-! ## Doing them -/

namespace Config

variable {may : License} {c d e : Config}

/-- Steps can be done: from outside, or by a handler at work. -/
def Ready (c : Config) : Prop :=
  (∃ r, c.focus = .finished r) ∨ ∃ h rest, c.frames = .handling h :: rest ∧ c.focus = .resume

/-- Does a step that is answered at once, from outside when all is done, else as the handler at work. -/
def carry (c : Config) (step : Step Action) : Config :=
  match c.focus, c.frames with
  | .finished _, _ => (c.next step).tick.tick
  | _, .handling h :: _ => ({ c with focus := .start step (some h.value) } : Config).tick.tick
  | _, _ => c

/-- Does such steps one after another. -/
def carryAll : List (Step Action) → Config → Config
  | [], c => c
  | step :: steps, c => carryAll steps (c.carry step)

/-- What steps of a teardown make of a configuration. -/
structure Undoing (l : List Action) (c d : Config) : Prop where
  moves : ∀ may, Moves may c d
  frames : d.frames = c.frames
  ready : d.Ready
  bench : d.bench = c.bench.stripped d.bench.world l
  falls : ∀ {asked kept : Nat → Prop}, (∀ a ∈ l, ∀ n s, a.closed = some n → (n, .own s) ∈ c.bench.handles → asked s) →
    (∀ s, kept s → d.bench.keeps (pinned d.frames) (.handle (.own s)) = true) →
      Falls asked kept c.bench.world d.bench.world
  closes : ∀ a ∈ l, ∀ n s, a.closed = some n → (n, .own s) ∈ c.bench.handles → (∀ x ∈ l, x.droppedHandle ≠ some n) →
    d.bench.world.isConnected s = false

theorem Undoing.handles {l : List Action} (h : Undoing l c d) :
    d.bench.handles = c.bench.handles.less (l.map (·.droppedHandle)) := by
  rw [h.bench]
  rfl

theorem Undoing.registries {l : List Action} (h : Undoing l c d) : d.bench.registries = c.bench.registries := by
  rw [h.bench]
  rfl

theorem Undoing.refl (hr : c.Ready) : Undoing [] c c where
  moves _ := .refl
  frames := rfl
  ready := hr
  bench := c.bench.stripped_nil.symm
  falls _ _ := .refl
  closes _ ha := absurd ha List.not_mem_nil

theorem Undoing.cons {a : Action} {l : List Action} (h₁ : Undoing [a] c d) (h₂ : Undoing l d e) :
    Undoing (a :: l) c e where
  moves may := .trans (h₁.moves may) (h₂.moves may)
  frames := h₂.frames.trans h₁.frames
  ready := h₂.ready
  bench := by
    have hd := h₂.bench
    rw [h₁.bench, Bench.stripped_cons] at hd
    exact hd
  falls hasked hkept := by
    refine .trans (h₁.falls (fun x hx n s hn hm => ?_) fun s hs => ?_) (h₂.falls (fun x hx n s hn hm => ?_) hkept)
    · rw [List.mem_singleton.1 hx] at hn
      exact hasked a (List.mem_cons_self ..) n s hn hm
    -- What is held at the end has been held all the time.
    · have hlater := Bench.keeps_handle.1 (hkept s hs)
      rw [h₂.frames, h₂.handles, h₂.registries] at hlater
      refine Bench.keeps_handle.2 (hlater.imp_right (.imp_left ?_))
      rintro ⟨n, hn⟩
      exact ⟨n, (Names.mem_less.1 hn).1⟩
    · rw [h₁.handles] at hm
      exact hasked x (List.mem_cons_of_mem _ hx) n s hn (Names.mem_less.1 hm).1
  closes x hx n s hn hm hkeep := by
    rcases List.mem_cons.1 hx with rfl | hx
    · have hclosed := h₁.closes x (List.mem_singleton_self _) n s hn hm fun y hy => by
        rw [List.mem_singleton.1 hy]
        exact hkeep x (List.mem_cons_self ..)
      rw [← Bool.not_eq_true] at hclosed ⊢
      have hfalls : Falls (fun _ => True) (fun _ => False) d.bench.world e.bench.world :=
        h₂.falls (fun _ _ _ _ _ _ => trivial) fun _ hf => hf.elim
      exact fun hs => hclosed (hfalls.forgets.isConnected s hs)
    · refine h₂.closes x hx n s hn ?_ fun y hy => hkeep y (List.mem_cons_of_mem _ hy)
      rw [h₁.handles]
      refine Names.mem_less.2 ⟨hm, fun hs => hkeep a (List.mem_cons_self ..) ?_⟩
      exact (List.mem_singleton.1 hs).symm

/-- A step of a teardown that has begun waits for its answer, and holds nothing. -/
theorem start_undoes (hs : WellFormed c) {step : Step Action} (ha : step.action.Undoes) (given : Option Value) :
    ∃ r b, c.start step given = { bench := b, frames := .step step.op [] :: c.frames, focus := .ended r } ∧
      Bench.Undone step.action (pinned c.frames) c.bench b := by
  obtain ⟨r, b, hperform | ⟨why, hperform, rfl⟩, hundone⟩ :=
    Bench.undone_perform hs.bench.scene.sound hs.bench.ordered.handles ha c.frames given
  · exact ⟨r, b, by rw [start, hperform], hundone⟩
  · exact ⟨.refused why, c.bench, by rw [start, hperform], hundone⟩

theorem undoing_of_undone {a : Action} {b : Bench} (log log' : List Entry) (hmoves : ∀ may, Moves may c d)
    (hframes : d.frames = c.frames) (hready : d.Ready)
    (h : Bench.Undone a (pinned c.frames) { c.bench with world := { c.bench.world with log } } b)
    (hd : d.bench = { b with world := { b.world with log := log' } }) : Undoing [a] c d where
  moves := hmoves
  frames := hframes
  ready := hready
  bench := by
    rw [hd, h.bench]
    rfl
  falls {asked kept} hasked hkept := by
    have hfirst : Falls asked kept c.bench.world { c.bench.world with log } := .single (.relog log)
    have hlast : Falls asked kept b.world d.bench.world := by
      rw [hd]
      exact .single (.relog log')
    refine .trans hfirst (.trans (h.falls (hasked a (List.mem_singleton_self _)) fun s hs => ?_) hlast)
    have hheld := hkept s hs
    rw [hframes, hd] at hheld
    exact hheld
  closes x hx n s hn hm _ := by
    rw [List.mem_singleton.1 hx] at hn
    rw [hd]
    exact h.closes n s hn hm

theorem carry_of_finished {r : Result} (hf : c.focus = .finished r) (step : Step Action) :
    c.carry step = (c.next step).tick.tick := by
  unfold carry
  rw [hf]

theorem carry_of_handling {h : Handling} {rest : List Frame} (hframes : c.frames = .handling h :: rest)
    (hf : c.focus = .resume)
    (step : Step Action) : c.carry step = ({ c with focus := .start step (some h.value) } : Config).tick.tick := by
  obtain ⟨bench, frames, focus⟩ := c
  cases hframes
  cases hf
  rfl

/-- Two ticks begin and end a step that undoes, whatever is allowed. -/
theorem moves_of_undoing (may : License) {step : Step Action} {given : Option Value} {r : Result}
    (hf : c.focus = .start step given) (ha : step.action.Undoes) (hended : c.tick.focus = .ended r) :
    Moves may c c.tick.tick := by
  have hbegun : Move may c c.tick := .tick fun x _ hx => by
    rw [hf] at hx
    cases hx
    exact ha.within may
  have hdone : Move may c.tick c.tick.tick := .tick fun x _ hx => by
    rw [hended] at hx
    cases hx
  exact .tail (.single hbegun) hdone

/-- A step of a teardown takes down what it is meant to. -/
theorem carry_undoing (hs : WellFormed c) (hr : c.Ready) {step : Step Action} (ha : step.action.Undoes) :
    Undoing [step.action] c (c.carry step) := by
  rcases hr with ⟨r, hf⟩ | ⟨h, rest, hframes, hf⟩
  · have hnext : Move .any c (c.next step) := .next hf step
    obtain ⟨r', b, hstart, hundone⟩ := start_undoes (hnext.preserves hs |>.wellFormed hs) ha none
    have htick : (c.next step).tick = _ := hstart
    have hempty := frames_of_finished hs hf
    have hcarry : c.carry step = { bench := b, frames := [], focus := .finished r' } := by
      rw [carry_of_finished hf, htick]
      rfl
    refine undoing_of_undone [] b.world.log (fun may => ?_) (by rw [hcarry, hempty])
      (by rw [hcarry]; exact .inl ⟨r', rfl⟩)
      (by rw [hempty]; exact hundone) (by rw [hcarry])
    -- Outside a handler the answer is the end; inside one it is told to the handler.
    have hmoves : Moves may (c.next step) (c.next step).tick.tick := moves_of_undoing may rfl ha (by rw [htick])
    rw [carry_of_finished hf]
    exact .head (.next hf step) hmoves
  · have hact : Move .any c { c with focus := .start step (some h.value) } := .act hframes hf step
    obtain ⟨r, b, hstart, hundone⟩ := start_undoes (hact.preserves hs |>.wellFormed hs) ha (some h.value)
    have htick : ({ c with focus := .start step (some h.value) } : Config).tick = _ := hstart
    have hcarry : c.carry step = { bench := b.note (.did step.op r), frames := c.frames, focus := .resume } := by
      rw [carry_of_handling hframes hf, htick]
      show answer ⟨b, .step step.op [] :: c.frames, .ended r⟩ r = _
      rw [answer, hframes]
      rfl
    refine undoing_of_undone c.bench.world.log (.did step.op r :: b.world.log) (fun may => ?_) (by rw [hcarry])
      (by rw [hcarry]; exact .inr ⟨h, rest, hframes, rfl⟩) hundone (by rw [hcarry]; rfl)
    have hmoves : Moves may { c with focus := .start step (some h.value) }
        ({ c with focus := .start step (some h.value) } : Config).tick.tick :=
      moves_of_undoing may rfl ha (by rw [htick])
    rw [carry_of_handling hframes hf]
    exact .head (.act hframes hf step) hmoves

/-- And so does any row of them. -/
theorem carryAll_undoing :
    ∀ (l : List (Step Action)) {c : Config}, WellFormed c → c.Ready → (∀ step ∈ l, step.action.Undoes) →
    Undoing (l.map (·.action)) c (carryAll l c)
  | [], _, _, hr, _ => .refl hr
  | step :: l, c, hs, hr, ha => by
    have hfirst := carry_undoing hs hr (ha step (List.mem_cons_self ..))
    have hwell := Moves.wellFormed (hfirst.moves .any) hs
    exact hfirst.cons (carryAll_undoing l hwell hfirst.ready fun x hx => ha x (List.mem_cons_of_mem _ hx))

end Config

end Conduit.Scenario
