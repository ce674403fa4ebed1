/-
What one emission delivers, whatever its slots do in the meantime. It serves the places that were
connected when it began, in their order, each once and with its value, but for those that have been
disconnected before their turn; a panic that it does not catch ends it. What is connected later has to
wait for a later emission.
-/
import Conduit.Proofs.Scenario.Emission

namespace Conduit.Scenario

open World (License)

namespace Config

variable {may : License} {c d : Config} {src : Source} {g : Signal Slot} {q : Place Slot}

/-! ## Connections in the course of time -/

theorem WellFormed.tidy_source (hc : WellFormed c) (hg : c.bench.sourceSignal? src = some g) : g.Tidy := by
  cases src with
  | channel ch => exact hc.bench.scene.placed.tidy ch g hg
  | signal k => exact hc.bench.tidy k g hg

theorem Moves.later_source (hc : WellFormed c) (h : Moves may c d) (hg : c.bench.sourceSignal? src = some g) :
    ∃ g', d.bench.sourceSignal? src = some g' ∧ g.Later g' := by
  cases src with
  | channel ch => exact (h.extends hc).signal? ch g hg
  | signal k => exact (h.leads hc).later k g hg

theorem isConnected_iff (b : Bench) {p : Nat} :
    b.isConnected src p = true ↔ ∃ g, b.sourceSignal? src = some g ∧ g.has p = true := by
  have hany : b.isConnected src p = (b.sourceSignal? src).any (·.has p) := by cases src <;> rfl
  rw [hany, Option.any_eq_true]

theorem mem_placesOf (b : Bench) : q ∈ b.placesOf src ↔ ∃ g, b.sourceSignal? src = some g ∧ q ∈ g.places := by
  unfold Bench.placesOf
  rcases b.sourceSignal? src with _ | g
  · simp
  · simp

theorem isConnected_of_mem (b : Bench) (hq : q ∈ b.placesOf src) : b.isConnected src q.id = true := by
  obtain ⟨g, hg, hm⟩ := (mem_placesOf b).1 hq
  exact (isConnected_iff b).2 ⟨g, hg, Signal.has_iff.2 ⟨q, hm, rfl⟩⟩

theorem WellFormed.increasing_placesOf (hc : WellFormed c) (src : Source) :
    ((c.bench.placesOf src).map (·.id)).Pairwise (· < ·) := by
  unfold Bench.placesOf
  rcases hg : c.bench.sourceSignal? src with _ | g
  · exact .nil
  · exact (hc.tidy_source hg).increasing

/-- A place of the beginning that is connected at some time has been connected all the time. -/
theorem connected_before {b : Config} (hb : WellFormed b) (hbc : Moves may b c) (hcd : Moves may c d)
    (hq : q ∈ b.bench.placesOf src) (hd : d.bench.isConnected src q.id = true) :
    c.bench.isConnected src q.id = true := by
  obtain ⟨g, hg, hm⟩ := (mem_placesOf _).1 hq
  obtain ⟨gc, hgc, hlater⟩ := hbc.later_source hb hg
  obtain ⟨gd, hgd, hlater'⟩ := hcd.later_source (hbc.wellFormed hb) hgc
  obtain ⟨gd', hgd', hhas⟩ := (isConnected_iff _).1 hd
  rw [hgd] at hgd'
  cases hgd'
  -- The number has been given out by then, so it cannot have been connected anew since.
  have hlt : q.id < gc.nextId := lt_of_lt_of_le ((hb.tidy_source hg).below q hm) hlater.nextId
  exact (isConnected_iff _).2 ⟨gc, hgc, hlater'.has hlt hhas⟩

/-- A place that is connected later has another number than all places of the beginning. -/
theorem id_ne_of_new (hc : WellFormed c) (h : Moves may c d) {q' : Place Slot} (hq : q ∈ c.bench.placesOf src)
    (hq' : q' ∈ d.bench.placesOf src) (hnew : q' ∉ c.bench.placesOf src) : q.id ≠ q'.id := by
  obtain ⟨g, hg, hm⟩ := (mem_placesOf _).1 hq
  obtain ⟨g', hg', hlater⟩ := h.later_source hc hg
  obtain ⟨g'', hg'', hm'⟩ := (mem_placesOf _).1 hq'
  rw [hg'] at hg''
  cases hg''
  obtain ⟨kept, fresh, hp, hk, hf⟩ := hlater.places
  rw [hp] at hm'
  rcases List.mem_append.1 hm' with hkept | hfresh
  · exact absurd ((mem_placesOf _).2 ⟨g, hg, hk.subset hkept⟩) hnew
  · exact Nat.ne_of_lt (lt_of_lt_of_le ((hc.tidy_source hg).below q hm) (hf q' hfresh))

/-! ## Turns -/

section

variable {e : Emission} {base : List Frame} {past before after : List Config} {x : Config}

theorem Underway.turns_prefix (h : Underway base e c past d) :
    past.filterMap (turn? base.length) <+: c.bench.placesOf e.source := by
  obtain ⟨e', hf⟩ := h.follows
  rw [← h.begin.2.2.2.snapshot, ← hf.turns]
  exact List.prefix_append _ _

/-- Places that are served have had their turn. -/
theorem served_sublist_turns (depth : Nat) : ∀ past : List Config,
    (past.filterMap (served? depth)).Sublist (past.filterMap (turn? depth))
  | [] => .slnil
  | x :: past => by
    have ih := served_sublist_turns depth past
    rw [List.filterMap_cons, List.filterMap_cons]
    rcases hs : x.served? depth with _ | q
    · rcases x.turn? depth with _ | q
      · exact ih
      · exact ih.cons q
    · rw [turn?_of_served? hs]
      exact ih.cons_cons q

theorem Underway.served_sublist (h : Underway base e c past d) :
    (past.filterMap (served? base.length)).Sublist (c.bench.placesOf e.source) :=
  (served_sublist_turns _ past).trans h.turns_prefix.sublist

/-- A place is served at its turn just if it is connected then. -/
theorem Underway.served?_iff (h : Underway base e c past d) (hq : d.turn? base.length = some q) :
    d.served? base.length = some q ↔ d.bench.isConnected e.source q.id = true := by
  obtain ⟨e', hf⟩ := h.follows
  obtain ⟨e'', he, hhead⟩ := Option.bind_eq_some_iff.1 hq
  obtain ⟨-, rfl⟩ := hf.frames_of_emitting? he
  rw [served?_of_emitting? he, hhead, ← hf.source, Option.filter_eq_some_iff, and_iff_right rfl]

theorem mem_turns {depth : Nat} : q ∈ past.filterMap (turn? depth) ↔
    ∃ before x after, past = before ++ x :: after ∧ x.turn? depth = some q := by
  rw [List.mem_filterMap]
  constructor
  · rintro ⟨x, hx, hq⟩
    obtain ⟨before, after, rfl⟩ := List.append_of_mem hx
    exact ⟨before, x, after, rfl, hq⟩
  · rintro ⟨before, x, after, rfl, hq⟩
    exact ⟨x, List.mem_append_right _ (List.mem_cons_self ..), hq⟩

/-- A place has one turn, so it is served then or not at all. -/
theorem Underway.mem_served (h : Underway base e c past d) (hp : past = before ++ x :: after)
    (hq : x.turn? base.length = some q) :
    q ∈ past.filterMap (served? base.length) ↔ x.served? base.length = some q := by
  subst hp
  constructor
  · intro hm
    -- Places have different numbers, so the place has no other turn.
    have hnodup : ((before ++ x :: after).filterMap (turn? base.length)).Nodup :=
      (List.Nodup.of_map _ ((h.begin.1.wellFormed.increasing_placesOf e.source).imp Nat.ne_of_lt)).sublist
        h.turns_prefix.sublist
    rw [List.filterMap_append, List.filterMap_cons, hq] at hnodup
    obtain ⟨-, hafter, hdisjoint⟩ := List.nodup_append.1 hnodup
    rw [List.filterMap_append, List.filterMap_cons, List.mem_append] at hm
    rcases hm with hm | hm
    · exact absurd rfl (hdisjoint q ((served_sublist_turns _ before).subset hm) q (List.mem_cons_self ..))
    · have hno : q ∉ after.filterMap (served? base.length) := fun hm =>
        (List.nodup_cons.1 hafter).1 ((served_sublist_turns _ after).subset hm)
      rcases hs : x.served? base.length with _ | q'
      · rw [hs] at hm
        exact absurd hm hno
      · rw [turn?_of_served? hs] at hq
        exact hq
  · exact fun hs => List.mem_filterMap.2 ⟨x, List.mem_append_right _ (List.mem_cons_self ..), hs⟩

/-- A place is served at its turn just if it has been connected all the time. -/
theorem Underway.mem_served_iff (h : Underway base e c past d) (hp : past = before ++ x :: after)
    (hq : x.turn? base.length = some q) : q ∈ past.filterMap (served? base.length) ↔
      ∀ y ∈ before ++ [x], y.bench.isConnected e.source q.id = true := by
  have hplace : q ∈ c.bench.placesOf e.source := h.turns_prefix.subset (mem_turns.2 ⟨before, x, after, hp, hq⟩)
  obtain ⟨hx, -⟩ := h.split hp
  rw [h.mem_served hp hq, hx.served?_iff hq]
  constructor
  · intro hconn y hy
    rcases List.mem_append.1 hy with hy | hy
    · obtain ⟨earlier, later, hb⟩ := List.append_of_mem hy
      obtain ⟨hbegun, hyx⟩ := hx.split hb
      exact connected_before h.begin.1.wellFormed hbegun.moves hyx hplace hconn
    · rw [List.mem_singleton.1 hy]
      exact hconn
  · exact fun hall => hall x (List.mem_append_right _ (List.mem_singleton_self x))

/-- An emission ends when all places have had their turn, or with a panic out of its last call. -/
theorem Underway.ends (h : Underway base e c past d) {d' : Config} (hm : Move .any d d')
    (hend : d'.frames.length ≤ base.length) :
    past.filterMap (turn? base.length) = c.bench.placesOf e.source ∧ (∃ r, d'.focus = .ended r) ∨
      (∃ p, d.focus = .panicking p ∧ d'.focus = .panicking p) ∧ e.policy ≠ .collecting ∧
        ∃ q, (past.filterMap (turn? base.length)).getLast? = some q ∧
          (past.filterMap (served? base.length)).getLast? = some q := by
  obtain ⟨e', hf⟩ := h.follows
  obtain ⟨upper, hframes⟩ := hf.frames
  -- Either the emission goes on, and then there are frames above its base, or this move ends it.
  rcases hm.advance h.reachable.wellFormed hframes with ⟨e'', ha⟩ | ⟨-, hends⟩
  · obtain ⟨upper', hd'⟩ := ha.frames
    rw [hd', List.length_append, List.length_cons] at hend
    omega
  · cases hends with
    | done _ hrem hd' =>
      refine .inl ⟨?_, _, hd'⟩
      rw [← h.begin.2.2.2.snapshot, ← hf.turns, hrem, List.append_nil]
    | panicked hd hd' hpol =>
      refine .inr ⟨⟨_, hd, hd'⟩, fun hc => hpol (hf.policy.trans hc), hf.waits.resolve_left ?_⟩
      rw [emitting?_eq_none (by rw [hd]; nofun)]
      exact Bool.false_ne_true

/-- What an emission is on lives. -/
theorem WellFormed.lives_source (hc : WellFormed c) (hf : c.frames = .emission e :: base) :
    c.bench.world.Lives e.source.ref := by
  have hst := hc.stacked
  rw [hf] at hst
  refine hc.bench.scene.upheld e.source.ref ?_
  have hkept : c.bench.keeps (pinned (.emission e :: base)) e.source.ref = true := by
    have hpinned := pinned_source hst.1
    rw [keeps_push, Bool.or_eq_true]
    exact .inr (Bool.or_eq_true_iff.2 (.inl hpinned))
  rw [← hf] at hkept
  exact hkept

/-- A subscription whose place is served is connected. -/
theorem Underway.isConnected_of_served (h : Underway base e c past d) (hs : d.served? base.length = some q)
    {o : ChannelId} {s : Nat} (ho : e.source = .channel o) (hconn : .connected s o q.id ∈ d.bench.world.ledger) :
    d.bench.world.isConnected s = true := by
  have hwell := h.reachable.wellFormed
  have hplace := (h.served?_iff (turn?_of_served? hs)).1 hs
  obtain ⟨e', hf⟩ := h.follows
  obtain ⟨e'', he, -⟩ := Option.bind_eq_some_iff.1 hs
  obtain ⟨hframes, -⟩ := hf.frames_of_emitting? he
  have hlives := hwell.lives_source hframes
  rw [hf.source, ho] at hlives
  rw [ho] at hplace
  by_contra hclosed
  rw [Bool.not_eq_true] at hclosed
  -- The output lives while the emission is under way, so a closed subscription has no place there.
  have hno : d.bench.isConnected (.channel o) q.id = false :=
    hwell.bench.scene.placed.not_hasPlace hconn hclosed hlives
  rw [hno] at hplace
  cases hplace

/-- When an emission has ended, a place was left out because it was disconnected before its turn, or
because a panic ended the emission before that. -/
theorem Underway.left_out (h : Underway base e c past d) {d' : Config} (hm : Move .any d d')
    (hend : d'.frames.length ≤ base.length) (hq : q ∈ c.bench.placesOf e.source) :
    q ∉ past.filterMap (served? base.length) ↔
      (∃ before x after, past = before ++ x :: after ∧ x.turn? base.length = some q ∧
        ∃ y ∈ before ++ [x], y.bench.isConnected e.source q.id = false) ∨
      (∃ p, d.focus = .panicking p ∧ d'.focus = .panicking p) ∧ q ∉ past.filterMap (turn? base.length) := by
  -- Either the place had its turn, and was left out then, or the emission ended before.
  by_cases hturn : q ∈ past.filterMap (turn? base.length)
  · obtain ⟨before, x, after, hp, hx⟩ := mem_turns.1 hturn
    constructor
    · intro hno
      rw [h.mem_served_iff hp hx] at hno
      push Not at hno
      obtain ⟨y, hy, hconn⟩ := hno
      exact .inl ⟨before, x, after, hp, hx, y, hy, Bool.not_eq_true _ ▸ hconn⟩
    · rintro (⟨before, x, after, hp, hx, y, hy, hconn⟩ | ⟨-, hno⟩)
      · rw [h.mem_served_iff hp hx]
        intro hall
        rw [hall y hy] at hconn
        cases hconn
      · exact absurd hturn hno
  · refine ⟨fun _ => .inr ⟨?_, hturn⟩, fun _ hs => hturn ((served_sublist_turns _ past).subset hs)⟩
    rcases h.ends hm hend with ⟨hall, -⟩ | ⟨hp, -⟩
    · exact absurd (hall ▸ hq) hturn
    · exact hp

/-- The first place has its turn at once. -/
theorem Underway.head_served (h : Underway base e c past d) (hp : past ≠ []) {rest : List (Place Slot)}
    (hq : c.bench.placesOf e.source = q :: rest) : q ∈ past.filterMap (served? base.length) := by
  obtain ⟨-, hframes, hfocus, hbegins⟩ := h.begin
  refine List.mem_filterMap.2 ⟨c, h.head.resolve_left fun hnil => hp hnil.1, ?_⟩
  rw [served?_of_emitting? (emitting?_of_frames hframes hfocus), hbegins.remaining, hbegins.snapshot,
    hq, List.head?_cons, Option.filter_some, if_pos]
  exact isConnected_of_mem _ (by rw [hq]; exact List.mem_cons_self ..)

end

/-! ## The meaning of an emission -/

/-- What an emission that began at `c` as `e` has done when it has come through `past` to `d`. -/
structure Delivers (base : List Frame) (e : Emission) (c : Config) (past : List Config) (d : Config) : Prop where
  /-- Its calls are those of the places served, with its value. -/
  calls : (past ++ [d]).filterMap (call? base.length) =
    (past.filterMap (served? base.length)).map fun q => (q.slot, e.value)
  /-- They are some of the places connected at the beginning, in the order of connection. -/
  sublist : (past.filterMap (served? base.length)).Sublist (c.bench.placesOf e.source)
  increasing : ((c.bench.placesOf e.source).map (·.id)).Pairwise (· < ·)
  /-- The places have their turns in order, and one is left out then just if it has been disconnected. -/
  turns : past.filterMap (turn? base.length) <+: c.bench.placesOf e.source
  served : ∀ before x after q, past = before ++ x :: after → x.turn? base.length = some q →
    (q ∈ past.filterMap (served? base.length) ↔ ∀ y ∈ before ++ [x], y.bench.isConnected e.source q.id = true)
  left_out : ∀ d', Move .any d d' → d'.frames.length ≤ base.length → ∀ q ∈ c.bench.placesOf e.source,
    (q ∉ past.filterMap (served? base.length) ↔
      (∃ before x after, past = before ++ x :: after ∧ x.turn? base.length = some q ∧
        ∃ y ∈ before ++ [x], y.bench.isConnected e.source q.id = false) ∨
      (∃ p, d.focus = .panicking p ∧ d'.focus = .panicking p) ∧ q ∉ past.filterMap (turn? base.length))
  /-- At its end all places have had their turn, or else a panic comes out of the last call. -/
  ends : ∀ d', Move .any d d' → d'.frames.length ≤ base.length →
    past.filterMap (turn? base.length) = c.bench.placesOf e.source ∧ (∃ r, d'.focus = .ended r) ∨
      (∃ p, d.focus = .panicking p ∧ d'.focus = .panicking p) ∧ e.policy ≠ .collecting ∧
        ∃ q, (past.filterMap (turn? base.length)).getLast? = some q ∧
          (past.filterMap (served? base.length)).getLast? = some q
  /-- What is connected in the meantime is not served. -/
  new : ∀ y ∈ past ++ [d], ∀ q ∈ y.bench.placesOf e.source, q ∉ c.bench.placesOf e.source →
    ∀ q' ∈ past.filterMap (served? base.length), q'.id ≠ q.id
  /-- On a one-to-one signal it serves the only place there is, if there is one. -/
  single : ∀ g, c.bench.sourceSignal? e.source = some g → g.cardinality = .oneToOne →
    (c.bench.placesOf e.source).length ≤ 1 ∧
      (past ≠ [] → past.filterMap (served? base.length) = c.bench.placesOf e.source)
  /-- A subscription that has been closed is not served. -/
  closed : ∀ x ∈ past, ∀ q, x.served? base.length = some q → ∀ o (s : Nat), e.source = .channel o →
    .connected s o q.id ∈ x.bench.world.ledger → x.bench.world.isConnected s = true

/-- This is what emissions do, on every signal and with every value, whatever their slots do. -/
theorem emission_delivers {base : List Frame} {e : Emission} {past : List Config} (h : Underway base e c past d) :
    Delivers base e c past d where
  calls := h.follows.elim fun _ hf => hf.calls
  sublist := h.served_sublist
  increasing := h.begin.1.wellFormed.increasing_placesOf e.source
  turns := h.turns_prefix
  served _ _ _ _ hp hq := h.mem_served_iff hp hq
  left_out _ hm hend _ hq := h.left_out hm hend hq
  ends _ hm hend := h.ends hm hend
  new y hy q hq hnew q' hq' := by
    have hplace := h.served_sublist.subset hq'
    rcases List.mem_append.1 hy with hy | hy
    · obtain ⟨before, after, hp⟩ := List.append_of_mem hy
      exact id_ne_of_new h.begin.1.wellFormed (h.split hp).1.moves hplace hq hnew
    · rw [List.mem_singleton.1 hy] at hq
      exact id_ne_of_new h.begin.1.wellFormed h.moves hplace hq hnew
  single g hg hone := by
    -- A signal for one has one place at most, and it is the first.
    have hplaces : c.bench.placesOf e.source = g.places := by rw [Bench.placesOf, hg]; rfl
    have hl : (c.bench.placesOf e.source).length ≤ 1 := by
      rw [hplaces]
      exact (h.begin.1.wellFormed.tidy_source hg).single hone
    refine ⟨hl, fun hp => ?_⟩
    have hsub := h.served_sublist
    rcases hq : c.bench.placesOf e.source with _ | ⟨q, rest⟩
    · rw [hq] at hsub
      exact List.sublist_nil.1 hsub
    · have hm := h.head_served hp hq
      refine hsub.eq_of_length_le ?_ |>.trans hq
      exact hl.trans (List.length_pos_of_mem hm)
  closed x hx q hq o s ho hconn := by
    obtain ⟨before, after, hp⟩ := List.append_of_mem hx
    exact (h.split hp).1.isConnected_of_served hq ho hconn

/-- A value is published to the only subscription there is. -/
def publishing : Config := (linked.next ⟨none, .publish (some "a.o0") (some (.int 7))⟩).tick

/-- For instance that value gets there. -/
theorem emission_delivers_publishing :
    Delivers [.step none [.channel 1, .component 0]] (linked.bench.emissionAt .plain 1 (.int 7)) publishing [publishing]
      publishing.tick ∧
    ([publishing, publishing.tick].filterMap (call? 1)) = [(.handler 1 0, .int 7)] := by
  have hb : Reachable .any (linked.next ⟨none, .publish (some "a.o0") (some (.int 7))⟩) :=
    .tail reachable_linked.any (.next rfl _)
  have hbegins : Underway [.step none [.channel 1, .component 0]] (linked.bench.emissionAt .plain 1 (.int 7))
      publishing [] publishing := .begins hb (.tick fun step _ _ => step.action.within_any) rfl (by decide)
  have hmove : Move .any publishing publishing.tick := .tick fun step _ _ => step.action.within_any
  exact ⟨emission_delivers (.move hbegins hmove (by decide)), by decide⟩

end Config

end Conduit.Scenario
