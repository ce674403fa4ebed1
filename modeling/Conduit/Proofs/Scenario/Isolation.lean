/-
Isolation. Two sides of one bench, each with names of its own, do not see each other: however their turns
are mixed, each side has the results, the log and the state that it has when it is alone, with other
numbers for the same things. The numbers keep their order, so nothing that goes by them changes: not the
order in which registries are drained, nor that of closings when channels end, which the ledgers tell.
-/
import Conduit.Proofs.Scenario.Run
import Conduit.Proofs.Scenario.Turns

namespace Conduit.Scenario

/-- What belongs to one side. -/
def ofSide {α : Type} (s : Bool) (l : List (Bool × α)) : List α := (l.filter (·.1 == s)).map (·.2)

/-- The names of one side. -/
def namesOf (whose : Table → String → Bool) (s : Bool) : Table → String → Bool := fun t name => whose t name == s

section OfSide

variable {α : Type} (s : Bool) (l : List (Bool × α)) (x : α)

theorem ofSide_snoc_same : ofSide s (l ++ [(s, x)]) = ofSide s l ++ [x] := by
  simp [ofSide]

theorem ofSide_snoc_other : ofSide (!s) (l ++ [(s, x)]) = ofSide (!s) l := by
  simp [ofSide]

end OfSide

theorem namesOf_not (whose : Table → String → Bool) (s : Bool) :
    namesOf whose (!s) = fun t name => !namesOf whose s t name := by
  funext t name
  unfold namesOf
  cases whose t name <;> cases s <;> rfl

namespace Bench

/-! ## Histories -/

/-- The bench after some turns. -/
def after (b : Bench) (ts : List Turn) : Bench := ts.foldl (fun b t => (t.run b).bench) b

/-- What turns leave behind, one after another. -/
def records : Bench → List Turn → List Record
  | _, [] => []
  | b, t :: ts => t.run b :: records (t.run b).bench ts

/-- What the turns of two sides leave behind. -/
def told (b : Bench) (hist : List (Bool × Turn)) : List (Bool × Record) :=
  (hist.map (·.1)).zip (b.records (hist.map (·.2)))

theorem after_snoc (b : Bench) (ts : List Turn) (t : Turn) : b.after (ts ++ [t]) = (t.run (b.after ts)).bench := by
  rw [after, List.foldl_append, List.foldl_cons, List.foldl_nil, after]

theorem records_snoc (t : Turn) :
    ∀ (ts : List Turn) (b : Bench), b.records (ts ++ [t]) = b.records ts ++ [t.run (b.after ts)]
  | [], _ => rfl
  | t' :: ts, b => by
    rw [List.cons_append, records, records_snoc t ts, records, List.cons_append]
    rfl

theorem length_records : ∀ (ts : List Turn) (b : Bench), (b.records ts).length = ts.length
  | [], _ => rfl
  | t :: ts, b => by rw [records, List.length_cons, List.length_cons, length_records ts]

theorem told_snoc (b : Bench) (hist : List (Bool × Turn)) (s : Bool) (t : Turn) :
    b.told (hist ++ [(s, t)]) = b.told hist ++ [(s, t.run (b.after (hist.map (·.2))))] := by
  unfold told
  rw [List.map_append, List.map_append, List.map_singleton, List.map_singleton, records_snoc, List.zip_append]
  · rfl
  · rw [List.length_map, length_records, List.length_map]

/-- A script is a history. -/
theorem records_script : ∀ (steps : List (Step Action)) (b : Bench),
    b.records (steps.map (Turn.ofStep patience)) = runScript b steps
  | [], _ => rfl
  | step :: steps, b => by
    rw [List.map_cons, records, runScript, records_script steps, runStep_eq]

/-- Whatever a history comes to, turns come to it. -/
theorem exists_turns {c : Config} (h : Config.Reachable .any c) :
    ∃ (ts : List Turn) (t : Turn), c = t.doings.foldl Config.does (opened (after {} ts) t.step) := by
  -- By induction on the history: a move continues the last turn, except for the next step, which begins one.
  induction h with
  | refl => exact ⟨[], ⟨none, []⟩, rfl⟩
  | @tail c d _ hm ih =>
    obtain ⟨ts, t, hc⟩ := ih
    have hmore : ∀ what : Doing, d = c.does what →
        ∃ (ts : List Turn) (t : Turn), d = t.doings.foldl Config.does (opened (after {} ts) t.step) :=
      fun what hd => ⟨ts, ⟨t.step, t.doings ++ [what]⟩, by rw [List.foldl_append, ← hc]; exact hd⟩
    cases hm with
    | tick _ => exact hmore .tick rfl
    | act hframes hf step =>
      refine hmore (.act step) ?_
      unfold Config.does Config.atWork?
      rw [hf, hframes]
    | next hf step =>
      refine ⟨ts ++ [t], ⟨some step, []⟩, ?_⟩
      have hbench : after {} (ts ++ [t]) = c.bench := by
        rw [after_snoc, hc]
        rfl
      rw [hbench]
      rfl
    | @furnish hf name hn layout rules =>
      refine hmore (.furnish name layout rules) ?_
      have hfree : (c.atWork?.isSome || c.answer?.isSome) = true := by
        unfold Config.atWork? Config.answer?
        rcases hf with ⟨⟨k, rest, hframes⟩, hf⟩ | ⟨r, hf⟩
        · rw [hf, hframes]
          rfl
        · rw [hf]
          exact Bool.or_true _
      unfold Config.does
      dsimp only
      rw [hfree, hn]
      rfl

/-! ## Changing sides -/

namespace Shares

variable {mine : Table → String → Bool} {strict strict' : Prop} {ρ σ : Atlas} {n : Kind → Nat} {b u B : Bench}

theorem empty (h : ρ.Beside σ) :
    Shares mine strict ρ σ (fun _ => 0) ({} : Bench).cleared ({} : Bench).cleared ({} : Bench).cleared where
  components := .nil
  channels := .nil
  handles := .nil
  registries := .nil
  signals := .nil
  callbacks := .nil
  connections := .nil
  signalStates := .nil
  callbackStates := .nil
  rules := .nil
  rules_inside _ hr := absurd hr List.not_mem_nil
  callbacks_inside _ hc := absurd hc List.not_mem_nil
  world := {
    components := .nil
    channels := .nil
    subscriptions := .nil
    foreigns := .nil
    ledger := .nil
    components_length := rfl
    channels_length := rfl
    subscriptions_length := rfl
    foreigns_length := rfl
    beside := h
    log := .nil }
  rules_length := rfl
  signals_length := rfl
  callbacks_length := rfl

/-- At the end of a turn the logs are put away. -/
theorem cleared (h : Shares mine strict ρ σ n b u B) : Shares mine strict ρ σ n b.cleared u B.cleared :=
  { h with world := { h.world with log := .nil } }

/-- The other side takes its turn. -/
theorem swap (h : Shares mine strict ρ σ n b u B) (hu : u.Lawful (fun t name => !mine t name) strict') :
    Shares (fun t name => !mine t name) strict' σ ρ n u.cleared b B.cleared where
  components := h.components.symm
  channels := h.channels.symm
  handles := h.handles.symm
  registries := h.registries.symm
  signals := h.signals.symm
  callbacks := h.callbacks.symm
  connections := h.connections.symm
  signalStates := h.signalStates.symm
  callbackStates := h.callbackStates.symm
  rules := h.rules.symm
  rules_inside := hu.rules_inside
  callbacks_inside := hu.callbacks_inside
  world := {
    components := h.world.components.symm
    channels := h.world.channels.symm
    subscriptions := h.world.subscriptions.symm
    foreigns := h.world.foreigns.symm
    ledger := h.world.ledger.symm
    components_length := h.world.components_length
    channels_length := h.world.channels_length
    subscriptions_length := h.world.subscriptions_length
    foreigns_length := h.world.foreigns_length
    beside := h.world.beside.symm
    log := .nil }
  rules_length := h.rules_length
  signals_length := h.signals_length
  callbacks_length := h.callbacks_length

end Shares

theorem Joined.of_cleared {mine : Table → String → Bool} {ρ σ : Atlas} {b u B : Bench}
    (h : Joined mine ρ σ b.cleared u.cleared B.cleared) : Joined mine ρ σ b u B :=
  { h with world := { h.world with } }

/-! ## Isolation -/

/-- What holds of two sides after a history, for these atlases. -/
structure Isolated (whose : Table → String → Bool) (strict : Bool → Prop) (hist : List (Bool × Turn)) (n : Kind → Nat)
    (ρ : Bool → Atlas) : Prop where
  shares : ∀ s, Shares (namesOf whose s) (strict s) (ρ s) (ρ !s) n (after {} (ofSide s hist)).cleared
    (after {} (ofSide (!s) hist)).cleared (after {} (hist.map (·.2))).cleared
  renamed : ∀ s, List.Forall₂ (Record.Renamed (strict s) (ρ s)) (records {} (ofSide s hist)) (ofSide s (told {} hist))
  joined : ∀ past, past <+: hist → Joined (namesOf whose true) (ρ true) (ρ false) (after {} (ofSide true past))
    (after {} (ofSide false past)) (after {} (past.map (·.2)))

variable {whose : Table → String → Bool} {strict : Bool → Prop} {hist : List (Bool × Turn)} {n n' : Kind → Nat}
  {ρ : Bool → Atlas}

/-- The state is that of both sides at every time, if it was and is now. -/
theorem joined_snoc {e : Bool × Turn} (hpast : ∀ past, past <+: hist → Joined (namesOf whose true) (ρ true) (ρ false)
      (after {} (ofSide true past)) (after {} (ofSide false past)) (after {} (past.map (·.2))))
    (hnow : Shares (namesOf whose true) (strict true) (ρ true) (ρ false) n
        (after {} (ofSide true (hist ++ [e]))).cleared
      (after {} (ofSide false (hist ++ [e]))).cleared (after {} ((hist ++ [e]).map (·.2))).cleared) :
    ∀ past, past <+: hist ++ [e] → Joined (namesOf whose true) (ρ true) (ρ false)
      (after {} (ofSide true past)) (after {} (ofSide false past)) (after {} (past.map (·.2))) := fun past hp => by
  rcases List.prefix_concat_iff.1 hp with rfl | hp
  · exact hnow.joined.of_cleared
  · exact hpast past hp

/-- One more turn. New places belong to the side whose turn it is. -/
theorem isolated_snoc {owner : Kind → Nat → Bool} (h : ∀ ρ, Divides owner n ρ → Isolated whose strict hist n ρ)
    {s : Bool} {t : Turn} (ht : t.Inside (namesOf whose s) (strict s)) :
    ∃ owner' n', ∀ ρ, Divides owner' n' ρ → Isolated whose strict (hist ++ [(s, t)]) n' ρ := by
  let owner' : Kind → Nat → Bool := fun k p => if p < n k then owner k p else s
  have hbefore : ∀ ρ, Divides owner' n ρ → Isolated whose strict hist n ρ := fun ρ hρ =>
    h ρ (hρ.congr fun k p hp => (if_pos hp).symm)
  have hown : ∀ k p, n k ≤ p → owner' k p = s := fun k p hp => if_neg (Nat.not_lt.2 hp)
  obtain ⟨hle, hall⟩ := t.run_paired hown ht fun ρ hρ => (hbefore ρ hρ).shares s
  refine ⟨owner', (t.run (after {} (hist.map (·.2)))).bench.lengths, fun ρ hρ => ?_⟩
  obtain ⟨hshares, hrecord⟩ := hall ρ hρ
  have hold := hbefore ρ (hρ.mono hle)
  -- The other side has what it had; its rules are still its own.
  have hlawful := (hold.shares !s).toLawful
  rw [namesOf_not] at hlawful
  have hother := hshares.cleared.swap hlawful
  have hsame : after {} (ofSide s (hist ++ [(s, t)])) = (t.run (after {} (ofSide s hist))).bench := by
    rw [ofSide_snoc_same, after_snoc]
  have hrest : ofSide (!s) (hist ++ [(s, t)]) = ofSide (!s) hist := ofSide_snoc_other s hist t
  have hwhole : after {} ((hist ++ [(s, t)]).map (·.2)) = (t.run (after {} (hist.map (·.2)))).bench := by
    rw [List.map_append]
    exact after_snoc ..
  have hnow : ∀ r, Shares (namesOf whose r) (strict r) (ρ r) (ρ !r) (t.run (after {} (hist.map (·.2)))).bench.lengths
      (after {} (ofSide r (hist ++ [(s, t)]))).cleared (after {} (ofSide (!r) (hist ++ [(s, t)]))).cleared
      (after {} ((hist ++ [(s, t)]).map (·.2))).cleared := fun r => by
    by_cases hr : r = s
    · subst hr
      rw [hsame, hrest, hwhole]
      exact hshares.cleared
    · obtain rfl := Bool.eq_not_iff.2 hr
      rw [Bool.not_not, hrest, hsame, hwhole, namesOf_not]
      exact hother
  refine ⟨hnow, fun r => ?_, joined_snoc hold.joined (hnow true)⟩
  by_cases hr : r = s
  · subst hr
    rw [ofSide_snoc_same, records_snoc, told_snoc, ofSide_snoc_same]
    exact List.rel_append (hold.renamed r) (.cons hrecord .nil)
  · obtain rfl := Bool.eq_not_iff.2 hr
    rw [told_snoc, ofSide_snoc_other, ofSide_snoc_other]
    exact hold.renamed !s

theorem exists_isolated (whose : Table → String → Bool) (strict : Bool → Prop) (hist : List (Bool × Turn))
    (h : ∀ e ∈ hist, e.2.Inside (namesOf whose e.1) (strict e.1)) :
    ∃ owner n, ∀ ρ, Divides owner n ρ → Isolated whose strict hist n ρ := by
  induction hist using List.reverseRecOn with
  | nil =>
    refine ⟨fun _ _ => true, fun _ => 0, fun ρ hρ => ⟨fun s => .empty (hρ.beside s), fun _ => .nil, fun past hp => ?_⟩⟩
    obtain rfl := List.prefix_nil.1 hp
    have hempty : Shares (namesOf whose true) (strict true) (ρ true) (ρ false) (fun _ => 0) ({} : Bench).cleared
      ({} : Bench).cleared ({} : Bench).cleared := .empty (hρ.beside true)
    exact hempty.joined.of_cleared
  | append_singleton hist e ih =>
    obtain ⟨owner, n, hall⟩ := ih fun e' he' => h e' (List.mem_append_left _ he')
    exact isolated_snoc hall (h e (List.mem_append_right _ (List.mem_singleton_self e)))

/-- Whatever the turns of two sides are mixed to, each side has the results and the log that it has alone,
renamed, and at every time the state is that of both, down to the ledger of what was connected and closed.
Atlases keep the order of subscriptions (`Atlas.id_mono`). -/
theorem sides_isolated (whose : Table → String → Bool) (strict : Bool → Prop) (hist : List (Bool × Turn))
    (h : ∀ e ∈ hist, e.2.Inside (namesOf whose e.1) (strict e.1)) :
    ∃ ρ : Bool → Atlas, (ρ true).Beside (ρ false) ∧
      (∀ s, List.Forall₂ (Record.Renamed (strict s) (ρ s)) (records {} (ofSide s hist)) (ofSide s (told {} hist))) ∧
      ∀ past, past <+: hist → Joined (namesOf whose true) (ρ true) (ρ false) (after {} (ofSide true past))
        (after {} (ofSide false past)) (after {} (past.map (·.2))) := by
  obtain ⟨owner, n, hall⟩ := exists_isolated whose strict hist h
  obtain ⟨ρ, hρ⟩ := exists_divides owner n
  have hisolated := hall ρ hρ
  exact ⟨ρ, hρ.beside true, hisolated.renamed, hisolated.joined⟩

/-- Two sides, each with an output and an input that is subscribed to it; their turns are mixed, and the
first side subscribes second. -/
def crossed : List (Bool × Turn) :=
  let output : Layout := { outputs := [(.int, .many)] }
  let input : Layout := { inputs := [.int] }
  let done (action : Action) : Turn := .ofStep 9 ⟨none, action⟩
  [(true, .furnish "p" output []), (false, .furnish "r" output []), (false, .furnish "s" input []),
      (true, .furnish "q" input []),
   (false, done (.subscribe (some "r.o0") (some "s.i0") (some "k") none)),
   (true, done (.subscribe (some "p.o0") (some "q.i0") (some "h") none)),
   (true, done (.publish (some "p.o0") (some (.int 7)))), (false, done (.drop (some "s")))]

/-- The names of the first side. -/
def crossedNames : Table → String → Bool := fun _ name => ["p", "q", "h"].contains name

theorem sides_isolated_crossed : (∀ e ∈ crossed, e.2.Inside (namesOf crossedNames e.1) True) ∧
    ∃ ρ : Bool → Atlas, (ρ true).Beside (ρ false) ∧
      (∀ s, List.Forall₂ (Record.Renamed True (ρ s)) (records {} (ofSide s crossed)) (ofSide s (told {} crossed))) ∧
      ∀ past, past <+: crossed → Joined (namesOf crossedNames true) (ρ true) (ρ false) (after {} (ofSide true past))
        (after {} (ofSide false past)) (after {} (past.map (·.2))) := by
  have hinside : ∀ e ∈ crossed, e.2.Inside (namesOf crossedNames e.1) True := by
    have hnone : ∀ s, RulesInside (namesOf crossedNames s) True [] := fun _ _ hr => absurd hr List.not_mem_nil
    have hleft : Action.Inside (namesOf crossedNames true) True
        (.subscribe (some "p.o0") (some "q.i0") (some "h") none) :=
      .plain ⟨by decide, by decide, by decide⟩ trivial rfl
    have hright : Action.Inside (namesOf crossedNames false) True
        (.subscribe (some "r.o0") (some "s.i0") (some "k") none) :=
      .plain ⟨by decide, by decide, by decide⟩ trivial rfl
    have hpublished : Points (namesOf crossedNames true) (some "p.o0") := by decide
    have hdropped : Calls (namesOf crossedNames false) .components (some "s") := by decide
    simp only [crossed, List.forall_mem_cons]
    exact ⟨.furnish rfl _ (hnone _), .furnish rfl _ (hnone _), .furnish rfl _ (hnone _), .furnish rfl _ (hnone _),
      .ofStep hright, .ofStep hleft, .ofStep (.plain hpublished trivial rfl), .ofStep (.plain hdropped trivial rfl),
      fun _ he => absurd he List.not_mem_nil⟩
  exact ⟨hinside, sides_isolated crossedNames (fun _ => True) crossed hinside⟩

/-- The number of a subscription is another one in company. -/
example : (ofSide true (told {} crossed)).map (·.result) = [.ok, .ok, .subscribed 2, .ok] ∧
    (records {} (ofSide true crossed)).map (·.result) = [.ok, .ok, .subscribed 1, .ok] := ⟨rfl, rfl⟩

end Bench

end Conduit.Scenario
