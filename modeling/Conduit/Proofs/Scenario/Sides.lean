/-
The names of one side. Two sides of a bench share its tables, but each has names of its own: a table
then has the entries of one side and those of the other, each in order (`Names.Shared`). A step is inside
of a side when it names nothing else, and neither do the steps that it carries (`Action.Inside`).
-/
import Conduit.Proofs.Scenario.Tables

namespace Conduit.Scenario

/-! ## Tables of two sides -/

namespace Names

variable {α : Type} {mine : String → Bool} {r s : α → α} {t u T : Names α} {name : String} {a : α}

/-- Entries under names that are not on one side do not show there. -/
theorem filter_enter_of_neg (p : String → Bool) (hn : p name = false) : ∀ T : Names α,
    (enter name a T).filter (fun e => p e.1) = T.filter (fun e => p e.1)
  | [] => by rw [enter, List.filter_cons_of_neg (by rw [hn]; exact Bool.false_ne_true)]
  | (n, b) :: rest => by
    unfold enter
    split
    · rw [List.filter_cons_of_neg (by rw [hn]; exact Bool.false_ne_true)]
    · split
      · rename_i heq
        rw [List.filter_cons_of_neg (by rw [hn]; exact Bool.false_ne_true),
          List.filter_cons_of_neg (by rw [← heq, hn]; exact Bool.false_ne_true)]
      · rw [List.filter_cons, List.filter_cons, filter_enter_of_neg p hn rest]

theorem enter_of_lt (h : ∀ e ∈ t, name < e.1) : enter name a t = (name, a) :: t := by
  cases t with
  | nil => rfl
  | cons e rest => rw [enter, if_pos (h e (List.mem_cons_self ..))]

theorem filter_cons_mine (hn : mine name = true) (b : α) (l : Names α) :
    ((name, b) :: l).filter (fun e => mine e.1) = (name, b) :: l.filter fun e => mine e.1 :=
  List.filter_cons_of_pos hn

theorem filter_enter_of_pos (hn : mine name = true) : ∀ {T : Names α}, T.Ordered →
    (enter name a T).filter (fun e => mine e.1) = enter name a (T.filter fun e => mine e.1)
  | [], _ => by rw [enter, filter_cons_mine hn, List.filter_nil, enter]
  | (n, b) :: rest, h => by
    obtain ⟨hhead, hrest⟩ := List.pairwise_cons.1 h
    by_cases hlt : name < n
    · have hall : ∀ e ∈ ((n, b) :: rest).filter (fun e => mine e.1), name < e.1 := fun e he => by
        rcases List.mem_cons.1 (List.mem_of_mem_filter he) with rfl | he
        · exact hlt
        · exact lt_trans hlt (hhead e he)
      rw [enter, if_pos hlt, filter_cons_mine hn, enter_of_lt hall]
    · by_cases heq : name = n
      · subst heq
        rw [enter, if_neg hlt, if_pos rfl, filter_cons_mine hn, filter_cons_mine hn, enter, if_neg hlt, if_pos rfl]
      · rw [enter, if_neg hlt, if_neg heq, List.filter_cons, List.filter_cons, filter_enter_of_pos hn hrest]
        split
        · rw [enter, if_neg hlt, if_neg heq]
        · rfl

theorem map_enter : ∀ t : Names α, (enter name a t).map (Prod.map id r) = enter name (r a) (t.map (Prod.map id r))
  | [] => rfl
  | (n, b) :: rest => by
    rw [List.map_cons, enter, Prod.map_apply, id, enter]
    split
    · rfl
    · split
      · rfl
      · rw [List.map_cons, map_enter rest, Prod.map_apply, id]

theorem filter_strike (p : String → Bool) :
    (T.strike name).filter (fun e => p e.1) = strike (T.filter fun e => p e.1) name := by
  rw [strike, strike, List.filter_filter, List.filter_filter]
  simp only [Bool.and_comm]

theorem map_strike : (t.strike name).map (Prod.map id r) = strike (t.map (Prod.map id r)) name := by
  rw [strike, strike, List.filter_map]
  rfl

/-- The table `T` has the entries of `t`, under the names of one side, and those of `u`, under all others. -/
structure Shared (mine : String → Bool) (r s : α → α) (t u T : Names α) : Prop where
  ordered : T.Ordered
  left : T.filter (fun e => mine e.1) = t.map (Prod.map id r)
  right : T.filter (fun e => !mine e.1) = u.map (Prod.map id s)

namespace Shared

theorem symm (h : Shared mine r s t u T) : Shared (fun n => !mine n) s r u t T :=
  ⟨h.ordered, h.right, by simpa only [Bool.not_not] using h.left⟩

theorem nil : Shared mine r s [] [] [] := ⟨List.Pairwise.nil, rfl, rfl⟩

theorem find? (h : Shared mine r s t u T) (hn : mine name = true) : T.find? name = (t.find? name).map r := by
  have hside : T.find? name = Names.find? (T.filter fun e => mine e.1) name := by
    rw [Names.find?, Names.find?, List.find?_filter]
    congr 2
    funext e
    by_cases he : e.1 = name
    · simp [he, hn]
    · simp [he]
  rw [hside, h.left, Names.find?, Names.find?, List.find?_map, Option.map_map, Option.map_map]
  rfl

theorem uses (h : Shared mine r s t u T) (hn : mine name = true) : T.uses name = t.uses name := by
  have hside : T.uses name = Names.uses (T.filter fun e => mine e.1) name := by
    rw [Names.uses, Names.uses, List.any_filter]
    congr 1
    funext e
    by_cases he : e.1 = name
    · simp [he, hn]
    · simp [he]
  rw [hside, h.left, Names.uses, Names.uses, List.any_map]
  rfl

theorem enter (h : Shared mine r s t u T) (hn : mine name = true) (a : α) :
    Shared mine r s (Names.enter name a t) u (Names.enter name (r a) T) where
  ordered := h.ordered.enter
  left := by rw [filter_enter_of_pos hn h.ordered, h.left, map_enter]
  right := by
    rw [filter_enter_of_neg (fun n => !mine n) (congrArg not hn), h.right]

theorem strike (h : Shared mine r s t u T) (hn : mine name = true) :
    Shared mine r s (t.strike name) u (T.strike name) where
  ordered := h.ordered.strike name
  left := by rw [filter_strike, h.left, map_strike]
  right := by
    rw [filter_strike (fun n => !mine n), h.right, Names.strike, List.filter_eq_self]
    intro e he
    rw [← h.right, List.mem_filter] at he
    rw [bne_iff_ne]
    rintro rfl
    rw [hn] at he
    exact absurd he.2 Bool.false_ne_true

/-- What some entry of one side has, and none of the other. -/
theorem any {p q : α → Bool} (h : Shared mine r s t u T) (hp : ∀ x, q (r x) = p x) (hq : ∀ y, q (s y) = false) :
    (T.any fun e => q e.2) = t.any fun e => p e.2 := by
  -- A table is what it has of one side, and what it has of the other.
  have hsides : (T.any fun e => q e.2) = (((T.filter fun e => mine e.1).any fun e => q e.2) ||
      ((T.filter fun e => !mine e.1).any fun e => q e.2)) := by
    rw [Bool.eq_iff_iff, Bool.or_eq_true, List.any_eq_true, List.any_eq_true, List.any_eq_true]
    constructor
    · rintro ⟨e, he, hqe⟩
      cases hm : mine e.1 with
      | true => exact .inl ⟨e, List.mem_filter.2 ⟨he, hm⟩, hqe⟩
      | false => exact .inr ⟨e, List.mem_filter.2 ⟨he, by rw [hm]; rfl⟩, hqe⟩
    · rintro (⟨e, he, hqe⟩ | ⟨e, he, hqe⟩)
      · exact ⟨e, List.mem_of_mem_filter he, hqe⟩
      · exact ⟨e, List.mem_of_mem_filter he, hqe⟩
  rw [hsides, h.left, h.right, List.any_map, List.any_map]
  have hnone : (u.any ((fun e => q e.2) ∘ Prod.map id s)) = false := List.any_eq_false.2 fun e _ => by
    rw [Function.comp_apply, Prod.map_snd, hq]
    exact Bool.false_ne_true
  rw [hnone, Bool.or_false]
  congr 1
  funext e
  exact hp e.2

theorem countP {p q : α → Bool} (h : Shared mine r s t u T) (hp : ∀ x, q (r x) = p x) (hq : ∀ y, q (s y) = false) :
    (T.countP fun e => q e.2) = t.countP fun e => p e.2 := by
  rw [List.countP_eq_countP_filter_add T _ fun e => mine e.1, h.left, h.right, List.countP_map, List.countP_map]
  have hnone : (u.countP ((fun e => q e.2) ∘ Prod.map id s)) = 0 := List.countP_eq_zero.2 fun e _ => by
    rw [Function.comp_apply, Prod.map_snd, hq]
    exact Bool.false_ne_true
  rw [hnone, Nat.add_zero]
  congr 1
  funext e
  exact hp e.2

end Shared

end Names

/-! ## Steps of one side -/

/-- The tables of a bench. -/
inductive Table
  | components
  | channels
  | handles
  | registries
  | signals
  | callbacks
  | connections
  deriving DecidableEq, Repr

/-- What an endpoint goes by: a position of a component by the name of that, or else its own name. -/
def pointed (name : String) : Table × String :=
  match splitAtLastDot name with
  | none => (.channels, name)
  | some (component, _) => (.components, component)

section

variable (mine : Table → String → Bool) (strict : Prop)

/-- The name in a field, if there is one, is on this side. -/
def Calls (t : Table) (f : Field) : Prop := ∀ name, f = some name → mine t name = true

/-- The endpoint in a field, if there is one, is on this side. -/
def Points (f : Field) : Prop := ∀ name, f = some name → mine (pointed name).1 (pointed name).2 = true

instance (t : Table) (f : Field) : Decidable (Calls mine t f) :=
  match f with
  | none => .isTrue fun _ he => by cases he
  | some name => decidable_of_iff (mine t name = true) ⟨fun h _ he => Option.some.inj he ▸ h, fun h => h name rfl⟩

instance (f : Field) : Decidable (Points mine f) :=
  match f with
  | none => .isTrue fun _ he => by cases he
  | some name => decidable_of_iff (mine (pointed name).1 (pointed name).2 = true)
    ⟨fun h _ he => Option.some.inj he ▸ h, fun h => h name rfl⟩

/-- Whatever a step names is on this side. -/
def Action.Named : Action → Prop
  | .create name _ _ => Calls mine .components name
  | .keep name component => Calls mine .components name ∧ Calls mine .components component
  | .drop name => Calls mine .components name
  | .hold name endpoint => Calls mine .channels name ∧ Points mine endpoint
  | .release name => Calls mine .channels name
  | .inspect endpoint => Points mine endpoint
  | .group name => Calls mine .components name
  | .publish endpoint _ => Points mine endpoint
  | .tryPublish endpoint _ => Points mine endpoint
  | .callSlot endpoint _ => Points mine endpoint
  | .panic _ _ => True
  | .subscribe output input name _ => Points mine output ∧ Points mine input ∧ Calls mine .handles name
  | .close handle => Calls mine .handles handle
  | .dropHandle handle => Calls mine .handles handle
  | .cloneHandle handle name => Calls mine .handles handle ∧ Calls mine .handles name
  | .handleInfo handle => Calls mine .handles handle
  | .downcast handle _ _ => Calls mine .handles handle
  | .has endpoint handle => Points mine endpoint ∧ Calls mine .handles handle
  | .register endpoint handle => Points mine endpoint ∧ Calls mine .handles handle
  | .unregister endpoint handle => Points mine endpoint ∧ Calls mine .handles handle
  | .forge like name => Calls mine .handles like ∧ Calls mine .handles name
  | .newRegistry name => Calls mine .registries name
  | .dropRegistry registry => Calls mine .registries registry
  | .addTo registry handle => Calls mine .registries registry ∧ Calls mine .handles handle
  | .removeFrom registry handle => Calls mine .registries registry ∧ Calls mine .handles handle
  | .contains registry handle => Calls mine .registries registry ∧ Calls mine .handles handle
  | .closeAll registry => Calls mine .registries registry
  | .registryInfo registry => Calls mine .registries registry
  | .newSignal name _ => Calls mine .signals name
  | .dropSignal signal => Calls mine .signals signal
  | .newCallback name _ => Calls mine .callbacks name
  | .dropCallback callback => Calls mine .callbacks callback
  | .callCallback callback _ => Calls mine .callbacks callback
  | .callbackInfo callback => Calls mine .callbacks callback
  | .connect signal callback connection =>
    Calls mine .signals signal ∧ Calls mine .callbacks callback ∧ Calls mine .connections connection
  | .disconnect signal connection => Calls mine .signals signal ∧ Calls mine .connections connection
  | .emit signal _ _ => Calls mine .signals signal
  | .signalInfo signal => Calls mine .signals signal
  | .disconnectAt endpoint connection => Points mine endpoint ∧ Calls mine .connections connection
  | .thread _ => True
  | .parallel endpoints _ => ∀ fields, endpoints = some fields → ∀ f ∈ fields, Points mine f
  | .unknown => True

/-- A step that begins no threads whose turns are not told. -/
def Action.Single : Action → Prop
  | .parallel _ _ => False
  | _ => True

/-- The steps that a step carries: rules for later, or the steps of a thread. -/
def Action.carried : Action → List (Step Action)
  | .create _ _ rules => rules.flatMap (·.steps)
  | .newCallback _ rules => rules.flatMap (·.steps)
  | .thread steps => steps.getD []
  | _ => []

/-- A step stays on this side, with all the steps that it carries; if `strict`, it begins no threads whose
turns are not told. -/
inductive Action.Inside : Action → Prop
  | intro {a : Action} (named : a.Named mine) (single : strict → a.Single)
    (carried : ∀ step ∈ a.carried, Inside step.action) : Inside a

/-- All steps of some rules stay on this side. -/
def RulesInside (rules : Rules) : Prop := ∀ rule ∈ rules, ∀ step ∈ rule.steps, step.action.Inside mine strict

/-- All rules on a bench stay on this side. -/
structure Bench.Lawful (b : Bench) : Prop where
  rules_inside : ∀ rules ∈ b.rules, RulesInside mine strict rules
  callbacks_inside : ∀ c ∈ b.callbackStates, RulesInside mine strict c.rules

end

variable {mine : Table → String → Bool} {strict : Prop}

theorem Action.Inside.named {a : Action} (h : a.Inside mine strict) : a.Named mine := by
  cases h with
  | intro named single carried => exact named

theorem Action.Inside.single {a : Action} (h : a.Inside mine strict) : strict → a.Single := by
  cases h with
  | intro named single carried => exact single

theorem Action.Inside.of_carried {a : Action} (h : a.Inside mine strict) :
    ∀ step ∈ a.carried, step.action.Inside mine strict := by
  cases h with
  | intro named single carried => exact carried

theorem RulesInside.of_flatMap {rules : Rules} (h : ∀ step ∈ rules.flatMap (·.steps), step.action.Inside mine strict) :
    RulesInside mine strict rules := fun rule hrule step hstep =>
  h step (List.mem_flatMap.2 ⟨rule, hrule, hstep⟩)

theorem of_mem_modify {α : Type} {l : List α} {i : Nat} {f : α → α} {x : α} (h : x ∈ l.modify i f) :
    ∃ y ∈ l, x = f y ∨ x = y := by
  obtain ⟨j, hj⟩ := List.mem_iff_getElem?.1 h
  rw [List.getElem?_modify] at hj
  obtain ⟨y, hy, rfl⟩ := Option.map_eq_some_iff.1 hj
  refine ⟨y, List.mem_of_getElem? hy, ?_⟩
  split
  · exact .inl rfl
  · exact .inr rfl

/-- A rule that is used up goes on to have its steps. -/
theorem RulesInside.use {rules : Rules} (h : RulesInside mine strict rules) (i : Nat) :
    RulesInside mine strict (rules.modify i Rule.use) := fun rule hrule => by
  obtain ⟨old, hold, rfl | rfl⟩ := of_mem_modify hrule
  · exact h old hold
  · exact h rule hold

end Conduit.Scenario
