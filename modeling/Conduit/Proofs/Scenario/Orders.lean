/-
What is asked of registries of their own. A step that names such a registry comes to an order (`Order`), if
its names stand for something. It is carried out and answered, and a registry changes by the operations that
are ordered of it, and by nothing else.
-/
import Conduit.Proofs.Filing
import Conduit.Proofs.Scenario.Requests
import Conduit.Proofs.Wiring.Sweeping

namespace Conduit.Scenario

open World (License)

/-- Something that is asked of the registries of their own, by the name of one. -/
inductive Order
  | make (n : String)
  | discard (n : String)
  | add (n : String) (a : Handle)
  /-- The number that the handle shows is to be removed. -/
  | remove (n : String) (a : Handle)
  | contains (n : String) (a : Handle)
  | closeAll (n : String)
  | list (n : String)
  deriving DecidableEq

namespace Bench

/-- The registry of a name; where there is none, nothing is held. -/
def registryOf (b : Bench) (n : String) : Registry Handle := (b.registries.find? n).getD .empty

/-- What a step asks of registries of their own, if it asks anything. -/
def order? (b : Bench) : Action → Option Order
  | .newRegistry name => do
    let n ← (fresh b.registries name).toOption
    return .make n
  | .dropRegistry registry => do
    let (n, _) ← (lookup b.registries registry).toOption
    return .discard n
  | .addTo registry handle => do
    let (n, _) ← (lookup b.registries registry).toOption
    let (_, a) ← (lookup b.handles handle).toOption
    return .add n a
  | .removeFrom registry handle => do
    let (n, _) ← (lookup b.registries registry).toOption
    let (_, a) ← (lookup b.handles handle).toOption
    return .remove n a
  | .contains registry handle => do
    let (n, _) ← (lookup b.registries registry).toOption
    let (_, a) ← (lookup b.handles handle).toOption
    return .contains n a
  | .closeAll registry => do
    let (n, _) ← (lookup b.registries registry).toOption
    return .closeAll n
  | .registryInfo registry => do
    let (n, _) ← (lookup b.registries registry).toOption
    return .list n
  | _ => none

end Bench

namespace Order

/-- The operation that an order is for the registry `n`. -/
def op? (n : String) (w : World) : Order → Option (Registry.Op Handle)
  | .make m => if m = n then some .clear else none
  | .discard m => if m = n then some .clear else none
  | .add m a => if m = n then some (.add (w.handleId a) a) else none
  | .remove m a => if m = n then some (.remove (w.handleId a)) else none
  | .closeAll m => if m = n then some .clear else none
  | .contains _ _ => none
  | .list _ => none

/-- The answer to an order. -/
def reply (b : Bench) : Order → Result
  | .remove n a => .flag ((b.registryOf n).get? (b.world.handleId a)).isSome
  | .contains n a => .flag ((b.registryOf n).get? (b.world.handleId a)).isSome
  | .closeAll n => .count (b.registryOf n).size
  | .list n => .registry (b.registryOf n).ids
  | _ => .ok

end Order

namespace Bench

variable {b b' : Bench} {r : Begun} {n : String} {reg : Registry Handle} {pins : Ref → Bool}

theorem registryOf_eq (h : b.registries.find? n = some reg) : b.registryOf n = reg := by
  rw [registryOf, h]
  rfl

theorem registryOf_congr (h : b'.registries = b.registries) (n : String) : b'.registryOf n = b.registryOf n := by
  rw [registryOf, h, registryOf]

theorem registryOf_enter (h : b'.registries = b.registries.enter n reg) (m : String) :
    b'.registryOf m = if n = m then reg else b.registryOf m := by
  rw [registryOf, h, Names.find?_enter]
  split <;> rfl

theorem registryOf_strike (h : b'.registries = b.registries.strike n) (m : String) :
    b'.registryOf m = if n = m then .empty else b.registryOf m := by
  rw [registryOf, h, Names.find?_strike]
  split <;> rfl

/-- What a registry of its own holds is kept. -/
theorem keeps_of_registryOf {a : Handle} (h : a ∈ (b.registryOf n).handles) : b.keeps pins (.handle a) = true := by
  unfold registryOf at h
  rcases hf : b.registries.find? n with _ | reg
  · rw [hf] at h
    cases h
  · rw [hf] at h
    exact keeps_handle.2 (.inr (.inr ⟨n, reg, Names.mem_of_find? hf, h⟩))

/-! ## Emptying a registry -/

/-- Takes a handle out of the registry `n`, of which `rest` is left, closes it and lets it go. -/
def closeNext (b : Bench) (pins : Ref → Bool) (n : String) (a : Handle) (rest : Registry Handle) : Bench :=
  { b with
    registries := b.registries.enter n rest
    world := (b.world.note (.event (.draining (b.world.handleId a)))).closeHandle a }.settle pins (.handle a)

/-- From `b` on handles are taken out of the registry `n` for as long as there is one, the one of the least
number first, and closed one after another. -/
inductive Empties (pins : Ref → Bool) (n : String) : Bench → List Handle → Bench → Prop
  | done {b : Bench} (h : (b.registryOf n).popMin? = none) : Empties pins n b [] b
  | next {b b' : Bench} {id : Nat} {a : Handle} {rest : Registry Handle} {hs : List Handle}
      (h : (b.registryOf n).popMin? = some ((id, a), rest)) (more : Empties pins n (b.closeNext pins n a rest) hs b') :
      Empties pins n b (a :: hs) b'

/-- To let go what has just been closed changes nothing. -/
theorem closeNext_eq (b : Bench) (pins : Ref → Bool) (n : String) (a : Handle) (rest : Registry Handle) :
    b.closeNext pins n a rest = { b with
      registries := b.registries.enter n rest
      world := (b.world.note (.event (.draining (b.world.handleId a)))).closeHandle a } := by
  have hletGo : ∀ (w : World) held, (w.closeHandle a).letGo held a = w.closeHandle a := by
    intro w held
    cases a with
    | foreign f => rfl
    | own s =>
      apply World.letGo_of_not_isConnected
      rw [World.closeHandle, World.isConnected_close]
      simp
  unfold closeNext settle World.settle
  dsimp only
  rw [hletGo]

/-- So a registry is emptied by closing all that it holds. -/
theorem empties (pins : Ref → Bool) (n : String) : ∀ (k : Nat) {b : Bench} {reg : Registry Handle},
    b.registries.Ordered → b.registries.find? n = some reg → reg.size = k →
      Empties pins n b reg.handles
        { b with world := b.world.closeAll reg.handles, registries := b.registries.enter n .empty }
  | 0, b, reg, ho, hf, hk => by
    obtain rfl : reg = .empty := Registry.eq_empty_of_ids (by simpa [Registry.ids, Registry.size] using hk)
    rw [Names.enter_of_find? ho hf]
    exact .done (by rw [registryOf_eq hf]; rfl)
  | k + 1, b, reg, ho, hf, hk => by
    rcases hp : reg.popMin? with _ | ⟨⟨id, a⟩, rest⟩
    · rw [Registry.eq_empty_of_ids (Registry.popMin?_eq_none_iff.1 hp)] at hk
      cases hk
    · -- The least entry goes first, and one entry less is left.
      have hsize := Registry.size_popMin? hp
      have hfind : (b.closeNext pins n a rest).registries.find? n = some rest := by
        rw [closeNext_eq, Names.find?_enter, if_pos rfl]
      have hmore := empties pins n k (by rw [closeNext_eq]; exact ho.enter) hfind (by omega)
      rw [Registry.handles_popMin? hp]
      refine .next (by rw [registryOf_eq hf]; exact hp) ?_
      have hend : ∀ w : World, ({ b with world := w, registries := b.registries.enter n .empty } : Bench) =
          { b with world := w, registries := (b.registries.enter n rest).enter n .empty } := by
        intro w
        rw [Names.enter_enter]
      rw [hend]
      rw [closeNext_eq] at hmore ⊢
      exact hmore

/-! ## Steps that order something -/

/-- A step that has begun has done what was ordered. -/
structure Obeyed (pins : Ref → Bool) (o : Order) (b : Bench) (r : Begun) : Prop where
  outcome : r.outcome = .answer (o.reply b)
  registries : ∀ n, r.bench.registryOf n = (o.op? n b.world).elim (b.registryOf n) (b.registryOf n).apply
  /-- Where nothing is to be done, nothing changes. -/
  idle : ∀ n a, o = .contains n a ∨ o = .list n ∨ (o = .add n a ∧ ((b.registryOf n).get? (b.world.handleId a)).isSome) →
    r.bench = b
  emptied : ∀ n, o = .closeAll n → r.bench.world = b.world.closeAll (b.registryOf n).handles ∧
    Empties pins n b (b.registryOf n).handles r.bench
  discarded : ∀ n, o = .discard n → r.bench.world =
    b.world.settleAll (keeps { b with registries := b.registries.strike n } pins) ((b.registryOf n).handles.map .handle)

theorem newRegistry_obeyed {name : Field} {o : Order} (h : b.order? (.newRegistry name) = some o) :
    ∃ r, b.newRegistry name = .ok r ∧ Obeyed pins o b r := by
  obtain ⟨n, hn, h⟩ := Option.bind_eq_some_iff.1 h
  cases h
  rw [toOption_eq_some] at hn
  unfold newRegistry
  rw [hn]
  refine ⟨_, rfl, rfl, ?_, nofun, nofun, nofun⟩
  intro m
  rw [registryOf_enter rfl m, Order.op?]
  split
  · rfl
  · rfl

theorem dropRegistry_obeyed {registry : Field} {o : Order} (h : b.order? (.dropRegistry registry) = some o) :
    ∃ r, b.dropRegistry pins registry = .ok r ∧ Obeyed pins o b r := by
  obtain ⟨⟨n, reg⟩, hreg, h⟩ := Option.bind_eq_some_iff.1 h
  cases h
  rw [toOption_eq_some] at hreg
  have hof := registryOf_eq (find?_of_lookup hreg)
  unfold dropRegistry
  rw [hreg]
  dsimp only [bind, Except.bind]
  rw [settle_handles]
  refine ⟨_, rfl, rfl, ?_, nofun, nofun, ?_⟩
  · intro m
    rw [registryOf_strike rfl m, Order.op?]
    split
    · rfl
    · rfl
  · intro m hm
    cases hm
    rw [hof]

theorem addTo_obeyed (ho : b.registries.Ordered) {registry handle : Field} {o : Order}
    (h : b.order? (.addTo registry handle) = some o) : ∃ r, b.addTo registry handle = .ok r ∧ Obeyed pins o b r := by
  obtain ⟨⟨n, reg⟩, hreg, h⟩ := Option.bind_eq_some_iff.1 h
  obtain ⟨⟨k, a⟩, ha, h⟩ := Option.bind_eq_some_iff.1 h
  cases h
  rw [toOption_eq_some] at hreg ha
  have hof := registryOf_eq (find?_of_lookup hreg)
  unfold addTo
  rw [hreg, ha]
  refine ⟨_, rfl, rfl, ?_, ?_, nofun, nofun⟩
  · intro m
    rw [registryOf_enter rfl m, Order.op?]
    split
    · rename_i hm
      subst hm
      rw [hof]
      rfl
    · rfl
  · intro m x hx
    rcases hx with hx | hx | ⟨hx, hthere⟩
    · cases hx
    · cases hx
    · cases hx
      -- The number is there already, so nothing changes.
      rw [hof, ← Registry.has_eq] at hthere
      show ({ b with registries := b.registries.enter n (reg.insert (b.world.handleId a) a) } : Bench) = b
      rw [Registry.insert_of_has hthere, Names.enter_of_find? ho (find?_of_lookup hreg)]

theorem removeFrom_obeyed {registry handle : Field} {o : Order}
    (h : b.order? (.removeFrom registry handle) = some o) :
    ∃ r, b.removeFrom pins registry handle = .ok r ∧ Obeyed pins o b r := by
  obtain ⟨⟨n, reg⟩, hreg, h⟩ := Option.bind_eq_some_iff.1 h
  obtain ⟨⟨k, a⟩, ha, h⟩ := Option.bind_eq_some_iff.1 h
  cases h
  rw [toOption_eq_some] at hreg ha
  have hof := registryOf_eq (find?_of_lookup hreg)
  unfold removeFrom
  rw [hreg, ha]
  dsimp only [bind, Except.bind]
  -- The number may not be registered, and then nothing is erased.
  rcases hget : reg.get? (b.world.handleId a) with _ | removed
  · refine ⟨_, rfl, ?_, ?_, nofun, nofun, nofun⟩
    · show _ = Outcome.answer (.flag ((b.registryOf n).get? (b.world.handleId a)).isSome)
      rw [hof, hget]
      rfl
    · intro m
      rw [Order.op?]
      split
      · rename_i hm
        subst hm
        show b.registryOf n = (b.registryOf n).erase (b.world.handleId a)
        rw [hof, Registry.erase_of_not_mem (Registry.get?_eq_none_iff.1 hget)]
      · rfl
  · refine ⟨_, rfl, ?_, ?_, nofun, nofun, nofun⟩
    · show _ = Outcome.answer (.flag ((b.registryOf n).get? (b.world.handleId a)).isSome)
      rw [hof, hget]
      rfl
    · intro m
      rw [registryOf_enter (b := b) rfl m, Order.op?]
      split
      · rename_i hm
        subst hm
        rw [hof]
        rfl
      · rfl

theorem contains_obeyed {registry handle : Field} {o : Order} (h : b.order? (.contains registry handle) = some o) :
    ∃ r, b.contains registry handle = .ok r ∧ Obeyed pins o b r := by
  obtain ⟨⟨n, reg⟩, hreg, h⟩ := Option.bind_eq_some_iff.1 h
  obtain ⟨⟨k, a⟩, ha, h⟩ := Option.bind_eq_some_iff.1 h
  cases h
  rw [toOption_eq_some] at hreg ha
  unfold contains
  rw [hreg, ha]
  refine ⟨_, rfl, ?_, fun _ => rfl, fun _ _ _ => rfl, nofun, nofun⟩
  show Outcome.answer (.flag (reg.has (b.world.handleId a))) = .answer (.flag _)
  rw [registryOf_eq (find?_of_lookup hreg), Registry.has_eq]

theorem closeAll_obeyed (ho : b.registries.Ordered) {registry : Field} {o : Order}
    (h : b.order? (.closeAll registry) = some o) : ∃ r, b.closeAll registry = .ok r ∧ Obeyed pins o b r := by
  obtain ⟨⟨n, reg⟩, hreg, h⟩ := Option.bind_eq_some_iff.1 h
  cases h
  rw [toOption_eq_some] at hreg
  have hof := registryOf_eq (find?_of_lookup hreg)
  unfold closeAll
  rw [hreg]
  refine ⟨_, rfl, ?_, ?_, nofun, ?_, nofun⟩
  · show Outcome.answer (.count reg.size) = .answer (.count (b.registryOf n).size)
    rw [hof]
  · intro m
    rw [registryOf_enter (b := b) rfl m, Order.op?]
    split
    · rfl
    · rfl
  · intro m hm
    cases hm
    rw [hof]
    exact ⟨rfl, empties pins n reg.size ho (find?_of_lookup hreg) rfl⟩

theorem registryInfo_obeyed {registry : Field} {o : Order} (h : b.order? (.registryInfo registry) = some o) :
    ∃ r, b.registryInfo registry = .ok r ∧ Obeyed pins o b r := by
  obtain ⟨⟨n, reg⟩, hreg, h⟩ := Option.bind_eq_some_iff.1 h
  cases h
  rw [toOption_eq_some] at hreg
  unfold registryInfo
  rw [hreg]
  refine ⟨_, rfl, ?_, fun _ => rfl, fun _ _ _ => rfl, nofun, nofun⟩
  show Outcome.answer (.registry reg.ids) = .answer (.registry (b.registryOf n).ids)
  rw [registryOf_eq (find?_of_lookup hreg)]

/-- A step that orders something is performed, and does that. -/
theorem perform_obeyed (ho : b.registries.Ordered) (frames : List Frame) (given : Option Value) {a : Action} {o : Order}
    (h : b.order? a = some o) : ∃ r, b.perform frames given a = .ok r ∧ Obeyed (pinned frames) o b r := by
  cases a with
  | newRegistry name => exact newRegistry_obeyed h
  | dropRegistry registry => exact dropRegistry_obeyed h
  | addTo registry handle => exact addTo_obeyed ho h
  | removeFrom registry handle => exact removeFrom_obeyed h
  | contains registry handle => exact contains_obeyed h
  | closeAll registry => exact closeAll_obeyed ho h
  | registryInfo registry => exact registryInfo_obeyed h
  | _ => cases h

/-- A step about registries that has begun has ordered something. -/
theorem order_of_performed {frames : List Frame} {given : Option Value} {a : Action} (ha : a.Files)
    (h : b.perform frames given a = .ok r) : ∃ o, b.order? a = some o := by
  cases a with
  | newRegistry name =>
    obtain ⟨n, hn, -⟩ := bind_ok h
    exact ⟨.make n, by simp [order?, hn, Except.toOption]⟩
  | dropRegistry registry =>
    obtain ⟨⟨n, reg⟩, hreg, -⟩ := bind_ok h
    exact ⟨.discard n, by simp [order?, hreg, Except.toOption]⟩
  | addTo registry handle =>
    obtain ⟨⟨n, reg⟩, hreg, h⟩ := bind_ok h
    obtain ⟨⟨k, a⟩, hk, -⟩ := bind_ok h
    exact ⟨.add n a, by simp [order?, hreg, hk, Except.toOption]⟩
  | removeFrom registry handle =>
    obtain ⟨n, reg, k, a, hreg, hk, -⟩ := removeFrom_ok h
    exact ⟨.remove n a, by simp [order?, hreg, hk, Except.toOption]⟩
  | closeAll registry =>
    obtain ⟨⟨n, reg⟩, hreg, -⟩ := bind_ok h
    exact ⟨.closeAll n, by simp [order?, hreg, Except.toOption]⟩
  | _ => cases ha

/-- A step that orders nothing leaves registries of their own alone. -/
theorem registries_performed {frames : List Frame} {given : Option Value} {a : Action} (ha : b.order? a = none)
    (h : b.perform frames given a = .ok r) : r.bench.registries = b.registries := by
  apply (perform_aside h).registries
  intro hfiles
  obtain ⟨o, ho⟩ := order_of_performed hfiles h
  rw [ha] at ho
  cases ho

end Bench

/-! ## Moves -/

namespace Config

variable {may : License} {c d : Config}

/-- What the next move orders of registries of their own, if it orders anything. -/
def order? (c : Config) : Option Order :=
  match c.focus with
  | .start step _ => c.bench.order? step.action
  | _ => none

theorem order?_eq_some_iff {o : Order} : c.order? = some o ↔
    ∃ step given, c.focus = .start step given ∧ c.bench.order? step.action = some o := by
  unfold order?
  cases c.focus <;> simp

/-- The operation that the next move is for the registry `n`. -/
def op? (n : String) (c : Config) : Option (Registry.Op Handle) := c.order?.bind (Order.op? n c.bench.world)

/-- What is ordered is done in the next move, and answered. -/
theorem Move.obeyed (hs : WellFormed c) (h : Move may c d) {o : Order} (ho : c.order? = some o) :
    d.focus = .ended (o.reply c.bench) ∧
      ∃ r, r.bench = d.bench ∧ Bench.Obeyed (pinned c.frames) o c.bench r := by
  obtain ⟨step, given, hfocus, ho⟩ := order?_eq_some_iff.1 ho
  obtain ⟨⟨bench, outcome, holds⟩, hperform, hobeyed⟩ :=
    Bench.perform_obeyed hs.bench.ordered.registries c.frames given ho
  obtain rfl := h.of_start hfocus
  have houtcome : outcome = .answer (o.reply c.bench) := hobeyed.outcome
  refine ⟨?_, _, ?_, hobeyed⟩
  · rw [start, hperform, houtcome]
  · exact (bench_start hperform).symm

/-- The next move changes a registry by what is ordered of it, and by nothing else. -/
theorem Move.registryOf (hs : WellFormed c) (h : Move may c d) (n : String) :
    d.bench.registryOf n = (c.op? n).elim (c.bench.registryOf n) (c.bench.registryOf n).apply := by
  rcases ho : c.order? with _ | o
  · rw [op?, ho]
    apply Bench.registryOf_congr
    -- A move that is no order leaves all registries as they are.
    cases h.moved with
    | @begun step given r hfocus hperform hd =>
      rw [hd, bench_start hperform]
      apply Bench.registries_performed _ hperform
      unfold order? at ho
      rw [hfocus] at ho
      exact ho
    | @ended _ holds rest _ _ hsame =>
      obtain ⟨w, hw⟩ := Bench.letGo_world rest holds c.bench
      rw [hw] at hsame
      exact hsame.registries
    | @left k rest _ _ hleave =>
      obtain ⟨w, hw⟩ := Bench.leave_world c.bench rest k.slot
      rw [hleave, hw]
    | furnished _ hd => rw [hd]; rfl
    | unmoved hsame => exact hsame.registries
  · obtain ⟨-, r, hr, hobeyed⟩ := h.obeyed hs ho
    rw [op?, ho, ← hr]
    exact hobeyed.registries n

end Config

end Conduit.Scenario
