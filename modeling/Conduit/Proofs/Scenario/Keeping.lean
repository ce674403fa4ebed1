/-
Registries of their own, in whatever history. What has been ordered of a registry, from outside and by
handlers, tells what it holds (`Filed`): under each number the handle that was added first since the number
was last absent. A registry that is emptied closes each handle once, in the order of numbers; one that is
dropped closes those that nothing else holds.
-/
import Conduit.Proofs.Scenario.Orders
import Conduit.Proofs.Scenario.Rosters

namespace Conduit.Scenario

open World (License)

namespace Config

variable {c d : Config} {past : List Config} {n : String} {k : Nat} {a : Handle}

/-- What the next move has to do with the number `k` in the registry `n`: a handle comes under it, or what is
there goes. -/
def mark? (n : String) (k : Nat) (c : Config) : Option (Option Handle) := (c.op? n).bind (Registry.Op.mark? k)

/-- Every move keeps the account of every number. -/
theorem Move.marked (hs : WellFormed c) (h : Move .any c d) {marks : List (Option Handle)}
    (hc : (c.bench.registryOf n).get? k = Registry.firstSince marks) :
    (d.bench.registryOf n).get? k = Registry.firstSince (marks ++ (c.mark? n k).toList) := by
  rw [h.registryOf hs, mark?]
  rcases c.op? n with _ | o
  · rw [Option.bind_none, Option.toList_none, List.append_nil]
    exact hc
  · exact Registry.get?_apply _ o hc

theorem Course.marked (h : Course empty past c) (n : String) (k : Nat) :
    (c.bench.registryOf n).get? k = Registry.firstSince (past.filterMap (mark? n k)) := by
  induction h with
  | start => rfl
  | move h hm ih =>
    rw [World.filterMap_snoc]
    exact hm.marked (h.reachable .refl).wellFormed ih

/-! ## Numbers that handles show -/

/-- A handle that is added has a name. -/
theorem named_of_op? {id : Nat} (h : c.op? n = some (.add id a)) :
    id = c.bench.world.handleId a ∧ ∃ m, (m, a) ∈ c.bench.handles := by
  obtain ⟨o, ho, hop⟩ := Option.bind_eq_some_iff.1 h
  obtain ⟨step, given, -, ho⟩ := order?_eq_some_iff.1 ho
  cases o with
  | add m x =>
    have hadds : id = c.bench.world.handleId a ∧ x = a := by
      unfold Order.op? at hop
      dsimp only at hop
      split at hop
      · cases hop
        exact ⟨rfl, rfl⟩
      · cases hop
    obtain ⟨rfl, rfl⟩ := hadds
    refine ⟨rfl, ?_⟩
    cases haction : step.action with
    | addTo registry handle =>
      rw [haction] at ho
      obtain ⟨⟨m, reg⟩, -, ho⟩ := Option.bind_eq_some_iff.1 ho
      obtain ⟨⟨l, y⟩, hy, ho⟩ := Option.bind_eq_some_iff.1 ho
      cases ho
      exact ⟨l, Bench.mem_of_lookup (Bench.toOption_eq_some.1 hy)⟩
    | _ =>
      rw [haction] at ho
      simp [Bench.order?, Option.bind_eq_some_iff] at ho
  | contains _ _ | list _ => cases hop
  | _ =>
    unfold Order.op? at hop
    dsimp only at hop
    split at hop
    · cases hop
    · cases hop

/-- A registry lists a handle under the number that it shows. -/
theorem Course.keyed (h : Course empty past c) (n : String) :
    ∀ e ∈ (c.bench.registryOf n).entries, c.bench.world.handleId e.2 = e.1 := by
  induction h with
  | start => exact nofun
  | @move past c d h hm ih =>
    have hwell := (h.reachable .refl).wellFormed
    -- The number of a handle that is known does not change.
    have hstays : ∀ a, c.bench.world.Knows a → d.bench.world.handleId a = c.bench.world.handleId a := fun a ha =>
      ((hm.preserves hwell).leads.changes.acts.handleId ha).2
    have hold : ∀ e ∈ (c.bench.registryOf n).entries, d.bench.world.handleId e.2 = e.1 := by
      intro e he
      have hkept : c.bench.keeps (pinned c.frames) (.handle e.2) = true :=
        Bench.keeps_of_registryOf (Registry.mem_handles.2 ⟨e.1, he⟩)
      rw [hstays e.2 (hwell.bench.scene.upheld _ hkept), ih e he]
    intro e he
    rw [hm.registryOf hwell] at he
    rcases hop : c.op? n with _ | o
    · rw [hop] at he
      exact hold e he
    rw [hop] at he
    cases o with
    | add id a =>
      rcases Registry.mem_insert.1 he with he | ⟨rfl, -⟩
      · exact hold e he
      · obtain ⟨rfl, m, hm⟩ := named_of_op? hop
        exact hstays a (hwell.bench.knows hm)
    | remove id => exact hold e (Registry.mem_erase.1 he).1
    | clear => cases he

/-- The handles of a registry are in the order of the numbers that they show. -/
theorem Course.increasing (h : Course empty past c) (n : String) : (c.bench.registryOf n).handles.Pairwise
    fun a b => c.bench.world.handleId a < c.bench.world.handleId b := by
  have hkeys := List.pairwise_map.1 (c.bench.registryOf n).increasing
  refine List.pairwise_map.2 (hkeys.imp_of_mem ?_)
  intro x y hx hy hlt
  rw [h.keyed n x hx, h.keyed n y hy]
  exact hlt

theorem Course.nodup (h : Course empty past c) (n : String) : (c.bench.registryOf n).handles.Nodup := by
  refine (h.increasing n).imp ?_
  rintro a b hlt rfl
  exact Nat.lt_irrefl _ hlt

/-! ## Other holders -/

/-- Something else than the registry `n` holds the handle. -/
def HeldBeside (c : Config) (n : String) (a : Handle) : Prop :=
  pinned c.frames (.handle a) = true ∨ (∃ m, (m, a) ∈ c.bench.handles) ∨
    (∃ m reg, m ≠ n ∧ (m, reg) ∈ c.bench.registries ∧ a ∈ reg.handles) ∨
    ∃ ch, c.bench.world.channelAlive ch = true ∧ a ∈ (c.bench.world.registry ch).handles

theorem heldBeside_iff : c.HeldBeside n a ↔
    Bench.keeps { c.bench with registries := c.bench.registries.strike n } (pinned c.frames) (.handle a) = true ∨
      c.bench.world.isRegistered a = true := by
  rw [Bench.keeps_handle, World.isRegistered_iff]
  unfold HeldBeside
  simp only [Names.mem_strike]
  constructor
  · rintro (hp | hn | ⟨m, reg, hm, hreg, ha⟩ | hch)
    · exact .inl (.inl hp)
    · exact .inl (.inr (.inl hn))
    · exact .inl (.inr (.inr ⟨m, reg, ⟨hreg, hm⟩, ha⟩))
    · exact .inr hch
  · rintro ((hp | hn | ⟨m, reg, ⟨hreg, hm⟩, ha⟩) | hch)
    · exact .inl hp
    · exact .inr (.inl hn)
    · exact .inr (.inr (.inl ⟨m, reg, hm, hreg, ha⟩))
    · exact .inr (.inr (.inr hch))

/-- When a registry is dropped, just these subscriptions are closed. -/
structure Dropped (c d : Config) (n : String) (lost : List SubscriptionId) : Prop where
  increasing : lost.Pairwise (· < ·)
  /-- They are those in the registry that are connected and that nothing else holds. -/
  mem : ∀ s, s ∈ lost ↔ .own s ∈ (c.bench.registryOf n).handles ∧ c.bench.world.isConnected s = true ∧
    ¬ c.HeldBeside n (.own s)
  /-- Nothing happens but that each is closed, in this order. -/
  world : d.bench.world = c.bench.world.closeEach lost
  connected : ∀ s, d.bench.world.isConnected s = (c.bench.world.isConnected s && !lost.contains s)

theorem Course.dropped (h : Course empty past c) (hd : d.bench.world = c.bench.world.settleAll
    (Bench.keeps { c.bench with registries := c.bench.registries.strike n } (pinned c.frames))
      ((c.bench.registryOf n).handles.map .handle)) : ∃ lost, Dropped c d n lost := by
  have hsound : World.Sound none c.bench.world := (h.reachable .refl).wellFormed.bench.scene.sound
  rw [World.settleAll_handles _ (h.nodup n) hsound] at hd
  -- What is lost is what nothing beside this registry holds, in the order of the numbers.
  refine ⟨_, ?_, ?_, hd, ?_⟩
  · refine (h.increasing n).filterMap _ ?_
    intro x y hlt s hs t ht
    obtain ⟨rfl, -⟩ := World.lost?_eq_some_iff.1 hs
    obtain ⟨rfl, -⟩ := World.lost?_eq_some_iff.1 ht
    exact hlt
  · intro s
    rw [List.mem_filterMap, heldBeside_iff, not_or, Bool.not_eq_true, Bool.not_eq_true]
    constructor
    · rintro ⟨x, hx, hlost⟩
      obtain ⟨rfl, hrest⟩ := World.lost?_eq_some_iff.1 hlost
      exact ⟨hx, hrest⟩
    · rintro ⟨hx, hrest⟩
      exact ⟨_, hx, World.lost?_eq_some_iff.2 ⟨rfl, hrest⟩⟩
  · intro s
    rw [hd, World.isConnected_closeEach]

/-! ## The account of a history -/

/-- What the history `past` says of the registries of their own in `c`. -/
structure Filed (past : List Config) (c : Config) : Prop where
  /-- A number stands for the handle that was added first since the number was last absent. -/
  first : ∀ n k, (c.bench.registryOf n).get? k = Registry.firstSince (past.filterMap (mark? n k))
  /-- That handle shows the number. -/
  keyed : ∀ n k a, (c.bench.registryOf n).get? k = some a → c.bench.world.handleId a = k
  /-- The numbers that are listed are those that stand for a handle, in increasing order. -/
  ids : ∀ n, (c.bench.registryOf n).ids.Pairwise (· < ·) ∧
    (c.bench.registryOf n).ids.length = (c.bench.registryOf n).size ∧
    ∀ k, k ∈ (c.bench.registryOf n).ids ↔ ((c.bench.registryOf n).get? k).isSome
  /-- What is ordered next is answered. -/
  reply : ∀ o, c.order? = some o → c.tick.focus = .ended (o.reply c.bench)
  /-- To add under a number that is present changes nothing, and no more do questions. -/
  idle : ∀ n a, c.order? = some (.contains n a) ∨ c.order? = some (.list n) ∨ (c.order? = some (.add n a) ∧
    ((c.bench.registryOf n).get? (c.bench.world.handleId a)).isSome) → c.tick.bench = c.bench
  /-- A number is removed whichever handle it stands for, and no other is. -/
  removed : ∀ n a, c.order? = some (.remove n a) → ∀ k, (c.tick.bench.registryOf n).get? k =
    if c.bench.world.handleId a = k then none else (c.bench.registryOf n).get? k
  /-- All handles are taken out one after another and each is closed once, which is told in this order; then
  they are not connected, and all others are as before. -/
  emptied : ∀ n, c.order? = some (.closeAll n) →
    Bench.Empties (pinned c.frames) n c.bench (c.bench.registryOf n).handles c.tick.bench ∧
    c.tick.bench.registryOf n = .empty ∧
    c.tick.bench.world.told =
      (c.bench.world.closings (c.bench.registryOf n).handles).reverse ++ c.bench.world.told ∧
    ∀ a, c.tick.bench.world.handleConnected a =
      (c.bench.world.handleConnected a && !(c.bench.registryOf n).handles.contains a)
  dropped : ∀ n, c.order? = some (.discard n) → ∃ lost, Dropped c c.tick n lost

theorem filed (h : Course empty past c) : Filed past c := by
  have hwell := (h.reachable .refl).wellFormed
  have htick : Move .any c c.tick := .tick fun step _ _ => step.action.within_any
  constructor
  · exact h.marked
  · intro n k a ha
    exact h.keyed n _ (Registry.get?_eq_some_iff.1 ha)
  · intro n
    refine ⟨(c.bench.registryOf n).increasing, Registry.length_ids _, ?_⟩
    intro k
    rw [← Registry.has_iff, Registry.has_eq]
  · intro o ho
    exact (htick.obeyed hwell ho).1
  · intro n a ho
    rcases ho with ho | ho | ⟨ho, hthere⟩
    · obtain ⟨-, r, hr, hobeyed⟩ := htick.obeyed hwell ho
      rw [← hr, hobeyed.idle n a (.inl rfl)]
    · obtain ⟨-, r, hr, hobeyed⟩ := htick.obeyed hwell ho
      rw [← hr, hobeyed.idle n a (.inr (.inl rfl))]
    · obtain ⟨-, r, hr, hobeyed⟩ := htick.obeyed hwell ho
      rw [← hr, hobeyed.idle n a (.inr (.inr ⟨rfl, hthere⟩))]
  · intro n a ho k
    have hop : c.op? n = some (.remove (c.bench.world.handleId a)) := by
      rw [op?, ho, Option.bind_some, Order.op?, if_pos rfl]
    rw [htick.registryOf hwell, hop]
    exact Registry.get?_erase _ _ k
  · intro n ho
    -- To close all is to empty the registry, whatever the handles were.
    have hop : c.op? n = some .clear := by rw [op?, ho, Option.bind_some, Order.op?, if_pos rfl]
    obtain ⟨-, r, hr, hobeyed⟩ := htick.obeyed hwell ho
    obtain ⟨hworld, hempties⟩ := hobeyed.emptied n rfl
    rw [hr] at hworld hempties
    refine ⟨hempties, ?_, ?_, ?_⟩
    · rw [htick.registryOf hwell, hop]
      rfl
    · rw [hworld, World.told_closeAll _ (h.nodup n)]
    · intro a
      rw [hworld, World.handleConnected_closeAll]
  · intro n ho
    obtain ⟨-, r, hr, hobeyed⟩ := htick.obeyed hwell ho
    have hworld := hobeyed.discarded n rfl
    rw [hr] at hworld
    exact h.dropped hworld

/-- Whatever is done with a registry, a number stands for the handle that came first since it last stood for
none; and so it is with registries of their own in every history, where closing them and dropping them does
this. -/
theorem registries_file (h : Course empty past c) :
    (∀ (ops : List (Registry.Op Handle)) (k : Nat),
      (Registry.after ops).get? k = Registry.firstSince (ops.filterMap (Registry.Op.mark? k))) ∧
    Filed past c :=
  ⟨fun ops k => Registry.get?_after k ops, filed h⟩

/-- Of two subscriptions the first has a foreign twin, which comes into a registry before it. The second
comes into it too, and then both are in another one. -/
def twinned : List Config × Config :=
  empty.through 2 [⟨none, .create (some "a") (some "src1") []⟩, ⟨none, .create (some "b") (some "sink1") []⟩,
    ⟨none, .subscribe (some "a.o0") (some "b.i0") (some "h") none⟩,
    ⟨none, .subscribe (some "a.o0") (some "b.i0") (some "g") none⟩, ⟨none, .forge (some "h") (some "f")⟩,
    ⟨none, .newRegistry (some "r")⟩, ⟨none, .newRegistry (some "q")⟩, ⟨none, .addTo (some "r") (some "g")⟩,
    ⟨none, .addTo (some "r") (some "f")⟩, ⟨none, .addTo (some "r") (some "h")⟩, ⟨none, .addTo (some "q") (some "h")⟩,
    ⟨none, .addTo (some "q") (some "f")⟩]

/-- For instance the first registry closes the twin and the second subscription, when it is emptied, and the
first subscription stays connected. -/
theorem registries_file_twinned :
    let late := twinned.2.next ⟨none, .closeAll (some "r")⟩
    Filed (twinned.1 ++ [twinned.2]) late ∧ late.order? = some (.closeAll "r") ∧
      (twinned.1 ++ [twinned.2]).filterMap (mark? "r" 1) = [none, some (.foreign 0), some (.own 1)] ∧
      (twinned.1 ++ [twinned.2]).filterMap (mark? "q" 1) = [none, some (.own 1), some (.foreign 0)] ∧
      (late.bench.registryOf "r").handles = [.foreign 0, .own 2] ∧
      late.bench.world.handleConnected (.own 2) = true ∧
      (late.tick.bench.world.handleConnected (.own 1), late.tick.bench.world.handleConnected (.own 2),
        late.tick.bench.world.handleConnected (.foreign 0)) = (true, false, false) ∧
      (late.tick.bench.registryOf "r").ids = [] ∧ (late.tick.bench.registryOf "q").ids = [1] := by
  intro late
  have hcourse : Course empty ([] ++ twinned.1) twinned.2 := Course.start.through 2 _
  rw [List.nil_append] at hcourse
  have hlate : Course empty (twinned.1 ++ [twinned.2]) late := hcourse.move (.next (r := .ok) rfl _)
  exact ⟨(registries_file hlate).2, by decide +kernel, by decide +kernel, by decide +kernel, by decide +kernel,
    by decide +kernel, by decide +kernel, by decide +kernel, by decide +kernel⟩

end Config

end Conduit.Scenario
