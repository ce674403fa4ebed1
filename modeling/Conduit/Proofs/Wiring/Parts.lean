/-
Two wirings in one. The lists of a wiring can be those of two others put together, each in its own
order, with everything renamed (`Joined`). Whatever is done in one part, by its names in the whole, is
done in that part alone, and the other one stays as it is (`Merge`).
-/
import Mathlib.Algebra.BigOperators.Group.Finset.Basic
import Conduit.Proofs.Wiring.Rename
import Conduit.Wiring.Teardown

namespace Conduit

/-! ## Lists put together -/

/-- Two rows of places that together are all places, and have none in common. -/
structure Split (f g : Nat → Nat) : Prop where
  mono : StrictMono f
  mono' : StrictMono g
  apart : ∀ j k, f j ≠ g k
  cover : ∀ m, (∃ j, f j = m) ∨ ∃ k, g k = m

theorem Split.symm {f g : Nat → Nat} (h : Split f g) : Split g f :=
  ⟨h.mono', h.mono, fun j k he => h.apart k j he.symm, fun m => (h.cover m).symm⟩

/-- The list `m` has the elements of `l` and those of `k`, renamed, at the places of each. -/
structure Both {α : Type} (f g : Nat → Nat) (r s : α → α) (l k m : List α) : Prop where
  left : ∀ i, m[f i]? = (l[i]?).map r
  right : ∀ i, m[g i]? = (k[i]?).map s

namespace Both

variable {α : Type} {f g : Nat → Nat} {r s : α → α} {l k m new : List α}

theorem symm (h : Both f g r s l k m) : Both g f s r k l m := ⟨h.right, h.left⟩

theorem nil : Both f g r s [] [] [] := ⟨fun _ => rfl, fun _ => rfl⟩

theorem lt_iff (h : Both f g r s l k m) (i : Nat) : f i < m.length ↔ i < l.length := by
  rw [← not_le, ← not_le, ← List.getElem?_eq_none_iff, ← List.getElem?_eq_none_iff, h.left, Option.map_eq_none_iff]

/-- What is done to one element is done to that of the whole. -/
theorem modify (h : Both f g r s l k m) (hs : Split f g) (i : Nat) {a a' : α → α} (ha : ∀ x, a' (r x) = r (a x)) :
    Both f g r s (l.modify i a) k (m.modify (f i) a') where
  left j := by
    rw [List.getElem?_modify, List.getElem?_modify, h.left]
    -- What is modified is the same place on both sides, and the other part has none of it.
    by_cases hij : i = j
    · subst hij
      cases l[i]? with
      | none => rfl
      | some x => simp [ha]
    · have hne : f i ≠ f j := fun he => hij (hs.mono.injective he)
      cases l[j]? with
      | none => rfl
      | some x => simp [hij, hne]
  right j := by
    rw [List.getElem?_modify, h.right]
    cases k[j]? with
    | none => rfl
    | some x => simp [hs.apart i j]

theorem set (h : Both f g r s l k m) (hs : Split f g) (i : Nat) (x : α) :
    Both f g r s (l.set i x) k (m.set (f i) (r x)) := by
  rw [List.set_eq_modify, List.set_eq_modify]
  exact h.modify hs i fun _ => rfl

/-- What the other part adds nothing to is counted as in the part alone. -/
theorem sum (h : Both f g r s l k m) (hs : Split f g) {a a' : Nat → Nat} (hf : ∀ i, a' (f i) = a i)
    (hg : ∀ j, a' (g j) = 0) :
    (List.range m.length).foldl (fun n p => n + a' p) 0 = (List.range l.length).foldl (fun n i => n + a i) 0 := by
  -- The sum runs over the places of one part, since at those of the other there is nothing to add.
  have hsum : ∀ (a : Nat → Nat) (d : Nat),
      (List.range d).foldl (fun n i => n + a i) 0 = ∑ i ∈ Finset.range d, a i := fun a d => by
    induction d with
    | zero => rfl
    | succ d ih => rw [List.range_succ, List.foldl_append, ih, Finset.sum_range_succ, List.foldl_cons, List.foldl_nil]
  rw [hsum, hsum]
  calc ∑ p ∈ Finset.range m.length, a' p = ∑ p ∈ (Finset.range l.length).image f, a' p := by
        refine (Finset.sum_subset (fun p hp => ?_) fun p hp hno => ?_).symm
        · obtain ⟨i, hi, rfl⟩ := Finset.mem_image.1 hp
          exact Finset.mem_range.2 ((h.lt_iff i).2 (Finset.mem_range.1 hi))
        · rcases hs.cover p with ⟨i, rfl⟩ | ⟨j, rfl⟩
          · have hi := Finset.mem_range.2 ((h.lt_iff i).1 (Finset.mem_range.1 hp))
            exact absurd (Finset.mem_image_of_mem f hi) hno
          · exact hg j
    _ = ∑ i ∈ Finset.range l.length, a' (f i) := Finset.sum_image fun _ _ _ _ he => hs.mono.injective he
    _ = ∑ i ∈ Finset.range l.length, a i := Finset.sum_congr rfl fun i _ => hf i

/-- The first new place of the whole is the first new place of the part whose it is. -/
theorem next (h : Both f g r s l k m) (hs : Split f g) (hown : ∃ i, f i = m.length) : f l.length = m.length := by
  obtain ⟨i, hi⟩ := hown
  have hle : l.length ≤ i := by
    rw [← not_lt, ← h.lt_iff, hi]
    exact lt_irrefl _
  have hge : m.length ≤ f l.length := by
    rw [← not_lt, h.lt_iff]
    exact lt_irrefl _
  have hmono : f l.length ≤ f i := hs.mono.monotone hle
  omega

theorem snoc (h : Both f g r s l k m) (hs : Split f g) (hown : ∃ i, f i = m.length) (x : α) :
    Both f g r s (l ++ [x]) k (m ++ [r x]) := by
  have hnext := h.next hs hown
  refine ⟨fun i => ?_, fun i => ?_⟩
  · rcases lt_trichotomy i l.length with hlt | rfl | hgt
    · rw [List.getElem?_append_left hlt, List.getElem?_append_left ((h.lt_iff i).2 hlt), h.left]
    · rw [List.getElem?_concat_length, hnext, List.getElem?_concat_length, Option.map_some]
    · have hbig : m.length < f i := hnext ▸ hs.mono hgt
      rw [List.getElem?_eq_none (by rw [List.length_append]; exact hbig),
        List.getElem?_eq_none (by rw [List.length_append]; exact hgt), Option.map_none]
  · rw [← h.right]
    have hne : g i ≠ m.length := fun he => hs.apart _ i (hnext.trans he.symm)
    rcases Nat.lt_or_gt_of_ne hne with hlt | hgt
    · rw [List.getElem?_append_left hlt]
    · rw [List.getElem?_eq_none hgt.le, List.getElem?_eq_none (by rw [List.length_append]; exact hgt)]

/-- New elements of one part, all at places of that part, keep their order. -/
theorem append (hs : Split f g) : ∀ (new : List α) {l m : List α}, Both f g r s l k m →
    (∀ j < new.length, ∃ i, f i = m.length + j) →
      Both f g r s (l ++ new) k (m ++ new.map r) ∧ ∀ j < new.length, f (l.length + j) = m.length + j
  | [], _, _, h, _ => ⟨by rw [List.map_nil, List.append_nil, List.append_nil]; exact h,
      fun j hj => absurd hj (Nat.not_lt_zero j)⟩
  | x :: new, l, m, h, hown => by
    -- By induction on what is appended: the first of it stands next, and the rest behind it.
    have hfirst : ∃ i, f i = m.length := hown 0 (Nat.succ_pos _)
    have hsnoc := h.snoc hs hfirst x
    obtain ⟨hrest, hplaces⟩ := append hs new hsnoc fun j hj => by
      obtain ⟨i, hi⟩ := hown (j + 1) (Nat.succ_lt_succ hj)
      refine ⟨i, hi.trans ?_⟩
      rw [List.length_append, List.length_singleton]
      omega
    refine ⟨?_, fun j hj => ?_⟩
    · rw [List.append_assoc, List.append_assoc] at hrest
      exact hrest
    · cases j with
      | zero => exact h.next hs hfirst
      | succ j =>
        have hj' := hplaces j (Nat.lt_of_succ_lt_succ hj)
        rw [List.length_append, List.length_append, List.length_singleton, List.length_singleton] at hj'
        rw [show l.length + (j + 1) = l.length + 1 + j by omega, hj']
        omega

end Both

/-- The list `m` has the elements of `l` and those of `k`, each in their own order. -/
inductive Mixed {α : Type} : List α → List α → List α → Prop
  | nil : Mixed [] [] []
  | left {x : α} {l k m : List α} : Mixed l k m → Mixed (x :: l) k (x :: m)
  | right {x : α} {l k m : List α} : Mixed l k m → Mixed l (x :: k) (x :: m)

theorem Mixed.symm {α : Type} {l k m : List α} (h : Mixed l k m) : Mixed k l m := by
  induction h with
  | nil => exact .nil
  | left _ ih => exact ih.right
  | right _ ih => exact ih.left

/-! ## Wirings put together -/

/-- Two atlases that together are all of a wiring, and have nothing in common. -/
structure Atlas.Beside (ρ σ : Atlas) : Prop where
  split : ∀ k, Split (ρ.place k) (σ.place k)

theorem Atlas.Beside.symm {ρ σ : Atlas} (h : ρ.Beside σ) : σ.Beside ρ := ⟨fun k => (h.split k).symm⟩

/-- A handle of one part is none of the other, unless it stands for nothing. -/
theorem Atlas.Beside.handle {ρ σ : Atlas} (h : ρ.Beside σ) {a b : Handle} (he : a.rename ρ = b.rename σ) :
    a = .own 0 := by
  cases a with
  | own s =>
    cases b with
    | own t =>
      have hid : ρ.id s = σ.id t := Handle.own.inj he
      cases s with
      | zero => rfl
      | succ n =>
        cases t with
        | zero => cases hid
        | succ m => exact absurd (Nat.succ.inj hid) ((h.split .subscription).apart n m)
    | foreign f => cases he
  | foreign f =>
    cases b with
    | own t => cases he
    | foreign k => exact absurd (Handle.foreign.inj he) ((h.split .foreign).apart f k)

/-! ## Growth -/

/-- How long the lists are when that of one kind has grown. -/
def grown (n : Kind → Nat) (k : Kind) (d : Nat) : Kind → Nat := Function.update n k (n k + d)

theorem grown_self (n : Kind → Nat) (k : Kind) (d : Nat) : grown n k d k = n k + d := Function.update_self ..

theorem grown_of_ne (n : Kind → Nat) {k j : Kind} (d : Nat) (h : j ≠ k) : grown n k d j = n j :=
  Function.update_of_ne h ..

theorem le_grown (n : Kind → Nat) (k : Kind) (d : Nat) : n ≤ grown n k d := fun j => by
  by_cases hj : j = k
  · subst hj
    rw [grown_self]
    exact Nat.le_add_right ..
  · rw [grown_of_ne n d hj]

/-- How long the lists are with a new component of a layout. -/
def furnished (n : Kind → Nat) (layout : Layout) : Kind → Nat :=
  grown (grown n .component 1) .channel (layout.inputs.length + layout.outputs.length)

/-- The new places, when lists that were as long as `n` become as long as `n'`, are in the atlas. -/
def Atlas.Owns (ρ : Atlas) (n n' : Kind → Nat) : Prop :=
  ∀ k p, n k ≤ p → p < n' k → ∃ i, ρ.place k i = p

theorem Atlas.Owns.mono {ρ : Atlas} {n m n' m' : Kind → Nat} (h : ρ.Owns n n') (hm : n ≤ m) (hm' : m' ≤ n') :
    ρ.Owns m m' := fun k p hlow hhigh =>
  h k p ((hm k).trans hlow) (lt_of_lt_of_le hhigh (hm' k))

theorem Atlas.Owns.grown {ρ : Atlas} {n : Kind → Nat} {k : Kind} {d : Nat} (h : ρ.Owns n (grown n k d)) {j : Nat}
    (hj : j < d) : ∃ i, ρ.place k i = n k + j :=
  h k _ (Nat.le_add_right ..) (by rw [grown_self]; exact Nat.add_lt_add_left hj _)

namespace World

/-- The wiring `w` is `v` and `u` put together, and its ledger tells of both. -/
structure Joined (ρ σ : Atlas) (v u w : World) : Prop where
  components : Both ρ.component σ.component (Component.rename ρ)
      (Component.rename σ) v.components u.components w.components
  channels : Both ρ.channel σ.channel (Channel.rename ρ) (Channel.rename σ) v.channels u.channels w.channels
  subscriptions : Both ρ.subscription σ.subscription (Subscription.rename ρ) (Subscription.rename σ) v.subscriptions
    u.subscriptions w.subscriptions
  foreigns : Both ρ.foreign σ.foreign (ForeignHandle.rename ρ) (ForeignHandle.rename σ) v.foreigns u.foreigns w.foreigns
  ledger : Mixed (v.ledger.map (Deed.rename ρ)) (u.ledger.map (Deed.rename σ)) w.ledger

/-- A log is another one renamed, or at least has the same entries. -/
structure Logged (strict : Prop) (ρ : Atlas) (l m : List Entry) : Prop where
  perm : m.Perm (l.map (Entry.rename ρ))
  same : strict → m = l.map (Entry.rename ρ)

/-- The lists of a wiring are so long. -/
structure Measured (n : Kind → Nat) (w : World) : Prop where
  components_length : w.components.length = n .component
  channels_length : w.channels.length = n .channel
  subscriptions_length : w.subscriptions.length = n .subscription
  foreigns_length : w.foreigns.length = n .foreign

/-- Something is done in `v`, by its names in `w`, with the log of it there. -/
structure Merge (strict : Prop) (ρ σ : Atlas) (n : Kind → Nat) (v u w : World) : Prop
    extends Joined ρ σ v u w, Measured n w where
  beside : ρ.Beside σ
  log : Logged strict ρ v.log w.log

namespace Merge

variable {strict : Prop} {ρ σ : Atlas} {n : Kind → Nat} {u v w : World}

/-! ## What is seen -/

section Views

variable (h : Merge strict ρ σ n v u w) (c ch s p : Nat) (a : Handle)
include h

theorem componentAlive : w.componentAlive (ρ.component c) = v.componentAlive c := by
  rw [World.componentAlive, h.components.left, World.componentAlive, Option.any_map]
  rfl

theorem channelAlive : w.channelAlive (ρ.channel ch) = v.channelAlive ch := by
  rw [World.channelAlive, h.channels.left, World.channelAlive, Option.any_map]
  rfl

theorem livingName? : w.livingName? (ρ.component c) = v.livingName? c := by
  rw [World.livingName?, h.components.left, World.livingName?]
  cases v.components[c]? <;> rfl

theorem subscription? : w.subscription? (ρ.id s) = (v.subscription? s).map (Subscription.rename ρ) := by
  cases s with
  | zero => rfl
  | succ m => exact h.subscriptions.left m

theorem isConnected : w.isConnected (ρ.id s) = v.isConnected s := by
  rw [World.isConnected, h.subscription?, World.isConnected, Option.any_map]
  rfl

theorem handleId : w.handleId (a.rename ρ) = ρ.id (v.handleId a) := by
  cases a with
  | own s => rfl
  | foreign f =>
    show ((w.foreigns[ρ.foreign f]?).map (·.id)).getD 0 = ρ.id (((v.foreigns[f]?).map (·.id)).getD 0)
    rw [h.foreigns.left]
    cases v.foreigns[f]? <;> rfl

theorem handleConnected : w.handleConnected (a.rename ρ) = v.handleConnected a := by
  cases a with
  | own s => exact h.isConnected s
  | foreign f =>
    show (w.foreigns[ρ.foreign f]?).any (·.connected) = (v.foreigns[f]?).any (·.connected)
    rw [h.foreigns.left, Option.any_map]
    rfl

theorem signal? : w.signal? (ρ.channel ch) = (v.signal? ch).map (Signal.rename ρ) := by
  rw [World.signal?, h.channels.left, World.signal?]
  cases v.channels[ch]? with
  | none => rfl
  | some c => exact c.signal?_rename

theorem hasPlace : w.hasPlace (ρ.channel ch) p = v.hasPlace ch p := by
  rw [World.hasPlace, h.signal?, World.hasPlace, Option.any_map]
  congr 1
  funext g
  exact g.has_rename p

theorem registry : w.registry (ρ.channel ch) = (v.registry ch).rename ρ := by
  rw [World.registry, h.channels.left, World.registry]
  cases v.channels[ch]? <;> rfl

theorem counts : w.counts (ρ.channel ch) = v.counts ch := by
  rw [World.counts, h.channels.left, World.counts, Option.any_map]
  congr 1
  funext c
  exact c.counts_rename

/-- Channels of the other part list no handle of this one. -/
theorem isRegistered (ha : a ≠ .own 0) : w.isRegistered (a.rename ρ) = v.isRegistered a := by
  have hcontains : ∀ l : List Handle, (l.map (Handle.rename ρ)).contains (a.rename ρ) = l.contains a := fun l => by
    rw [Bool.eq_iff_iff, List.contains_iff_mem, List.contains_iff_mem,
      List.mem_map_of_injective Handle.rename_injective]
  rw [Bool.eq_iff_iff, World.isRegistered, World.isRegistered, List.any_eq_true, List.any_eq_true]
  constructor
  · rintro ⟨c, hc, hlist⟩
    rw [Bool.and_eq_true] at hlist
    obtain ⟨m, hm⟩ := List.mem_iff_getElem?.1 hc
    -- The channel that lists it may be one of the other part; that has handles of its own, except for number zero.
    rcases (h.beside.split .channel).cover m with ⟨ch, rfl⟩ | ⟨ch, rfl⟩
    · rw [h.channels.left] at hm
      obtain ⟨c', hc', rfl⟩ := Option.map_eq_some_iff.1 hm
      refine ⟨c', List.mem_of_getElem? hc', ?_⟩
      rw [Bool.and_eq_true, ← hcontains, ← Registry.handles_rename]
      exact hlist
    · rw [h.channels.right] at hm
      obtain ⟨c', hc', rfl⟩ := Option.map_eq_some_iff.1 hm
      have hmem : a.rename ρ ∈ ((c'.registry).rename σ).handles := List.contains_iff_mem.1 hlist.2
      rw [Registry.handles_rename] at hmem
      obtain ⟨b, -, hab⟩ := List.mem_map.1 hmem
      exact absurd (h.beside.handle hab.symm) ha
  · rintro ⟨c, hc, hlist⟩
    obtain ⟨ch, hch⟩ := List.mem_iff_getElem?.1 hc
    refine ⟨c.rename ρ, List.mem_of_getElem? (i := ρ.channel ch) (by rw [h.channels.left, hch]; rfl), ?_⟩
    rw [Bool.and_eq_true] at hlist ⊢
    refine ⟨hlist.1, ?_⟩
    show ((c.registry).rename ρ).handles.contains (a.rename ρ) = true
    rw [Registry.handles_rename, hcontains]
    exact hlist.2

/-! ## What is shown -/

theorem channelView (x : Channel) : w.channelView (x.rename ρ) = (v.channelView x).rename ρ := by
  unfold World.channelView ChannelView.rename
  rw [Channel.direction_rename, Channel.signal?_rename, Channel.isSynchronized_rename, Option.map_map,
    show (x.rename ρ).owner = ρ.component x.owner from rfl, h.livingName?,
    show (x.rename ρ).registry = x.registry.rename ρ from rfl, Registry.ids_rename]
  congr 1
  cases x.signal? with
  | none => rfl
  | some g => exact congrArg (fun k => some (k, g.cardinality)) g.size_rename

theorem subscriptionsOf (chs : List Nat) : w.subscriptionsOf (chs.map ρ.channel) = v.subscriptionsOf chs := by
  have hsize : ∀ k : Nat, (w.registry (ρ.channel k)).size = (v.registry k).size := fun k => by
    rw [h.registry, Registry.size_rename]
  unfold World.subscriptionsOf
  rw [List.foldl_map]
  simp only [hsize]

theorem groupView? : w.groupView? (ρ.component c) = v.groupView? c := by
  unfold World.groupView?
  rw [h.components.left]
  rcases v.components[c]? with _ | x
  · rfl
  · rw [Option.map_some, Option.bind_eq_bind, Option.bind_eq_bind, Option.bind_some, Option.bind_some]
    show (x.layout.grouping.bind fun grouping => some ({
        grouping, name := x.name
        inputs := ((x.inputs.map ρ.channel).length, w.subscriptionsOf (x.inputs.map ρ.channel))
        outputs := ((x.outputs.map ρ.channel).length, w.subscriptionsOf (x.outputs.map ρ.channel)) } : GroupView)) = _
    rw [h.subscriptionsOf, h.subscriptionsOf, List.length_map, List.length_map]
    rfl

theorem endKinds? : w.endKinds? (ρ.id s) = v.endKinds? s := by
  unfold World.endKinds?
  rw [h.subscription?]
  rcases v.subscription? s with _ | sub
  · rfl
  · rw [Option.map_some, Option.bind_eq_bind, Option.bind_some, Option.bind_eq_bind, Option.bind_some]
    rw [show (sub.rename ρ).output = ρ.channel sub.output from rfl,
      show (sub.rename ρ).input = ρ.channel sub.input from rfl,
      h.channels.left, h.channels.left]
    rcases v.channels[sub.output]? with _ | o
    · rfl
    · rcases v.channels[sub.input]? with _ | i
      · rfl
      · dsimp only [Option.map_some, Option.bind_eq_bind, Option.bind_some]
        rw [World.signalKind?_rename]
        rfl

theorem ownerName? : w.ownerName? (ρ.channel ch) = v.ownerName? ch := by
  unfold World.ownerName?
  rw [h.channels.left]
  rcases v.channels[ch]? with _ | x
  · rfl
  · show (if x.alive then w.livingName? (ρ.component x.owner) else none) = _
    rw [h.livingName?]
    rfl

theorem endsView? : w.endsView? (ρ.id s) = (v.endsView? s).map (EndsView.rename ρ) := by
  unfold World.endsView?
  rw [h.subscription?]
  rcases v.subscription? s with _ | sub
  · rfl
  · dsimp only [Option.map_some, Option.bind_eq_bind, Option.bind_some]
    show some ({
      id := ρ.id s, connected := sub.token.isSome
      publisher := w.channelAlive (ρ.channel sub.output), subscriber := w.channelAlive (ρ.channel sub.input)
      producer := w.ownerName? (ρ.channel sub.output), consumer := w.ownerName? (ρ.channel sub.input) } : EndsView) = _
    rw [h.channelAlive, h.channelAlive, h.ownerName?, h.ownerName?]
    rfl

end Views

end Merge

end World

end Conduit
