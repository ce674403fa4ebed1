/-
Registries over time. Whatever is done with a registry, a number stands there for the handle that came
first since it last stood for none (`firstSince`). Handles that come later under a number which is present
are not kept, and a number is removed whichever handle it stands for.
-/
import Conduit.Proofs.Registry
import Mathlib.Data.List.DropRight

namespace Conduit.Registry

variable {η : Type} {r : Registry η} {k id : Nat} {h : η}

/-! ## One operation -/

theorem get?_eq_none_iff : r.get? k = none ↔ k ∉ r.ids := by
  rw [Option.eq_none_iff_forall_ne_some, mem_ids]
  constructor
  · rintro hnone ⟨h, hm⟩
    exact hnone h (get?_eq_some_iff.2 hm)
  · intro hnot h hsome
    exact hnot ⟨h, get?_eq_some_iff.1 hsome⟩

/-- A number is held if it stands for a handle. -/
theorem has_eq (r : Registry η) (k : Nat) : r.has k = (r.get? k).isSome := by
  rw [Bool.eq_iff_iff, has_iff, ← not_iff_not, Option.not_isSome_iff_eq_none, get?_eq_none_iff]

/-- The handle that is there stays. -/
theorem get?_insert (r : Registry η) (id : Nat) (h : η) (k : Nat) :
    (r.insert id h).get? k = if id = k then (r.get? k).or (some h) else r.get? k := by
  apply Option.ext
  intro g
  rw [get?_eq_some_iff, mem_insert, ← get?_eq_some_iff, Prod.mk.injEq]
  split
  · rename_i hid
    subst hid
    rw [Option.or_eq_some_iff, get?_eq_none_iff, Option.some.injEq]
    constructor
    · rintro (hg | ⟨⟨-, rfl⟩, hnot⟩)
      exacts [.inl hg, .inr ⟨hnot, rfl⟩]
    · rintro (hg | ⟨hnot, rfl⟩)
      exacts [.inl hg, .inr ⟨⟨rfl, rfl⟩, hnot⟩]
  · rename_i hid
    exact or_iff_left fun hx => hid hx.1.1.symm

theorem get?_erase (r : Registry η) (id k : Nat) : (r.erase id).get? k = if id = k then none else r.get? k := by
  apply Option.ext
  intro g
  rw [get?_eq_some_iff, mem_erase, ← get?_eq_some_iff]
  split
  · rename_i hid
    exact iff_of_false (fun hx => hx.2 hid.symm) nofun
  · rename_i hid
    exact and_iff_left (Ne.symm hid)

theorem insertEntry_of_mem : ∀ {l : List (Nat × η)}, (l.map (·.1)).Pairwise (· < ·) → id ∈ l.map (·.1) →
    insertEntry id h l = l
  | [], _, hm => nomatch hm
  | (i, g) :: rest, hl, hm => by
    rw [List.map_cons, List.pairwise_cons] at hl
    unfold insertEntry
    split
    · rename_i hlt
      rcases List.mem_cons.1 hm with he | hm
      · exact absurd he (Nat.ne_of_lt hlt)
      · exact absurd (hl.1 id hm) (Nat.lt_asymm hlt)
    · split
      · rfl
      · rename_i hne
        rw [insertEntry_of_mem hl.2 ((List.mem_cons.1 hm).resolve_left hne)]

/-- To add under a number that is present changes nothing. -/
theorem insert_of_has (hid : r.has id = true) : r.insert id h = r :=
  eq_of_entries (insertEntry_of_mem r.increasing (has_iff.1 hid))

theorem length_ids (r : Registry η) : r.ids.length = r.size := List.length_map ..

/-! ## Many operations -/

/-- What is done with a registry. -/
inductive Op (η : Type)
  | add (id : Nat) (h : η)
  | remove (id : Nat)
  | clear

/-- The registry after an operation. -/
def apply (r : Registry η) : Op η → Registry η
  | .add id h => r.insert id h
  | .remove id => r.erase id
  | .clear => empty

/-- The registry after a row of operations. -/
def after (ops : List (Op η)) : Registry η := ops.foldl apply empty

/-- What an operation has to do with the number `k`: a handle comes under it, or what it stands for goes. -/
def Op.mark? (k : Nat) : Op η → Option (Option η)
  | .add id h => if id = k then some (some h) else none
  | .remove id => if id = k then some none else none
  | .clear => some none

/-- The handle that came first since what was there last went. -/
def firstSince (marks : List (Option η)) : Option η := (marks.rtakeWhile Option.isSome).head?.join

theorem firstSince_put (marks : List (Option η)) (h : η) :
    firstSince (marks ++ [some h]) = (firstSince marks).or (some h) := by
  unfold firstSince
  rw [List.rtakeWhile_concat_pos _ _ _ rfl, List.head?_append]
  rcases htail : marks.rtakeWhile Option.isSome with _ | ⟨m, rest⟩
  · rfl
  · have hm : m ∈ marks.rtakeWhile Option.isSome := htail ▸ List.mem_cons_self ..
    obtain ⟨g, rfl⟩ := Option.isSome_iff_exists.1 (List.mem_rtakeWhile_imp hm)
    rfl

theorem firstSince_gone (marks : List (Option η)) : firstSince (marks ++ [none]) = none := by
  unfold firstSince
  rw [List.rtakeWhile_concat_neg _ _ _ Bool.false_ne_true]
  rfl

/-- What an operation makes of a number. -/
theorem get?_apply (r : Registry η) (o : Op η) {marks : List (Option η)} (hr : r.get? k = firstSince marks) :
    (r.apply o).get? k = firstSince (marks ++ (o.mark? k).toList) := by
  cases o with
  | add id h =>
    rw [apply, get?_insert, Op.mark?]
    split
    · rw [Option.toList_some, firstSince_put, hr]
    · rw [Option.toList_none, List.append_nil, hr]
  | remove id =>
    rw [apply, get?_erase, Op.mark?]
    split
    · rw [Option.toList_some, firstSince_gone]
    · rw [Option.toList_none, List.append_nil, hr]
  | clear =>
    rw [Op.mark?, Option.toList_some, firstSince_gone]
    rfl

/-- A number stands for the handle that came first since it last stood for none, whatever has been done. -/
theorem get?_after (k : Nat) (ops : List (Op η)) : (after ops).get? k = firstSince (ops.filterMap (Op.mark? k)) := by
  induction ops using List.reverseRecOn with
  | nil => rfl
  | append_singleton ops o ih =>
    rw [after, List.foldl_append, List.filterMap_append]
    have hstep := get?_apply (after ops) o ih
    rw [show [o].filterMap (Op.mark? k) = (o.mark? k).toList from by cases h : o.mark? k <;> simp [h]]
    exact hstep

end Conduit.Registry
