/-
What stands under the keys of a tree when another has been laid over it. A key that the layer does not name keeps
what it has, one that it names gets what the layer has there, and the keys of every table stay in order.
-/
import Conduit.Settings.Tree
import Mathlib.Data.String.Basic

namespace Conduit

/-! ## Entries in order -/

namespace Document

variable {α : Type} {key : String} {value : α} {e : String × α}

/-- The keys are in strictly increasing order. -/
def Ordered (l : List (String × α)) : Prop := l.Pairwise (·.1 < ·.1)

theorem find?_put (key : String) (value : α) (k : String) : ∀ l : List (String × α),
    (put key value l).find? (·.1 = k) = if key = k then some (key, value) else l.find? (·.1 = k)
  | [] => by by_cases hk : key = k <;> simp [put, hk]
  | (n, v) :: rest => by
    unfold put
    split
    · by_cases hk : key = k <;> simp [hk]
    · split
      · rename_i hn
        subst hn
        by_cases hk : key = k <;> simp [hk]
      · rename_i hn
        rw [List.find?_cons, List.find?_cons, find?_put key value k rest]
        by_cases hk : n = k
        · subst hk
          simp [hn]
        · simp [hk]

theorem mem_of_mem_put : ∀ {l : List (String × α)}, e ∈ put key value l → e = (key, value) ∨ e ∈ l
  | [], h => .inl (List.mem_singleton.1 h)
  | (n, v) :: rest, h => by
    unfold put at h
    split at h
    · exact List.mem_cons.1 h
    · split at h
      · exact (List.mem_cons.1 h).imp_right (List.mem_cons_of_mem _)
      · rcases List.mem_cons.1 h with rfl | h
        · exact .inr (List.mem_cons_self ..)
        · exact (mem_of_mem_put h).imp_right (List.mem_cons_of_mem _)

theorem Ordered.put : ∀ {l : List (String × α)}, Ordered l → Ordered (put key value l)
  | [], _ => List.pairwise_singleton _ _
  | (n, v) :: rest, h => by
    obtain ⟨hn, hrest⟩ := List.pairwise_cons.1 h
    unfold Document.put
    split
    · rename_i hlt
      refine List.pairwise_cons.2 ⟨fun x hx => ?_, h⟩
      rcases List.mem_cons.1 hx with rfl | hx
      · exact hlt
      · exact lt_trans hlt (hn x hx)
    · split
      · rename_i heq
        subst heq
        exact List.pairwise_cons.2 ⟨hn, hrest⟩
      · rename_i hnlt hne
        refine List.pairwise_cons.2 ⟨fun x hx => ?_, Ordered.put hrest⟩
        rcases mem_of_mem_put hx with rfl | hx
        · exact lt_of_le_of_ne (not_lt.1 hnlt) (Ne.symm hne)
        · exact hn x hx

/-! ### The last of several -/

/-- What comes last under a key. -/
def lastAt (k : String) (es : List (String × α)) : Option α :=
  (es.filterMap fun e => if e.1 = k then some e.2 else none).getLast?

theorem lastAt_cons (e : String × α) (es : List (String × α)) (k : String) :
    lastAt k (e :: es) = (lastAt k es).or (if e.1 = k then some e.2 else none) := by
  unfold lastAt
  rw [List.filterMap_cons]
  split
  · rename_i h
    rw [h, Option.or_none]
  · rename_i a h
    rw [h, List.getLast?_cons]
    cases (es.filterMap fun e => if e.1 = k then some e.2 else none).getLast? <;> rfl

theorem mem_of_lastAt {k : String} {es : List (String × α)} (h : lastAt k es = some value) : (k, value) ∈ es := by
  obtain ⟨e, he, hvalue⟩ := List.mem_filterMap.1 (List.mem_of_getLast? h)
  split at hvalue
  · rename_i hk
    cases hvalue
    exact hk ▸ he
  · cases hvalue

end Document

namespace Settings.Tree

open Document (put lastAt lastAt_cons)

variable {t u : Tree} {k : String}

/-! ## Under a key -/

theorem get?_put (key : String) (u : Tree) (es : List (String × Tree)) (origin origin' : Option String) (k : String) :
    (table (put key u es) origin).get? k = if key = k then some u else (table es origin').get? k := by
  rw [get?, get?, entries, entries, Document.find?_put]
  split <;> rfl

theorem exists_of_isTable (h : t.isTable = true) : ∃ es origin, t = .table es origin := by
  cases t with
  | table es origin => exact ⟨es, origin, rfl⟩
  | scalar | list => cases h

theorem isTable_asTable (t : Tree) : t.asTable.isTable = true := by
  unfold asTable
  split
  · assumption
  · rfl

/-- What is no table has nothing under its keys. -/
theorem get?_of_not_isTable (h : t.isTable = false) : t.get? k = none := by
  cases t with
  | table es origin => cases h
  | scalar c origin | list items origin => rfl

@[simp] theorem get?_asTable (t : Tree) (k : String) : t.asTable.get? k = t.get? k := by
  unfold asTable
  split
  · rfl
  · rename_i h
    rw [get?_of_not_isTable (Bool.eq_false_iff.2 h)]
    rfl

@[simp] theorem get?_nothing (k : String) : nothing.get? k = none := rfl

theorem get?_modify (t : Tree) (key : String) (f : Tree → Tree) (k : String) :
    (t.modify key f).get? k = if key = k then some (f ((t.get? key).getD nothing)) else t.get? k := by
  unfold modify
  rw [get?_put key _ t.entries _ none]
  cases t <;> rfl

theorem isTable_modify (t : Tree) (key : String) (f : Tree → Tree) : (t.modify key f).isTable = true := rfl

/-! ## At the end of a path -/

/-- A layer at the end of a path that begins with a key changes nothing but what is under this key. -/
theorem get?_overlayAt (layer : Tree) (name : String) (path : List Step) (t : Tree) (k : String) :
    (overlayAt layer (.key name :: path) t).get? k =
      if name = k then some (overlayAt layer path ((t.get? name).getD nothing)) else t.get? k := by
  rw [overlayAt, get?_modify, get?_asTable, get?_asTable]

theorem isTable_overlayAt (layer : Tree) (name : String) (path : List Step) (t : Tree) :
    (overlayAt layer (.key name :: path) t).isTable = true := isTable_modify ..

@[simp] theorem overlay_scalar (t : Tree) (c : Scalar) (origin : Option String) :
    overlay t (.scalar c origin) = .scalar c origin := by rw [overlay]

theorem overlayAt_nil (layer t : Tree) : overlayAt layer [] t = overlay t layer := by rw [overlayAt]

/-! ## Tables over tables -/

theorem isTable_overlayEntries : ∀ {es : List (String × Tree)} {t : Tree}, t.isTable = true →
    (overlayEntries t es).isTable = true
  | [], t, h => by rwa [overlayEntries]
  | (key, u) :: rest, t, h => by
    rw [overlayEntries]
    exact isTable_overlayEntries rfl

theorem get?_overlayEntries {es : List (String × Tree)} (hes : ∀ e ∈ es, e.1 = k → ∃ c origin, e.2 = scalar c origin)
    (t : Tree) :
    (overlayEntries t es).get? k = (lastAt k es).or (t.get? k) := by
  induction es generalizing t with
  | nil => rw [overlayEntries]; rfl
  | cons e rest ih =>
    obtain ⟨key, u⟩ := e
    rw [overlayEntries, ih (fun e he => hes e (List.mem_cons_of_mem _ he)), lastAt_cons,
      get?_put key _ _ _ none, Option.or_assoc]
    congr 1
    by_cases hk : key = k
    · obtain ⟨c, origin, rfl⟩ := hes _ (List.mem_cons_self ..) hk
      simp [hk]
    · cases t <;> simp [hk] <;> rfl

/-! ## Keys in order -/

/-- The keys of the tree are in order, and so are those of the tables that it holds, down to lists. -/
inductive Ordered : Tree → Prop
  | scalar (c : Scalar) (origin : Option String) : Ordered (.scalar c origin)
  | list (items : List Tree) (origin : Option String) : Ordered (.list items origin)
  | table {es : List (String × Tree)} (origin : Option String) (hkeys : Document.Ordered es)
    (hes : ∀ e ∈ es, Ordered e.2) : Ordered (.table es origin)

theorem Ordered.keys (h : t.Ordered) : Document.Ordered t.entries := by
  cases h with
  | scalar | list => exact List.Pairwise.nil
  | table _ hkeys _ => exact hkeys

theorem Ordered.entry (h : t.Ordered) {e : String × Tree} (he : e ∈ t.entries) : e.2.Ordered := by
  cases h with
  | scalar | list => cases he
  | table _ _ hes => exact hes e he

/-- An entry is what stands under its key. -/
theorem Ordered.get?_of_mem (h : t.Ordered) {e : String × Tree} (he : e ∈ t.entries) : t.get? e.1 = some e.2 := by
  have hkeys := h.keys
  rw [Tree.get?, Option.map_eq_some_iff]
  generalize t.entries = es at he hkeys
  induction es with
  | nil => cases he
  | cons first rest ih =>
    obtain ⟨hfirst, hrest⟩ := List.pairwise_cons.1 hkeys
    rcases List.mem_cons.1 he with rfl | he
    · exact ⟨e, by simp, rfl⟩
    · obtain ⟨e', he', hsnd⟩ := ih he hrest
      have hne : first.1 ≠ e.1 := ne_of_lt (hfirst e he)
      exact ⟨e', by simpa [hne] using he', hsnd⟩

theorem ordered_nothing : nothing.Ordered := .scalar ..

theorem ordered_emptyTable : emptyTable.Ordered := .table _ List.Pairwise.nil nofun

theorem Ordered.get? (h : t.Ordered) (hu : t.get? k = some u) : u.Ordered := by
  obtain ⟨e, he, rfl⟩ := Option.map_eq_some_iff.1 hu
  exact h.entry (List.mem_of_find?_eq_some he)

theorem Ordered.getD (h : t.Ordered) (k : String) : ((t.get? k).getD nothing).Ordered := by
  cases hu : t.get? k with
  | none => exact ordered_nothing
  | some u => exact h.get? hu

theorem Ordered.asTable (h : t.Ordered) : t.asTable.Ordered := by
  unfold Tree.asTable
  split
  · exact h
  · exact ordered_emptyTable

theorem Ordered.put (h : t.Ordered) (hu : u.Ordered) (key : String) (origin : Option String) :
    (Tree.table (Document.put key u t.entries) origin).Ordered := by
  refine .table origin h.keys.put fun e he => ?_
  rcases Document.mem_of_mem_put he with rfl | he
  · exact hu
  · exact h.entry he

mutual

theorem Ordered.overlay {t : Tree} (h : t.Ordered) : ∀ layer : Tree, (overlay t layer).Ordered
  | .scalar c origin => by
    rw [Tree.overlay]
    exact .scalar ..
  | .list items origin => by
    rw [Tree.overlay]
    exact .list ..
  | .table es origin => by
    rw [Tree.overlay]
    exact h.asTable.overlayEntries es

theorem Ordered.overlayEntries {t : Tree} (h : t.Ordered) : ∀ es : List (String × Tree), (overlayEntries t es).Ordered
  | [] => by rwa [Tree.overlayEntries]
  | (key, u) :: rest => by
    rw [Tree.overlayEntries]
    exact (h.put ((h.getD key).overlay u) key _).overlayEntries rest

end

/-- The keys stay in order, whatever is laid over a tree and wherever. -/
theorem Ordered.overlayAt (layer : Tree) : ∀ (path : List Step) {t : Tree}, t.Ordered → (overlayAt layer path t).Ordered
  | [], t, h => by
    rw [Tree.overlayAt]
    exact h.overlay layer
  | .key name :: path, t, h => by
    rw [Tree.overlayAt, modify]
    exact h.asTable.put ((h.asTable.getD name).overlayAt layer path) name _
  | .index i :: path, t, h => .list _ _

end Settings.Tree

end Conduit
