/-
Settings in layers. Of several layers the last that brings something for a setting counts, for every setting on its
own: what is brought for one never touches another, and a section that is brought in part keeps the rest of what lies
below it.
-/
import Conduit.Proofs.Settings.Setting

namespace Conduit.Settings

open Conduit.Settings.Tree (Step)
open Document (lastAt lastAt_cons)

/-! ## Layers -/

/-- Lays trees over a tree, one after another, each at the end of its path. -/
def lay (layers : List (List Step × Tree)) (t : Tree) : Tree := layers.foldl (fun t p => Tree.overlayAt p.2 p.1 t) t

/-- A path that leads into none of the sections. -/
def Outside (path : List Step) : Prop := ∃ name rest, path = .key name :: rest ∧ ∀ x : Setting, x.part ≠ name

/-- A value without parts. -/
def Tree.IsScalar (t : Tree) : Prop := ∃ c origin, t = .scalar c origin

namespace Setting

variable {x y : Setting} {t : Tree} {layers : List (List Step × Tree)} {p : List Step × Tree}

/-- What a tree at the end of a path brings for a setting. -/
def brings? (x : Setting) (p : List Step × Tree) : Option Tree :=
  if p.1 = x.steps then some p.2
  else if p.1 = [.key x.part] then lastAt x.key p.2.entries
  else none

/-- A tree that has nothing to do with the settings, or brings values for some of them. -/
inductive Fits : List Step × Tree → Prop
  | outside {path : List Step} (h : Outside path) (layer : Tree) : Fits (path, layer)
  | value (x : Setting) (c : Scalar) (origin : Option String) : Fits (x.steps, .scalar c origin)
  | table (x : Setting) {es : List (String × Tree)} (origin : Option String)
    (hes : ∀ y : Setting, y.part = x.part → ∀ e ∈ es, e.1 = y.key → e.2.IsScalar) :
    Fits ([.key x.part], .table es origin)

/-- What a layer does to what stands at the place of a setting. -/
theorem find?_overlayAt (layer : Tree) (name : String) (path : List Step) (t : Tree) (x : Setting) :
    x.find? (Tree.overlayAt layer (.key name :: path) t) =
      if name = x.part then (Tree.overlayAt layer path ((t.get? name).getD .nothing)).get? x.key else x.find? t := by
  unfold find?
  rw [Tree.get?_overlayAt]
  split <;> rfl

theorem steps_injective (h : x.steps = y.steps) : x = y := by
  unfold steps at h
  simp only [List.cons.injEq, Step.key.injEq, and_true] at h
  exact eq_of_place h.1 h.2

theorem find?_overlayAt_steps (c : Scalar) (origin : Option String) (t : Tree) (x y : Setting) :
    x.find? (Tree.overlayAt (.scalar c origin) y.steps t) = if y = x then some (.scalar c origin) else x.find? t := by
  unfold steps
  rw [find?_overlayAt, Tree.get?_overlayAt, Tree.overlayAt_nil, Tree.overlay_scalar]
  by_cases hxy : y = x
  · subst hxy
    simp
  · rw [if_neg hxy]
    split
    · rename_i hpart
      rw [if_neg fun hkey => hxy (eq_of_place hpart hkey), hpart]
      rfl
    · rfl

theorem find?_overlayAt_part {es : List (String × Tree)} (origin : Option String) (t : Tree)
    (hes : ∀ e ∈ es, e.1 = x.key → e.2.IsScalar) :
    x.find? (Tree.overlayAt (.table es origin) [.key x.part] t) = (lastAt x.key es).or (x.find? t) := by
  rw [find?_overlayAt, if_pos rfl, Tree.overlayAt_nil, Tree.overlay, Tree.get?_overlayEntries hes, Tree.get?_asTable]
  rfl

theorem steps_ne (x : Setting) (name : String) : x.steps ≠ [.key name] := by simp [steps]

/-- What stands at the place of a setting is what the layer brings for it, or what stood there. -/
theorem Fits.find? (h : Fits p) (t : Tree) (x : Setting) :
    x.find? (Tree.overlayAt p.2 p.1 t) = (x.brings? p).or (x.find? t) := by
  unfold brings?
  -- A layer leads past all sections, to one setting, or to a whole section.
  cases h with
  | outside h layer =>
    obtain ⟨name, rest, rfl, hname⟩ := h
    rw [find?_overlayAt, if_neg (hname x).symm, if_neg, if_neg]
    · rfl
    · exact fun h => hname x (Step.key.inj (List.cons.inj h).1).symm
    · exact fun h => hname x (Step.key.inj (List.cons.inj h).1).symm
  | value y c origin =>
    rw [find?_overlayAt_steps, if_neg (steps_ne y x.part)]
    by_cases hxy : y = x
    · rw [if_pos hxy, if_pos (hxy ▸ rfl)]
      rfl
    · rw [if_neg hxy, if_neg fun h => hxy (steps_injective h)]
      rfl
  | table y origin hes =>
    rw [if_neg (steps_ne x y.part).symm]
    by_cases hpart : y.part = x.part
    · rw [hpart, if_pos rfl]
      exact find?_overlayAt_part origin t (hes x hpart.symm)
    · rw [find?_overlayAt, if_neg hpart, if_neg fun h => hpart (Step.key.inj (List.cons.inj h).1)]
      rfl

/-- A layer that fits leaves a tree whose sections are tables. -/
theorem Fits.tabled (h : Fits p) (ht : x.Tabled t) : x.Tabled (Tree.overlayAt p.2 p.1 t) := by
  -- What a layer puts in the place of a section is a table, or the section stays as it is.
  intro u hu
  cases h with
  | outside h layer =>
    obtain ⟨name, rest, rfl, hname⟩ := h
    rw [Tree.get?_overlayAt, if_neg (hname x).symm] at hu
    exact ht u hu
  | value y c origin =>
    rw [steps, Tree.get?_overlayAt] at hu
    split at hu
    · cases hu
      exact Tree.isTable_overlayAt ..
    · exact ht u hu
  | table y origin hes =>
    rw [Tree.get?_overlayAt] at hu
    split at hu
    · cases hu
      rw [Tree.overlayAt_nil, Tree.overlay]
      exact Tree.isTable_overlayEntries (Tree.isTable_asTable _)
    · exact ht u hu

theorem Fits.isTable (h : Fits p) (t : Tree) : (Tree.overlayAt p.2 p.1 t).isTable = true := by
  cases h with
  | outside h layer =>
    obtain ⟨name, rest, rfl, -⟩ := h
    exact Tree.isTable_overlayAt ..
  | value | table => exact Tree.isTable_overlayAt ..

/-- A tree of settings: its keys are in order and its sections are tables. -/
structure Settled (t : Tree) : Prop where
  ordered : t.Ordered
  root : t.isTable = true
  sections : ∀ x : Setting, x.Tabled t

theorem Fits.settled (h : Fits p) (ht : Settled t) : Settled (Tree.overlayAt p.2 p.1 t) :=
  ⟨ht.ordered.overlayAt .., h.isTable t, fun x => h.tabled (ht.sections x)⟩

/-- Of several layers the last that brings something for a setting counts. -/
theorem find?_lay : ∀ {layers : List (List Step × Tree)} {t : Tree}, (∀ p ∈ layers, Fits p) → Settled t →
    Settled (lay layers t) ∧
      ∀ x : Setting, x.find? (lay layers t) = ((layers.filterMap x.brings?).getLast?).or (x.find? t)
  | [], t, _, ht => ⟨ht, fun _ => rfl⟩
  | p :: rest, t, h, ht => by
    have hp : Fits p := h p (List.mem_cons_self ..)
    obtain ⟨hsettled, hfind⟩ := find?_lay (fun q hq => h q (List.mem_cons_of_mem _ hq)) (hp.settled ht)
    refine ⟨hsettled, fun x => (hfind x).trans ?_⟩
    rw [hp.find?, List.filterMap_cons]
    cases x.brings? p with
    | none => rfl
    | some u =>
      rw [List.getLast?_cons]
      cases (rest.filterMap x.brings?).getLast? <;> rfl

end Setting

end Conduit.Settings
