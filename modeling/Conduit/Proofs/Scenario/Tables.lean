/-
The tables of the bench. A table is in the order of its names, so a name stands for one thing; what
is kept alive by tables changes only by what is entered and what is struck out.
-/
import Conduit.Proofs.Wiring.Scene
import Conduit.Scenario.Machine
import Mathlib.Data.String.Basic

namespace Conduit.Scenario

/-! ## Tables of names -/

namespace Names

variable {α : Type} {t : Names α} {name : String} {a : α} {e : String × α}

/-- The names are in strictly increasing order. -/
def Ordered (t : Names α) : Prop := t.Pairwise (·.1 < ·.1)

theorem mem_of_find? (h : t.find? name = some a) : (name, a) ∈ t := by
  obtain ⟨⟨n, a'⟩, he, rfl⟩ := Option.map_eq_some_iff.1 h
  have hn : n = name := by simpa using List.find?_some he
  subst hn
  exact List.mem_of_find?_eq_some he

theorem mem_strike : e ∈ t.strike name ↔ e ∈ t ∧ e.1 ≠ name := by
  simp [strike]

theorem Ordered.strike (h : t.Ordered) (name : String) : Ordered (t.strike name) := h.filter _

/-- An entry of an ordered table is the only one of its name. -/
theorem Ordered.unique (h : t.Ordered) {b : α} (ha : (name, a) ∈ t) (hb : (name, b) ∈ t) : a = b := by
  induction t with
  | nil => cases ha
  | cons x rest ih =>
    obtain ⟨hx, hrest⟩ := List.pairwise_cons.1 h
    rcases List.mem_cons.1 ha with hax | ha <;> rcases List.mem_cons.1 hb with hbx | hb
    · exact congrArg Prod.snd (hax.trans hbx.symm)
    · exact absurd (hx _ hb) (by rw [← hax]; exact lt_irrefl name)
    · exact absurd (hx _ ha) (by rw [← hbx]; exact lt_irrefl name)
    · exact ih hrest ha hb

theorem mem_enter_self : ∀ (t : Names α), (name, a) ∈ enter name a t
  | [] => List.mem_singleton_self _
  | (n, b) :: rest => by
    unfold enter
    split
    · exact List.mem_cons_self ..
    · split
      · exact List.mem_cons_self ..
      · exact List.mem_cons_of_mem _ (mem_enter_self rest)

theorem mem_of_mem_enter : ∀ {t : Names α}, e ∈ enter name a t → e = (name, a) ∨ e ∈ t
  | [], h => .inl (List.mem_singleton.1 h)
  | (n, b) :: rest, h => by
    unfold enter at h
    split at h
    · exact List.mem_cons.1 h
    · split at h
      · exact (List.mem_cons.1 h).imp_right (List.mem_cons_of_mem _)
      · rcases List.mem_cons.1 h with rfl | h
        · exact .inr (List.mem_cons_self ..)
        · exact (mem_of_mem_enter h).imp_right (List.mem_cons_of_mem _)

/-- Entering takes nothing out but an entry of the same name. -/
theorem mem_enter_of_ne (hne : e.1 ≠ name) : ∀ {t : Names α}, e ∈ t → e ∈ enter name a t
  | (n, b) :: rest, h => by
    unfold enter
    split
    · exact List.mem_cons_of_mem _ h
    · split
      · rename_i heq
        rcases List.mem_cons.1 h with rfl | h
        · exact absurd heq.symm hne
        · exact List.mem_cons_of_mem _ h
      · rcases List.mem_cons.1 h with rfl | h
        · exact List.mem_cons_self ..
        · exact List.mem_cons_of_mem _ (mem_enter_of_ne hne h)

/-- Under a name that is not in use an entry is added and none taken out. -/
theorem mem_enter_iff (h : t.uses name = false) : e ∈ enter name a t ↔ e = (name, a) ∨ e ∈ t := by
  refine ⟨mem_of_mem_enter, ?_⟩
  rintro (rfl | he)
  · exact mem_enter_self t
  · refine mem_enter_of_ne ?_ he
    rintro rfl
    have : t.uses e.1 = true := List.any_eq_true.2 ⟨e, he, by simp⟩
    rw [h] at this
    cases this

theorem Ordered.enter : ∀ {t : Names α}, t.Ordered → Ordered (enter name a t)
  | [], _ => List.pairwise_singleton _ _
  | (n, b) :: rest, h => by
    obtain ⟨hn, hrest⟩ := List.pairwise_cons.1 h
    unfold Names.enter
    split
    · rename_i hlt
      refine List.pairwise_cons.2 ⟨fun x hx => ?_, h⟩
      rcases List.mem_cons.1 hx with rfl | hx
      · exact hlt
      · exact lt_trans hlt (hn x hx)
    · split
      · rename_i heq
        subst heq
        exact List.pairwise_cons.2 ⟨hn, hrest⟩
      · rename_i hnlt hne
        refine List.pairwise_cons.2 ⟨fun x hx => ?_, Ordered.enter hrest⟩
        rcases mem_of_mem_enter hx with rfl | hx
        · exact lt_of_le_of_ne (not_lt.1 hnlt) (Ne.symm hne)
        · exact hn x hx

/-! ### Finding -/

theorem find?_cons (n : String) (b : α) (rest : Names α) (m : String) :
    find? ((n, b) :: rest) m = if n = m then some b else find? rest m := by
  unfold find?
  by_cases hn : n = m
  · simp [hn]
  · simp [hn]

theorem find?_enter (name : String) (a : α) (m : String) : ∀ t : Names α,
    find? (enter name a t) m = if name = m then some a else t.find? m
  | [] => find?_cons name a [] m
  | (n, b) :: rest => by
    unfold enter
    split
    · exact find?_cons name a _ m
    · split
      · rename_i heq
        subst heq
        rw [find?_cons, find?_cons]
        by_cases hm : name = m
        · rw [if_pos hm, if_pos hm]
        · rw [if_neg hm, if_neg hm, if_neg hm]
      · rename_i hne
        rw [find?_cons, find?_cons, find?_enter name a m rest]
        by_cases hm : n = m
        · subst hm
          rw [if_pos rfl, if_pos rfl, if_neg hne]
        · rw [if_neg hm, if_neg hm]

theorem find?_strike (name m : String) : ∀ t : Names α, (t.strike name).find? m = if name = m then none else t.find? m
  | [] => by split <;> rfl
  | (n, b) :: rest => by
    have ih := find?_strike name m rest
    unfold strike at ih ⊢
    rw [find?_cons]
    by_cases hn : n = name
    · subst hn
      rw [List.filter_cons_of_neg (by simp), ih]
      split
      · rfl
      · rfl
    · rw [List.filter_cons_of_pos (by simpa using hn), find?_cons, ih]
      by_cases hm : n = m
      · subst hm
        rw [if_pos rfl, if_pos rfl, if_neg (Ne.symm hn)]
      · rw [if_neg hm, if_neg hm]

/-- The later of two entries under one name counts. -/
theorem enter_enter (name : String) (a b : α) : ∀ t : Names α, enter name a (enter name b t) = enter name a t
  | [] => by simp [enter]
  | (n, c) :: rest => by
    by_cases hlt : name < n
    · simp [enter, hlt]
    · by_cases heq : name = n
      · simp [enter, heq]
      · simp [enter, hlt, heq, enter_enter name a b rest]

/-- To enter what is there changes nothing. -/
theorem enter_of_find? : ∀ {t : Names α}, t.Ordered → t.find? name = some a → enter name a t = t
  | (n, b) :: rest, ho, hf => by
    obtain ⟨hn, hrest⟩ := List.pairwise_cons.1 ho
    rw [find?_cons] at hf
    by_cases heq : n = name
    · subst heq
      rw [if_pos rfl] at hf
      cases hf
      simp [enter]
    · rw [if_neg heq] at hf
      have hlt : n < name := hn _ (mem_of_find? hf)
      simp [enter, not_lt.2 hlt.le, Ne.symm heq, enter_of_find? hrest hf]

/-- What stands under some name after an entry, or after a name was struck out. -/
theorem exists_mem_enter_iff (h : t.uses name = false) {x : α} :
    (∃ n, (n, x) ∈ enter name a t) ↔ x = a ∨ ∃ n, (n, x) ∈ t := by
  simp only [mem_enter_iff h, Prod.mk.injEq]
  constructor
  · rintro ⟨n, ⟨-, rfl⟩ | hn⟩
    exacts [.inl rfl, .inr ⟨n, hn⟩]
  · rintro (rfl | ⟨n, hn⟩)
    exacts [⟨name, .inl ⟨rfl, rfl⟩⟩, ⟨n, .inr hn⟩]

theorem exists_mem_of_strike {x : α} (h : ∃ n, (n, x) ∈ t.strike name) : ∃ n, (n, x) ∈ t :=
  h.imp fun _ hn => (mem_strike.1 hn).1

end Names

/-! ## What tables keep -/

namespace Bench

variable {b : Bench} {pins : Ref → Bool}

theorem keeps_component {c : ComponentId} :
    b.keeps pins (.component c) = true ↔ pins (.component c) = true ∨ ∃ n, (n, c) ∈ b.components := by
  simp [keeps]

theorem keeps_channel {ch : ChannelId} :
    b.keeps pins (.channel ch) = true ↔ pins (.channel ch) = true ∨ ∃ n, (n, ch) ∈ b.channels := by
  simp [keeps]

theorem keeps_handle {h : Handle} : b.keeps pins (.handle h) = true ↔ pins (.handle h) = true ∨
    (∃ n, (n, h) ∈ b.handles) ∨ ∃ n r, (n, r) ∈ b.registries ∧ h ∈ r.handles := by
  simp [keeps]

end Bench

end Conduit.Scenario
