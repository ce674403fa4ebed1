/-
Performing steps on registries of their own. What such a registry holds is kept by it, so it matters which
handles are on some shelf of the table (`Shelved`): one that is not on any more is let go.
-/
import Conduit.Proofs.Scenario.Performed

namespace Conduit.Scenario

open World (License)

namespace Bench

variable {may : License} {pins : Ref → Bool} {b b' : Bench} {r : Begun}

/-! ## Registries of their own -/

/-- A registry of the table holds the handle. -/
def Shelved (regs : Names (Registry Handle)) (k : Handle) : Prop := ∃ n reg, (n, reg) ∈ regs ∧ k ∈ reg.handles

section Shelf

variable {regs : Names (Registry Handle)} {name : String} {reg reg' : Registry Handle} {k : Handle} {P : Handle → Prop}

theorem shelved_of_enter (h : Shelved (regs.enter name reg') k) : k ∈ reg'.handles ∨ Shelved regs k := by
  obtain ⟨n, x, hm, hk⟩ := h
  rcases Names.mem_of_mem_enter hm with he | hm
  · cases he
    exact .inl hk
  · exact .inr ⟨n, x, hm, hk⟩

/-- Only the handles of the registry that is replaced or struck out can be lost. -/
theorem shelved_or_mem (reg' : Registry Handle) (ho : regs.Ordered) (hf : regs.find? name = some reg)
    (h : Shelved regs k) :
    k ∈ reg.handles ∨ (Shelved (regs.enter name reg') k ∧ Shelved (regs.strike name) k) := by
  obtain ⟨n, x, hm, hk⟩ := h
  by_cases hn : n = name
  · subst hn
    rw [ho.unique hm (Names.mem_of_find? hf)] at hk
    exact .inl hk
  · exact .inr ⟨⟨n, x, Names.mem_enter_of_ne hn hm, hk⟩, ⟨n, x, Names.mem_strike.2 ⟨hm, hn⟩, hk⟩⟩

theorem shelved_enter_self (h : k ∈ reg'.handles) : Shelved (regs.enter name reg') k :=
  ⟨name, reg', Names.mem_enter_self regs, h⟩

/-- What is kept is kept with other registries too, but for handles that these do not hold. -/
theorem keeps_of_registries (h : ∀ k, Shelved b.registries k → Shelved regs k ∨ P k) (x : Ref)
    (hx : b.keeps pins x = true) :
    keeps { b with registries := regs } pins x = true ∨ ∃ k, x = .handle k ∧ P k := by
  cases x with
  | handle k =>
    rcases keeps_handle.1 hx with hp | hm | hs
    · exact .inl (keeps_handle.2 (.inl hp))
    · exact .inl (keeps_handle.2 (.inr (.inl hm)))
    · rcases h k hs with hnew | hP
      · exact .inl (keeps_handle.2 (.inr (.inr hnew)))
      · exact .inr ⟨k, rfl, hP⟩
  | component c => exact .inl hx
  | channel ch => exact .inl hx
  | signal g => exact .inl hx
  | callback c => exact .inl hx

/-- Registries come to hold more of what is there. -/
theorem leads_of_shelve (regs : Names (Registry Handle)) (ho : b.Ordered → regs.Ordered)
    (hmore : ∀ k, Shelved b.registries k → Shelved regs k)
    (hnew : ∀ k, Shelved regs k → Shelved b.registries k ∨ b.world.Knows k) :
    Leads may pins pins b { b with registries := regs } := by
  refine leads_of_gain rfl rfl (fun h => ⟨h.handles, ho h⟩) (fun x hx => ?_) fun x hx => ?_
  · refine (keeps_of_registries (P := fun _ => False) (fun k hk => .inl (hmore k hk)) x hx).resolve_right ?_
    rintro ⟨_, -, hf⟩
    exact hf
  · refine (keeps_of_registries (b := { b with registries := regs }) hnew x hx).imp_right ?_
    rintro ⟨k, rfl, hk⟩
    exact hk

theorem keeps_of_less (hless : ∀ k, Shelved regs k → Shelved b.registries k) (x : Ref)
    (hx : keeps { b with registries := regs } pins x = true) : b.keeps pins x = true := by
  refine (keeps_of_registries (b := { b with registries := regs }) (P := fun _ => False) (fun k hk => .inl (hless k hk))
    x hx).resolve_right ?_
  rintro ⟨_, -, hf⟩
  exact hf

theorem keeps_or_lost {hs : List Handle} (hlost : ∀ k, Shelved b.registries k → Shelved regs k ∨ k ∈ hs) (k : Handle)
    (hk : b.keeps pins (.handle k) = true) : keeps { b with registries := regs } pins (.handle k) = true ∨ k ∈ hs := by
  refine (keeps_of_registries hlost _ hk).imp_right ?_
  rintro ⟨k', hk', hm⟩
  cases hk'
  exact hm

/-- Registries come to hold less, and what they do not hold any more is let go. -/
theorem leads_of_unshelve (hs : List Handle) (regs : Names (Registry Handle)) (ho : b.Ordered → regs.Ordered)
    (hless : ∀ k, Shelved regs k → Shelved b.registries k)
    (hlost : ∀ k, Shelved b.registries k → Shelved regs k ∨ k ∈ hs) :
    Leads may pins pins b (hs.foldl (fun b h => b.settle pins (.handle h)) { b with registries := regs }) := by
  rw [settle_handles]
  exact leads_of_letGo (b := { b with registries := regs }) _ rfl rfl (fun h => ⟨h.handles, ho h⟩) (keeps_of_less hless)
    fun k hk => (keeps_or_lost hlost k hk).imp_right List.mem_map_of_mem

end Shelf

theorem newRegistry_performed {name : Field} (h : b.newRegistry name = .ok r) : Performed may pins b r := by
  obtain ⟨n, hn, h⟩ := bind_ok h
  refine performed_answered (leads_of_shelve (b.registries.enter n .empty) (fun ho => ho.registries.enter) ?_
    fun k hk => .inl ((shelved_of_enter hk).resolve_left List.not_mem_nil)) h
  rintro k ⟨m, reg, hm, hk⟩
  exact ⟨m, reg, (Names.mem_enter_iff (uses_of_fresh hn)).2 (.inr hm), hk⟩

theorem dropRegistry_performed (hb : WellFormed pins b) {registry : Field} (h : b.dropRegistry pins registry = .ok r) :
    Performed may pins b r := by
  obtain ⟨⟨n, reg⟩, hreg, h⟩ := bind_ok h
  refine performed_answered (leads_of_unshelve reg.handles (b.registries.strike n)
    (fun ho => ho.registries.strike n) ?_ fun k hk => ?_) h
  · rintro k ⟨m, x, hm, hk⟩
    exact ⟨m, x, (Names.mem_strike.1 hm).1, hk⟩
  · exact (shelved_or_mem .empty hb.ordered.registries (find?_of_lookup hreg) hk).symm.imp_left (·.2)

theorem addTo_performed (hb : WellFormed pins b) {registry handle : Field} (h : b.addTo registry handle = .ok r) :
    Performed may pins b r := by
  obtain ⟨⟨n, reg⟩, hreg, h⟩ := bind_ok h
  obtain ⟨⟨m, a⟩, ha, h⟩ := bind_ok h
  have hin := mem_of_lookup hreg
  refine performed_answered (leads_of_shelve (b.registries.enter n (reg.insert (b.world.handleId a) a))
    (fun ho => ho.registries.enter) (fun k hk => ?_) fun k hk => ?_) h
  · rcases shelved_or_mem (reg.insert (b.world.handleId a) a) hb.ordered.registries (find?_of_lookup hreg) hk with
      hk | ⟨hk, -⟩
    · obtain ⟨i, hi⟩ := Registry.mem_handles.1 hk
      exact shelved_enter_self (Registry.mem_handles.2 ⟨i, Registry.mem_insert.2 (.inl hi)⟩)
    · exact hk
  · rcases shelved_of_enter hk with hk | hk
    · obtain ⟨i, hi⟩ := Registry.mem_handles.1 hk
      rcases Registry.mem_insert.1 hi with hi | ⟨he, -⟩
      · exact .inl ⟨n, reg, hin, Registry.mem_handles.2 ⟨i, hi⟩⟩
      · cases he
        exact .inr (hb.knows (mem_of_lookup ha))
    · exact .inl hk

theorem removeFrom_performed (hb : WellFormed pins b) {registry handle : Field}
    (h : b.removeFrom pins registry handle = .ok r) :
    Performed may pins b r := by
  obtain ⟨n, reg, m, a, hreg, ha, ⟨-, h⟩ | ⟨removed, hget, h⟩⟩ := removeFrom_ok h
  · exact performed_answered (.refl b) h
  · have hrem := Registry.get?_eq_some_iff.1 hget
    refine performed_answered (leads_of_unshelve [removed] (b.registries.enter n (reg.erase (b.world.handleId a)))
      (fun ho => ho.registries.enter) (fun k hk => ?_) fun k hk => ?_) h
    · rcases shelved_of_enter hk with hk | hk
      · obtain ⟨i, hi⟩ := Registry.mem_handles.1 hk
        exact ⟨n, reg, mem_of_lookup hreg, Registry.mem_handles.2 ⟨i, (Registry.mem_erase.1 hi).1⟩⟩
      · exact hk
    · rcases shelved_or_mem (reg.erase (b.world.handleId a)) hb.ordered.registries (find?_of_lookup hreg) hk with
        hk | ⟨hk, -⟩
      · obtain ⟨i, hi⟩ := Registry.mem_handles.1 hk
        -- What goes is the handle that is registered under the number, which need not be the one given.
        by_cases hid : i = b.world.handleId a
        · subst hid
          exact .inr (List.mem_singleton.2 (Registry.handle_unique hi hrem))
        · exact .inl (shelved_enter_self (Registry.mem_handles.2 ⟨i, Registry.mem_erase.2 ⟨hi, hid⟩⟩))
      · exact .inl hk

theorem closeAll_performed (hb : WellFormed pins b) {registry : Field} (h : b.closeAll registry = .ok r) :
    Performed may pins b r := by
  obtain ⟨⟨n, reg⟩, hreg, h⟩ := bind_ok h
  have hless : ∀ k, Shelved (b.registries.enter n .empty) k → Shelved b.registries k := fun k hk =>
    (shelved_of_enter hk).resolve_left List.not_mem_nil
  have hlost : ∀ k, Shelved b.registries k → Shelved (b.registries.enter n .empty) k ∨ k ∈ reg.handles := fun k hk =>
    (shelved_or_mem .empty hb.ordered.registries (find?_of_lookup hreg) hk).symm.imp_left (·.1)
  have hclose : Leads may pins pins b
      { b with world := b.world.closeAll reg.handles, registries := b.registries.enter n .empty } :=
    leads_of_change (.closeAll b.world reg.handles (keeps_of_less hless) (keeps_or_lost hlost)) rfl
      fun ho => ⟨ho.handles, ho.registries.enter⟩
  exact performed_answered hclose h

end Bench

end Conduit.Scenario
