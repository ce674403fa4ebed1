/-
One tick of the machine. Whatever it does, it leads on from the bench, keeps the frames stacked and
finds something to do next that fits them (`Preserves`). Taken apart by focus, and by the frame on top.
-/
import Conduit.Proofs.Scenario.Stack

namespace Conduit.Scenario

open World (License)
open Bench (Leads leads_of_gain leads_of_letGo leads_note)

/-! ## What frames pin -/

section Pins

variable {may : License} {b : Bench} {rest : List Frame}

theorem pinned_of_free {f : Frame} (h : ∀ r, f.pins r = false) : pinned (f :: rest) = pinned rest := by
  funext r
  show (f.pins r || pinned rest r) = pinned rest r
  rw [h, Bool.false_or]

theorem pinned_handling {h h' : Handling} (hs : h'.slot = h.slot) :
    pinned (.handling h' :: rest) = pinned (.handling h :: rest) := by
  funext r
  have hpins : (Frame.handling h').pins r = (Frame.handling h).pins r := by simp only [Frame.pins, hs]
  show ((Frame.handling h').pins r || pinned rest r) = _
  rw [hpins]
  rfl

theorem keeps_push (b : Bench) (f : Frame) (rest : List Frame) (r : Ref) :
    b.keeps (pinned (f :: rest)) r = (f.pins r || b.keeps (pinned rest) r) := by
  unfold Bench.keeps
  rw [← Bool.or_assoc]
  rfl

/-- A frame that pins nothing goes. -/
theorem leads_off (b : Bench) {frames : List Frame} {f : Frame} (hframes : frames = f :: rest)
    (h : ∀ r, f.pins r = false) :
    Leads may (pinned frames) (pinned rest) b b := by
  rw [hframes, pinned_of_free h]
  exact .refl b

/-- A frame that pins nothing is replaced by another such. -/
theorem leads_swap (b : Bench) {frames : List Frame} {f f' : Frame} (hframes : frames = f :: rest)
    (h : ∀ r, f.pins r = false) (h' : ∀ r, f'.pins r = false) :
    Leads may (pinned frames) (pinned (f' :: rest)) b b := by
  rw [hframes, pinned_of_free h, pinned_of_free h']
  exact .refl b

/-- A frame that pins what is there is put on top. -/
theorem leads_push (b : Bench) (f : Frame) (h : ∀ r, f.pins r = true → b.world.Lives r) :
    Leads may (pinned rest) (pinned (f :: rest)) b b := by
  refine leads_of_gain rfl rfl id (fun r hr => ?_) fun r hr => ?_
  · rw [keeps_push, hr, Bool.or_true]
  · rw [keeps_push, Bool.or_eq_true] at hr
    exact hr.symm.imp_right (h r)

/-- A frame comes to pin less, and what it lets go is looked after. -/
theorem leads_pop (b : Bench) {f f' : Frame} (r : Ref) (le : ∀ x, f'.pins x = true → f.pins x = true)
    (lost : ∀ h, f.pins (.handle h) = true → f'.pins (.handle h) = true ∨ .handle h = r) :
    Leads may (pinned (f :: rest)) (pinned (f' :: rest)) b (b.settle (pinned (f' :: rest)) r) := by
  refine leads_of_letGo [r] rfl rfl id (fun x hx => ?_) fun h hh => ?_
  · rw [keeps_push, Bool.or_eq_true] at hx ⊢
    exact hx.imp_left (le x)
  · rw [keeps_push, Bool.or_eq_true] at hh ⊢
    rcases hh with hf | hr
    · exact (lost h hf).imp .inl List.mem_singleton.2
    · exact .inl (.inr hr)

/-- What a step held is let go one thing after another. -/
theorem leads_letGo (op : Option String) : ∀ (holds : List Ref) (b : Bench),
    Leads may (pinned (.step op holds :: rest)) (pinned rest) b (b.letGo rest holds)
  | [], b => by
    rw [pinned_of_free fun r => rfl]
    exact .refl b
  | r :: more, b => by
    -- What the step still holds is pinned until its turn comes.
    have hone : Leads may (pinned (.step op (r :: more) :: rest)) (pinned (.step op more :: rest)) b
        (b.settle (pinned (.step op more :: rest)) r) := by
      refine leads_pop b r (fun x hx => ?_) fun h hh => ?_
      · have hm : x ∈ more := List.contains_iff_mem.1 hx
        exact List.contains_iff_mem.2 (List.mem_cons_of_mem _ hm)
      · rcases List.mem_cons.1 (List.contains_iff_mem.1 hh) with he | hm
        · exact .inr he
        · exact .inl (List.contains_iff_mem.2 hm)
    exact hone.trans (leads_letGo op more _)

/-- A handler that is at its end lets its component go. -/
theorem leads_leave (b : Bench) (h : Handling) :
    Leads may (pinned (.handling h :: rest)) (pinned rest) b (b.leave rest h.slot) := by
  rcases hs : h.slot with ⟨c, p⟩ | c
  · have hpop : Leads may (pinned (.handling h :: rest)) (pinned (.call :: rest)) b
        (b.settle (pinned (.call :: rest)) (.component c)) := by
      refine leads_pop b (.component c) nofun fun k hk => ?_
      simp only [Frame.pins, hs] at hk
      simp at hk
    rw [pinned_of_free (f := .call) fun r => rfl] at hpop
    exact hpop
  · rw [pinned_of_free fun r => by simp only [Frame.pins, hs]]
    exact .refl b

end Pins

/-! ## Configurations -/

namespace Config

/-- The bench is well formed, the frames are stacked as they can be, and what comes next fits them. -/
structure WellFormed (c : Config) : Prop where
  bench : Bench.WellFormed (pinned c.frames) c.bench
  stacked : Stacked c.frames
  fits : c.focus.Fits c.frames

/-- What a step does that keeps a configuration well formed: it leads on from the bench, keeps the frames stacked and
finds something to do next that fits them. -/
structure Preserves (may : License) (c d : Config) : Prop where
  leads : Leads may (pinned c.frames) (pinned d.frames) c.bench d.bench
  stacked : Stacked d.frames
  fits : d.focus.Fits d.frames

theorem Preserves.wellFormed {may : License} {c d : Config} (h : Preserves may c d) (hc : WellFormed c) :
    WellFormed d :=
  ⟨h.leads.wellFormed hc.bench, h.stacked, h.fits⟩

variable {may : License} {c : Config}

/-! ## Steps that begin -/

theorem start_preserves (hc : WellFormed c) {step : Step Action} {given : Option Value}
    (hf : c.focus = .start step given) (ht : step.action.Within may) : Preserves may c (c.start step given) := by
  have hsits : ∀ op holds, (Frame.step op holds).Sits c.frames := fun op holds => by
    have hfits := hc.fits
    rw [hf] at hfits
    exact sits_step hfits op holds
  unfold start
  split
  · refine ⟨?_, ⟨hsits _ _, hc.stacked⟩, trivial⟩
    show Leads may (pinned c.frames) (pinned (.step step.op [] :: c.frames)) c.bench c.bench
    rw [pinned_of_free fun _ => rfl]
    exact .refl c.bench
  · rename_i bench outcome holds hperform
    have hp := Bench.perform_performed hc.bench ht hperform
    -- The frame of the step pins what the action hands out, all of which lives.
    have hstep : Leads may (pinned c.frames) (pinned (.step step.op holds :: c.frames)) c.bench bench :=
      hp.leads.trans (leads_push bench _ fun r hr => hp.lives r (List.contains_iff_mem.1 hr))
    have hfree : ∀ {f : Frame}, (∀ r, f.pins r = false) →
        Leads may (pinned c.frames) (pinned (f :: .step step.op holds :: c.frames)) c.bench bench := fun h => by
      rw [pinned_of_free h]
      exact hstep
    cases outcome with
    | answer r => exact ⟨hstep, ⟨hsits _ _, hc.stacked⟩, trivial⟩
    | emission e => exact ⟨hfree fun _ => rfl, ⟨(hp.emission e rfl).2, hsits _ _, hc.stacked⟩, trivial⟩
    | call slot v => exact ⟨hfree fun _ => rfl, ⟨trivial, hsits _ _, hc.stacked⟩, trivial⟩
    | panic p => exact ⟨hstep, ⟨hsits _ _, hc.stacked⟩, trivial⟩
    | thread steps => exact ⟨hfree fun _ => rfl, ⟨trivial, hsits _ _, hc.stacked⟩, trivial⟩
    | batch todo => exact ⟨hfree fun _ => rfl, ⟨hp.batch todo rfl, hsits _ _, hc.stacked⟩, trivial⟩

/-! ## Handlers -/

theorem call_preserves (hc : WellFormed c) {slot : Slot} {value : Value} (hf : c.focus = .call slot value) :
    Preserves may c (c.call slot value) := by
  have hfits := hc.fits
  rw [hf] at hfits
  unfold call
  split
  · rename_i name hname
    refine ⟨(leads_note c.bench _).trans (leads_push _ _ fun r hr => ?_), ⟨?_, hc.stacked⟩, trivial⟩
    · cases slot with
      | handler k p =>
        -- Only a component that lives has a name to be called by.
        obtain rfl : r = .component k := by simpa [Frame.pins] using hr
        unfold Bench.slotName? World.livingName? at hname
        obtain ⟨comp, hcomp, hlive⟩ := Option.bind_eq_some_iff.1 hname
        show c.bench.world.componentAlive k = true
        rw [World.componentAlive, hcomp, Option.any_some]
        by_contra hal
        rw [if_neg hal] at hlive
        cases hlive
      | callback k => cases hr
    · exact sits_handling hfits _
  · exact ⟨leads_note c.bench _, hc.stacked, fits_resume_of_sits hfits⟩

theorem leads_useRule (b : Bench) (pins : Ref → Bool) (slot : Slot) (i : Nat) :
    Leads may pins pins b (b.useRule slot i) := by
  unfold Bench.useRule
  split
  · exact leads_of_gain rfl rfl (fun ho => ⟨ho.handles, ho.registries⟩) (fun _ hr => hr) fun _ hr => .inl hr
  · exact leads_of_gain rfl rfl (fun ho => ⟨ho.handles, ho.registries⟩) (fun _ hr => hr) fun _ hr => .inl hr

theorem handle_preserves (hc : WellFormed c) {h : Handling} {rest : List Frame} (hf : c.frames = .handling h :: rest) :
    Preserves may c (c.handle h rest) := by
  have hst := hc.stacked
  rw [hf] at hst
  obtain ⟨hsits, hrest⟩ := hst
  -- As long as the handler stays, its component is pinned.
  have hsame : ∀ h' : Handling, h'.slot = h.slot →
      Leads may (pinned c.frames) (pinned (.handling h' :: rest)) c.bench c.bench := fun h' hs => by
    rw [hf, pinned_handling hs]
    exact .refl c.bench
  unfold handle
  split
  · exact ⟨hsame _ rfl, ⟨sits_handling hsits _, hrest⟩, trivial⟩
  · split
    · refine ⟨?_, hrest, fits_resume_of_sits hsits⟩
      rw [hf]
      exact leads_leave c.bench h
    · dsimp only
      split
      · exact ⟨.trans (hsame _ rfl) (leads_useRule ..), ⟨sits_handling hsits _, hrest⟩, trivial⟩
      · exact ⟨hsame _ rfl, ⟨sits_handling hsits _, hrest⟩, trivial⟩

/-! ## Emissions -/

theorem visit_preserves (hc : WellFormed c) {e : Emission} {rest : List Frame} (hf : c.frames = .emission e :: rest) :
    Preserves may c (c.visit e rest) := by
  have hst := hc.stacked
  rw [hf] at hst
  obtain ⟨hsits, hrest⟩ := hst
  -- An emission pins nothing, so its frame can go or come back.
  have hoff : Leads may (pinned c.frames) (pinned rest) c.bench c.bench := leads_off c.bench hf fun _ => rfl
  unfold visit
  split
  · refine ⟨hoff.trans ?_, hrest, fits_ended_of_sits hsits nofun nofun _⟩
    unfold Emission.close
    split
    · exact leads_note c.bench _
    · exact .refl c.bench
  · split
    · refine ⟨?_, ⟨sits_emission hsits rfl, hrest⟩, trivial⟩
      rw [pinned_of_free fun _ => rfl]
      refine hoff.trans ?_
      dsimp only
      split
      · exact leads_note c.bench _
      · exact .refl c.bench
    · exact ⟨leads_swap c.bench hf (fun _ => rfl) fun _ => rfl, ⟨sits_emission hsits rfl, hrest⟩, trivial⟩

/-! ## Going on -/

theorem leads_sortLogAfter (b : Bench) (pins : Ref → Bool) (kept : Nat) : Leads may pins pins b (b.sortLogAfter kept) :=
  Bench.leads_of_world
    (.act _ (.relog _) (fun _ hr => hr) (.of_registry (fun _ h => h) (fun _ h => h) fun _ _ _ _ h => h))

theorem resume_preserves (hc : WellFormed c) (hf : c.focus = .resume) : Preserves may c c.resume := by
  have hfits := hc.fits
  have hst := hc.stacked
  rw [hf] at hfits
  unfold resume
  split
  · rename_i h rest hframes
    exact handle_preserves hc hframes
  · rename_i e rest hframes
    exact visit_preserves hc hframes
  · rename_i rest hframes
    rw [hframes] at hst
    exact ⟨leads_off c.bench hframes fun _ => rfl, hst.2, fits_ended_of_sits hst.1 nofun nofun _⟩
  · rename_i given results rest hframes
    rw [hframes] at hst
    exact ⟨leads_off c.bench hframes fun _ => rfl, hst.2, fits_ended_of_sits hst.1 nofun nofun _⟩
  · rename_i step steps given results rest hframes
    rw [hframes] at hst
    exact ⟨leads_swap c.bench hframes (fun _ => rfl) fun _ => rfl, ⟨sits_thread hst.1 _, hst.2⟩, trivial⟩
  · rename_i kept rest hframes
    rw [hframes] at hst
    exact ⟨(leads_off c.bench hframes fun _ => rfl).trans (leads_sortLogAfter ..), hst.2,
      fits_ended_of_sits hst.1 nofun nofun _⟩
  · rename_i ch v todo kept rest hframes
    rw [hframes] at hst
    -- The next emission of a batch comes on top of what is left of it.
    have hbatch : Leads may (pinned c.frames) (pinned (.batch todo kept :: rest)) c.bench c.bench :=
      leads_swap c.bench hframes (fun _ => rfl) fun _ => rfl
    obtain ⟨hemission, hbatchSits⟩ := sits_batch_cons hst.1 (c.bench.emissionAt .plain ch v) rfl
    refine ⟨?_, ⟨hemission, hbatchSits, hst.2⟩, trivial⟩
    rw [pinned_of_free fun _ => rfl]
    exact hbatch
  · rename_i op holds rest hframes
    rw [hframes] at hfits
    exact hfits.elim
  · rename_i hframes
    rw [hframes] at hfits
    exact hfits.elim

/-! ## Answers -/

theorem answer_preserves (hc : WellFormed c) {r : Result} (hf : c.focus = .ended r) : Preserves may c (c.answer r) := by
  have hfits := hc.fits
  have hst := hc.stacked
  rw [hf] at hfits
  unfold answer
  split
  · rename_i op holds rest hframes
    rw [hframes] at hst
    obtain ⟨hsits, hrest⟩ := hst
    -- What the step has held is let go with its frame.
    have hgo : Leads may (pinned c.frames) (pinned rest) c.bench (c.bench.letGo rest holds) := by
      rw [hframes]
      exact leads_letGo op holds c.bench
    dsimp only
    split
    · exact ⟨hgo.trans (leads_note _ _), hrest, trivial⟩
    · rename_i steps given results below
      refine ⟨?_, ⟨sits_thread hrest.1 _, hrest.2⟩, trivial⟩
      rw [pinned_of_free fun _ => rfl] at hgo ⊢
      exact hgo
    · rename_i hnh hnt
      refine ⟨hgo, hrest, ?_⟩
      rcases rest with _ | ⟨⟨⟩, below⟩
      · trivial
      all_goals first | exact hsits.elim | exact (hnh _ _ rfl).elim | exact (hnt _ _ _ _ rfl).elim
  · rename_i todo kept rest hframes
    refine ⟨.refl c.bench, hst, ?_⟩
    rw [hframes]
    trivial
  · rename_i hns hnb
    rcases hframes : c.frames with _ | ⟨⟨⟩, below⟩ <;> rw [hframes] at hfits
    all_goals first | exact hfits.elim | exact (hns _ _ _ hframes).elim | exact (hnb _ _ _ hframes).elim

/-! ## Panics -/

theorem unwind_preserves (hc : WellFormed c) (p : Panic) : Preserves may c (c.unwind p) := by
  have hst := hc.stacked
  -- One frame goes, by what kind of frame it is; only an emission that collects stays.
  unfold unwind
  split
  · rename_i hframes
    refine ⟨.refl c.bench, hst, ?_⟩
    rw [hframes]
    trivial
  · rename_i op holds rest hframes
    rw [hframes] at hst
    refine ⟨?_, hst.2, trivial⟩
    rw [hframes]
    exact leads_letGo op holds c.bench
  · rename_i h rest hframes
    rw [hframes] at hst
    refine ⟨?_, hst.2, trivial⟩
    rw [hframes]
    exact leads_leave c.bench h
  · rename_i e rest hframes
    rw [hframes] at hst
    split
    · exact ⟨leads_swap c.bench hframes (fun _ => rfl) fun _ => rfl, ⟨sits_emission hst.1 rfl, hst.2⟩, trivial⟩
    · exact ⟨leads_off c.bench hframes fun _ => rfl, hst.2, trivial⟩
  · rename_i steps given results rest hframes
    rw [hframes] at hst
    exact ⟨leads_swap c.bench hframes (fun _ => rfl) fun _ => rfl, ⟨sits_thread hst.1 _, hst.2⟩, trivial⟩
  · rename_i rest hframes
    rw [hframes] at hst
    exact ⟨leads_off c.bench hframes fun _ => rfl, hst.2, trivial⟩
  · rename_i todo kept rest hframes
    rw [hframes] at hst
    exact ⟨leads_off c.bench hframes fun _ => rfl, hst.2, trivial⟩

/-- Every tick is a lawful way on. -/
theorem tick_preserves (hc : WellFormed c) (ht : ∀ step given, c.focus = .start step given → step.action.Within may) :
    Preserves may c c.tick := by
  unfold tick
  split
  · rename_i step given hf
    exact start_preserves hc hf (ht step given hf)
  · rename_i slot value hf
    exact call_preserves hc hf
  · rename_i hf
    exact resume_preserves hc hf
  · rename_i r hf
    exact answer_preserves hc hf
  · rename_i p hf
    exact unwind_preserves hc p
  · exact ⟨.refl c.bench, hc.stacked, hc.fits⟩

end Config

end Conduit.Scenario
