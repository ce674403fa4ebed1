/-
A wiring together with what is held of it from outside (`Scene`). Holders come and go: something
that is there may be held, and what nobody holds any more is looked after at once. `Change` is one
such change, or one act on the wiring that costs no subscription its registration. What holds of
wirings all the time, and what ties them to their holders, is kept by every change (`Scene.WellFormed`).
-/
import Conduit.Proofs.Wiring.Account
import Conduit.Proofs.Wiring.Holding
import Conduit.Proofs.Wiring.Symmetric

namespace Conduit.World

/-- A wiring, and what is held of it. -/
structure Scene where
  world : World
  held : Ref → Bool

/-- Looks after several parts that were let go, one after another. -/
def settleAll (w : World) (held : Ref → Bool) (rs : List Ref) : World := rs.foldl (fun w r => w.settle held r) w

/-- Takes a number out of a channel's registry, and looks after the handle that was there. -/
def unregister (w : World) (held : Ref → Bool) (ch : ChannelId) (s : Nat) : World :=
  match (w.registry ch).get? s with
  | none => w.deregister ch s
  | some h => (w.deregister ch s).settle held (.handle h)

/-- One change of a scene, where it is allowed. -/
inductive Change (may : License) : Scene → Scene → Prop
  /-- What lives goes on to live, and what is listed stays listed. -/
  | act {w v : World} (held : Ref → Bool) (h : Act may w v) (lives : ∀ r, w.Lives r → v.Lives r) (hk : Keeps w v) :
      Change may ⟨w, held⟩ ⟨v, held⟩
  | torn {w v : World} {held : Ref → Bool} (h : Torn held w v) : Change may ⟨w, held⟩ ⟨v, held⟩
  /-- More is held, of what is there. -/
  | gain (w : World) {held held' : Ref → Bool} (le : ∀ r, held r = true → held' r = true)
      (lives : ∀ r, held' r = true → held r = true ∨ w.Lives r) : Change may ⟨w, held⟩ ⟨w, held'⟩
  /-- Less is held, and subscriptions that are not are looked after. -/
  | letGo (w : World) {held held' : Ref → Bool} (rs : List Ref) (le : ∀ r, held' r = true → held r = true)
      (lost : ∀ h, held (.handle h) = true → held' (.handle h) = true ∨ .handle h ∈ rs) :
      Change may ⟨w, held⟩ ⟨w.settleAll held' rs, held'⟩
  /-- Less is held, and subscriptions that are not have been closed. -/
  | closeAll (w : World) {held held' : Ref → Bool} (hs : List Handle) (le : ∀ r, held' r = true → held r = true)
      (lost : ∀ h, held (.handle h) = true → held' (.handle h) = true ∨ h ∈ hs) :
      Change may ⟨w, held⟩ ⟨w.closeAll hs, held'⟩
  | unregister (ht : may.registering) (w : World) (held : Ref → Bool) (ch : ChannelId) (s : Nat) :
      Change may ⟨w, held⟩ ⟨w.unregister held ch s, held⟩

/-- Any row of changes. -/
def Changes (may : License) : Scene → Scene → Prop := Relation.ReflTransGen (Change may)

theorem torn_settleAll {held : Ref → Bool} : ∀ (rs : List Ref) (w : World), Torn held w (w.settleAll held rs)
  | [], _ => .refl
  | r :: rs, w => .trans (torn_settle w r) (torn_settleAll rs _)

/-- Whatever changes in a scene happens to the wiring. -/
theorem Change.acts {may : License} {σ τ : Scene} (h : Change may σ τ) : Acts may σ.world τ.world := by
  cases h with
  | act held h _ _ => exact .single h
  | torn h => exact h.acts
  | gain w _ _ => exact .refl
  | letGo w rs _ _ => exact (torn_settleAll rs w).acts
  | closeAll w hs _ _ =>
    have ht : Torn (fun _ => false) w (w.closeAll hs) := torn_closeAll hs w
    exact ht.acts
  | unregister ht w held ch s =>
    unfold World.unregister
    split
    · exact .single (.deregister ht ch s)
    · rename_i a _
      have hs : Torn held (w.deregister ch s) ((w.deregister ch s).settle held (.handle a)) := torn_settle _ _
      exact .head (.deregister ht ch s) hs.acts

theorem Changes.acts {may : License} {σ τ : Scene} (h : Changes may σ τ) : Acts may σ.world τ.world := by
  induction h with
  | refl => exact .refl
  | tail _ hc ih => exact .trans ih hc.acts

/-! ## Letting go -/

section LetGo

variable {w : World} {held : Ref → Bool}

/-- To let a subscription go is to close it, unless it is held or listed. -/
theorem Backed.settle (others : Nat → Prop) (hw : Sound none w) (r : Ref)
    (h : Backed (fun s => held (.handle (.own s)) = true ∨ others s ∨ r = .handle (.own s)) w) :
    Backed (fun s => held (.handle (.own s)) = true ∨ others s) (w.settle held r) := fun s hs => by
  have htorn : Torn held w (w.settle held r) := torn_settle w r
  rcases htorn.keeps.backed h s hs with (hheld | hother | hr) | hl
  · exact .inl (.inl hheld)
  · exact .inl (.inr hother)
  · subst hr
    have hgo : (w.letGo held (.own s)).isConnected s = true := hs
    -- It is still connected after it has been let go, so something holds or lists it.
    show _ ∨ (w.letGo held (.own s)).Listed s
    unfold letGo at hgo ⊢
    dsimp only at hgo ⊢
    split
    · rename_i hg
      rcases Bool.or_eq_true _ _ ▸ hg with hg | hg
      · exact .inl (.inl hg)
      · exact .inr ((isRegistered_own_iff hw).1 hg)
    · rename_i hg
      rw [if_neg hg, isConnected_close] at hgo
      simp at hgo
  · exact .inr hl

theorem Sound.torn {v : World} (hw : Sound none w) (h : Torn held w v) : Sound none v :=
  h.induct (P := Sound none) (fun _ _ hv hs => hv.step hs) hw

theorem Backed.settleAll (others : Nat → Prop) : ∀ (rs : List Ref) {w : World}, Sound none w →
    Backed (fun s => held (.handle (.own s)) = true ∨ others s ∨ .handle (.own s) ∈ rs) w →
      Backed (fun s => held (.handle (.own s)) = true ∨ others s) (w.settleAll held rs)
  | [], _, _, h => h.mono fun s _ hh => .inl (by simpa using hh)
  | r :: rs, w, hw, h => by
    have hsettled : Backed (fun s => held (.handle (.own s)) = true ∨ others s ∨ .handle (.own s) ∈ rs)
        (w.settle held r) := by
      refine Backed.settle (fun s => others s ∨ .handle (.own s) ∈ rs) hw r (h.mono fun s _ hh => ?_)
      rcases hh with hh | hh | hh
      · exact .inl (.inl hh)
      · exact .inl (.inr (.inl (.inl hh)))
      · rcases List.mem_cons.1 hh with hh | hh
        · exact .inl (.inr (.inr hh.symm))
        · exact .inl (.inr (.inl (.inr hh)))
    exact Backed.settleAll others rs (hw.torn (torn_settle w r)) hsettled

theorem isConnected_closeAll {s : Nat} : ∀ (hs : List Handle) (w : World), (w.closeAll hs).isConnected s = true →
    w.isConnected s = true ∧ .own s ∉ hs
  | [], _, h => ⟨h, List.not_mem_nil⟩
  | a :: hs, w, h => by
    obtain ⟨hc, hm⟩ := isConnected_closeAll hs _ h
    obtain ⟨hc, hne⟩ := isConnected_of_closeHandle hc
    refine ⟨hc, fun hm' => ?_⟩
    rcases List.mem_cons.1 hm' with he | hm'
    · exact hne he.symm
    · exact hm hm'

theorem Backed.unregister (hw : Sound none w) (h : Backed (fun s => held (.handle (.own s)) = true) w)
    (ch : ChannelId) (k : Nat) : Backed (fun s => held (.handle (.own s)) = true) (w.unregister held ch k) := by
  -- The entry that goes may have been all that backed the subscription, so its handle is settled next.
  have hdereg : Backed (fun s => held (.handle (.own s)) = true ∨ False ∨
      (w.registry ch).get? k = some (.own s)) (w.deregister ch k) := fun s hs => by
    rcases h s hs with hh | ⟨c, ha, hm⟩
    · exact .inl (.inl hh)
    · by_cases hc : c = ch ∧ s = k
      · obtain ⟨rfl, rfl⟩ := hc
        exact .inl (.inr (.inr (Registry.get?_eq_some_iff.2 hm)))
      · refine .inr ⟨c, by rw [(sameParts_deregister ..).channelAlive, ha], ?_⟩
        rw [registry_deregister]
        split
        · rename_i hcc
          exact Registry.mem_erase.2 ⟨hm, fun hk => hc ⟨hcc, hk⟩⟩
        · exact hm
  unfold World.unregister
  split
  · rename_i hnone
    refine hdereg.mono fun s _ hh => .inl ?_
    rw [hnone] at hh
    simpa using hh
  · rename_i a hsome
    rw [hsome] at hdereg
    refine (Backed.settle (fun _ => False) (hw.shrink (.deregister w ch k)) (.handle a)
      (hdereg.mono fun s _ hh => .inl ?_)).mono fun s _ hh => .inl (by simpa using hh)
    rcases hh with hh | hh | hh
    · exact .inl hh
    · exact .inr (.inl hh)
    · exact .inr (.inr (by rw [Option.some.inj hh]))

end LetGo

/-! ## Well-formed scenes -/

/-- What holds of every wiring, and between it and its holders. -/
structure Scene.WellFormed (σ : Scene) : Prop where
  sound : Sound none σ.world
  owned : Owned σ.world
  placed : Placed σ.world
  accounted : Accounted σ.world
  upheld : Upheld σ.held σ.world
  backed : Backed (fun s => σ.held (.handle (.own s)) = true) σ.world

namespace Scene.WellFormed

variable {may : License} {σ τ : Scene}

theorem upheld_torn {held held' : Ref → Bool} {w v : World} (h : Upheld held' w)
    (hle : ∀ r, held' r = true → held r = true)
    (ht : Torn held w v) : Upheld held' v :=
  ht.induct (P := Upheld held') (fun _ _ hv hs => hv.step hle hs) h

/-- Every change keeps a scene well formed. -/
theorem change (h : Scene.WellFormed σ) (hc : Change may σ τ) : Scene.WellFormed τ := by
  have hacts := hc.acts
  have hsound : Sound none τ.world := hacts.induct (P := Sound none) (fun _ _ hv ha => hv.act ha) h.sound
  have howned : Owned τ.world := hacts.induct (P := Owned) (fun _ _ hv ha => hv.act ha) h.owned
  -- The accounts tell whether places were found, so the two are kept together.
  have hlinks : Placed τ.world ∧ Accounted τ.world :=
    hacts.rewires.induct (P := fun v => Placed v ∧ Accounted v) (fun _ _ hv hr => ⟨hv.1.rewire hr, hv.2.rewire hv.1 hr⟩)
      ⟨h.placed, h.accounted⟩
  suffices htied : Upheld τ.held τ.world ∧ Backed (fun s => τ.held (.handle (.own s)) = true) τ.world from
    ⟨hsound, howned, hlinks.1, hlinks.2, htied.1, htied.2⟩
  cases hc with
  | act held _ lives hk => exact ⟨fun r hr => lives r (h.upheld r hr), hk.backed h.backed⟩
  | torn ht => exact ⟨upheld_torn h.upheld (fun _ hr => hr) ht, ht.keeps.backed h.backed⟩
  | gain w le lives =>
    exact ⟨fun r hr => (lives r hr).elim (h.upheld r) id, h.backed.mono fun s _ hh => .inl (le _ hh)⟩
  | letGo w rs le lost =>
    refine ⟨upheld_torn (fun r hr => h.upheld r (le r hr)) (fun _ hr => hr) (torn_settleAll rs w), ?_⟩
    refine (Backed.settleAll (fun _ => False) rs h.sound (h.backed.mono fun s _ hh => .inl ?_)).mono
      fun s _ hh => .inl (by simpa using hh)
    exact (lost _ hh).imp id .inr
  | closeAll w hs le lost =>
    have ht : Torn (fun _ => true) w (w.closeAll hs) := torn_closeAll hs w
    refine ⟨upheld_torn (fun r hr => h.upheld r (le r hr)) (fun _ _ => rfl) ht, ?_⟩
    refine (ht.keeps.backed h.backed).mono fun s hs' hh => .inl ?_
    exact (lost _ hh).resolve_right (isConnected_closeAll hs w hs').2
  | unregister ht w held ch s =>
    refine ⟨?_, h.backed.unregister h.sound ch s⟩
    have hd : Upheld held (w.deregister ch s) := fun r hr => (h.upheld r hr).of_sameParts (sameParts_deregister ..)
    show Upheld held (World.unregister w held ch s)
    unfold World.unregister
    split
    · exact hd
    · exact upheld_torn hd (fun _ hr => hr) (torn_settle _ _)

theorem changes (h : Scene.WellFormed σ) (hc : Changes may σ τ) : Scene.WellFormed τ := by
  induction hc with
  | refl => exact h
  | tail _ hc ih => exact ih.change hc

theorem empty : Scene.WellFormed ⟨{}, fun _ => false⟩ where
  sound := ⟨fun s sub h => by simp [subscription?] at h, fun s sub h => by simp [subscription?] at h,
    fun ch e he => by simp [registry] at he, fun g hg => by simp at hg, fun ch _ _ => rfl⟩
  owned := .empty
  placed := .empty
  accounted := .empty
  upheld := nofun
  backed s hs := by simp [isConnected, subscription?] at hs

end Scene.WellFormed

/-- Without anybody's may in registries, registration is symmetric. -/
theorem Symmetric.changes {σ τ : Scene} (hσ : Scene.WellFormed σ) (h : Symmetric σ.world) (hc : Changes .orderly σ τ) :
    Symmetric τ.world :=
  (hc.acts.induct (P := fun v => Sound none v ∧ Symmetric v) (fun _ _ hv ha => ⟨hv.1.act ha, hv.2.act hv.1 ha⟩)
    ⟨hσ.sound, h⟩).2

theorem Symmetric.empty : Symmetric {} :=
  ⟨fun ch s => by simp [registry, Joins, subscription?], fun ch e he => by simp [registry] at he⟩

end Conduit.World
