/-
Steps of one side on components and channels, and deliveries. What is created on the side comes into places of
that side; what is published there goes to the same slots.
-/
import Conduit.Proofs.Scenario.Alike

namespace Conduit.Scenario.Bench.Shares

variable {mine : Table → String → Bool} {strict : Prop} {ρ σ : Atlas} {n : Kind → Nat} {b u B : Bench}
  {pins pins' : Ref → Bool} {given : Option Value} {name endpoint : Field} {value : Option Expr} {rules : Rules}

/-! ## Components and channels -/

theorem lengths_furnish (h : Shares mine strict ρ σ n b u B) (m : String) (layout : Layout) (rules : Rules) :
    (B.furnish m layout rules).lengths = furnished n layout :=
  lengths_of_measured (h.world.toMeasured.create m layout) h.signals_length h.callbacks_length

/-- A component is created on its side. -/
theorem furnish (h : Shares mine strict ρ σ n b u B) {m : String} (hm : mine .components m = true) (layout : Layout)
    (hr : RulesInside mine strict rules) (hown : ρ.Owns n (furnished n layout)) :
    Shares mine strict ρ σ (furnished n layout) (b.furnish m layout rules) u (B.furnish m layout rules) := by
  obtain ⟨hworld, hid⟩ := h.world.create m layout hown
  -- The rules come behind those of both sides, at the number of the new component.
  have hmine : ∃ i, ρ.component i = B.rules.length := by
    rw [h.rules_length]
    exact (hown.mono le_rfl (le_grown _ _ _)).grown Nat.one_pos
  have hcomponents := h.components.enter hm (b.world.create m layout).1
  rw [← hid] at hcomponents
  have hrules : (B.rules ++ [rules]).length = furnished n layout .component := by
    rw [List.length_append, h.rules_length, furnished, grown_of_ne _ _ (by decide), grown_self, List.length_singleton]
  exact { h with
    world := hworld
    components := hcomponents
    rules := h.rules.snoc (h.world.beside.split .component) hmine rules
    rules_length := hrules
    rules_inside := fun rules' hrules' => by
      rcases List.mem_append.1 hrules' with hold | hnew
      · exact h.rules_inside rules' hold
      · rw [List.mem_singleton.1 hnew]
        exact hr }

theorem create (h : Shares mine strict ρ σ n b u B) (hn : Calls mine .components name) (layout : Field)
    (hr : RulesInside mine strict rules) :
    Agree (BeginsAlike mine strict ρ σ n u) (b.create name layout rules) (B.create name layout rules) := by
  refine (h.components.fresh hn).bind ?_
  rintro _ m ⟨rfl, hm⟩
  refine Agree.refl.bind ?_
  rintro _ l rfl
  split
  · rename_i layout' _
    have hle : n ≤ furnished n layout' := (le_grown _ _ _).trans (le_grown _ _ _)
    exact answered_grown hle (h.lengths_furnish m layout' rules) fun hown => ⟨h.furnish hm layout' hr hown, rfl⟩
  · rfl

theorem keep (h : Shares mine strict ρ σ n b u B) {component : Field} (hn : Calls mine .components name)
    (hc : Calls mine .components component) :
    Agree (BeginsAlike mine strict ρ σ n u) (b.keep name component) (B.keep name component) := by
  refine (h.components.fresh hn).bind ?_
  rintro _ m ⟨rfl, hm⟩
  refine (h.components.lookup hc).bind ?_
  rintro ⟨k, c⟩ _ ⟨rfl, -⟩
  exact (h.of_components (h.components.enter hm c)).answered rfl

theorem drop (h : Shares mine strict ρ σ n b u B) (hp : ∀ r, pins' (r.rename ρ) = pins r)
    (hn : Calls mine .components name) :
    Agree (BeginsAlike mine strict ρ σ n u) (b.drop pins name) (B.drop pins' name) := by
  refine (h.components.lookup hn).bind ?_
  rintro ⟨m, c⟩ _ ⟨rfl, hm⟩
  exact ((h.of_components (h.components.strike hm)).settle hp (.component c)).answered rfl

theorem hold (h : Shares mine strict ρ σ n b u B) (hn : Calls mine .channels name) (he : Points mine endpoint) :
    Agree (BeginsAlike mine strict ρ σ n u) (b.hold name endpoint) (B.hold name endpoint) := by
  refine (field_agrees name).bind ?_
  rintro _ given ⟨rfl, hgiven⟩
  refine (h.endpoint he).bind ?_
  rintro p _ rfl
  refine (h.channels.fresh (f := some given) (hgiven ▸ hn)).bind ?_
  rintro _ m ⟨rfl, hm⟩
  exact (h.of_channels (h.channels.enter hm p.channel)).answered rfl

theorem release (h : Shares mine strict ρ σ n b u B) (hp : ∀ r, pins' (r.rename ρ) = pins r)
    (hn : Calls mine .channels name) :
    Agree (BeginsAlike mine strict ρ σ n u) (b.release pins name) (B.release pins' name) := by
  refine (h.channels.lookup hn).bind ?_
  rintro ⟨m, ch⟩ _ ⟨rfl, hm⟩
  exact ((h.of_channels (h.channels.strike hm)).settle hp (.channel ch)).answered rfl

theorem inspect (h : Shares mine strict ρ σ n b u B) (he : Points mine endpoint) :
    Agree (BeginsAlike mine strict ρ σ n u) (b.inspect endpoint) (B.inspect endpoint) := by
  refine (h.endpoint he).bind ?_
  rintro p _ rfl
  refine (h.channelAt p).bind ?_
  rintro c _ rfl
  exact h.answered (congrArg Result.channel (h.world.channelView c))

theorem group (h : Shares mine strict ρ σ n b u B) (hn : Calls mine .components name) :
    Agree (BeginsAlike mine strict ρ σ n u) (b.group name) (B.group name) := by
  refine (h.components.lookup hn).bind ?_
  rintro ⟨m, c⟩ _ ⟨rfl, -⟩
  dsimp only
  rw [h.world.groupView?]
  split
  · exact h.answered rfl
  · rfl

/-! ## Deliveries -/

theorem emissionAt (h : Shares mine strict ρ σ n b u B) (policy : Policy) (ch : ChannelId) (v : Value) :
    B.emissionAt policy (ρ.channel ch) v = (b.emissionAt policy ch v).rename ρ := by
  unfold Bench.emissionAt
  rw [h.world.signal?]
  rcases b.world.signal? ch with _ | g <;> rfl

theorem publish (h : Shares mine strict ρ σ n b u B) (policy : Policy) (he : Points mine endpoint) :
    Agree (BeginsAlike mine strict ρ σ n u) (b.publish policy given endpoint value)
        (B.publish policy given endpoint value) := by
  refine (h.endpoint he).bind ?_
  rintro p _ rfl
  refine (h.channelAt p).bind ?_
  rintro c _ rfl
  refine Agree.refl.bind ?_
  rintro _ v rfl
  rw [Channel.direction_rename]
  split
  · rfl
  · exact h.begins rfl rfl (congrArg Outcome.emission (h.emissionAt policy p.channel v)) rfl
      (fun _ he => Outcome.noConfusion he) fun _ _ he => Outcome.noConfusion he

theorem callSlot (h : Shares mine strict ρ σ n b u B) (he : Points mine endpoint) :
    Agree (BeginsAlike mine strict ρ σ n u) (b.callSlot given endpoint value) (B.callSlot given endpoint value) := by
  refine (h.endpoint he).bind ?_
  rintro p _ rfl
  refine (h.channelAt p).bind ?_
  rintro c _ rfl
  refine Agree.refl.bind ?_
  rintro _ v rfl
  rw [Channel.direction_rename]
  split
  · rfl
  · exact h.begins rfl rfl rfl rfl (fun _ he => Outcome.noConfusion he) fun _ _ he => Outcome.noConfusion he

theorem panic (h : Shares mine strict ρ σ n b u B) (kind text : Field) :
    Agree (BeginsAlike mine strict ρ σ n u) (b.panic given kind text) (B.panic given kind text) := by
  have hpanic : ∀ p, Agree (BeginsAlike mine strict ρ σ n u) (.ok { bench := b, outcome := .panic p })
      (.ok { bench := B, outcome := .panic p }) := fun p =>
    h.begins rfl rfl rfl rfl (fun _ he => Outcome.noConfusion he) fun _ _ he => Outcome.noConfusion he
  refine Agree.refl.bind ?_
  rintro _ k rfl
  dsimp only
  split
  · exact hpanic .other
  · refine Agree.refl.bind ?_
    rintro _ t rfl
    exact hpanic _
  · refine Agree.refl.bind ?_
    rintro _ p rfl
    exact hpanic p
  · rfl

end Conduit.Scenario.Bench.Shares
