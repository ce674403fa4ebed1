/-
How subscriptions begin and end. A subscription is connected when it comes into being. It is closed
once at most, whoever closes it: the ledger then has its token destroyed, after its place has been
disconnected if the output had not ended, and nothing about it from then on. To close it again, or to
let it go, makes no difference.
-/
import Conduit.Proofs.Scenario.Run
import Conduit.Proofs.Wiring.Drain

namespace Conduit

namespace World

/-! ## New subscriptions -/

section

variable {w : World} {s : Nat}

theorem subscription?_eq_none_iff : w.subscription? s = none ↔ s = 0 ∨ w.subscriptions.length < s := by
  unfold subscription?
  split
  · rename_i hs
    exact ⟨fun _ => .inl hs, fun _ => rfl⟩
  · rename_i hs
    have hpos : 0 < s := Nat.pos_of_ne_zero hs
    rw [List.getElem?_eq_none_iff]
    constructor
    · intro hle
      exact .inr (Nat.lt_of_le_pred hpos hle)
    · rintro (h0 | hlt)
      · exact absurd h0 hs
      · exact Nat.le_pred_of_lt hlt

end

end World

namespace Scenario

open World (License)

/-- A step that subscribes changes the wiring by that only. -/
theorem Bench.subscribed_or_same {b : Bench} {r : Begun} {output input name : Field}
    {via : Option Field} (h : b.subscribe output input name via = .ok r) :
    r.bench.world = b.world ∨ ∃ o i s, b.world.signal? i = none ∧ b.world.subscribe? o i = some (s, r.bench.world) := by
  obtain ⟨out, inp, -, -, hin, h | ⟨s, w, hs, -, h⟩⟩ := subscribe_cases h
  · cases h
    exact .inl rfl
  · cases h
    exact .inr ⟨_, _, s, hin, hs⟩

/-- What a step of subscribing makes is connected. -/
theorem Bench.isConnected_of_subscribe {b : Bench} {r : Begun} {output input name : Field} {via : Option Field}
    {s : Nat} (h : b.subscribe output input name via = .ok r) (hs : b.world.subscription? s = none)
    (hr : r.bench.world.subscription? s ≠ none) : r.bench.world.isConnected s = true := by
  rcases subscribed_or_same h with hw | ⟨o, i, n, hin, hsub⟩
  · rw [hw] at hr
    exact absurd hs hr
  · obtain ⟨p, slot, g, g', hmade⟩ := World.subscribed_of_subscribe? hin hsub
    rw [hmade.subscription?] at hr
    by_cases hn : s = n
    · rw [World.isConnected, hmade.subscription?, if_pos hn]
      rfl
    · rw [if_neg hn] at hr
      exact absurd hs hr

namespace Config

variable {may : License} {c d : Config} {s : Nat}

theorem subscription?_of_preserves (h : Preserves ⟨True, False, True⟩ c d) (hs : c.bench.world.subscription? s = none) :
    d.bench.world.subscription? s = none := by
  rw [World.subscription?_eq_none_iff] at hs ⊢
  have hl : d.bench.world.subscriptions.length = c.bench.world.subscriptions.length :=
    h.leads.changes.acts.rewires.length_subscriptions fun hf => hf
  rwa [hl]

/-- The bench after the beginning of a step is what performing it makes of it. -/
theorem bench_start {step : Step Action} {given : Option Value} {r : Begun}
    (h : c.bench.perform c.frames given step.action = .ok r) : (c.start step given).bench = r.bench := by
  obtain ⟨bench, outcome, holds⟩ := r
  rw [start, h]
  cases outcome <;> rfl

/-- A subscription is connected when it comes into being. -/
theorem Move.isConnected_of_new (hc : WellFormed c) (h : Move may c d) (hs : c.bench.world.subscription? s = none)
    (hd : d.bench.world.subscription? s ≠ none) : d.bench.world.isConnected s = true := by
  by_cases hm : Move ⟨True, False, True⟩ c d
  · exact absurd (subscription?_of_preserves (hm.preserves hc) hs) hd
  cases h with
  | act hframes hf step => exact absurd (.act hframes hf step) hm
  | next hf step => exact absurd (.next hf step) hm
  | furnish hf hn layout rules => exact absurd (.furnish hf hn layout rules) hm
  | tick ht =>
    -- Only a tick that begins a step of subscribing is left.
    obtain ⟨output, input, name, via, op, given, hf⟩ : ∃ output input name via op given,
        c.focus = .start ⟨op, .subscribe output input name via⟩ given := by
      by_contra hno
      refine hm (.tick fun step given hf => ?_)
      obtain ⟨op, action⟩ := step
      cases action with
      | subscribe output input name via => exact absurd ⟨output, input, name, via, op, given, hf⟩ hno
      | _ => trivial
    have htick : c.tick = c.start ⟨op, .subscribe output input name via⟩ given := by
      rw [Config.tick, hf]
    rw [htick] at hd ⊢
    rcases hperform : c.bench.perform c.frames given (.subscribe output input name via) with _ | r
    · rw [start, hperform] at hd
      exact absurd hs hd
    · rw [bench_start hperform] at hd ⊢
      exact Bench.isConnected_of_subscribe hperform hs hd

/-! ## Once and for all -/

/-- Every subscription is connected once and closed at most once. What the ledger tells of it is
`Account`: nothing but that it was connected while it is; then what its closing adds (`farewell`) and
nothing after that. A place that is to be disconnected is there, unless it was taken out by hand. -/
theorem subscriptions_close_once (hc : Reachable may c) :
    (∀ d s, Move may c d → c.bench.world.subscription? s = none → d.bench.world.subscription? s ≠ none →
      d.bench.world.isConnected s = true) ∧
    (∀ d s, Moves may c d → c.bench.world.subscription? s ≠ none → c.bench.world.isConnected s = false →
      d.bench.world.isConnected s = false) ∧
    (∀ d, Moves may c d → c.bench.world.ledger <:+ d.bench.world.ledger) ∧
    (∀ ch, .ended ch ∈ c.bench.world.ledger ↔
      (c.bench.world.slotAt? ch).isSome ∧ c.bench.world.channelAlive ch = false) ∧
    (∀ (s : Nat) sub, c.bench.world.subscription? s = some sub → Account c.bench.world.ledger s sub) ∧
    (∀ (s : Nat) o i p, c.bench.world.subscription? s = some ⟨o, i, some p⟩ → c.bench.world.channelAlive o = true →
      (c.bench.world.hasPlace o p = true ↔ .removed o p ∉ c.bench.world.ledger)) ∧
    (¬ may.disconnecting → ∀ s, .disconnected s false ∉ c.bench.world.ledger) ∧
    ∀ s, c.bench.world.isConnected s = false → World.Inert c.bench.world s := by
  -- All of it is in the invariant, but for the moves: those extend the wiring.
  have hwell := hc.wellFormed
  have hscene := hwell.bench.scene
  refine ⟨fun d s hm hs hd => hm.isConnected_of_new hwell hs hd, fun d s hm hs hclosed => ?_,
    fun d hm => (hm.extends hwell).ledger, hscene.accounted.ended, hscene.accounted.account,
    fun s o i p hs ha => hscene.placed.hasPlace_iff hs ha,
    fun hm s => hscene.accounted.found (fun o p => hc.not_removed hm o p) s, fun s hs => hscene.sound.inert hs⟩
  exact (hm.extends hwell).not_isConnected (Option.isSome_iff_ne_none.2 hs) hclosed

/-- The only subscription has been closed. -/
def closed : Config := linked.play 9 [⟨none, .close (some "h")⟩]

/-- For instance nobody connects that subscription again, or finds it open. -/
theorem subscriptions_close_once_closed : Account closed.bench.world.ledger 1 ⟨1, 2, none⟩ ∧
    closed.bench.world.ledger = [.released 1, .disconnected 1 true, .connected 1 1 1] ∧
    World.Inert closed.bench.world 1 := by
  have hc : Reachable .any closed := reachable_linked.any.play 9 _
  obtain ⟨-, -, -, -, haccount, -, -, hinert⟩ := subscriptions_close_once hc
  exact ⟨haccount 1 _ (by decide), by decide, hinert 1 (by decide)⟩

/-- A subscription does not always find its place: it may have been disconnected by hand. -/
theorem not_always_found : ¬ ∀ c, Reachable .any c → ∀ s, .disconnected s false ∉ c.bench.world.ledger := fun h => by
  have hc : Reachable .any (displaced.play 9 [⟨none, .close (some "h")⟩]) := reachable_displaced.play 9 _
  exact h _ hc 1 (by decide)

end Config

end Scenario

end Conduit
