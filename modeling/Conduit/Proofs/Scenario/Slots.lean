/-
What the signals of outputs list. The places of a living output are those of the subscriptions that are
connected there, in the order of these, as long as nobody else has taken one out. Every connected
subscription has a holder, and to change registries by hand makes no difference to signals, unless the
last holder of a subscription goes.
-/
import Conduit.Proofs.Scenario.Run

namespace Conduit

namespace World

variable {w : World} {o : ChannelId} {s : Nat}

/-! ## Subscribers -/

/-- The subscriptions that have a place at an output, in their order. -/
def subscribersOf (w : World) (o : ChannelId) : List SubscriptionId :=
  (List.range (w.subscriptions.length + 1)).filter fun s => (w.placeAt? o s).isSome

theorem subscribersOf_increasing (w : World) (o : ChannelId) : (w.subscribersOf o).Pairwise (· < ·) :=
  List.pairwise_lt_range.filter _

/-- The connected ones have a place, unless it was taken out by hand. -/
theorem Placed.mem_subscribersOf (h : Placed w) : s ∈ w.subscribersOf o ↔
    ∃ i p, w.subscription? s = some ⟨o, i, some p⟩ ∧ .removed o p ∉ w.ledger := by
  rw [subscribersOf, List.mem_filter, List.mem_range, Option.isSome_iff_exists]
  constructor
  · rintro ⟨-, q, hq⟩
    obtain ⟨i, hs, hr, -⟩ := placeAt?_eq_some_iff.1 hq
    exact ⟨i, q.id, hs, hr⟩
  · rintro ⟨i, p, hs, hr⟩
    obtain ⟨slot, hslot⟩ := Option.isSome_iff_exists.1 (h.token s o i p hs).2
    exact ⟨Nat.lt_succ_of_le (le_length_of_subscription? hs), ⟨p, slot⟩, placeAt?_eq_some_iff.2 ⟨i, hs, hr, hslot⟩⟩

theorem map_some_filterMap {α β : Type} (f : α → Option β) : ∀ l : List α,
    (l.filterMap f).map some = (l.filter fun a => (f a).isSome).map f
  | [] => rfl
  | a :: l => by
    have ih := map_some_filterMap f l
    rcases h : f a with _ | b
    · simp [h, ih]
    · simp [h, ih]

/-- The places go with the subscribers, one by one. -/
theorem placesAt_eq_subscribers (w : World) (o : ChannelId) :
    (w.placesAt o).map some = (w.subscribersOf o).map (w.placeAt? o) := map_some_filterMap ..

/-! ## Registries changed by hand -/

/-- Taking a number out of a registry leaves all signals as they are, unless the subscription has no
other holder; then it is closed. -/
theorem Sound.signal?_unregister (hw : Sound none w) (held : Ref → Bool) (ch : ChannelId) (k : Nat) :
    (∀ o, (w.unregister held ch k).signal? o = w.signal? o) ∨
    ∃ o i p, w.subscription? k = some ⟨o, i, some p⟩ ∧ held (.handle (.own k)) = false ∧
      (w.deregister ch k).isRegistered (.own k) = false ∧ (w.unregister held ch k).isConnected k = false ∧
      ∀ o', (w.unregister held ch k).signal? o' =
        if o' = o ∧ w.channelAlive o = true then (w.signal? o').map (·.without p) else w.signal? o' := by
  have hsame : ∀ o, (w.deregister ch k).signal? o = w.signal? o := fun o => by rw [deregister, signal?_setRegistry]
  unfold World.unregister
  split
  · exact .inl hsame
  · rename_i a hget
    have hm := Registry.get?_eq_some_iff.1 hget
    cases a with
    | foreign f => exact .inl hsame
    | own n =>
      obtain rfl : k = n := (hw.keyed ch _ hm).1
      show (∀ o, ((w.deregister ch k).letGo held (.own k)).signal? o = w.signal? o) ∨ _
      rw [show (w.deregister ch k).settle held (.handle (.own k)) = (w.deregister ch k).letGo held (.own k) from rfl]
      unfold letGo
      dsimp only
      split
      · exact .inl hsame
      · rename_i hfree
        -- Nobody holds the subscription any more, so it is closed, if it was not before.
        rw [Bool.or_eq_true, not_or, Bool.not_eq_true, Bool.not_eq_true] at hfree
        cases hconn : w.isConnected k with
        | false =>
          rw [close_of_not_isConnected (by exact hconn)]
          exact .inl hsame
        | true =>
          obtain ⟨o, i, p, hs⟩ := isConnected_iff.1 hconn
          refine .inr ⟨o, i, p, hs, hfree.1, hfree.2, ?_, fun o' => ?_⟩
          · rw [isConnected_close]
            simp
          · rw [signal?_close (by exact hs), hsame, (sameParts_deregister ..).channelAlive]

end World

namespace Scenario

open World (License)

namespace Bench

variable {b : Bench} {r : Begun} {pins : Ref → Bool} {endpoint handle : Field}

theorem signal?_register (h : b.register endpoint handle = .ok r) (o : ChannelId) :
    r.bench.world.signal? o = b.world.signal? o := by
  obtain ⟨p, n, a, -, -, h⟩ := register_ok h
  cases h
  exact World.signal?_setRegistry ..

theorem world_unregister (h : b.unregister pins endpoint handle = .ok r) :
    ∃ p n a, b.endpoint endpoint = .ok p ∧ lookup b.handles handle = .ok (n, a) ∧
      r.bench.world = b.world.unregister (b.keeps pins) p.channel (b.world.handleId a) := by
  obtain ⟨p, n, a, hp, ha, h⟩ := unregister_ok h
  cases h
  exact ⟨p, n, a, hp, ha, rfl⟩

end Bench

namespace Config

variable {may : License} {c : Config}

/-- In every configuration the signals of living outputs list their subscribers, and connected
subscriptions have holders. Registering by hand leaves all signals alone; so does unregistering at an endpoint, unless
the registry there was the only holder of the subscription, which is closed then. -/
theorem signals_list_subscribers (hc : Reachable may c) :
    (∀ o g, c.bench.world.channelAlive o = true → c.bench.world.signal? o = some g →
      g.places.map some = (c.bench.world.subscribersOf o).map (c.bench.world.placeAt? o) ∧
      (g.places.map (·.id)).Nodup ∧ g.size = (c.bench.world.subscribersOf o).length ∧
      (g.cardinality = .oneToOne → g.size ≤ 1)) ∧
    (∀ o, (c.bench.world.subscribersOf o).Pairwise (· < ·)) ∧
    (∀ o (s : Nat), s ∈ c.bench.world.subscribersOf o ↔
      ∃ i p, c.bench.world.subscription? s = some ⟨o, i, some p⟩ ∧ .removed o p ∉ c.bench.world.ledger) ∧
    (¬ may.disconnecting → ∀ o p, .removed o p ∉ c.bench.world.ledger) ∧
    (∀ s : Nat, c.bench.world.isConnected s = true →
      c.bench.keeps (pinned c.frames) (.handle (.own s)) = true ∨ c.bench.world.isRegistered (.own s) = true) ∧
    (∀ given endpoint handle r, c.bench.perform c.frames given (.register endpoint handle) = .ok r →
      ∀ o, r.bench.world.signal? o = c.bench.world.signal? o) ∧
    ∀ given endpoint handle r, c.bench.perform c.frames given (.unregister endpoint handle) = .ok r →
      ∃ e n a, c.bench.endpoint endpoint = .ok e ∧ Bench.lookup c.bench.handles handle = .ok (n, a) ∧
        ((∀ o, r.bench.world.signal? o = c.bench.world.signal? o) ∨
          ∃ s : Nat, ∃ o i p, c.bench.world.handleId a = s ∧ c.bench.world.subscription? s = some ⟨o, i, some p⟩ ∧
            c.bench.keeps (pinned c.frames) (.handle (.own s)) = false ∧
            (c.bench.world.deregister e.channel s).isRegistered (.own s) = false ∧
            r.bench.world.isConnected s = false ∧
            ∀ o', r.bench.world.signal? o' = if o' = o ∧ c.bench.world.channelAlive o = true
              then (c.bench.world.signal? o').map (·.without p) else c.bench.world.signal? o') := by
  have hscene := hc.wellFormed.bench.scene
  refine ⟨fun o g ha hg => ?_, World.subscribersOf_increasing _, fun o s => hscene.placed.mem_subscribersOf,
    fun hm o p => hc.not_removed hm o p, fun s hs => ?_, fun _ _ _ r h => Bench.signal?_register h, fun _ _ _ r h => ?_⟩
  · have hplaces := hscene.placed.places o g ha hg
    have hlist := World.placesAt_eq_subscribers c.bench.world o
    -- The places of the signal and those of the subscribers are one list.
    have htidy := hscene.placed.tidy o g hg
    refine ⟨hplaces ▸ hlist, htidy.nodup_ids, ?_, htidy.single⟩
    have hl := congrArg List.length hlist
    rw [List.length_map, List.length_map] at hl
    exact (congrArg List.length hplaces).trans hl
  · exact (hscene.backed s hs).imp id (World.isRegistered_own_iff hscene.sound).2
  · obtain ⟨e, n, a, he, ha, hw⟩ := Bench.world_unregister h
    refine ⟨e, n, a, he, ha, ?_⟩
    rw [hw]
    refine (hscene.sound.signal?_unregister _ e.channel _).imp id ?_
    rintro ⟨o, i, p, hs, hheld, hreg, hclosed, hsignal⟩
    exact ⟨_, o, i, p, rfl, hs, hheld, hreg, hclosed, hsignal⟩

/-- For instance the only subscription there is. -/
theorem signals_list_subscribers_linked : linked.bench.world.subscribersOf 1 = [1] ∧
    ∃ g, linked.bench.world.signal? 1 = some g ∧ g.size = 1 ∧
      g.places.map some = [linked.bench.world.placeAt? 1 1] := by
  have hlist : linked.bench.world.subscribersOf 1 = [1] := by decide
  obtain ⟨g, hg⟩ := Option.isSome_iff_exists.1 (show (linked.bench.world.signal? 1).isSome = true by decide)
  obtain ⟨hplaces, -, hsize, -⟩ := (signals_list_subscribers reachable_linked.any).1 1 g (by decide) hg
  rw [hlist] at hplaces hsize
  exact ⟨hlist, g, hg, hsize, hplaces⟩

/-- The number of the only subscription has been taken out of the registry of its output by hand, and
only the registry of its input holds it. -/
def forgotten : Config :=
  linked.play 9 [⟨none, .forge (some "h") (some "f")⟩, ⟨none, .dropHandle (some "h")⟩,
    ⟨none, .unregister (some "a.o0") (some "f")⟩]

/-- A connected subscription may lack its place, and unregistering may make a difference to signals. -/
theorem signals_may_differ :
    (¬ ∀ c, Reachable .any c → ∀ (s : Nat) o i p, c.bench.world.subscription? s = some ⟨o, i, some p⟩ →
      c.bench.world.channelAlive o = true → c.bench.world.hasPlace o p = true) ∧
    ¬ ∀ c, Reachable .any c → ∀ given endpoint handle r,
      c.bench.perform c.frames given (.unregister endpoint handle) = .ok r →
        ∀ o, (r.bench.world.signal? o).map (·.size) = (c.bench.world.signal? o).map (·.size) := by
  constructor
  · intro h
    have hplace := h displaced reachable_displaced 1 1 2 1 (by decide) (by decide)
    exact absurd hplace (by decide)
  · intro h
    have hsize := h forgotten (reachable_linked.any.play 9 _) none (some "b.i0") (some "f") _ rfl 1
    exact absurd hsize (by decide)

end Config

end Scenario

end Conduit
