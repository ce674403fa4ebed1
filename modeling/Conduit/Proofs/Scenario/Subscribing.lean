/-
Subscribing is all or nothing. A step that asks for a subscription between ends that fit is answered in
one of two ways: it is refused and nothing has changed, or it makes one subscription and nothing else
(`Enrolled`). Which of the two is decided by the signal, and comes to this: a one-to-one output refuses as
long as a subscription is connected there whose place nobody has taken out by hand.
-/
import Conduit.Proofs.Scenario.Closing
import Conduit.Proofs.Wiring.Enrolled

namespace Conduit.Scenario

open World (Enrolled License Taken)

namespace Bench

/-- A step of subscribing in which nothing is wrong: the ends are an output and an input of one payload,
and the name for the handle is not in use. -/
structure Admits (b : Bench) (output input name : Field) (via : Option Field) (out inp : Endpoint) : Prop where
  output : b.endpoint output = .ok out
  input : b.endpoint input = .ok inp
  name : name.any b.handles.uses = false
  ends : ∃ o i, b.channelAt out = .ok o ∧ b.channelAt inp = .ok i ∧ o.direction = .output ∧ i.direction = .input ∧
    o.payload = i.payload
  via : isWay via = true

variable {b : Bench} {pins : Ref → Bool} {output input name : Field} {via : Option Field} {out inp : Endpoint}

/-- The bench after a subscription was made: its handle has the name that was given, if one was. -/
def enrolled (b : Bench) (w : World) (name : Field) (s : SubscriptionId) : Bench :=
  { b with world := w, handles := name.elim b.handles fun n => b.handles.enter n (.own s) }

/-- When the wiring refuses, the answer says so, and that is all. -/
theorem Admits.refused (h : b.Admits output input name via out inp)
    (hs : b.world.subscribe? out.channel inp.channel = none) :
    b.subscribe output input name via = b.answered (.alreadyConnected .oneToOne) := by
  obtain ⟨o, i, ho, hi, hout, hin, hpayload⟩ := h.ends
  unfold subscribe
  simp [h.output, h.input, h.name, ho, hi, hout, hin, hpayload, h.via, hs, bind, Except.bind]

theorem Admits.made (h : b.Admits output input name via out inp) {s : SubscriptionId} {w : World}
    (hs : b.world.subscribe? out.channel inp.channel = some (s, w)) :
    b.subscribe output input name via = (b.enrolled w name s).answered (.subscribed s) := by
  obtain ⟨o, i, ho, hi, hout, hin, hpayload⟩ := h.ends
  unfold subscribe
  cases name with
  | none =>
    simp [h.output, h.input, h.name, ho, hi, hout, hin, hpayload, h.via, hs, bind, Except.bind]
    rfl
  | some n =>
    simp [h.output, h.input, h.name, ho, hi, hout, hin, hpayload, h.via, hs, bind, Except.bind]
    rfl

/-- The ends are what they have to be for the wiring, too. -/
theorem Admits.channels (hb : WellFormed pins b) (h : b.Admits output input name via out inp) :
    b.world.channelAlive out.channel = true ∧ b.world.channelAlive inp.channel = true ∧
      b.world.signal? inp.channel = none ∧ (∃ g, b.world.signal? out.channel = some g) ∧
      ∃ slot, b.world.slotAt? inp.channel = some slot := by
  obtain ⟨o, i, ho, hi, hout, hin, -⟩ := h.ends
  have hoc := channelAt_eq ho
  have hic := channelAt_eq hi
  refine ⟨endpoint_channelAlive hb h.output, endpoint_channelAlive hb h.input, ?_, ?_, ?_⟩
  · rw [World.signal?, hic, Option.bind_some]
    apply signal?_of_direction
    simp [hin]
  · rw [World.signal?, hoc, Option.bind_some]
    unfold Channel.direction at hout
    unfold Channel.signal?
    cases hr : o.role with
    | input synchronized => simp [hr] at hout
    | output g counting => exact ⟨g, rfl⟩
  · exact ⟨i.slot, by rw [World.slotAt?, hic, Option.map_some]⟩

end Bench

namespace Config

variable {may : License} {c : Config}

/-- A step of subscribing in which nothing is wrong is refused by a one-to-one output on which some
subscription is connected, unless its place was taken out by hand, and then nothing has changed; in all
other cases one subscription is made, and nothing else. Where no places are taken out by hand, a
subscription that is connected is enough. -/
theorem subscribe_all_or_nothing (hc : Reachable may c) {output input name : Field} {via : Option Field}
    {out inp : Endpoint} (h : c.bench.Admits output input name via out inp) (given : Option Value) :
    ∃ g slot, c.bench.world.signal? out.channel = some g ∧ c.bench.world.slotAt? inp.channel = some slot ∧
      (g.cardinality = .oneToOne ∧ c.bench.world.Taken out.channel →
        c.bench.perform c.frames given (.subscribe output input name via) =
          .ok { bench := c.bench, outcome := .answer (.alreadyConnected .oneToOne) }) ∧
      (¬ (g.cardinality = .oneToOne ∧ c.bench.world.Taken out.channel) → ∃ v,
        c.bench.perform c.frames given (.subscribe output input name via) =
          .ok { bench := c.bench.enrolled v name (c.bench.world.subscriptions.length + 1)
                outcome := .answer (.subscribed (c.bench.world.subscriptions.length + 1)) } ∧
        Enrolled c.bench.world v out.channel inp.channel g slot) ∧
      (¬ may.disconnecting → (c.bench.world.Taken out.channel ↔
        ∃ (s : Nat) (i : ChannelId) (p : Nat), c.bench.world.subscription? s = some ⟨out.channel, i, some p⟩)) := by
  have hbench := hc.wellFormed.bench
  obtain ⟨ho, hi, hin, ⟨g, hg⟩, slot, hslot⟩ := h.channels hbench
  have hsound : World.Sound none c.bench.world := hbench.scene.sound
  have hplaced : World.Placed c.bench.world := hbench.scene.placed
  -- The output refuses if it is for one and taken; in any other case all of it is done.
  have hrefused := World.subscribe?_eq_none_iff hplaced ho hg hslot
  refine ⟨g, slot, hg, hslot, ?_, ?_, ?_⟩
  · intro htaken
    show c.bench.subscribe output input name via = _
    rw [h.refused (hrefused.2 htaken)]
    rfl
  · intro hfree
    obtain ⟨⟨n, v⟩, hv⟩ := Option.ne_none_iff_exists'.1 (mt hrefused.1 hfree)
    obtain ⟨rfl, g', slot', hg', hslot', hmade⟩ := World.enrolled_of_subscribe? hsound ho hi hin hv
    rw [hg, Option.some.injEq] at hg'
    rw [hslot, Option.some.injEq] at hslot'
    subst hg' hslot'
    refine ⟨v, ?_, hmade⟩
    show c.bench.subscribe output input name via = _
    rw [h.made hv]
    rfl
  · intro hm
    constructor
    · rintro ⟨s, i, p, hs, -⟩
      exact ⟨s, i, p, hs⟩
    · rintro ⟨s, i, p, hs⟩
      exact ⟨s, i, p, hs, hc.not_removed hm _ p⟩

/-- A one-to-one output and two inputs, one of which is subscribed to it. -/
def occupied : Config :=
  empty.play 9 [⟨none, .create (some "a") (some "one1") []⟩, ⟨none, .create (some "b") (some "sink1") []⟩,
    ⟨none, .create (some "c") (some "sink1") []⟩, ⟨none, .subscribe (some "a.o0") (some "b.i0") (some "h") none⟩]

theorem reachable_occupied : Reachable .any occupied := Reachable.play 9 _ .refl

/-- For instance the other input is refused. -/
theorem subscribe_all_or_nothing_occupied :
    occupied.bench.perform occupied.frames none (.subscribe (some "a.o0") (some "c.i0") none none) =
      .ok { bench := occupied.bench, outcome := .answer (.alreadyConnected .oneToOne) } := by
  have hadmits : occupied.bench.Admits (some "a.o0") (some "c.i0") none none ⟨0, [.channel 0, .component 0]⟩
      ⟨2, [.channel 2, .component 2]⟩ := by
    refine ⟨by rfl, by rfl, by decide, ⟨_, _, by rfl, by rfl, by decide, by decide, by decide⟩, by decide⟩
  obtain ⟨g, slot, hg, -, hrefused, -⟩ := subscribe_all_or_nothing reachable_occupied hadmits none
  apply hrefused
  constructor
  · cases hg
    decide
  · exact ⟨1, 1, 1, by decide, by decide⟩

/-- The place of that subscription has been taken out by hand, with a connection of another signal that
has the same number. -/
def vacated : Config :=
  occupied.play 9 [⟨none, .newSignal (some "x") (some "many")⟩, ⟨none, .newCallback (some "k") []⟩,
    ⟨none, .connect (some "x") (some "k") (some "n")⟩, ⟨none, .disconnectAt (some "a.o0") (some "n")⟩]

/-- A one-to-one output does not always refuse while a subscription is connected there: the place may
have been taken out by hand. -/
theorem not_always_refused : ¬ ∀ c, Reachable .any c → ∀ (o i : ChannelId) (g : Signal Slot),
    c.bench.world.channelAlive o = true → c.bench.world.channelAlive i = true → c.bench.world.signal? i = none →
    (c.bench.world.channels[o]?).map (·.payload) = (c.bench.world.channels[i]?).map (·.payload) →
    c.bench.world.signal? o = some g → g.cardinality = .oneToOne →
    (∃ (s : Nat) (j : ChannelId) (p : Nat), c.bench.world.subscription? s = some ⟨o, j, some p⟩) →
    c.bench.world.subscribe? o i = none := by
  intro h
  have hc : Reachable .any vacated := reachable_occupied.play 9 _
  have hnone := h vacated hc 0 2 { cardinality := .oneToOne, places := [], nextId := 2 } (by decide) (by decide)
    (by decide) (by decide) (by decide) (by decide) ⟨1, 1, 1, by decide⟩
  have hsome : (vacated.bench.world.subscribe? 0 2).isSome = true := by decide
  rw [hnone] at hsome
  cases hsome

end Config

end Conduit.Scenario
