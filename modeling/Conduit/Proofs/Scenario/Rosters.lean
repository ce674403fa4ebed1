/-
Signals and their rosters, in whatever history. What has been asked of signals, from outside and by
handlers while emissions are under way, tells their rosters (`Recorded`): they are those of the reference.
Numbers are not used again, so a token takes out its own slot, once at most, and after that nothing. An
emission that is under way finds connected what the roster still has.
-/
import Conduit.Proofs.Scenario.Delivery
import Conduit.Proofs.Scenario.Panics
import Conduit.Proofs.Scenario.Requests

namespace Conduit.Scenario

namespace Request

/-- The slot that a request connects to the signal `g`, with its number. -/
def connection? (rs : List (Roster Slot)) (g : SignalId) : Request → Option (Nat × Slot)
  | .connect g' slot => if g' = g then ((rs[g]?).bind fun r => (r.connect slot).1).map (·, slot) else none
  | _ => none

/-- The number of the slot that a request takes out at the signal `g`. -/
def removal? (rs : List (Roster Slot)) (g : SignalId) : Request → Option Nat
  | .disconnect g' id => if g' = g ∧ (rs[g]?).any (fun r => (r.disconnect id).1) then some id else none
  | _ => none

end Request

/-! ## The reference -/

/-- What is on the roster of a signal to which `made` has been connected, and `gone` taken out. -/
structure Kept (made : List (Nat × Slot)) (gone : List Nat) (r : Option (Roster Slot)) : Prop where
  slots : (r.map Roster.slots).getD [] = made.filter fun x => !gone.contains x.1
  below : ∀ x ∈ made, ∃ y, r = some y ∧ x.1 < y.next
  increasing : (made.map (·.1)).Pairwise (· < ·)
  once : gone.Nodup
  own : ∀ id ∈ gone, id ∈ made.map (·.1)

namespace Kept

variable {made : List (Nat × Slot)} {gone : List Nat} {r : Roster Slot}

theorem empty {r : Option (Roster Slot)} (hr : (r.map Roster.slots).getD [] = []) : Kept [] [] r :=
  ⟨hr, nofun, .nil, .nil, nofun⟩

/-- One more slot comes last, under a number that is above all others. -/
theorem connect (h : Kept made gone (some r)) (slot : Slot) :
    Kept (made ++ (((r.connect slot).1).map (·, slot)).toList) gone (some (r.connect slot).2) := by
  rcases r.connect_cases slot with ⟨n, x, rfl, he⟩ | ⟨hid, hslots, hnext⟩
  · rw [he, Option.map_none, Option.toList_none, List.append_nil]
    exact h
  -- The new number is above all that have been given, and so it has not been removed.
  have hbelow : ∀ x ∈ made, x.1 < r.next := by
    intro x hx
    obtain ⟨y, hy, hlt⟩ := h.below x hx
    cases hy
    exact hlt
  have hnew : r.next ∉ gone := by
    intro hgone
    obtain ⟨x, hx, he⟩ := List.mem_map.1 (h.own _ hgone)
    exact Nat.ne_of_lt (hbelow x hx) he
  rw [hid, Option.map_some, Option.toList_some]
  constructor
  · have hold := h.slots
    rw [Option.map_some, Option.getD_some] at hold
    rw [Option.map_some, Option.getD_some, hslots, List.filter_append, hold]
    simp [hnew]
  · intro x hx
    refine ⟨_, rfl, ?_⟩
    rw [hnext]
    rcases List.mem_append.1 hx with hx | hx
    · exact Nat.lt_succ_of_lt (hbelow x hx)
    · rw [List.mem_singleton.1 hx]
      exact Nat.lt_succ_self _
  · rw [List.map_append, List.pairwise_append]
    refine ⟨h.increasing, List.pairwise_singleton .., ?_⟩
    intro a ha b hb
    obtain ⟨x, hx, rfl⟩ := List.mem_map.1 ha
    rw [List.mem_singleton.1 hb]
    exact hbelow x hx
  · exact h.once
  · intro id hid
    rw [List.map_append]
    exact List.mem_append_left _ (h.own id hid)

/-- A slot is taken out of those that are there. -/
theorem disconnect (h : Kept made gone (some r)) (id : Nat) :
    Kept made (gone ++ (if (r.disconnect id).1 then some id else none).toList) (some (r.disconnect id).2) := by
  have hold := h.slots
  rw [Option.map_some, Option.getD_some] at hold
  have hbelow : ∀ x ∈ made, ∃ y, some (r.disconnect id).2 = some y ∧ x.1 < y.next := by
    intro x hx
    obtain ⟨y, hy, hlt⟩ := h.below x hx
    cases hy
    exact ⟨_, rfl, by rwa [Roster.next_disconnect]⟩
  cases hthere : (r.disconnect id).1 with
  | false =>
    rw [if_neg Bool.false_ne_true, Option.toList_none, List.append_nil]
    refine ⟨?_, hbelow, h.increasing, h.once, h.own⟩
    -- Nobody has the number, so leaving it out changes nothing.
    have hall : ∀ x ∈ r.slots, x.1 ≠ id := by
      intro x hx he
      rw [(r.disconnect_iff id).2 ⟨x, hx, he⟩] at hthere
      cases hthere
    rw [Option.map_some, Option.getD_some, Roster.slots_disconnect, List.filter_eq_self.2, hold]
    intro x hx
    simpa using hall x hx
  | true =>
    rw [if_pos rfl, Option.toList_some]
    obtain ⟨x, hx, rfl⟩ := (r.disconnect_iff id).1 hthere
    rw [hold, List.mem_filter] at hx
    -- It has not been removed before, because it is still there.
    have hstill : x.1 ∉ gone := by simpa using hx.2
    refine ⟨?_, hbelow, h.increasing, ?_, ?_⟩
    · rw [Option.map_some, Option.getD_some, Roster.slots_disconnect, hold, List.filter_filter]
      apply List.filter_congr
      intro y _
      by_cases hy : y.1 = x.1 <;> simp [hy]
    · rw [List.nodup_append]
      refine ⟨h.once, List.nodup_singleton _, ?_⟩
      intro a ha b hb he
      rw [List.mem_singleton.1 hb] at he
      exact hstill (he ▸ ha)
    · intro k hk
      rcases List.mem_append.1 hk with hk | hk
      · exact h.own k hk
      · rw [List.mem_singleton.1 hk]
        exact List.mem_map_of_mem hx.1

/-- Every request keeps the account of every signal. -/
theorem serve {rs : List (Roster Slot)} {g : SignalId} (h : Kept made gone rs[g]?) (q : Request) :
    Kept (made ++ (q.connection? rs g).toList) (gone ++ (q.removal? rs g).toList) (q.serve rs)[g]? := by
  cases q with
  | make cardinality =>
    show Kept (made ++ []) (gone ++ []) (rs ++ [Roster.blank cardinality])[g]?
    rw [List.append_nil, List.append_nil]
    rcases lt_or_ge g rs.length with hlt | hge
    · rw [List.getElem?_append_left hlt]
      exact h
    · -- To what was not there nothing has been connected.
      rw [List.getElem?_eq_none hge] at h
      have hmade : made = [] := by
        rw [List.eq_nil_iff_forall_not_mem]
        intro x hx
        obtain ⟨y, hy, -⟩ := h.below x hx
        cases hy
      have hgone : gone = [] := by
        rw [List.eq_nil_iff_forall_not_mem]
        intro id hid
        have hm := h.own id hid
        rw [hmade] at hm
        cases hm
      subst hmade hgone
      apply Kept.empty
      rw [List.getElem?_append_right hge]
      rcases g - rs.length with _ | n
      · simp
      · simp
  | connect k slot =>
    by_cases hk : k = g
    · subst hk
      have hserve : (Request.serve rs (.connect k slot))[k]? = (rs[k]?).map fun r => (r.connect slot).2 := by
        simp [Request.serve]
      rw [hserve]
      rcases hr : rs[k]? with _ | r
      · simpa [Request.connection?, Request.removal?, hr] using h
      · rw [hr] at h
        simpa [Request.connection?, Request.removal?, hr] using h.connect slot
    · simpa [Request.serve, Request.connection?, Request.removal?, hk] using h
  | disconnect k id =>
    by_cases hk : k = g
    · subst hk
      have hserve : (Request.serve rs (.disconnect k id))[k]? = (rs[k]?).map fun r => (r.disconnect id).2 := by
        simp [Request.serve]
      rw [hserve]
      rcases hr : rs[k]? with _ | r
      · simpa [Request.connection?, Request.removal?, hr] using h
      · rw [hr] at h
        simpa [Request.connection?, Request.removal?, hr] using h.disconnect id
    · simpa [Request.serve, Request.connection?, Request.removal?, hk] using h

end Kept

/-! ## Histories -/

namespace Config

variable {x c d : Config} {past : List Config} {g : SignalId}

/-- The slot that the next move connects to the signal `g`, with its number. -/
def connection? (g : SignalId) (c : Config) : Option (Nat × Slot) :=
  c.request?.bind fun q => q.connection? c.bench.rosters g

/-- The number of the slot that the next move takes out at the signal `g`. -/
def removal? (g : SignalId) (c : Config) : Option Nat := c.request?.bind fun q => q.removal? c.bench.rosters g

/-- Every move keeps the account of every signal. -/
theorem Move.kept (hs : WellFormed c) (h : Move .any c d) {made : List (Nat × Slot)} {gone : List Nat}
    (hk : Kept made gone c.bench.rosters[g]?) :
    Kept (made ++ (c.connection? g).toList) (gone ++ (c.removal? g).toList) d.bench.rosters[g]? := by
  rw [h.rosters hs, connection?, removal?]
  rcases c.request? with _ | q
  · simpa using hk
  · exact hk.serve q

theorem Course.kept (h : Course empty past c) (g : SignalId) :
    Kept (past.filterMap (connection? g)) (past.filterMap (removal? g)) c.bench.rosters[g]? := by
  induction h with
  | start => exact .empty rfl
  | move h hm ih =>
    rw [World.filterMap_snoc, World.filterMap_snoc]
    exact hm.kept (h.reachable .refl).wellFormed ih

/-- The rosters are those of the reference. -/
theorem Course.rosters (h : Course empty past c) :
    c.bench.rosters = (past.filterMap request?).foldl Request.serve [] := by
  induction h with
  | start => rfl
  | @move past c d h hm ih =>
    rw [World.filterMap_snoc, List.foldl_append, ← ih, hm.rosters (h.reachable .refl).wellFormed]
    cases c.request? <;> rfl

/-! ## Emissions under way -/

/-- The slots of a signal under their numbers. -/
def slotsOf (c : Config) (g : SignalId) : List (Nat × Slot) := ((c.bench.rosters[g]?).map Roster.slots).getD []

theorem WellFormed.slotsOf (hc : WellFormed c) (g : SignalId) :
    c.slotsOf g = (c.bench.placesOf (.signal g)).map Signal.entry := by
  have hplaces : c.bench.placesOf (.signal g) = ((c.bench.signal? g).map (·.places)).getD [] := rfl
  rw [hplaces, Config.slotsOf, Bench.getElem?_rosters]
  rcases hs : c.bench.signal? g with _ | s
  · rfl
  · exact Signal.slots_roster (hc.bench.tidy g s hs)

/-- What was connected when an emission began is connected still if the roster has it still. -/
theorem isConnected_iff_mem {b : Config} (hb : WellFormed b) (h : Moves .any b c) {q : Place Slot}
    (hq : q ∈ b.bench.placesOf (.signal g)) :
    c.bench.isConnected (.signal g) q.id = true ↔ Signal.entry q ∈ c.slotsOf g := by
  rw [(h.wellFormed hb).slotsOf, List.mem_map]
  constructor
  · intro hconn
    obtain ⟨s, hs, hm⟩ := (mem_placesOf _).1 hq
    obtain ⟨s', hs', hlater⟩ := h.later_source hb hs
    obtain ⟨s'', hs'', hhas⟩ := (isConnected_iff _).1 hconn
    obtain rfl : s'' = s' := Option.some.inj (hs''.symm.trans hs')
    obtain ⟨p, hp, hid⟩ := Signal.has_iff.1 hhas
    have hplace : p ∈ c.bench.placesOf (.signal g) := (mem_placesOf _).2 ⟨s'', hs', hp⟩
    -- What is new has another number.
    have hold : p ∈ b.bench.placesOf (.signal g) := by
      by_contra hnew
      exact id_ne_of_new hb h hq hplace hnew hid.symm
    have hsame : p = q := List.inj_on_of_nodup_map
      ((hb.increasing_placesOf (.signal g)).imp fun hlt => Nat.ne_of_lt hlt) hold hq hid
    exact ⟨p, hplace, congrArg Signal.entry hsame⟩
  · rintro ⟨p, hp, he⟩
    have hid : p.id = q.id := congrArg Prod.fst he
    rw [← hid]
    exact isConnected_of_mem _ hp

/-- A place has its turn only if it was connected when the emission began. -/
theorem Underway.mem_of_turn? {base : List Frame} {e : Emission} {b : Config} {q : Place Slot}
    (h : Underway base e b past c) (hq : c.turn? base.length = some q) : q ∈ e.snapshot := by
  obtain ⟨e', hfollows⟩ := h.follows
  obtain ⟨e'', he, hhead⟩ := Option.bind_eq_some_iff.1 hq
  obtain ⟨-, rfl⟩ := hfollows.frames_of_emitting? he
  rw [← hfollows.turns]
  exact List.mem_append_right _ (List.mem_of_mem_head? hhead)

/-! ## The account of a history -/

/-- What the history `past` says of the signals in `c`. -/
structure Recorded (past : List Config) (c : Config) : Prop where
  /-- They are what the reference makes of all that has been asked. -/
  rosters : c.bench.rosters = (past.filterMap request?).foldl Request.serve []
  /-- What is asked next is answered as the reference does, and changes nothing else of the wiring. -/
  reply : ∀ q, c.request? = some q → c.tick.focus = .ended (q.reply c.bench.rosters).result ∧
    c.tick.bench.world = { c.bench.world with log := (q.reply c.bench.rosters).entries ++ c.bench.world.log }
  /-- Numbers increase from one connection to the next. -/
  numbers : ∀ g, ((past.filterMap (connection? g)).map (·.1)).Pairwise (· < ·)
  /-- A number is taken out once at most, and what is taken out was connected under it. -/
  once : ∀ g, (past.filterMap (removal? g)).Nodup
  own : ∀ g, ∀ id ∈ past.filterMap (removal? g), id ∈ (past.filterMap (connection? g)).map (·.1)
  /-- There is what has been connected and not been taken out, in the order of connection. -/
  slots : ∀ g, c.slotsOf g =
    (past.filterMap (connection? g)).filter fun x => !(past.filterMap (removal? g)).contains x.1
  /-- An emission began with what was there, and calls of it at its turn what is there still. -/
  emission : ∀ base e b gone, Underway base e b gone c → ∀ g, e.source = .signal g →
    e.snapshot.map Signal.entry = b.slotsOf g ∧
    (∀ q ∈ e.snapshot, c.bench.isConnected e.source q.id = true ↔ Signal.entry q ∈ c.slotsOf g) ∧
    ∀ q, c.turn? base.length = some q → (c.served? base.length = some q ↔ Signal.entry q ∈ c.slotsOf g)

/-- So it is in every history. -/
theorem signals_recorded (h : Course empty past c) : Recorded past c where
  rosters := h.rosters
  reply q hq := by
    have htick : Move .any c c.tick := .tick fun step _ _ => step.action.within_any
    exact (htick.served (h.reachable .refl).wellFormed hq).2
  numbers g := (h.kept g).increasing
  once g := (h.kept g).once
  own g := (h.kept g).own
  slots g := (h.kept g).slots
  emission base e b gone hunderway g hsource := by
    obtain ⟨hb, -, -, hbegins⟩ := hunderway.begin
    have hsnapshot : e.snapshot = b.bench.placesOf (.signal g) := by
      rw [← hsource]
      exact hbegins.snapshot
    -- Whether a place has its turn is decided by the record at that time.
    have hconn : ∀ q ∈ e.snapshot, c.bench.isConnected e.source q.id = true ↔ Signal.entry q ∈ c.slotsOf g := by
      intro q hq
      rw [hsource]
      exact isConnected_iff_mem hb.wellFormed hunderway.moves (hsnapshot ▸ hq)
    refine ⟨?_, hconn, ?_⟩
    · rw [hsnapshot, hb.wellFormed.slotsOf]
    · intro q hq
      rw [hunderway.served?_iff hq]
      exact hconn q (hunderway.mem_of_turn? hq)

/-! ## A history that is written out -/

/-- What steps from outside go through one after another, each with so many ticks, and what they come to. -/
def through (ticks : Nat) : List (Step Action) → Config → List Config × Config
  | [], c => ([], c)
  | step :: steps, c =>
    match c.focus with
    | .finished _ =>
      let rest := through ticks steps (tick^[ticks] (c.next step))
      (c :: traced ticks (c.next step) ++ rest.1, rest.2)
    | _ => ([], c)

theorem Course.through (ticks : Nat) : ∀ (steps : List (Step Action)) {past : List Config} {c : Config},
    Course x past c → Course x (past ++ (c.through ticks steps).1) (c.through ticks steps).2
  | [], _, _, h => by simpa [Config.through] using h
  | step :: steps, past, c, h => by
    unfold Config.through
    split
    · rename_i r hf
      have hnext := ((h.move (.next hf step)).ticks ticks).through ticks steps
      simpa using hnext
    · simpa using h

/-- A slot is connected to a signal, and taken out with a token of the same number from another signal.
Then it is connected again. -/
def mistaken : List Config × Config :=
  empty.through 2 [⟨none, .newSignal (some "x") (some "many")⟩, ⟨none, .newSignal (some "y") (some "one")⟩,
    ⟨none, .newCallback (some "k") []⟩, ⟨none, .connect (some "x") (some "k") (some "m")⟩,
    ⟨none, .connect (some "y") (some "k") (some "n")⟩, ⟨none, .disconnect (some "x") (some "n")⟩,
    ⟨none, .connect (some "x") (some "k") (some "o")⟩]

/-- For instance the first token, which nobody has used yet, takes out nothing now. -/
theorem signals_recorded_mistaken :
    let late := mistaken.2.next ⟨none, .disconnect (some "x") (some "m")⟩
    Recorded (mistaken.1 ++ [mistaken.2]) late ∧
      late.request? = some (.disconnect 0 1) ∧ (Request.disconnect 0 1).reply late.bench.rosters = .unknown 1 ∧
      (mistaken.1 ++ [mistaken.2]).filterMap (connection? 0) = [(1, .callback 0), (2, .callback 0)] ∧
      (mistaken.1 ++ [mistaken.2]).filterMap (removal? 0) = [1] ∧
      late.tick.slotsOf 0 = [(2, .callback 0)] := by
  intro late
  have hcourse : Course empty ([] ++ mistaken.1) mistaken.2 := Course.start.through 2 _
  rw [List.nil_append] at hcourse
  have hlate : Course empty (mistaken.1 ++ [mistaken.2]) late := hcourse.move (.next (r := .connection 2) rfl _)
  exact ⟨signals_recorded hlate, by decide +kernel, by decide +kernel, by decide +kernel, by decide +kernel,
    by decide +kernel⟩

end Config

end Conduit.Scenario
