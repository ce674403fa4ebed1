/-
What a signal is to those who connect to it (`Roster`): a list of numbered slots, or one slot at most. New
slots come last, under the next number; to disconnect takes out the slot of a number and leaves the
others as they are; and a slot for one is refused while there is one, which costs no number. Well-formed
signals do as their rosters do.
-/
import Conduit.Proofs.Signal

namespace Conduit

/-- A signal as it is known from outside: the number that comes next, and the slots under their numbers. -/
inductive Roster (σ : Type)
  | many (next : Nat) (slots : List (Nat × σ))
  | one (next : Nat) (slot : Option (Nat × σ))
  deriving DecidableEq

namespace Roster

variable {σ : Type}

/-- The roster of a new signal. -/
def blank : Cardinality → Roster σ
  | .oneToMany => .many 1 []
  | .oneToOne => .one 1 none

def next : Roster σ → Nat
  | .many n _ => n
  | .one n _ => n

/-- The slots under their numbers, in the order of connection. -/
def slots : Roster σ → List (Nat × σ)
  | .many _ slots => slots
  | .one _ slot => slot.toList

/-- The number under which a slot is connected, if it is not refused, and the roster after that. -/
def connect (slot : σ) : Roster σ → Option Nat × Roster σ
  | .many n slots => (some n, .many (n + 1) (slots ++ [(n, slot)]))
  | .one n none => (some n, .one (n + 1) (some (n, slot)))
  | .one n (some x) => (none, .one n (some x))

/-- Whether a slot of this number was there, and the roster without it. -/
def disconnect (id : Nat) : Roster σ → Bool × Roster σ
  | .many n slots => (slots.any (·.1 == id), .many n (slots.filter (·.1 != id)))
  | .one n slot => (slot.any (·.1 == id), .one n (slot.filter (·.1 != id)))

@[simp] theorem slots_blank (cardinality : Cardinality) : (blank cardinality : Roster σ).slots = [] := by
  cases cardinality <;> rfl

/-- A slot is refused by a roster for one that has a slot, and else comes last. -/
theorem connect_cases (r : Roster σ) (slot : σ) :
    (∃ n x, r = .one n (some x) ∧ r.connect slot = (none, r)) ∨
      ((r.connect slot).1 = some r.next ∧ (r.connect slot).2.slots = r.slots ++ [(r.next, slot)] ∧
        (r.connect slot).2.next = r.next + 1) := by
  rcases r with ⟨n, l⟩ | ⟨n, _ | x⟩
  · exact .inr ⟨rfl, rfl, rfl⟩
  · exact .inr ⟨rfl, rfl, rfl⟩
  · exact .inl ⟨n, x, rfl, rfl⟩

@[simp] theorem next_disconnect (r : Roster σ) (id : Nat) : (r.disconnect id).2.next = r.next := by
  cases r <;> rfl

@[simp] theorem slots_disconnect (r : Roster σ) (id : Nat) :
    (r.disconnect id).2.slots = r.slots.filter (·.1 != id) := by
  rcases r with ⟨n, l⟩ | ⟨n, _ | x⟩
  · rfl
  · rfl
  · by_cases hx : x.1 = id
    · simp [disconnect, slots, hx]
    · simp [disconnect, slots, hx]

theorem disconnect_iff (r : Roster σ) (id : Nat) : (r.disconnect id).1 = true ↔ ∃ x ∈ r.slots, x.1 = id := by
  rcases r with ⟨n, l⟩ | ⟨n, _ | x⟩
  · simp [disconnect, slots]
  · simp [disconnect, slots]
  · simp [disconnect, slots]

end Roster

namespace Signal

variable {σ : Type} {s : Signal σ}

/-- The number and the slot of a place. -/
def entry (p : Place σ) : Nat × σ := (p.id, p.slot)

/-- The roster of a signal. -/
def roster (s : Signal σ) : Roster σ :=
  match s.cardinality with
  | .oneToMany => .many s.nextId (s.places.map entry)
  | .oneToOne => .one s.nextId (s.places.head?.map entry)

theorem roster_of_places_nil (h : s.places = []) (hnext : s.nextId = 1) : s.roster = .blank s.cardinality := by
  unfold roster
  cases s.cardinality <;> simp [Roster.blank, h, hnext]

theorem slots_roster (h : s.Tidy) : s.roster.slots = s.places.map entry := by
  unfold roster
  cases hc : s.cardinality with
  | oneToMany => rfl
  | oneToOne =>
    have hsingle := h.single hc
    rcases hp : s.places with _ | ⟨p, _ | ⟨q, more⟩⟩
    · rfl
    · rfl
    · simp [hp] at hsingle

/-- A signal is refused or connected as its roster is. -/
theorem roster_connect? (h : s.Tidy) (slot : σ) : (s.connect? slot).map (·.1) = (s.roster.connect slot).1 ∧
    ((s.connect? slot).elim s (·.2)).roster = (s.roster.connect slot).2 := by
  unfold connect? isFull roster
  cases hc : s.cardinality with
  | oneToMany => simp [Roster.connect, entry]
  | oneToOne =>
    have hsingle := h.single hc
    rcases hp : s.places with _ | ⟨p, more⟩
    · simp [Roster.connect, entry]
    · simp [Roster.connect, hc, hp]

theorem roster_disconnect (h : s.Tidy) (id : Nat) : s.has id = (s.roster.disconnect id).1 ∧
    (s.without id).roster = (s.roster.disconnect id).2 := by
  constructor
  · rw [Bool.eq_iff_iff, Roster.disconnect_iff, slots_roster h, has_iff]
    simp [entry]
  · have hplaces : (s.without id).places = s.places.filter (·.id != id) := places_without h
    unfold roster
    have hcard : (s.without id).cardinality = s.cardinality := rfl
    have hnext : (s.without id).nextId = s.nextId := rfl
    rw [hcard, hnext, hplaces]
    cases hc : s.cardinality with
    | oneToMany => simp [Roster.disconnect, entry, List.filter_map, Function.comp_def]
    | oneToOne =>
      -- A signal for one has one place at most, so the places are an option.
      have hsingle := h.single hc
      rcases hp : s.places with _ | ⟨p, _ | ⟨q, more⟩⟩
      · rfl
      · by_cases hid : p.id = id
        · simp [Roster.disconnect, Option.filter, entry, hid]
        · simp [Roster.disconnect, Option.filter, entry, hid]
      · simp [hp] at hsingle

end Signal

end Conduit
