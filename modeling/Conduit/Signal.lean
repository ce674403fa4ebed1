/-
Signals. A signal lists the places at which slots are connected, in the order of connection, and
numbers its places from 1 without ever using a number again. A one-to-one signal has at most one
place and refuses a second. An emission works on the list as it was at its beginning and asks, at
the turn of each place, whether that place is still there.
-/
namespace Conduit

/-- How many slots a signal takes at a time. -/
inductive Cardinality
  | oneToOne
  | oneToMany
  deriving DecidableEq, Repr

/-- The name of a cardinality. -/
def Cardinality.text : Cardinality → String
  | .oneToOne => "one-to-one"
  | .oneToMany => "one-to-many"

/-- A slot connected to a signal, under the number that its connection token shows. -/
structure Place (σ : Type) where
  id : Nat
  slot : σ
  deriving DecidableEq, Repr

/-- A signal with slots of type `σ`. -/
structure Signal (σ : Type) where
  cardinality : Cardinality
  places : List (Place σ) := []
  nextId : Nat := 1
  deriving DecidableEq, Repr

namespace Signal

variable {σ : Type}

/-- The number of connected slots. -/
def size (s : Signal σ) : Nat := s.places.length

/-- Whether a place of this number is connected. -/
def has (s : Signal σ) (id : Nat) : Bool := s.places.any (·.id == id)

/-- Whether the signal refuses another slot. -/
def isFull (s : Signal σ) : Bool := s.cardinality == .oneToOne && !s.places.isEmpty

/-- Connects a slot behind the others and gives the number of its place. A refusal changes
nothing and uses up no number. -/
def connect? (s : Signal σ) (slot : σ) : Option (Nat × Signal σ) :=
  if s.isFull then none
  else some (s.nextId, { s with places := s.places ++ [⟨s.nextId, slot⟩], nextId := s.nextId + 1 })

/-- Removes the place of this number, when there is one. -/
def disconnect? (s : Signal σ) (id : Nat) : Option (Signal σ) :=
  if s.has id then some { s with places := s.places.eraseP (·.id == id) } else none

theorem connect?_eq_none_iff {s : Signal σ} {slot : σ} :
    s.connect? slot = none ↔ s.cardinality = .oneToOne ∧ s.places ≠ [] := by
  simp [connect?, isFull]

theorem places_of_connect? {s t : Signal σ} {slot : σ} {id : Nat}
    (h : s.connect? slot = some (id, t)) :
    t.places = s.places ++ [⟨id, slot⟩] ∧ id = s.nextId ∧ t.nextId = s.nextId + 1 := by
  unfold connect? at h
  split at h
  · cases h
  · cases h; simp

theorem disconnect?_eq_none_iff {s : Signal σ} {id : Nat} :
    s.disconnect? id = none ↔ s.has id = false := by
  simp [disconnect?]

end Signal

end Conduit
