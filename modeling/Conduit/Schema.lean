/-
Schemas: what fields a record has, of what kind each is, and how a value read for it is put into
the record. One schema serves every way of reading; how strict a way is lies with the reader.
-/
namespace Conduit

/-- A field of a record of type `σ`, by its kind. -/
inductive Field (σ : Type)
  | text (put : String → σ → σ)
  | truth (put : Bool → σ → σ)
  /-- An integer of 64 bits that is not negative. -/
  | count (put : Nat → σ → σ)
  /-- A path, which may be missing. -/
  | path (put : Option String → σ → σ)
  /-- One of several words; the kind has a name. -/
  | choice (kind : String) (options : List (String × (σ → σ)))
  /-- A record within the record, with a name for its kind. -/
  | record (kind : String) (fields : List (String × Field σ))

namespace Field

variable {σ τ : Type}

/-- The field of a name. -/
def find? (fields : List (String × Field σ)) (name : String) : Option (Field σ) :=
  (List.find? (·.1 = name) fields).map (·.2)

/-- What the option of a name does. -/
def option? (options : List (String × (σ → σ))) (name : String) : Option (σ → σ) :=
  (options.find? (·.1 = name)).map (·.2)

end Field

end Conduit
