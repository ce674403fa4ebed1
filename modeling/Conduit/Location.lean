/-
Locations of files: names with slashes between them. Empty names, and the name that stays in place,
do not count, so several texts mean one location.
-/
namespace Conduit.Location

/-- The names between the slashes of a location. -/
def parts (location : String) : List String :=
  (location.splitOn "/").filter fun part => part ≠ "" ∧ part ≠ "."

/-- The plainest text of a location. -/
def plain (location : String) : String := "/".intercalate (parts location)

end Conduit.Location
