import Mathlib.Data.List.Basic

/-! Writing into a buffer, and moving a part of it to make room or to close a gap.
A buffer is a list of a fixed length of which the first entries are in use.
-/

namespace Zephyr.Library

variable {α : Type*} {data first gone rest entries : List α} {used offset : Nat}

/-- Writes entries from an offset on. -/
def overwrite (data : List α) (offset : Nat) (entries : List α) : List α :=
  data.take offset ++ entries ++ data.drop (offset + entries.length)

/-- Writes what was from one offset on from another one on. -/
def moveEntries (data : List α) (target source count : Nat) : List α :=
  overwrite data target ((data.drop source).take count)

end Zephyr.Library
