/-! # Entries under keys

Values are kept under keys in the order in which the keys came first.
-/

namespace JasmineConversion

/-- Values under keys, in order. -/
abbrev Entries (κ α : Type) := List (κ × α)

namespace Entries

variable {κ α : Type} [DecidableEq κ]

/-- Entries with a value set under a key. A key that is there keeps its place. -/
def put (key : κ) (value : α) : Entries κ α → Entries κ α
  | [] => [(key, value)]
  | (other, old) :: rest =>
    if other = key then (key, value) :: rest else (other, old) :: put key value rest

/-- The value under a key. -/
def get? (key : κ) (entries : Entries κ α) : Option α :=
  (entries.find? fun entry => entry.1 = key).map (·.2)

end Entries

end JasmineConversion
