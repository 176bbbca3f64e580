/-! # Outcomes of operations

An outcome is a success, a warning or an error. A success carries no error, and an error carries
no data.
-/

namespace JasmineConversion

/-- How an operation ended. -/
inductive Status where
  | success
  | warning
  | error
  deriving DecidableEq

namespace Status

/-- The name of a status. -/
def name : Status → String
  | success => "success"
  | warning => "warning"
  | error => "error"

/-- The status with a name. -/
def ofName? : String → Option Status
  | "success" => some success
  | "warning" => some warning
  | "error" => some error
  | _ => none

end Status

/-- The outcome of an operation: its data or its error, warnings, and further facts about it. -/
structure Outcome (ε α μ : Type) where
  status : Status
  data : Option α
  error : Option ε
  warnings : List String
  metadata : μ

namespace Outcome

variable {ε α μ : Type}

/-- The outcome of an operation that succeeded. -/
def success (data : α) (metadata : μ) : Outcome ε α μ :=
  ⟨.success, some data, none, [], metadata⟩

/-- The outcome of an operation that succeeded with warnings. -/
def warning (data : α) (warnings : List String) (metadata : μ) : Outcome ε α μ :=
  ⟨.warning, some data, none, warnings, metadata⟩

/-- The outcome of an operation that failed. -/
def failure (error : ε) (metadata : μ) : Outcome ε α μ :=
  ⟨.error, none, some error, [], metadata⟩

/-- An outcome made of parts, which have to fit its status. -/
def make (status : Status) (data : Option α) (error : Option ε) (warnings : List String)
    (metadata : μ) : Except String (Outcome ε α μ) :=
  if status = .success && error.isSome then .error "Success results cannot have errors"
  else if status = .error && data.isSome then .error "Error results cannot have data"
  else .ok ⟨status, data, error, warnings, metadata⟩

/-- The data of an outcome, or its error, which may be unknown. -/
def unwrap (outcome : Outcome ε α μ) : Except (Option ε) (Option α) :=
  if outcome.status = .error then .error outcome.error else .ok outcome.data

/-- The wording for an error that is unknown. -/
def unknownError : String := "Result contains error"

end Outcome

end JasmineConversion
