/-! # Outcomes

A computation that may fail gives a value exactly when all its steps do. A computation that keeps
its failures in a state succeeds when the state is clean at its end, and then it was clean all along.
-/

namespace JasmineConversion

variable {ε ε' α β : Type}

theorem exceptBind_eq_ok_iff {outcome : Except ε α} {next : α → Except ε β} {value : β} :
    (outcome >>= next) = .ok value ↔ ∃ first, outcome = .ok first ∧ next first = .ok value := by
  cases outcome <;> simp [bind, Except.bind]

/-- Two steps fail if the first does, or the second with the value of the first. -/
theorem exceptBind_eq_error_iff {outcome : Except ε α} {next : α → Except ε β} {error : ε} :
    (outcome >>= next) = .error error ↔
      outcome = .error error ∨ ∃ first, outcome = .ok first ∧ next first = .error error := by
  cases outcome <;> simp [bind, Except.bind]

theorem exceptPure_eq_ok_iff {value found : α} :
    (pure value : Except ε α) = .ok found ↔ value = found := by
  simp [pure, Except.pure]

theorem mapError_ok (value : α) (change : ε → ε') :
    (.ok value : Except ε α).mapError change = .ok value :=
  rfl

theorem mapError_error (error : ε) (change : ε → ε') :
    (.error error : Except ε α).mapError change = .error (change error) :=
  rfl

/-- Changing errors changes no success. -/
theorem mapError_eq_ok_iff {outcome : Except ε α} {change : ε → ε'} {value : α} :
    outcome.mapError change = .ok value ↔ outcome = .ok value := by
  cases outcome with
  | ok found => constructor <;> intro same <;> cases same <;> rfl
  | error error => constructor <;> intro same <;> cases same

/-- A changed error comes from an error. -/
theorem mapError_eq_error_iff {outcome : Except ε α} {change : ε → ε'} {error : ε'} :
    outcome.mapError change = .error error ↔ ∃ found, outcome = .error found ∧ change found = error := by
  cases outcome with
  | ok value =>
    constructor
    · intro same
      cases same
    · rintro ⟨found, same, -⟩
      cases same
  | error found =>
    constructor
    · intro same
      cases same
      exact ⟨found, rfl, rfl⟩
    · rintro ⟨found', same, rfl⟩
      cases same
      rfl

/-- Second steps that agree on what the first gives can be exchanged. -/
theorem exceptBind_congr {outcome : Except ε α} {next next' : α → Except ε β}
    (same : ∀ value, outcome = .ok value → next value = next' value) :
    (outcome >>= next) = (outcome >>= next') := by
  cases outcome with
  | error error => rfl
  | ok value => exact same value rfl

/-- Steps that agree on the values of a list can be exchanged. -/
theorem exceptMapM_congr {step step' : α → Except ε β} {values : List α}
    (same : ∀ value ∈ values, step value = step' value) : values.mapM step = values.mapM step' := by
  induction values with
  | nil => rfl
  | cons value values ih =>
    obtain ⟨here, further⟩ := List.forall_mem_cons.mp same
    rw [List.mapM_cons, List.mapM_cons, here, ih further]

/-- A step that fails for one of some values fails for the first one that has no result. -/
theorem exists_split_of_exceptMapM_eq_error {step : α → Except ε β} {values : List α} {error : ε}
    (ran : values.mapM step = .error error) :
    ∃ front value back, values = front ++ value :: back ∧ (∀ earlier ∈ front, ∃ found, step earlier = .ok found) ∧
      step value = .error error := by
  induction values with
  | nil => cases ran
  | cons value values ih =>
    rw [List.mapM_cons] at ran
    rcases exceptBind_eq_error_iff.mp ran with here | ⟨first, begun, ran⟩
    · exact ⟨[], value, values, rfl, by simp, here⟩
    · rcases exceptBind_eq_error_iff.mp ran with further | ⟨others, -, ended⟩
      · obtain ⟨front, other, back, rfl, earlier, fails⟩ := ih further
        exact ⟨value :: front, other, back, rfl, List.forall_mem_cons.mpr ⟨⟨first, begun⟩, earlier⟩, fails⟩
      · cases ended

/-- A list of steps fails as one of them does. -/
theorem exists_of_exceptMapM_eq_error {step : α → Except ε β} {values : List α} {error : ε}
    (ran : values.mapM step = .error error) : ∃ value ∈ values, step value = .error error := by
  obtain ⟨front, value, back, rfl, -, fails⟩ := exists_split_of_exceptMapM_eq_error ran
  exact ⟨value, by simp, fails⟩

/-- If a list of steps succeeds, each of them does. -/
theorem exists_of_exceptMapM_eq_ok {step : α → Except ε β} {values : List α} {results : List β}
    (ran : values.mapM step = .ok results) : ∀ value ∈ values, ∃ result, step value = .ok result := by
  induction values generalizing results with
  | nil => simp
  | cons value values ih =>
    rw [List.mapM_cons] at ran
    obtain ⟨first, here, ran⟩ := exceptBind_eq_ok_iff.mp ran
    obtain ⟨others, further, -⟩ := exceptBind_eq_ok_iff.mp ran
    exact List.forall_mem_cons.mpr ⟨⟨first, here⟩, ih further⟩

/-- Steps one after the other fail at the first one that fails. -/
theorem exists_split_of_exceptFoldlM_eq_error {step : β → α → Except ε β} {values : List α} {made : β} {error : ε}
    (ran : values.foldlM step made = .error error) :
    ∃ front value back reached, values = front ++ value :: back ∧ front.foldlM step made = .ok reached ∧
      step reached value = .error error := by
  induction values generalizing made with
  | nil => cases ran
  | cons value values ih =>
    rw [List.foldlM_cons] at ran
    rcases exceptBind_eq_error_iff.mp ran with here | ⟨next, begun, ran⟩
    · exact ⟨[], value, values, made, rfl, rfl, here⟩
    · obtain ⟨front, other, back, reached, rfl, earlier, fails⟩ := ih ran
      refine ⟨value :: front, other, back, reached, rfl, ?_, fails⟩
      rw [List.foldlM_cons, begun]
      exact earlier

/-- Steps that agree on the values of a list can be exchanged in a fold. -/
theorem exceptFoldlM_congr {step step' : β → α → Except ε β} {values : List α}
    (same : ∀ made, ∀ value ∈ values, step made value = step' made value) (made : β) :
    values.foldlM step made = values.foldlM step' made := by
  induction values generalizing made with
  | nil => rfl
  | cons value values ih =>
    rw [List.foldlM_cons, List.foldlM_cons, same made value List.mem_cons_self]
    refine exceptBind_congr fun next _ => ih ?_ next
    exact fun made value member => same made value (List.mem_cons_of_mem _ member)

/-- What each step keeps is kept by all of them. -/
theorem exceptFoldlM_keeps {step : β → α → Except ε β} {holds : β → Prop}
    (keeps : ∀ made value next, holds made → step made value = .ok next → holds next) {values : List α}
    {made result : β} (here : holds made) (ran : values.foldlM step made = .ok result) : holds result := by
  induction values generalizing made with
  | nil =>
    cases ran
    exact here
  | cons value values ih =>
    rw [List.foldlM_cons] at ran
    obtain ⟨next, first, ran⟩ := exceptBind_eq_ok_iff.mp ran
    exact ih (keeps made value next here first) ran

theorem join_toOption_eq_some_iff {outcome : Except ε (Option α)} {value : α} :
    outcome.toOption.join = some value ↔ outcome = .ok (some value) := by
  rcases outcome with error | - | found <;> simp [Except.toOption]

/-- The values that a step gives are those that it gives for each value, if it gives one. -/
theorem eq_filterMap_of_filterMapM {step : α → Except ε (Option β)} {values : List α}
    {results : List β} (ran : values.filterMapM step = .ok results) :
    results = values.filterMap fun value => (step value).toOption.join := by
  induction values generalizing results with
  | nil =>
    cases ran
    rfl
  | cons value values ih =>
    rw [List.filterMapM_cons] at ran
    obtain ⟨found, here, ran⟩ := exceptBind_eq_ok_iff.mp ran
    rw [List.filterMap_cons, here]
    cases found with
    | none => exact ih ran
    | some result =>
      obtain ⟨results, further, ran⟩ := exceptBind_eq_ok_iff.mp ran
      cases ran
      rw [ih further]
      rfl

/-- An outcome whose value has a property is a success with this property. -/
theorem exists_eq_ok_of_any {outcome : Except ε α} {holds : α → Bool}
    (found : outcome.toOption.any holds = true) : ∃ value, outcome = .ok value ∧ holds value = true := by
  cases outcome with
  | error error => cases found
  | ok value => exact ⟨value, rfl, found⟩

/-- The failure of a computation that has no value. -/
def failure? : Except ε α → Option ε
  | .ok _ => none
  | .error error => some error

/-- An outcome whose failure has a property is a failure with this property. -/
theorem exists_eq_error_of_any {outcome : Except ε α} {holds : ε → Bool}
    (found : (failure? outcome).any holds = true) :
    ∃ error, outcome = .error error ∧ holds error = true := by
  cases outcome with
  | ok value => cases found
  | error error => exact ⟨error, rfl, found⟩

theorem run_eq_apply {σ : Type} (step : StateM σ α) (state : σ) : step.run state = step state :=
  rfl

/-- A step that leaves a clean state found a clean one, and its value holds. -/
def Delivers {σ : Type} (clean : σ → Prop) (step : StateM σ α) (holds : α → Prop) : Prop :=
  ∀ state, clean (step state).2 → clean state ∧ holds (step state).1

namespace Delivers

variable {σ : Type} {clean : σ → Prop} {holds : α → Prop}

theorem pure {value : α} (here : holds value) : Delivers clean (Pure.pure value) holds :=
  fun _ ended => ⟨ended, here⟩

/-- What follows a step may rely on what the step delivers. -/
theorem bind {step : StateM σ α} {next : α → StateM σ β} {holds' : β → Prop}
    (first : Delivers clean step holds)
    (second : ∀ value, Delivers clean (next value) fun result => holds value → holds' result) :
    Delivers clean (step >>= next) holds' := by
  intro state ended
  obtain ⟨between, relies⟩ := second (step state).1 (step state).2 ended
  obtain ⟨began, here⟩ := first state between
  exact ⟨began, relies here⟩

/-- A changed value delivers what follows from the value. -/
theorem map {step : StateM σ α} {change : α → β} {holds' : β → Prop} (first : Delivers clean step holds)
    (implies : ∀ value, holds value → holds' (change value)) :
    Delivers clean (change <$> step) holds' := by
  intro state ended
  obtain ⟨began, here⟩ := first state ended
  exact ⟨began, implies _ here⟩

/-- Steps for the values of a list deliver the changed list. -/
theorem mapM {step : α → StateM σ α} {change : α → α} {fits : α → Prop}
    (each : ∀ value, Delivers clean (step value) fun result => result = change value ∧ fits value)
    (values : List α) :
    Delivers clean (values.mapM step) fun results =>
      results = values.map change ∧ ∀ value ∈ values, fits value := by
  induction values with
  | nil => exact pure ⟨rfl, by simp⟩
  | cons value values ih =>
    rw [List.mapM_cons]
    refine (each value).bind fun first => ih.bind fun others => pure ?_
    rintro ⟨rfl, rest⟩ ⟨rfl, here⟩
    exact ⟨rfl, List.forall_mem_cons.mpr ⟨here, rest⟩⟩

end Delivers

end JasmineConversion
