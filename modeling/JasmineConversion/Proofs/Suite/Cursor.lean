import JasmineConversion.Proofs.Text.Position
import JasmineConversion.Suite.Reader

/-! # Steps of the cursor

A reader either succeeds, and then its steps have succeeded one after the other, or it fails. The
log is written but never read, so a success does not depend on it.
-/

namespace JasmineConversion.SuiteReader

open Text Source

variable {α β : Type} {source : Text} {cursor cursor' : Cursor}

@[simp] theorem bind_eq_ok_iff {reader : SuiteReader α} {next : α → SuiteReader β} {value : β} :
    (reader >>= next) cursor = .ok value cursor' ↔
      ∃ first between, reader cursor = .ok first between ∧ next first between = .ok value cursor' := by
  change EStateM.bind reader next cursor = _ ↔ _
  unfold EStateM.bind
  cases reader cursor with
  | ok first between => simp [and_assoc]
  | error error between => simp

/-- Behind a reader that has succeeded, only what follows it counts. -/
theorem bind_apply_of_ok {reader : SuiteReader α} {next : α → SuiteReader β} {value : α}
    (ran : reader cursor = .ok value cursor') : (reader >>= next) cursor = next value cursor' := by
  change EStateM.bind reader next cursor = _
  rw [EStateM.bind, ran]

/-- Two readers fail if the first does, or the second from where the first ends. -/
theorem bind_eq_error_iff {reader : SuiteReader α} {next : α → SuiteReader β} {error : SourceError} :
    (reader >>= next) cursor = .error error cursor' ↔ reader cursor = .error error cursor' ∨
      ∃ first between, reader cursor = .ok first between ∧ next first between = .error error cursor' := by
  change EStateM.bind reader next cursor = _ ↔ _
  unfold EStateM.bind
  cases reader cursor with
  | ok first between => simp [and_assoc]
  | error error between => simp

/-- A reader whose result has a property succeeds with this property. -/
theorem exists_eq_ok_of_any_run' {reader : SuiteReader α} {holds : α → Bool}
    (found : (reader.run' cursor).any holds = true) :
    ∃ value cursor', reader cursor = .ok value cursor' ∧ holds value = true := by
  delta EStateM.run' EStateM.run at found
  cases ran : reader cursor with
  | ok value cursor' =>
    rw [ran] at found
    exact ⟨value, cursor', rfl, found⟩
  | error error cursor' =>
    rw [ran] at found
    cases found

/-- Readers that agree at a cursor, and go on in the same way from wherever they stop, agree. -/
theorem bind_apply_congr {reader reader' : SuiteReader α} {next next' : α → SuiteReader β}
    (first : reader cursor = reader' cursor)
    (further : ∀ value between, reader cursor = .ok value between → next value between = next' value between) :
    (reader >>= next) cursor = (reader' >>= next') cursor := by
  change EStateM.bind reader next cursor = EStateM.bind reader' next' cursor
  unfold EStateM.bind
  rw [← first]
  cases ran : reader cursor with
  | ok value between => exact further value between ran
  | error error between => rfl

@[simp] theorem map_eq_ok_iff {reader : SuiteReader α} {change : α → β} {value : β} :
    (change <$> reader) cursor = .ok value cursor' ↔
      ∃ first, reader cursor = .ok first cursor' ∧ change first = value := by
  change EStateM.map change reader cursor = _ ↔ _
  unfold EStateM.map
  cases reader cursor with
  | ok first between =>
    constructor
    · intro ran
      obtain ⟨rfl, rfl⟩ := EStateM.Result.ok.inj ran
      exact ⟨first, rfl, rfl⟩
    · rintro ⟨_, ran, rfl⟩
      obtain ⟨rfl, rfl⟩ := EStateM.Result.ok.inj ran
      rfl
  | error error between => simp

@[simp] theorem pure_eq_ok_iff {value found : α} :
    (pure value : SuiteReader α) cursor = .ok found cursor' ↔ value = found ∧ cursor = cursor' := by
  change EStateM.Result.ok value cursor = _ ↔ _
  simp

@[simp] theorem position_eq_ok_iff {index : Nat} :
    position cursor = .ok index cursor' ↔ cursor.index = index ∧ cursor = cursor' := by
  change EStateM.Result.ok cursor.index cursor = _ ↔ _
  simp

@[simp] theorem moveTo_eq_ok_iff {index : Nat} {done : Unit} :
    moveTo index cursor = .ok done cursor' ↔ { cursor with index } = cursor' := by
  change EStateM.Result.ok () { cursor with index } = _ ↔ _
  simp

@[simp] theorem note_eq_ok_iff {message : String} {done : Unit} :
    note message cursor = .ok done cursor' ↔
      { cursor with log := cursor.log ++ [⟨.reading, .debug, message⟩] } = cursor' := by
  change EStateM.Result.ok () _ = _ ↔ _
  simp

@[simp] theorem ofExcept_eq_ok_iff {outcome : Except SourceError α} {value : α} :
    ofExcept outcome cursor = .ok value cursor' ↔ outcome = .ok value ∧ cursor = cursor' := by
  cases outcome with
  | ok found =>
    change EStateM.Result.ok found cursor = _ ↔ _
    simp
  | error error =>
    change EStateM.Result.error error cursor = _ ↔ _
    simp

/-- An outcome fails where it is. -/
theorem ofExcept_eq_error_iff {outcome : Except SourceError α} {error : SourceError} :
    ofExcept outcome cursor = .error error cursor' ↔ outcome = .error error ∧ cursor = cursor' := by
  cases outcome with
  | ok found =>
    change EStateM.Result.ok found cursor = _ ↔ _
    simp
  | error error =>
    change EStateM.Result.error error cursor = _ ↔ _
    simp

@[simp] theorem misplacedAt_ne_ok {what : Misplaced} {index : Nat} {value : α} :
    misplacedAt source what index cursor ≠ .ok value cursor' := by
  change EStateM.Result.error _ cursor ≠ _
  simp

@[simp] theorem misplaced_ne_ok {what : Misplaced} {value : α} :
    misplaced source what cursor ≠ .ok value cursor' := by
  simp [misplaced]

@[simp] theorem throw_ne_ok {error : SourceError} {value : α} :
    (throw error : SuiteReader α) cursor ≠ .ok value cursor' := by
  change EStateM.Result.error _ cursor ≠ _
  simp

@[simp] theorem skipGap_eq_ok_iff {done : Unit} :
    skipGap source cursor = .ok done cursor' ↔
      ∃ index, skip source cursor.index = .ok index ∧ { cursor with index } = cursor' := by
  simp [skipGap, and_assoc]

@[simp] theorem rest_eq_ok_iff {text : Text} :
    rest source cursor = .ok text cursor' ↔ source.drop cursor.index = text ∧ cursor = cursor' := by
  change EStateM.Result.ok (source.drop cursor.index) cursor = _ ↔ _
  simp

@[simp] theorem skipComma_eq_ok_iff {done : Unit} :
    skipComma source cursor = .ok done cursor' ↔
      { cursor with index :=
        if startsWith [','] (source.drop cursor.index) then cursor.index + 1 else cursor.index } =
        cursor' := by
  rw [skipComma, bind_eq_ok_iff]
  constructor
  · rintro ⟨text, between, found, ran⟩
    rw [rest_eq_ok_iff] at found
    obtain ⟨rfl, rfl⟩ := found
    split at ran
    · next comma => simpa [comma, and_assoc] using ran
    · next other => simpa [other] using ran
  · rintro rfl
    refine ⟨source.drop cursor.index, cursor, by simp, ?_⟩
    split
    · next comma => simp [and_assoc]
    · next other => simp

/-- The rest of a text from an index on starts at that index. -/
theorem indexOf_drop {source : Text} {index : Nat} (more : source.drop index ≠ []) :
    indexOf source (source.drop index) = index := by
  have positive := List.length_pos_iff.mpr more
  rw [List.length_drop] at positive
  rw [indexOf, List.length_drop]
  omega

/-- The index of what is left of a text is where it starts. -/
theorem indexOf_of_drop {front rest : Text} {start : Nat} (here : source.drop start = front ++ rest)
    (more : front ++ rest ≠ []) : indexOf source rest = start + front.length := by
  have positive := List.length_pos_iff.mpr more
  have lengths := congrArg List.length here
  rw [List.length_append] at positive
  rw [List.length_drop, List.length_append] at lengths
  rw [indexOf]
  omega

end JasmineConversion.SuiteReader
