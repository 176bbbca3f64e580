import JasmineConversion.Proofs.Entries
import JasmineConversion.Proofs.Literal.Reports
import JasmineConversion.Suite.Reader

/-! # What directives say about a name

The literal that directives are written as holds each of its keys once. A name is to be ignored if and
only if it is a key of the object under `ignore`, and must throw a message if and only if the object
under `error` has this message under it. Nothing else than equal names counts.
-/

namespace JasmineConversion

open Text

namespace Literal

/-- A literal in which no object has a key twice. What arrays hold does not count. -/
inductive Distinct : Literal → Prop
  | object {entries : List (Text × Literal)} (keys : (entries.map Prod.fst).Nodup)
      (values : ∀ entry ∈ entries, Distinct entry.2) : Distinct (.object entries)
  | other {literal : Literal} (noObject : ∀ entries, literal ≠ .object entries) : Distinct literal

/-- Entries of an object with no key twice, in them or in their values. -/
def DistinctEntries (entries : List (Text × Literal)) : Prop :=
  (entries.map Prod.fst).Nodup ∧ ∀ entry ∈ entries, entry.2.Distinct

/-- No word is an object. -/
theorem ofWord?_ne_object {word : Text} {value : Literal} (found : ofWord? word = some value)
    (entries : List (Text × Literal)) : value ≠ .object entries := by
  rintro rfl
  unfold ofWord? at found
  split at found
  · cases found
  · split at found
    · cases found
    · split at found
      · cases found
      · obtain ⟨numeral, -, isObject⟩ := Option.map_eq_some_iff.mp found
        simp only [ofNumeral] at isObject
        repeat' split at isObject
        all_goals cases isObject

/-- Reading puts the values of an object under their keys one after the other, so a key that comes
again takes the place of the former one. -/
theorem distinct_of_readFrom {whole source : Text} {depth offset : Nat} {literal : Literal}
    (ran : readFrom whole depth source offset = .ok literal) : literal.Distinct := by
  induction depth generalizing source offset literal with
  | zero => cases ran
  | succ depth ih =>
    rw [readFrom] at ran
    dsimp only at ran
    split at ran
    · cases ran
    · split at ran
      · obtain ⟨close, -, ran⟩ := exceptBind_eq_ok_iff.mp ran
        split at ran
        · cases ran
        · obtain ⟨items, -, ran⟩ := exceptBind_eq_ok_iff.mp ran
          split at ran
          · obtain ⟨values, -, ran⟩ := exceptBind_eq_ok_iff.mp ran
            cases ran
            exact .other fun entries same => by cases same
          · obtain ⟨entries, collected, ran⟩ := exceptBind_eq_ok_iff.mp ran
            cases ran
            have kept : DistinctEntries entries := by
              have start : DistinctEntries [] := ⟨List.nodup_nil, by simp⟩
              refine exceptFoldlM_keeps (fun made item next holds put => ?_) start collected
              obtain ⟨keys, values⟩ := holds
              obtain ⟨⟨key, text⟩, -, put⟩ := exceptBind_eq_ok_iff.mp put
              obtain ⟨value, read, put⟩ := exceptBind_eq_ok_iff.mp put
              cases put
              refine ⟨Entries.nodup_put keys, fun entry member => ?_⟩
              rcases Entries.mem_of_mem_put member with rfl | member
              · exact ih read
              · exact values entry member
            exact .object kept.1 kept.2
      · split at ran
        · obtain ⟨close, -, ran⟩ := exceptBind_eq_ok_iff.mp ran
          split at ran <;> cases ran
          exact .other fun entries same => by cases same
        · split at ran
          · next value found =>
            cases ran
            exact .other (ofWord?_ne_object found)
          · cases ran

/-- The keys of a literal that is read are distinct. -/
theorem distinct_of_read {text : Text} {literal : Literal} (ran : read text = .ok literal) :
    literal.Distinct := by
  obtain ⟨plain, -, ran⟩ := exceptBind_eq_ok_iff.mp ran
  exact distinct_of_readFrom ran

/-- The literal that directives are written as has a name among the tests to ignore. -/
def Ignores (literal : Literal) (name : Text) : Prop :=
  ∃ entries, ("ignore".toList, .object entries) ∈ SuiteReader.entriesOf literal ∧
    name ∈ entries.map Prod.fst

/-- The literal that directives are written as has a message under a name among the errors. -/
def Expects (literal : Literal) (name message : Text) : Prop :=
  ∃ entries, ("error".toList, .object entries) ∈ SuiteReader.entriesOf literal ∧
    (name, .string message) ∈ entries

end Literal

namespace SuiteReader

variable {should should' : Should} {entries : List (Text × Literal)} {name : Text}

/-- A test is ignored once it is named, and others are as before. -/
theorem isIgnored_ignore (should : Should) (test name : Text) :
    (should.ignore test).isIgnored name = true ↔ name = test ∨ should.isIgnored name = true := by
  unfold Should.ignore
  split
  · next already =>
    refine ⟨.inr, ?_⟩
    rintro (rfl | ignored)
    · exact already
    · exact ignored
  · simp [Should.isIgnored, or_comm]

theorem errors_ignore (should : Should) (test : Text) : (should.ignore test).errors = should.errors := by
  unfold Should.ignore
  split <;> rfl

/-- Tests are ignored once they are named in a list. -/
theorem isIgnored_foldl_ignore (should : Should) (entries : List (Text × Literal)) (name : Text) :
    (entries.foldl (fun should entry => should.ignore entry.1) should).isIgnored name = true ↔
      name ∈ entries.map Prod.fst ∨ should.isIgnored name = true := by
  induction entries generalizing should with
  | nil => simp
  | cons entry entries ih =>
    rw [List.foldl_cons, ih, isIgnored_ignore, List.map_cons, List.mem_cons]
    rw [or_assoc, or_left_comm]

/-- Ignoring tests expects no errors. -/
theorem errors_foldl_ignore (should : Should) (entries : List (Text × Literal)) :
    (entries.foldl (fun should entry => should.ignore entry.1) should).errors = should.errors := by
  induction entries generalizing should with
  | nil => rfl
  | cons entry entries ih => rw [List.foldl_cons, ih, errors_ignore]

/-- An error is expected of the test that is named, and others are as before. -/
theorem expectedError_expectError (should : Should) (test message name : Text) :
    (should.expectError test message).expectedError name =
      if test = name then some message else should.expectedError name :=
  Entries.get?_put name test message should.errors

/-- The messages of an object that has no key twice. -/
theorem expectedError_of_expectErrors (ran : expectErrors should entries = .ok should')
    (distinct : (entries.map Prod.fst).Nodup) (name message : Text) :
    should'.expectedError name = some message ↔
      (name, .string message) ∈ entries ∨
        name ∉ entries.map Prod.fst ∧ should.expectedError name = some message := by
  induction entries generalizing should with
  | nil =>
    cases ran
    simp
  | cons entry entries ih =>
    obtain ⟨test, literal⟩ := entry
    rw [List.map_cons, List.nodup_cons] at distinct
    cases literal with
    | string found =>
      rw [expectErrors] at ran
      rw [ih ran distinct.2, expectedError_expectError]
      by_cases same : test = name
      · subst same
        have absent : ∀ value, (test, value) ∉ entries := fun value member =>
          distinct.1 (List.mem_map.mpr ⟨_, member, rfl⟩)
        simp [absent, distinct.1, eq_comm]
      · simp [same, Ne.symm same]
    | _ => cases ran

/-- Expecting errors ignores no test. -/
theorem ignored_of_expectErrors (ran : expectErrors should entries = .ok should') :
    should'.ignored = should.ignored := by
  induction entries generalizing should with
  | nil =>
    cases ran
    rfl
  | cons entry entries ih =>
    obtain ⟨test, literal⟩ := entry
    cases literal with
    | string found =>
      rw [expectErrors] at ran
      rw [ih ran]
      rfl
    | _ => cases ran

/-- An entry of directives gives tests to ignore or messages, and then the others are read. -/
theorem directives_cons {key : Text} {value : Literal} {rest : List (Text × Literal)}
    (ran : directives should ((key, value) :: rest) = .ok should') :
    (∃ inner, key = "ignore".toList ∧ value = .object inner ∧
      directives (inner.foldl (fun should entry => should.ignore entry.1) should) rest = .ok should') ∨
    ∃ inner next, key = "error".toList ∧ value = .object inner ∧
      expectErrors should inner = .ok next ∧ directives next rest = .ok should' := by
  cases value with
  | object inner =>
    rw [directives] at ran
    split at ran
    · cases ran
    · next known =>
      split at ran
      · next isIgnore => exact .inl ⟨inner, isIgnore, rfl, ran⟩
      · next other =>
        obtain ⟨next, collected, ran⟩ := exceptBind_eq_ok_iff.mp ran
        have isError : key = "error".toList := Decidable.byContradiction fun noError => known ⟨other, noError⟩
        exact .inr ⟨inner, next, isError, rfl, collected, ran⟩
  | _ =>
    simp only [directives] at ran
    split at ran <;> cases ran

/-- Directives ignore the tests that their first object names. -/
theorem isIgnored_of_directives (ran : directives should entries = .ok should') (name : Text) :
    should'.isIgnored name = true ↔
      should.isIgnored name = true ∨ ∃ inner, ("ignore".toList, .object inner) ∈ entries ∧
        name ∈ inner.map Prod.fst := by
  induction entries generalizing should with
  | nil =>
    cases ran
    simp
  | cons entry entries ih =>
    obtain ⟨key, value⟩ := entry
    rcases directives_cons ran with ⟨inner, rfl, rfl, ran⟩ | ⟨inner, next, rfl, rfl, collected, ran⟩
    · rw [ih ran, isIgnored_foldl_ignore]
      simp only [List.mem_cons, Prod.mk.injEq, Literal.object.injEq, true_and, or_and_right, exists_or,
        exists_eq_left, or_assoc]
      rw [or_left_comm]
    · have same : next.isIgnored name = should.isIgnored name := by
        rw [Should.isIgnored, ignored_of_expectErrors collected]
        rfl
      rw [ih ran, same]
      simp

/-- Directives without errors expect none. -/
theorem errors_of_directives (ran : directives should entries = .ok should')
    (absent : "error".toList ∉ entries.map Prod.fst) : should'.errors = should.errors := by
  induction entries generalizing should with
  | nil =>
    cases ran
    rfl
  | cons entry entries ih =>
    obtain ⟨key, value⟩ := entry
    rw [List.map_cons, List.mem_cons, not_or] at absent
    rcases directives_cons ran with ⟨inner, rfl, rfl, ran⟩ | ⟨_, _, isError, -⟩
    · rw [ih ran absent.2, errors_foldl_ignore]
    · exact absurd isError.symm absent.1

/-- Without errors none is expected. -/
theorem expectedError_of_errors_eq_nil (noErrors : should.errors = []) (name : Text) :
    should.expectedError name = none := by
  rw [Should.expectedError, noErrors]
  rfl

/-- Directives come from a literal that holds `error` at most once, and each name in it. -/
theorem expectedError_of_directives (ran : directives should entries = .ok should')
    (distinct : (entries.map Prod.fst).Nodup) (values : ∀ entry ∈ entries, entry.2.Distinct)
    (noErrors : should.errors = []) (name message : Text) :
    should'.expectedError name = some message ↔
      ∃ inner, ("error".toList, .object inner) ∈ entries ∧ (name, .string message) ∈ inner := by
  induction entries generalizing should with
  | nil =>
    cases ran
    simp [expectedError_of_errors_eq_nil noErrors]
  | cons entry entries ih =>
    obtain ⟨key, value⟩ := entry
    rw [List.map_cons, List.nodup_cons] at distinct
    obtain ⟨here, further⟩ := List.forall_mem_cons.mp values
    rcases directives_cons ran with ⟨inner, rfl, rfl, ran⟩ | ⟨inner, next, rfl, rfl, collected, ran⟩
    · have kept := errors_foldl_ignore should inner
      rw [ih ran distinct.2 further (kept.trans noErrors)]
      simp
    · have keys : (inner.map Prod.fst).Nodup := by
        cases here with
        | object keys _ => exact keys
        | other noObject => exact absurd rfl (noObject inner)
      have last : should'.expectedError name = next.expectedError name := by
        rw [Should.expectedError, errors_of_directives ran distinct.1]
        rfl
      have absent : ∀ value, ("error".toList, value) ∉ entries := fun value member =>
        distinct.1 (List.mem_map.mpr ⟨_, member, rfl⟩)
      rw [last, expectedError_of_expectErrors collected keys, expectedError_of_errors_eq_nil noErrors]
      simp only [List.mem_cons, Prod.mk.injEq, Literal.object.injEq, true_and, absent]
      simp

/-- Directives say about a name what the literal says that they are read from. -/
theorem directives_of_read {text : Text} {literal : Literal} (read : Literal.read text = .ok literal)
    (ran : directives {} (entriesOf literal) = .ok should) (name : Text) :
    (should.isIgnored name = true ↔ literal.Ignores name) ∧
      ∀ message, should.expectedError name = some message ↔ literal.Expects name message := by
  have distinct : Literal.DistinctEntries (entriesOf literal) := by
    cases Literal.distinct_of_read read with
    | object keys values => exact ⟨keys, values⟩
    | other noObject =>
      cases literal with
      | object entries => exact absurd rfl (noObject entries)
      | _ => exact ⟨List.nodup_nil, nofun⟩
  refine ⟨?_, fun message => expectedError_of_directives ran distinct.1 distinct.2 rfl name message⟩
  rw [isIgnored_of_directives ran]
  simp [Should.isIgnored, Literal.Ignores]

end SuiteReader

end JasmineConversion
