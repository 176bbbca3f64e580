import JasmineConversion.Proofs.Literal.Reading
import JasmineConversion.Proofs.Suite.MemberReading

/-! # Directives as they are written

Directives are an object with up to two blocks: the tests to ignore, and the tests that must throw
with their messages. Whatever is written so is read back.
-/

namespace JasmineConversion

open Text Source Pattern JasmineConversion.Bracket

/-- What directives hold under the name of a test: `true`, or a message. -/
inductive LeafText : Text → Literal → Prop
  | yes : LeafText "true".toList (.boolean true)
  | string {quote : Char} {content : Text} (isQuote : Mode.isQuote quote = true)
      (holds : LiteralContent quote content) : LeafText (quote :: content ++ [quote]) (.string content)

/-- What directives hold for one purpose. -/
inductive BlockText : Text → Literal → Prop
  | intro {inner : Text} {entries : List (Text × Literal)} (written : EntriesText Gap LeafText inner entries) :
      BlockText ('{' :: inner ++ ['}']) (.object entries)

namespace Should

/-- The tests to ignore, as an entry of the directives. -/
def ignoreBlock (should : Should) : Text × Literal :=
  ("ignore".toList, .object (should.ignored.map fun test => (test, .boolean true)))

/-- The messages that tests must throw, as an entry of the directives. -/
def errorBlock (should : Should) : Text × Literal :=
  ("error".toList, .object (should.errors.map fun error => (error.1, .string error.2)))

/-- The entries of directives: in any order, and left out or not when there is nothing in them. -/
inductive Blocks (should : Should) : List (Text × Literal) → Prop
  | ignoreFirst : Blocks should [should.ignoreBlock, should.errorBlock]
  | errorFirst : Blocks should [should.errorBlock, should.ignoreBlock]
  | ignoreOnly (noErrors : should.errors = []) : Blocks should [should.ignoreBlock]
  | errorOnly (noneIgnored : should.ignored = []) : Blocks should [should.errorBlock]
  | nothing (noneIgnored : should.ignored = []) (noErrors : should.errors = []) : Blocks should []

end Should

/-- Directives between their braces. -/
def DirectivesText (raw : Text) (should : Should) : Prop :=
  ∃ blocks, should.Blocks blocks ∧ EntriesText Gap BlockText raw blocks

variable {bracket : Bracket} {text : Text}

/-- A leaf holds no comment, denotes its value and leaves the nesting as it was. -/
theorem LeafText.denotes {literal : Literal} (written : LeafText text literal) :
    Strips text text ∧ Denotes text literal ∧ ∀ bracket : Bracket, bracket.Passes text := by
  cases written with
  | yes =>
    refine ⟨.plain (by decide), denotes_true, fun bracket => passes_of_plain ?_⟩
    cases bracket <;> decide
  | string isQuote holds =>
    exact ⟨.quoted isQuote holds, denotes_string isQuote holds, fun _ => passes_quoted isQuote holds⟩

/-- A block denotes its value when its comments are stripped. -/
theorem BlockText.denotes {literal : Literal} (written : BlockText text literal) :
    ∃ plain, Strips text plain ∧ Denotes plain literal := by
  obtain ⟨written⟩ := written
  obtain ⟨plain, strips, written⟩ :=
    written.strips fun leaf => ⟨_, leaf.denotes.1, leaf.denotes.2.1⟩
  have opener := Strips.single (by decide : Mode.isDelimiter '{' = false)
  have closer := Strips.single (by decide : Mode.isDelimiter '}' = false)
  exact ⟨_, (opener.append strips).append closer, denotes_object written⟩

/-- A block leaves the nesting as it was. -/
theorem BlockText.passes {literal : Literal} (written : BlockText text literal) : bracket.Passes text := by
  obtain ⟨written⟩ := written
  have inside : bracket.Passes _ :=
    written.passes (fun gap => passes_gap gap) fun leaf => leaf.denotes.2.2 bracket
  exact inside.braces

theorem Should.isIgnored_eq_false {should : Should} {name : Text} (absent : name ∉ should.ignored) :
    should.isIgnored name = false := by
  simpa [Should.isIgnored] using absent

/-- A known directive with an object either leaves tests out or gives the messages of errors. -/
theorem directives_object (key : Text) (known : ¬(key ≠ "ignore".toList ∧ key ≠ "error".toList))
    (should : Should) (entries rest : List (Text × Literal)) :
    SuiteReader.directives should ((key, .object entries) :: rest) =
      if key = "ignore".toList then
        SuiteReader.directives (entries.foldl (fun should entry => should.ignore entry.1) should) rest
      else SuiteReader.expectErrors should entries >>= fun should => SuiteReader.directives should rest :=
  if_neg known

/-- A block of tests to ignore is read as these tests. -/
theorem directives_ignoreBlock {should given : Should} {rest : List (Text × Literal)}
    (distinct : given.ignored.Nodup) (empty : should.ignored = []) :
    SuiteReader.directives should (given.ignoreBlock :: rest) =
      SuiteReader.directives { should with ignored := given.ignored } rest := by
  have folded : ∀ (names : List Text) (should : Should), names.Nodup →
      (∀ name ∈ names, name ∉ should.ignored) →
      (names.map fun name => (name, Literal.boolean true)).foldl
          (fun should entry => should.ignore entry.1) should =
        { should with ignored := should.ignored ++ names } := by
    intro names
    induction names with
    | nil =>
      intro should _ _
      simp
    | cons name names ih =>
      intro should distinct fresh
      rw [List.nodup_cons] at distinct
      have step : should.ignore name = { should with ignored := should.ignored ++ [name] } := by
        simp [Should.ignore, Should.isIgnored_eq_false (fresh name (by simp))]
      rw [List.map_cons, List.foldl_cons, step, ih _ distinct.2]
      · simp
      · intro other member
        simp only [List.mem_append, List.mem_singleton, not_or]
        refine ⟨fresh other (List.mem_cons_of_mem _ member), ?_⟩
        rintro rfl
        exact distinct.1 member
  refine (directives_object "ignore".toList (by decide) should _ rest).trans ?_
  rw [if_pos rfl, folded given.ignored should distinct (by simp [empty]), empty, List.nil_append]

/-- A block of errors is read as these errors. -/
theorem directives_errorBlock {should given : Should} {rest : List (Text × Literal)}
    (distinct : (given.errors.map Prod.fst).Nodup) (empty : should.errors = []) :
    SuiteReader.directives should (given.errorBlock :: rest) =
      SuiteReader.directives { should with errors := given.errors } rest := by
  have collected : ∀ (errors : List (Text × Text)) (should : Should), (errors.map Prod.fst).Nodup →
      (∀ name ∈ errors.map Prod.fst, name ∉ should.errors.map Prod.fst) →
      SuiteReader.expectErrors should (errors.map fun error => (error.1, .string error.2)) =
        .ok { should with errors := should.errors ++ errors } := by
    intro errors
    induction errors with
    | nil =>
      intro should _ _
      simp [SuiteReader.expectErrors]
    | cons error errors ih =>
      intro should distinct fresh
      rw [List.map_cons, List.nodup_cons] at distinct
      have step : should.expectError error.1 error.2 = { should with errors := should.errors ++ [error] } := by
        rw [Should.expectError, Entries.put_of_fresh (fresh _ (by simp))]
      rw [List.map_cons, SuiteReader.expectErrors, step, ih _ distinct.2]
      · simp
      · intro other member
        simp only [List.map_append, List.map_cons, List.map_nil, List.mem_append, List.mem_singleton, not_or]
        refine ⟨fresh other (List.mem_cons_of_mem _ member), ?_⟩
        rintro rfl
        exact distinct.1 member
  have other : "error".toList ≠ "ignore".toList := by decide
  refine (directives_object "error".toList (by decide) should _ rest).trans ?_
  rw [if_neg other, collected given.errors should distinct (by simp [empty]), empty, List.nil_append]
  rfl

/-- Directives leave the nesting as it was. -/
theorem DirectivesText.passes {raw : Text} {should : Should} (written : DirectivesText raw should) :
    bracket.Passes raw := by
  obtain ⟨blocks, -, written⟩ := written
  exact written.passes (fun gap => passes_gap gap) (·.passes)

/-- Directives that are written are read back. -/
theorem DirectivesText.accepted {raw : Text} {should : Should}
    (written : DirectivesText raw should) : Dialect.accepted.directives raw should := by
  have inside : brace.Passes raw := written.passes
  obtain ⟨blocks, arranged, written⟩ := written
  obtain ⟨plain, strips, denotes⟩ := written.strips fun block => block.denotes
  have opener := Strips.single (by decide : Mode.isDelimiter '{' = false)
  have closer := Strips.single (by decide : Mode.isDelimiter '}' = false)
  have read : Literal.read ('{' :: raw ++ ['}']) = .ok (.object blocks) :=
    Literal.read_of_strips ((opener.append strips).append closer) (denotes_object denotes)
  refine ⟨inside.encloses, _, read, ?_⟩
  have nodup : ∀ {key entries}, (key, Literal.object entries) ∈ blocks → (entries.map Prod.fst).Nodup := by
    intro key entries member
    obtain ⟨_, ⟨block⟩⟩ := written.exists_value member
    exact block.nodup
  have ignored : should.ignoreBlock ∈ blocks → should.ignored.Nodup := by
    intro member
    simpa [Function.comp_def] using nodup member
  have errors : should.errorBlock ∈ blocks → (should.errors.map Prod.fst).Nodup := by
    intro member
    simpa [Function.comp_def] using nodup member
  change SuiteReader.directives {} blocks = .ok should
  cases arranged with
  | ignoreFirst =>
    rw [directives_ignoreBlock (ignored (by simp)) rfl, directives_errorBlock (errors (by simp)) rfl]
    rfl
  | errorFirst =>
    rw [directives_errorBlock (errors (by simp)) rfl, directives_ignoreBlock (ignored (by simp)) rfl]
    rfl
  | ignoreOnly noErrors =>
    rw [directives_ignoreBlock (ignored (by simp)) rfl, ← noErrors]
    rfl
  | errorOnly noneIgnored =>
    rw [directives_errorBlock (errors (by simp)) rfl, ← noneIgnored]
    rfl
  | nothing noneIgnored noErrors =>
    change Except.ok (⟨[], []⟩ : Should) = _
    rw [← noneIgnored, ← noErrors]

end JasmineConversion
