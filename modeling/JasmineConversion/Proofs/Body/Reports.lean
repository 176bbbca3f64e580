import JasmineConversion.Proofs.Source.Reports
import JasmineConversion.Suite.Adaptation

/-! # What failing adaptations of bodies report

Wrappers are removed and assertion calls are replaced from brackets on that were just found, so that
these steps fail only because of the code. References to helper methods and to the test case itself are
rewritten without a failure where their names are identifiers.
-/

namespace JasmineConversion

open Text Source

/-! ## Wrappers -/

namespace Body

/-- The line of a `try` block starts at an index or behind it, and its keyword and its brace follow
there. -/
structure TryBlock.Placed (block : TryBlock) (index : Nat) (text : Text) : Prop where
  start : index ≤ block.start
  keyword : block.start ≤ block.keyword
  opened : block.keyword ≤ block.opened
  brace : (text.drop (block.opened - index)).head? = some '{'

/-- A block that is read at an index is placed there. -/
theorem placed_of_tryBlock? {index : Nat} {line : Text} {block : TryBlock}
    (found : tryBlock? index line = some block) : block.Placed index line := by
  unfold tryBlock? at found
  obtain ⟨rest, keyword, found⟩ := Option.bind_eq_some_iff.mp found
  dsimp only at found
  split at found
  · next braced =>
    obtain ⟨inside, begins⟩ := startsWith_singleton_iff.mp braced
    have behind : trimStart rest <:+ line.dropWhile isIndent :=
      (trimStart_suffix rest).trans (suffix_of_after? keyword)
    have whole := congrArg List.length (List.takeWhile_append_dropWhile (p := isIndent) (l := line))
    rw [List.length_append] at whole
    have shorter := behind.length_le
    obtain rfl := Option.some.inj found
    refine ⟨Nat.le_refl _, Nat.le_add_right _ _, ?_, ?_⟩
    · dsimp only
      omega
    · rw [Nat.add_sub_cancel_left, drop_of_suffix (behind.trans (List.dropWhile_suffix _)), begins,
        List.head?_cons]
  · cases found

/-- A block that is found is placed in the text. -/
theorem placed_of_findTryFrom {fresh : Bool} {index : Nat} {text : Text} {block : TryBlock}
    (found : findTryFrom fresh index text = some block) : block.Placed index text := by
  induction text generalizing fresh index with
  | nil => cases found
  | cons c rest ih =>
    rw [findTryFrom] at found
    split at found
    · next here =>
      obtain rfl := Option.some.inj found
      split at here
      · exact placed_of_tryBlock? here
      · cases here
    · obtain ⟨start, keyword, opened, brace⟩ := ih found
      have width : block.opened - index = (block.opened - (index + 1)) + 1 := by omega
      refine ⟨by omega, keyword, opened, ?_⟩
      rw [width, List.drop_succ_cons]
      exact brace

/-- A block that is found has a brace where it is said to open. -/
theorem opens_of_findTry {code : Text} {index : Nat} {block : TryBlock}
    (found : findTry code index = some block) : (code.drop block.opened).head? = some '{' := by
  obtain ⟨start, keyword, opened, brace⟩ := placed_of_findTryFrom found
  rwa [List.drop_drop, Nat.add_sub_cancel' (by omega)] at brace

/-- The clause behind a block is the end of the text, from its brace on. -/
theorem suffix_of_catch? {text clause : Text} (found : catch? text = some clause) :
    clause <:+ text ∧ clause.head? = some '{' := by
  unfold catch? at found
  obtain ⟨first, keyword, found⟩ := Option.bind_eq_some_iff.mp found
  obtain ⟨second, opened, found⟩ := Option.bind_eq_some_iff.mp found
  obtain ⟨third, closed, found⟩ := Option.bind_eq_some_iff.mp found
  dsimp only at found
  split at found
  · next braced =>
    obtain ⟨inside, begins⟩ := startsWith_singleton_iff.mp braced
    obtain rfl := Option.some.inj found
    have behindFirst : first <:+ text := (suffix_of_after? keyword).trans (trimStart_suffix _)
    have behindSecond : second <:+ text := (suffix_of_after? opened).trans
      ((trimStart_suffix first).trans behindFirst)
    have behindThird : third <:+ text :=
      (suffix_of_after? closed).trans ((List.dropWhile_suffix _).trans behindSecond)
    exact ⟨(trimStart_suffix third).trans behindThird, by rw [begins, List.head?_cons]⟩
  · cases found

/-- The clause behind a block has a brace where it is said to open. -/
theorem opens_of_catch? {code clause : Text} {index : Nat}
    (found : catch? (code.drop index) = some clause) :
    (code.drop (code.length - clause.length)).head? = some '{' := by
  obtain ⟨suffix, begins⟩ := suffix_of_catch? found
  rw [drop_of_suffix (suffix.trans (List.drop_suffix index code))]
  exact begins

/-- A step of unwrapping fails inside of the code. -/
theorem unwrapStep_reports (marker : Content) (code : Text) (index : Nat) :
    Reports (SourceError.Inside (lineCount code)) (unwrapStep marker code index) := by
  unfold unwrapStep
  cases found : findTry code index with
  | none => exact .ok none
  | some block =>
    refine (matchBracket_reports .brace (opens_of_findTry found)).bind fun close _ => ?_
    dsimp only
    split
    · cases clause : catch? (code.drop (close + 1)) with
      | none => exact .ok _
      | some clause' =>
        exact (matchBracket_reports .brace (opens_of_catch? clause)).bind fun _ _ => .ok _
    · exact .ok _

/-- Unwrapping from an index fails only as a reader does. -/
theorem unwrapFrom_reports (marker : Content) (bound : Nat) (code : Text) (index : Nat) :
    Reports SourceError.OfReading (unwrapFrom marker bound code index).2 := by
  induction bound generalizing code index with
  | zero => exact .ok code
  | succ bound ih =>
    have first := unwrapStep_reports marker code index
    rw [unwrapFrom]
    cases ran : unwrapStep marker code index with
    | error error => exact .error ⟨lineCount code, first ran⟩
    | ok outcome =>
      cases outcome with
      | none => exact .ok code
      | some step => exact ih step.code step.resume

theorem unwrapMocksAt_reports (marker : Content) (code : Text) :
    Reports SourceError.OfReading (unwrapMocksAt marker code).2 :=
  unwrapFrom_reports marker _ code 0

end Body

/-! ## Assertion calls -/

namespace AssertionRule

/-- A rule that fails only because of its arguments. With as many as it needs, it is left without an
expectation only by a first one that is no list of keys. -/
structure Plain (rule : AssertionRule) : Prop where
  reports : ∀ arguments, Reports SourceError.OfReading (rule.expectation arguments)
  reaches : ∀ arguments, rule.arity ≤ arguments.length → rule.expectation arguments = .ok none →
    ∃ keys others, arguments = keys :: others ∧ (startsWith ['['] keys && endsWith [']'] keys) = false

theorem plain_nullary (expectation : Text) : (nullary expectation).Plain where
  reports _ := .ok _
  reaches _ _ absent := by cases absent

/-- A rule of one argument fails only by the number of arguments. -/
theorem plain_unary (expectation : Text → Text) : (unary expectation).Plain where
  reports arguments := by cases arguments <;> exact .ok _
  reaches arguments enough absent := by
    cases arguments with
    | nil => cases enough
    | cons first others => cases absent

/-- A rule of two arguments fails only by their number. -/
theorem plain_binary (expectation : Text → Text → Text) : (binary expectation).Plain where
  reports arguments := by
    cases arguments with
    | nil => exact .ok _
    | cons first others => cases others <;> exact .ok _
  reaches arguments enough absent := by
    cases arguments with
    | nil => cases enough
    | cons first others =>
      cases others with
      | nil => exact absurd enough (by decide : ¬2 ≤ 1)
      | cons second others => cases absent

/-- The rule for all keys fails by the number of arguments, or where it splits the list of keys. -/
theorem plain_ownKeys : ownKeys.Plain where
  reports arguments := by
    unfold ownKeys
    dsimp only
    split
    · split
      · exact (splitArguments_reports _).ofReading.bind fun names _ => .ok _
      · exact .ok _
    · exact .ok _
  reaches arguments enough absent := by
    unfold ownKeys at absent
    dsimp only at absent
    split at absent
    · next keys object others =>
      split at absent
      · obtain ⟨names, -, absent⟩ := exceptBind_eq_ok_iff.mp absent
        cases absent
      · next unlisted => exact ⟨keys, object :: others, rfl, Bool.not_eq_true _ ▸ unlisted⟩
    · next fewer =>
      cases arguments with
      | nil => cases enough
      | cons first others =>
        cases others with
        | nil => exact absurd enough (by decide : ¬2 ≤ 1)
        | cons second others => exact absurd rfl (fewer first second others)

/-- Every rule of the table fails only in one of these ways. -/
theorem plain_of_mem {rules : List (String × AssertionRule)} {space : String}
    (listed : (space, rules) ∈ namespaces) {name : String} {rule : AssertionRule}
    (member : (name, rule) ∈ rules) : rule.Plain := by
  simp only [namespaces, List.mem_cons, Prod.mk.injEq, List.not_mem_nil, or_false] at listed
  rcases listed with ⟨-, rfl⟩ | ⟨-, rfl⟩ | ⟨-, rfl⟩
  · have all : ∀ entry ∈ valueRules, entry.2.Plain := by
      simp only [valueRules, List.forall_mem_cons]
      refine ⟨plain_unary _, plain_unary _, plain_unary _, plain_unary _, plain_unary _, plain_unary _,
        plain_unary _, plain_unary _, plain_unary _, plain_binary _, plain_binary _, plain_binary _,
        plain_binary _, plain_binary _, plain_nullary _, ?_⟩
      exact fun entry none => (List.not_mem_nil none).elim
    exact all _ member
  · have all : ∀ entry ∈ arrayRules, entry.2.Plain := by
      simp only [arrayRules, List.forall_mem_cons]
      refine ⟨plain_binary _, plain_binary _, plain_binary _, plain_binary _, plain_unary _, ?_⟩
      exact fun entry none => (List.not_mem_nil none).elim
    exact all _ member
  · have all : ∀ entry ∈ objectRules, entry.2.Plain := by
      simp only [objectRules, List.forall_mem_cons]
      refine ⟨plain_binary _, plain_ownKeys, plain_ownKeys, ?_⟩
      exact fun entry none => (List.not_mem_nil none).elim
    exact all _ member

/-- What a table gives for a name is one of its entries. -/
theorem exists_mem_of_entry? {α : Type} {table : List (String × α)} {name : Text} {entry : α}
    (found : entry? table name = some entry) : ∃ key, (key, entry) ∈ table := by
  obtain ⟨⟨key, value⟩, first, rfl⟩ := Option.map_eq_some_iff.mp found
  exact ⟨key, List.mem_of_find?_eq_some first⟩

end AssertionRule

/-- An assertion call without an expectation is refused without a place, or its arguments point at
one. -/
theorem expectationFor_reports (space function : Text) (arguments : List Text) :
    Reports (fun error => (∃ fault, error = ⟨.assertion space function fault, none⟩) ∨ error.OfReading)
      (expectationFor space function arguments) := by
  have refuse (fault : AssertionFault) :
      Reports (fun error => (∃ fault, error = ⟨.assertion space function fault, none⟩) ∨ error.OfReading)
        (.error ⟨.assertion space function fault, none⟩ : Except SourceError Text) :=
    .error (.inl ⟨fault, rfl⟩)
  unfold expectationFor
  dsimp only
  split
  · exact refuse _
  · next rules listed =>
    split
    · exact refuse _
    · next rule found =>
      split
      · exact refuse _
      · obtain ⟨spaceKey, listed⟩ := AssertionRule.exists_mem_of_entry? listed
        obtain ⟨ruleKey, member⟩ := AssertionRule.exists_mem_of_entry? found
        have plain := AssertionRule.plain_of_mem listed member
        split
        · next error failed => exact .error (.inr (plain.reports arguments failed))
        · exact refuse _
        · exact .ok _

namespace AssertionCall

/-- The head of a call ends in front of a parenthesis. -/
theorem opens_of_head? {text space function call : Text}
    (found : head? text = some (space, function, call)) :
    call <:+ text ∧ call.head? = some '(' := by
  unfold head? at found
  obtain ⟨rest, dot, found⟩ := Option.bind_eq_some_iff.mp found
  dsimp only at found
  split at found
  · next holds =>
    obtain ⟨-, -, rfl⟩ : _ = space ∧ _ = function ∧ _ = call := by simpa using found
    obtain ⟨inside, begins⟩ := startsWith_singleton_iff.mp (Bool.and_eq_true_iff.mp holds).2
    refine ⟨?_, by rw [begins, List.head?_cons]⟩
    have behindDot : rest <:+ text := (suffix_of_after? dot).trans (List.dropWhile_suffix _)
    exact (trimStart_suffix _).trans ((List.dropWhile_suffix _).trans behindDot)
  · cases found

/-- An assertion call starts at an index or behind it, and its parenthesis follows there. -/
structure Placed (call : AssertionCall) (index : Nat) (text : Text) : Prop where
  start : index ≤ call.start
  opened : call.start ≤ call.opened
  parenthesis : (text.drop (call.opened - index)).head? = some '('

/-- A call that is read at an index is placed there. -/
theorem placed_of_at? {index : Nat} {previous : Option Char} {text : Text} {call : AssertionCall}
    (found : at? index previous text = some call) : call.Placed index text := by
  unfold at? at found
  split at found
  · obtain ⟨⟨space, function, rest⟩, headed, rfl⟩ := Option.map_eq_some_iff.mp found
    have opens : rest <:+ text ∧ rest.head? = some '(' := by
      rcases Option.or_eq_some_iff.mp headed with qualified | ⟨-, plain⟩
      · obtain ⟨behind, prefixed, headed⟩ := Option.bind_eq_some_iff.mp qualified
        obtain ⟨suffix, begins⟩ := opens_of_head? headed
        exact ⟨suffix.trans (suffix_of_after? prefixed), begins⟩
      · exact opens_of_head? plain
    refine ⟨Nat.le_refl _, Nat.le_add_right _ _, ?_⟩
    rw [Nat.add_sub_cancel_left, drop_of_suffix opens.1]
    exact opens.2
  · cases found

/-- A call that is found is placed in the text. -/
theorem placed_of_findFrom {index : Nat} {previous : Option Char} {text : Text} {call : AssertionCall}
    (found : findFrom index previous text = some call) : call.Placed index text := by
  induction text generalizing index previous with
  | nil => cases found
  | cons c rest ih =>
    rw [findFrom] at found
    split at found
    · next here => exact placed_of_at? (Option.some.inj found ▸ here)
    · obtain ⟨start, opened, parenthesis⟩ := ih found
      have width : call.opened - index = (call.opened - (index + 1)) + 1 := by omega
      refine ⟨by omega, opened, ?_⟩
      rw [width, List.drop_succ_cons]
      exact parenthesis

/-- A call that is found has a parenthesis where it is said to open. -/
theorem opens_of_find {code : Text} {index : Nat} {call : AssertionCall}
    (found : find code index = some call) : (code.drop call.opened).head? = some '(' := by
  obtain ⟨start, opened, parenthesis⟩ := placed_of_findFrom found
  rwa [List.drop_drop, Nat.add_sub_cancel' (by omega)] at parenthesis

/-- A step of rewriting assertions fails with a reported error only. -/
theorem step_reports (code : Text) (index : Nat) : Reports SourceError.Reported (step code index) := by
  unfold step
  cases found : find code index with
  | none => exact .ok none
  | some call =>
    refine (matchBracket_reports .round (opens_of_find found)).reported.bind fun close _ => ?_
    refine (splitArguments_reports _).reported.bind fun arguments _ => ?_
    refine ((expectationFor_reports _ _ arguments).mapError ?_).bind fun _ _ => .ok _
    intro error refused
    rcases refused with ⟨fault, rfl⟩ | ofReading
    · exact ⟨lineCount code, .ofIndex (.assertion _ _ fault) code call.start⟩
    · split
      · exact ⟨lineCount code, .ofIndex ofReading.reported.choose_spec.cause code call.start⟩
      · exact ofReading.reported

/-- Rewriting assertions from an index fails with a reported error only. -/
theorem replaceFrom_reports (bound : Nat) (code : Text) (index : Nat) :
    Reports SourceError.Reported (replaceFrom bound code index) := by
  induction bound generalizing code index with
  | zero => exact .ok code
  | succ bound ih =>
    rw [replaceFrom]
    refine (step_reports code index).bind fun outcome _ => ?_
    cases outcome with
    | none => exact .ok code
    | some next => exact ih next.code next.resume

theorem replaceAll_reports (code : Text) : Reports SourceError.Reported (replaceAll code) :=
  replaceFrom_reports _ code 0

end AssertionCall

/-! ## Names of helper methods and of the fixture -/

namespace Body

/-- Calls of helper methods whose names hold no backslash can always be rewritten. -/
theorem shortenHelpers_succeeds {names : List Text} (plain : ∀ name ∈ names, '\\' ∉ name) (code : Text) :
    ∃ text, shortenHelpers names code = .ok text := by
  induction names generalizing code with
  | nil => exact ⟨code, rfl⟩
  | cons name names ih =>
    obtain ⟨here, further⟩ := List.forall_mem_cons.mp plain
    have first :
        shortenHelper code name = .ok (replaceAll (helperReference name [.text name]) code) := by
      rw [shortenHelper, Template.parse_of_no_backslash here]
    rw [shortenHelpers, List.foldlM_cons, first]
    exact ih further _

/-- Self references can always be rewritten to a fixture without a backslash. -/
theorem replaceSelf_succeeds {fixture : Text} (plain : '\\' ∉ fixture) (code : Text) :
    ∃ text, replaceSelf fixture code = .ok text := by
  have access : '\\' ∉ fixture ++ ['.'] := by simp [plain]
  refine ⟨replaceAll (selfReference [.text (fixture ++ ['.'])]) code, ?_⟩
  rw [replaceSelf, Template.parse_of_no_backslash access]

end Body

namespace BodyStyle

variable {style : BodyStyle} {names : List Text}

/-- The body of a hook can always be adapted, with such names. -/
theorem hookBody_succeeds (fixture : '\\' ∉ style.fixture) (plain : ∀ name ∈ names, '\\' ∉ name)
    (body : Text) :
    ∃ raw, style.hookBody names body = .ok raw := by
  obtain ⟨short, shortened⟩ := Body.shortenHelpers_succeeds plain body
  obtain ⟨raw, replaced⟩ := Body.replaceSelf_succeeds fixture short
  exact ⟨raw, exceptBind_eq_ok_iff.mpr ⟨short, shortened, replaced⟩⟩

/-- The body of a test fails with a reported error only, with such names. -/
theorem testBody_reports (fixture : '\\' ∉ style.fixture) (plain : ∀ name ∈ names, '\\' ∉ name)
    (body : Text) :
    Reports SourceError.Reported (style.testBody names body).2 := by
  obtain ⟨raw, adapted⟩ := hookBody_succeeds fixture plain body
  simp only [testBody, adapted]
  refine ((Body.unwrapMocksAt_reports style.marker raw).mono fun _ ofReading => ofReading.reported).bind ?_
  exact fun text _ => AssertionCall.replaceAll_reports text

end BodyStyle

end JasmineConversion
