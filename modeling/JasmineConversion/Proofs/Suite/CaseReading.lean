import JasmineConversion.Proofs.Suite.MemberChoice

/-! # Reading test cases

The members of a test case are read one after the other, up to the brace that closes it. What is
read stands in the text without overlap and with nothing but separators in between, and whatever
is written so is read.
-/

namespace JasmineConversion

open Text Source Pattern

/-! ## What a test case comprises -/

namespace TestCase

variable {testCase testCase' : TestCase} {members more : List Member} {member : Member}

@[simp] theorem add_name (testCase : TestCase) (member : Member) :
    (testCase.add member).name = testCase.name := by
  cases member <;> rfl

@[simp] theorem add_constructorName (testCase : TestCase) (member : Member) :
    (testCase.add member).constructorName = testCase.constructorName := by
  cases member <;> rfl

theorem comprises_nil (name : Text) (constructorName : Option Text) :
    Comprises { name, constructorName } [] :=
  ⟨rfl, rfl, rfl, rfl, rfl⟩

/-- A member that is admitted goes behind those of its kind, and leaves the others alone. -/
theorem Comprises.add (comprises : testCase.Comprises members) (admits : testCase.Admits member) :
    (testCase.add member).Comprises (members ++ [member]) := by
  obtain ⟨setUp, tearDown, should, tests, helpers⟩ := comprises
  constructor <;> rw [List.filterMap_append]
  · rw [← setUp]
    cases member <;> simp_all [TestCase.add, Admits, Member.setUp?]
  · rw [← tearDown]
    cases member <;> simp_all [TestCase.add, Admits, Member.tearDown?]
  · rw [← should]
    cases member <;> simp_all [TestCase.add, Admits, Member.should?]
  · rw [← tests]
    cases member <;> simp [TestCase.add, Member.test?]
  · rw [← helpers]
    cases member <;> simp [TestCase.add, Member.helper?]

/-- The members of a test case admit each of them at its place. -/
theorem Comprises.admits (done : testCase.Comprises members)
    (whole : testCase'.Comprises (members ++ member :: more)) : testCase.Admits member := by
  have once : ∀ {α : Type} {first all : Option α} {found : α} {rest : List α},
      all.toList = first.toList ++ found :: rest → first = none := by
    intro α first all found rest same
    cases first with
    | none => rfl
    | some value => cases all <;> simp at same
  cases member with
  | setUp code =>
    have same := whole.setUp
    rw [List.filterMap_append, ← done.setUp] at same
    exact once same
  | tearDown code =>
    have same := whole.tearDown
    rw [List.filterMap_append, ← done.tearDown] at same
    exact once same
  | should directives =>
    have same := whole.should
    rw [List.filterMap_append, ← done.should] at same
    exact once same
  | test found => trivial
  | placeholder => trivial
  | helper found => trivial

/-- A test case is determined by its name, its constructor and its members. -/
theorem Comprises.unique (comprises : testCase.Comprises members)
    (comprises' : testCase'.Comprises members) (name : testCase.name = testCase'.name)
    (constructorName : testCase.constructorName = testCase'.constructorName) :
    testCase = testCase' := by
  have single : ∀ {α : Type} {first second : Option α}, first.toList = second.toList →
      first = second := by
    intro α first second same
    simpa using congrArg List.head? same
  have setUp := single (comprises.setUp.trans comprises'.setUp.symm)
  have tearDown := single (comprises.tearDown.trans comprises'.tearDown.symm)
  have should := single (comprises.should.trans comprises'.should.symm)
  have tests := comprises.tests.trans comprises'.tests.symm
  have helpers := comprises.helpers.trans comprises'.helpers.symm
  cases testCase
  cases testCase'
  simp_all

end TestCase

/-! ## How members start -/

/-- Whether a separator may go on with a character. -/
def isLoose (c : Char) : Bool :=
  goesOn c || c == ','

theorem isLoose_eq_false_iff {c : Char} : isLoose c = false ↔ goesOn c = false ∧ c ≠ ',' := by
  simp [isLoose]

theorem Text.Stops.mono {p q : Char → Bool} {text : Text} (stops : Stops p text)
    (weaker : ∀ c, p c = false → q c = false) : Stops q text :=
  fun c member => weaker c (stops c member)

/-- The start of an identifier is not loose. -/
theorem isLoose_of_isIdentifierStart {c : Char} (starts : isIdentifierStart c = true) :
    isLoose c = false := by
  have apart : ∀ d, isIdentifierStart d = false → c ≠ d := by
    rintro d other rfl
    simp [starts] at other
  rw [isLoose_eq_false_iff, goesOn_eq_false_iff]
  exact ⟨⟨isBlank_of_isIdentifierStart starts, apart '/' (by decide)⟩, apart ',' (by decide)⟩

/-- A mark starts with a character that no separator goes on with. -/
theorem MarkText.stops {rest mark : Text} (written : MarkText rest mark) (more : Text) :
    Stops isLoose (mark ++ more) := by
  cases written with
  | quoted isKey _ _ _ =>
    obtain ⟨tail, rfl, -, -⟩ := isKey.split
    exact (stops_cons _ _ _).mpr (by decide)
  | bare isKey _ _ _ _ =>
    obtain ⟨tail, rfl, -, -⟩ := isKey.split
    exact (stops_cons _ _ _).mpr (by decide)

/-- A mark starts with the key of a suite's mark. -/
theorem MarkText.isSome_key?_ttype {rest mark : Text} (written : MarkText rest mark) :
    (key? "ttype".toList (mark ++ rest)).isSome = true := by
  rw [Option.isSome_iff_exists]
  cases written with
  | @quoted key value separator quote isKey isQuote _ _ =>
    exact ⟨quote :: value ++ quote :: separator ++ rest, key?_eq_some_iff.mpr
      ⟨key, isKey, by simp, (stops_cons _ _ _).mpr (Mode.isBlank_of_isQuote isQuote)⟩⟩
  | @bare key value separator isKey nonempty dotted _ _ =>
    refine ⟨value ++ separator ++ rest, key?_eq_some_iff.mpr ⟨key, isKey, by simp, ?_⟩⟩
    obtain ⟨c, tail, rfl⟩ := List.exists_cons_of_ne_nil nonempty
    exact (stops_cons _ _ _).mpr (isBlank_of_isDotted (dotted c List.mem_cons_self))

section

variable {dialect : Dialect} {line : Nat} {text : Text} {member : Member}

/-- A function starts with the first letter of its word. -/
theorem FunctionText.head?_eq {parameters : Text} {code : Code}
    (written : FunctionText dialect line text parameters code) : ∃ rest, text = 'f' :: rest := by
  obtain ⟨⟨before, behind, -, -, -, rfl⟩, -, -⟩ := written
  exact ⟨_, rfl⟩

/-- A member starts with a quoted name, or with an identifier, a colon and a function or a brace.
The identifier shows whether the member marks a suite. -/
theorem MemberText.quoted_or_named (written : MemberText dialect line text member) :
    (text.head?.any Mode.isQuote = true ∧ member.marks = false) ∨
      ∃ name key c value, Identifier name ∧ Key name key ∧ text = key ++ c :: value ∧
        (c = 'f' ∨ c = '{') ∧ (name = "ttype".toList ↔ member.marks = true) := by
  cases written with
  | setUp isKey _ written =>
    obtain ⟨rest, rfl⟩ := written.head?_eq
    exact .inr ⟨_, _, 'f', rest, ⟨by decide, by decide⟩, isKey, rfl, .inl rfl, by simp [Member.marks]⟩
  | tearDown isKey _ written =>
    obtain ⟨rest, rfl⟩ := written.head?_eq
    exact .inr ⟨_, _, 'f', rest, ⟨by decide, by decide⟩, isKey, rfl, .inl rfl, by simp [Member.marks]⟩
  | @should key raw _ isKey _ =>
    exact .inr ⟨_, key, '{', raw ++ ['}'], ⟨by decide, by decide⟩, isKey, by simp, .inr rfl,
      by simp [Member.marks]⟩
  | test isMark isKey _ written =>
    obtain ⟨rest, rfl⟩ := written.head?_eq
    refine .inr ⟨_, _, 'f', rest, isMark.identifier, isKey, rfl, .inl rfl, ?_⟩
    cases isMark <;> simp [Member.marks]
  | quotedTest isQuote _ _ isKey _ _ =>
    obtain ⟨tail, rfl, -, -⟩ := isKey.split
    exact .inl ⟨by simpa using isQuote, rfl⟩
  | placeholder isQuote isKey _ =>
    obtain ⟨tail, rfl, -, -⟩ := isKey.split
    exact .inl ⟨by simpa using isQuote, rfl⟩
  | helper identifier _ isKey written =>
    obtain ⟨rest, rfl⟩ := written.head?_eq
    exact .inr ⟨_, _, 'f', rest, identifier, isKey, rfl, .inl rfl, by simp [Member.marks]⟩

/-- A member starts with a quote or with an identifier. -/
theorem MemberText.exists_start (written : MemberText dialect line text member) :
    ∃ c rest, text = c :: rest ∧ (Mode.isQuote c = true ∨ isIdentifierStart c = true) := by
  rcases written.quoted_or_named with ⟨quoted, -⟩ | ⟨name, key, c, value, identifier, isKey, rfl, -⟩
  · cases text with
    | nil => simp at quoted
    | cons c text =>
      rw [List.head?_cons, Option.any_some] at quoted
      exact ⟨c, text, rfl, .inl quoted⟩
  · obtain ⟨tail, rfl, -, -⟩ := isKey.split
    cases name with
    | nil => exact absurd rfl identifier.ne_nil
    | cons d name => exact ⟨d, _, rfl, .inr (by simpa using identifier.1)⟩

/-- A member starts with a character that no separator goes on with. -/
theorem MemberText.exists_cons (written : MemberText dialect line text member) :
    ∃ c rest, text = c :: rest ∧ isLoose c = false := by
  obtain ⟨c, rest, rfl, quote | starts⟩ := written.exists_start
  · refine ⟨c, rest, rfl, ?_⟩
    rcases Mode.isQuote_iff.mp quote with rfl | rfl <;> decide
  · exact ⟨c, rest, rfl, isLoose_of_isIdentifierStart starts⟩

/-- A quote in front of a text stays there. -/
theorem quoted_append (quoted : text.head?.any Mode.isQuote = true) (rest : Text) :
    (text ++ rest).head?.any Mode.isQuote = true := by
  cases text with
  | nil => simp at quoted
  | cons c text => exact quoted

/-- The key of a suite's mark stands in front of a text exactly when it is the name of a member. -/
theorem MemberText.isSome_key?_ttype (written : MemberText dialect line text member) (rest : Text) :
    (key? "ttype".toList (text ++ rest)).isSome = member.marks := by
  have parts : ∀ c ∈ "ttype".toList, isIdentifierPart c = true := by decide
  rcases written.quoted_or_named with ⟨quoted, unmarked⟩ |
    ⟨name, key, c, value, identifier, isKey, rfl, starts, marks⟩
  · rw [unmarked, Option.isSome_eq_false_iff, Option.isNone_iff_eq_none,
      Option.eq_none_iff_forall_ne_some]
    intro value found
    obtain ⟨key, isKey, here, -⟩ := key?_eq_some_iff.mp found
    have unquoted := isKey.head?_any_isQuote ⟨by decide, parts⟩ value
    rw [← here, quoted_append quoted] at unquoted
    cases unquoted
  · have stops : Stops isBlank (c :: (value ++ rest)) := by
      rcases starts with rfl | rfl <;> simp <;> decide
    rw [Bool.eq_iff_iff, ← marks, Option.isSome_iff_exists]
    constructor
    · rintro ⟨value', found⟩
      obtain ⟨key', isKey', here, stops'⟩ := key?_eq_some_iff.mp found
      exact (isKey.unique isKey' identifier.2 parts stops stops' (by simpa using here)).1
    · rintro rfl
      exact ⟨_, key?_eq_some_iff.mpr ⟨key, isKey, by simp, stops⟩⟩

/-- No member is a list of items. -/
theorem MemberText.items?_eq_none (written : MemberText dialect line text member) (rest : Text) :
    items? (text ++ rest) = none := by
  rw [Option.eq_none_iff_forall_ne_some]
  intro list found
  obtain ⟨key', isKey', here⟩ := items?_eq_some_iff.mp found
  rcases written.quoted_or_named with ⟨quoted, -⟩ |
    ⟨name, key, c, value, identifier, isKey, rfl, starts, -⟩
  · have unquoted := isKey'.head?_any_isQuote ⟨by decide, by decide⟩ ('[' :: list)
    rw [← here, quoted_append quoted] at unquoted
    cases unquoted
  · have stops : Stops isBlank (c :: (value ++ rest)) := by
      rcases starts with rfl | rfl <;> simp <;> decide
    have here' : key ++ c :: (value ++ rest) = key' ++ '[' :: list := by simpa using here
    obtain ⟨-, same⟩ := isKey.unique isKey' identifier.2 (by decide) stops
      ((stops_cons _ _ _).mpr (by decide)) here'
    obtain ⟨rfl, -⟩ := List.cons.inj same
    exact absurd starts (by decide)

/-- The key of a suite's mark stands in front of members exactly when the first one has it. -/
theorem MembersText.isSome_key?_ttype {found : List Member}
    (written : MembersText dialect line text found) (rest : Text) :
    (key? "ttype".toList (text ++ '}' :: rest)).isSome = found.head?.any Member.marks := by
  cases written with
  | nil => simp [key?, after?]
  | cons first _ _ =>
    rw [List.append_assoc, List.append_assoc, first.isSome_key?_ttype]
    rfl

/-- Members are not followed by the items of a suite. -/
theorem MembersText.items?_eq_none {found : List Member}
    (written : MembersText dialect line text found) (rest : Text) :
    items? (text ++ '}' :: rest) = none := by
  cases written with
  | nil => simp [items?, key?, after?]
  | cons first _ _ =>
    rw [List.append_assoc, List.append_assoc]
    exact first.items?_eq_none _

end

namespace SuiteReader

variable {source : Text} {cursor cursor' : Cursor}

/-! ## Separators -/

/-- The index behind a comma, if one stands at an index. -/
def behindComma (source : Text) (index : Nat) : Nat :=
  if startsWith [','] (source.drop index) then index + 1 else index

/-- A separator is skipped from an index to another one: up to a comma, and behind it. -/
def Separates (source : Text) (index next : Nat) : Prop :=
  ∃ between, skip source index = .ok between ∧ skip source (behindComma source between) = .ok next

theorem skip_of_stops {index : Nat} (stops : Stops goesOn (source.drop index)) :
    skip source index = .ok index :=
  skip_eq_ok_of_gap (.refl source index) .nil stops

/-- A separator is read as what separates. -/
theorem separates_of_separator {separator : Text} {index next : Nat} (apart : Separator separator)
    (spans : Spans source index separator next) (stops : Stops isLoose (source.drop next)) :
    Separates source index next := by
  have ends : Stops goesOn (source.drop next) :=
    stops.mono fun c loose => (isLoose_eq_false_iff.mp loose).1
  cases apart with
  | gap gap =>
    refine ⟨next, skip_eq_ok_of_gap spans gap ends, ?_⟩
    have noComma : startsWith [','] (source.drop next) = false := by
      cases here : source.drop next with
      | nil => rfl
      | cons c rest =>
        rw [here, stops_cons, isLoose_eq_false_iff] at stops
        simpa using Ne.symm stops.2
    rw [behindComma, noComma]
    exact skip_of_stops ends
  | @comma before behind first second =>
    obtain ⟨front, back⟩ := spans.split
    have comma : startsWith [','] (source.drop (index + before.length)) = true := by
      rw [back.here]
      exact startsWith_singleton_iff.mpr ⟨_, rfl⟩
    have stop : Stops goesOn (source.drop (index + before.length)) := by
      rw [back.here]
      exact (stops_cons _ _ _).mpr (by decide)
    refine ⟨_, skip_eq_ok_of_gap front first stop, ?_⟩
    rw [behindComma, comma]
    exact skip_eq_ok_of_gap back.uncons second ends

/-- What separates is written as a separator. -/
theorem exists_separator_of_separates {index next : Nat} (separates : Separates source index next)
    (more : source.drop next ≠ []) :
    ∃ separator, Spans source index separator next ∧ Separator separator := by
  obtain ⟨between, first, second⟩ := separates
  obtain ⟨before, front, closedFirst⟩ := exists_gap_of_skip first
  obtain ⟨behind, back, closedSecond⟩ := exists_gap_of_skip second
  rw [behindComma] at back
  split at back
  · next comma =>
    obtain ⟨rest, here⟩ := startsWith_singleton_iff.mp comma
    have single : Spans source between [','] (between + 1) := .of_drop here rfl
    have gap := closedFirst (by simp [here])
    exact ⟨_, front.append (single.append back), .comma gap (closedSecond more)⟩
  · have nonempty : source.drop between ≠ [] := by
      rw [back.here]
      exact List.append_ne_nil_of_right_ne_nil _ more
    exact ⟨_, front.append back, .gap ((closedFirst nonempty).append (closedSecond more))⟩

/-- What separates goes forward. -/
theorem le_of_separates {index next : Nat} (separates : Separates source index next) :
    index ≤ next := by
  obtain ⟨between, first, second⟩ := separates
  have step : between ≤ behindComma source between := by
    rw [behindComma]
    split <;> omega
  exact Nat.le_trans (le_of_skip first) (Nat.le_trans step (le_of_skip second))

/-! ## Members -/

/-- Members that are read stand in the text with nothing but separators behind them. -/
theorem exists_membersText_of_members {close bound : Nat} {testCase testCase' : TestCase}
    (ran : members source close bound testCase cursor = .ok testCase' cursor')
    (more : source.drop cursor'.index ≠ []) :
    ∃ start text found, skip source cursor.index = .ok start ∧
      Spans source start text cursor'.index ∧
      MembersText .accepted (lineAt source start) text found ∧ close ≤ cursor'.index ∧
      (∀ {done}, testCase.Comprises done → testCase'.Comprises (done ++ found)) ∧
      testCase'.name = testCase.name ∧ testCase'.constructorName = testCase.constructorName ∧
      cursor.log = cursor'.log := by
  induction bound generalizing cursor testCase with
  | zero => simp [members] at ran
  | succ bound ih =>
    simp only [members, bind_eq_ok_iff, skipGap_eq_ok_iff, position_eq_ok_iff] at ran
    obtain ⟨_, _, ⟨start, skipped, rfl⟩, _, _, ⟨rfl, rfl⟩, ran⟩ := ran
    by_cases ended : start ≥ close
    · simp only [ended, if_true, pure_eq_ok_iff] at ran
      obtain ⟨rfl, rfl⟩ := ran
      exact ⟨start, [], [], skipped, .refl source start, .nil _, ended, fun done => by simpa using done,
        rfl, rfl, rfl⟩
    · simp only [ended, if_false, bind_eq_ok_iff, skipGap_eq_ok_iff, skipComma_eq_ok_iff] at ran
      obtain ⟨between, _, ran, _, _, ⟨first, skippedFirst, rfl⟩, _, _, rfl, rest⟩ := ran
      obtain ⟨start', text, found, skipped', spans, written, admits, rfl, sameLog⟩ :=
        exists_memberText_of_member ran
      obtain rfl : start = start' := Except.ok.inj ((skip_eq_ok_self skipped).symm.trans skipped')
      obtain ⟨next, others, found', skippedNext, spans', written', ended, comprises, name,
        constructorName, sameLog'⟩ := ih rest
      have nonempty : source.drop next ≠ [] := by
        rw [spans'.here]
        exact List.append_ne_nil_of_right_ne_nil _ more
      obtain ⟨separator, apartSpans, apart⟩ :=
        exists_separator_of_separates ⟨first, skippedFirst, skippedNext⟩ nonempty
      have lead := spans.append apartSpans
      rw [lead.lineAt_eq] at written'
      refine ⟨start, _, _, skipped, lead.append spans', .cons written apart written', ended, ?_, ?_,
        ?_, sameLog.trans sameLog'⟩
      · intro done holds
        simpa using comprises (holds.add admits)
      · rw [name, TestCase.add_name]
      · rw [constructorName, TestCase.add_constructorName]

/-- Members start with a character that no separator goes on with, unless there are none. -/
theorem stops_of_membersText {dialect : Dialect} {line : Nat} {text rest : Text}
    {found : List Member} (written : MembersText dialect line text found)
    (stops : Stops isLoose rest) : Stops isLoose (text ++ rest) := by
  cases written with
  | nil => exact stops
  | cons first _ _ =>
    obtain ⟨c, more, rfl, loose⟩ := first.exists_cons
    exact (stops_cons _ _ _).mpr loose

/-- Members that are written up to the closing brace are read. -/
theorem members_of_membersText {line start close bound : Nat} {text : Text}
    {testCase testCase' : TestCase} {done found : List Member}
    (written : MembersText .accepted line text found) (skipped : skip source cursor.index = .ok start)
    (spans : Spans source start text close) (atLine : lineAt source start = line)
    (stops : Stops isLoose (source.drop close)) (enough : text.length < bound)
    (before : testCase.Comprises done) (whole : testCase'.Comprises (done ++ found))
    (name : testCase.name = testCase'.name)
    (constructorName : testCase.constructorName = testCase'.constructorName) :
    members source close bound testCase cursor = .ok testCase' { cursor with index := close } := by
  induction written generalizing cursor start bound testCase done with
  | nil line =>
    cases bound with
    | zero => exact absurd enough (by simp)
    | succ bound =>
      have same := before.unique (by simpa using whole) name constructorName
      have ended : start = close := by simpa using spans.width.symm
      simp [members, skipped, ended, same, and_assoc]
  | @cons line text separator rest one more first apart others ih =>
    cases bound with
    | zero => exact absurd enough (by simp)
    | succ bound =>
      obtain ⟨lead, back⟩ := spans.split
      obtain ⟨here, between⟩ := lead.split
      obtain ⟨c, tail, rfl, -⟩ := first.exists_cons
      -- A member is not empty, so the loop has not come to the brace yet.
      have later : ¬ start ≥ close := by
        rw [spans.width]
        simp only [List.length_append, List.length_cons]
        omega
      have admits := before.admits whole
      have starts : Stops isLoose (source.drop (start + (c :: tail ++ separator).length)) := by
        rw [back.here]
        exact stops_of_membersText others stops
      obtain ⟨gap, skippedGap, skippedNext⟩ := separates_of_separator apart between starts
      have ran : member source testCase { cursor with index := start } =
          .ok (testCase.add one) { cursor with index := start + (c :: tail).length } :=
        member_of_memberText (skip_eq_ok_self skipped) here (atLine ▸ first) admits rfl
      have shorter : rest.length < bound := by
        simp only [List.length_append, List.length_cons] at enough
        omega
      have further : members source close bound (testCase.add one)
          { cursor with index := behindComma source gap } =
            .ok testCase' { cursor with index := close } :=
        ih skippedNext back (by rw [lead.lineAt_eq, atLine]) shorter (before.add admits)
          (by simpa using whole) (by simpa using name) (by simpa using constructorName)
      simp only [members, bind_eq_ok_iff, skipGap_eq_ok_iff, position_eq_ok_iff]
      refine ⟨(), _, ⟨start, skipped, rfl⟩, start, _, ⟨rfl, rfl⟩, ?_⟩
      simp only [later, if_false, bind_eq_ok_iff, skipGap_eq_ok_iff, skipComma_eq_ok_iff]
      exact ⟨_, _, ran, (), _, ⟨gap, skippedGap, rfl⟩, (), _, rfl, further⟩

end SuiteReader

end JasmineConversion
