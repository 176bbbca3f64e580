import JasmineConversion.Proofs.Suite.Coverage

/-! # The names of tests

A method whose name starts with the word `test` may become a test or a helper method. Which one it
becomes, and under which name, shows in the first characters behind the word and in what stands
between its parentheses. What stands at the place of a member is one member only, so this holds of
every method behind the members that are written in front of it.
-/

namespace JasmineConversion

open Text Source Pattern SuiteReader

variable {source : Text} {start stop stop' close : Nat} {member member' : Member}

/-! ## Members by their places -/

/-- A member starts with nothing loose. -/
theorem MemberAt.stops (here : MemberAt source start member stop) : Stops isLoose (source.drop start) := by
  obtain ⟨text, spans, written⟩ := here
  obtain ⟨c, more, rfl, loose⟩ := written.exists_cons
  rw [spans.here]
  exact (stops_cons _ _ _).mpr loose

/-- No member starts with the brace that closes a test case. -/
theorem MemberAt.ne_brace (here : MemberAt source start member stop) (rest : Text) :
    source.drop start ≠ '}' :: rest := by
  obtain ⟨text, spans, written⟩ := here
  obtain ⟨c, more, rfl, starts⟩ := written.exists_start
  rw [spans.here]
  intro same
  obtain ⟨rfl, -⟩ := List.cons.inj same
  exact absurd starts (by decide)

/-- The member that was added to a test case without any shows in it. -/
theorem TestCase.add_injective (name : Text) (same : TestCase.add { name } member = TestCase.add { name } member') :
    member = member' := by
  cases member <;> cases member' <;> simp_all [TestCase.add]

/-- No two members start at one index, since a reader finds both. -/
theorem MemberAt.unique (here : MemberAt source start member stop)
    (here' : MemberAt source start member' stop') : member = member' ∧ stop = stop' := by
  have skipped : skip source start = .ok start :=
    skip_of_stops (here.stops.mono fun c loose => (isLoose_eq_false_iff.mp loose).1)
  have read : ∀ {member stop}, MemberAt source start member stop →
      SuiteReader.member source { name := [] } ⟨start, []⟩ =
        .ok (TestCase.add { name := [] } member) ⟨stop, []⟩ := by
    rintro member stop ⟨text, spans, written⟩
    refine member_of_memberText skipped spans written ?_ rfl
    cases member <;> trivial
  have same := (read here).symm.trans (read here')
  simp only [EStateM.Result.ok.injEq, Cursor.mk.injEq, and_true] at same
  exact ⟨TestCase.add_injective [] same.1, same.2⟩

/-- The separator behind an index reaches as far as it can. -/
theorem Separator.stop_unique {separator separator' : Text} (apart : Separator separator)
    (spans : Spans source start separator stop) (stops : Stops isLoose (source.drop stop))
    (apart' : Separator separator') (spans' : Spans source start separator' stop')
    (stops' : Stops isLoose (source.drop stop')) : stop = stop' := by
  obtain ⟨between, skipped, further⟩ := separates_of_separator apart spans stops
  obtain ⟨between', skipped', further'⟩ := separates_of_separator apart' spans' stops'
  obtain rfl := Except.ok.inj (skipped.symm.trans skipped')
  exact Except.ok.inj (further.symm.trans further')

/-- Members in a row start with nothing loose. -/
theorem Tiles.stops {members : List Member} (tiled : Tiles source (MemberAt source) start members close)
    (ends : Stops isLoose (source.drop close)) : Stops isLoose (source.drop start) := by
  cases tiled with
  | nil => exact ends
  | cons here _ _ _ _ _ => exact here.stops

/-- Members that are written in front of an index are the first of all the members, and the others
start there. -/
theorem Tiles.exists_behind {first : Nat} {done members : List Member}
    (front : Tiles source (MemberAt source) first done start)
    (whole : Tiles source (MemberAt source) first members close)
    (starts : Stops isLoose (source.drop start)) (brace : source.drop close = '}' :: source.drop (close + 1)) :
    ∃ more, members = done ++ more ∧ Tiles source (MemberAt source) start more close := by
  have ends : Stops isLoose (source.drop close) := by
    rw [brace]
    exact (stops_cons _ _ _).mpr (by decide)
  induction front generalizing members with
  | nil => exact ⟨members, rfl, whole⟩
  | cons here _ apart apartSpans _ others ih =>
    cases whole with
    | nil => exact absurd brace (here.ne_brace _)
    | cons here' _ apart' apartSpans' _ others' =>
      obtain ⟨rfl, rfl⟩ := here.unique here'
      obtain rfl := apart.stop_unique apartSpans (others.stops starts) apart' apartSpans' (others'.stops ends)
      obtain ⟨more, rfl, behind⟩ := ih others' starts
      exact ⟨more, rfl, behind⟩

/-! ## Methods under a name that starts with the word -/

/-- A method with a name stands between two indexes. -/
def MethodAt (source : Text) (start : Nat) (name parameters : Text) (code : Code) (stop : Nat) : Prop :=
  ∃ key function, Key name key ∧ Spans source start (key ++ function) stop ∧
    FunctionText .accepted (lineAt source start + key.count '\n') function parameters code

/-- A run of characters without one underscore in front of it, unless nothing else is there. -/
def withoutUnderscore : Text → Text
  | '_' :: c :: more => c :: more
  | run => run

/-- A method is a test by what stands behind the word `test`: this starts as an identifier does, and
goes on so behind an underscore. Nothing but white space stands between its parentheses. -/
structure Recognised (run parameters : Text) : Prop where
  blank : isBlankText parameters = true
  starts : run.head?.any isIdentifierStart = true
  further : ∀ c more, run = '_' :: c :: more → isIdentifierStart c = true

/-- What a method becomes whose name is the word `test` and a run of characters. An underscore stays
when no identifier follows it, and a run that starts no identifier is no name of a test. -/
inductive ReadAs (run parameters : Text) (code : Code) : Member → Prop
  | test (recognised : Recognised run parameters) :
      ReadAs run parameters code (.test ⟨withoutUnderscore run, code⟩)
  | underscored {c : Char} {more : Text} (blank : isBlankText parameters = true)
      (split : run = '_' :: c :: more) (other : isIdentifierStart c = false) :
      ReadAs run parameters code (.test ⟨run, code⟩)
  | helper (other : isBlankText parameters = true → run.head?.any isIdentifierStart = false) :
      ReadAs run parameters code (.helper ⟨"test".toList ++ run, parameters, code⟩)

section

variable {run parameters : Text} {code : Code}

/-- A run without an underscore in front of more stays as it is. -/
theorem withoutUnderscore_of_ne {run : Text} (other : ∀ c more, run ≠ '_' :: c :: more) :
    withoutUnderscore run = run := by
  rw [withoutUnderscore]
  exact fun c more => other c more

/-- A method is the test that its run names exactly where it is recognised. -/
theorem ReadAs.eq_test_iff (becomes : ReadAs run parameters code member) :
    member = .test ⟨withoutUnderscore run, code⟩ ↔ Recognised run parameters := by
  cases becomes with
  | test recognised => simp [recognised]
  | @underscored c more blank split other =>
    refine iff_of_false ?_ fun recognised => ?_
    · rw [split]
      simp [withoutUnderscore]
    · rw [recognised.further c more split] at other
      cases other
  | helper other =>
    refine iff_of_false (by simp) fun recognised => ?_
    rw [recognised.starts] at other
    exact absurd (other recognised.blank) (by decide)

/-- The mark of a test is the word `test` and a run of characters that starts as an identifier. -/
theorem exists_mark_of_starts (blank : isBlankText parameters = true)
    (starts : run.head?.any isIdentifierStart = true) (parts : ∀ c ∈ run, isIdentifierPart c = true) :
    ∃ name, TestMark name ("test".toList ++ run) ∧ ReadAs run parameters code (.test ⟨name, code⟩) := by
  by_cases marked : ∃ c more, run = '_' :: c :: more
  · obtain ⟨c, more, rfl⟩ := marked
    by_cases further : isIdentifierStart c = true
    · have identifier : Identifier (c :: more) :=
        ⟨by simpa using further, fun d member => parts d (List.mem_cons_of_mem _ member)⟩
      refine ⟨c :: more, .underscore identifier, .test ⟨blank, starts, ?_⟩⟩
      rintro d rest same
      obtain ⟨-, same⟩ := List.cons.inj same
      obtain ⟨rfl, -⟩ := List.cons.inj same
      exact further
    · refine ⟨_, .plain ⟨starts, parts⟩ ?_, .underscored blank rfl (Bool.eq_false_iff.mpr further)⟩
      rintro rest same
      obtain ⟨-, rfl⟩ := List.cons.inj same
      simpa using further
  · have single : ∀ c more, run ≠ '_' :: c :: more := fun c more same => marked ⟨c, more, same⟩
    refine ⟨run, .plain ⟨starts, parts⟩ ?_, ?_⟩
    · rintro rest rfl
      cases rest with
      | nil => simp
      | cons c rest => exact absurd rfl (single c rest)
    · have recognised : Recognised run parameters :=
        ⟨blank, starts, fun c more same => absurd same (single c more)⟩
      simpa only [withoutUnderscore_of_ne single] using ReadAs.test recognised

/-- What is behind the word of a mark starts as an identifier does. -/
theorem starts_of_testMark {name : Text} (isMark : TestMark name ("test".toList ++ run)) :
    run.head?.any isIdentifierStart = true := by
  generalize same : "test".toList ++ run = mark at isMark
  cases isMark with
  | underscore identifier =>
    obtain rfl : run = '_' :: name := by simpa using same
    exact (by decide : isIdentifierStart '_' = true)
  | plain identifier _ =>
    obtain rfl : run = name := List.append_cancel_left same
    exact identifier.1

/-- A method under a name that starts with the word `test` is a member. -/
theorem MethodAt.exists_memberAt (method : MethodAt source start ("test".toList ++ run) parameters code stop)
    (parts : ∀ c ∈ run, isIdentifierPart c = true) :
    ∃ member, MemberAt source start member stop ∧ ReadAs run parameters code member := by
  obtain ⟨key, function, isKey, spans, written⟩ := method
  by_cases marked : isBlankText parameters = true ∧ run.head?.any isIdentifierStart = true
  · obtain ⟨name, isMark, becomes⟩ : ∃ name, TestMark name ("test".toList ++ run) ∧
        ReadAs run parameters code (.test ⟨name, code⟩) := exists_mark_of_starts marked.1 marked.2 parts
    exact ⟨_, ⟨_, spans, .test isMark isKey marked.1 written⟩, becomes⟩
  · have identifier : Identifier ("test".toList ++ run) := .append ⟨by decide, by decide⟩ parts
    have free : isBlankText parameters = true → FreeName ("test".toList ++ run) := fun blank =>
      ⟨by simp, by simp, fun name isMark => marked ⟨blank, starts_of_testMark isMark⟩⟩
    refine ⟨_, ⟨_, spans, .helper identifier free isKey written⟩, .helper fun blank => ?_⟩
    exact Bool.eq_false_iff.mpr fun starts => marked ⟨blank, starts⟩

end

/-! ## Every method of a test case -/

/-- A test case with a name stands behind an index, with its members between two others. The first of
these is where what the header is set apart by ends. -/
def CaseAt (source : Text) (index : Nat) (name : Text) (first close : Nat) : Prop :=
  ∃ begin constructor before opened, skip source index = .ok begin ∧ Opening constructor before ∧
    Spans source begin before opened ∧ BracesAt source name opened first close ∧
    Stops isLoose (source.drop first)

/-- Whatever method stands between two indexes behind other members, under the word `test` and a run of
characters, is one member of a test case. It is a test under the run, without an underscore in front,
exactly where it is recognised. -/
def TestCase.ReadsMethods (inner : TestCase) (source : Text) (first close : Nat) : Prop :=
  ∀ {done : List Member} {start stop : Nat} {run parameters : Text} {code : Code},
    Tiles source (MemberAt source) first done start →
    MethodAt source start ("test".toList ++ run) parameters code stop →
    (∀ c ∈ run, isIdentifierPart c = true) →
    ∃ member more, inner.Comprises (done ++ member :: more) ∧
      Tiles source (MemberAt source) start (member :: more) close ∧ ReadAs run parameters code member ∧
      (member = .test ⟨withoutUnderscore run, code⟩ ↔ Recognised run parameters)

/-- In every test case that is read, a method under the word `test` and a run of characters becomes the
test that the run names exactly where it is recognised. Otherwise it becomes a test that keeps its
underscore, or a helper method. -/
theorem testMethods_read {cursor cursor' : Cursor} {inner : TestCase}
    (ran : SuiteReader.testCase source cursor = .ok (some inner) cursor') :
    ∃ first close, CaseAt source cursor.index inner.name first close ∧
      inner.ReadsMethods source first close := by
  obtain ⟨begin, constructor, before, text, behind, members, skipped, spans, opening, -, -, written,
    comprises, -⟩ := exists_caseText_of_testCase ran
  obtain ⟨lead, -⟩ := spans.split
  obtain ⟨openingSpans, textSpans⟩ := lead.split
  rw [← openingSpans.lineAt_eq] at written
  obtain ⟨raw, rfl, -⟩ := exists_braces_of_caseText written
  obtain ⟨close, closed, here⟩ := containerAt_of_caseText textSpans written comprises
  rw [closed] at textSpans
  obtain ⟨-, -, brace⟩ := textSpans.inside
  cases here with
  | @testCase _ first _ _ members braces tiled comprises =>
  have ends : Stops isLoose (source.drop close) := by
    rw [brace]
    exact (stops_cons _ _ _).mpr (by decide)
  refine ⟨first, close,
    ⟨begin, constructor, before, _, skipped, opening, openingSpans, braces, tiled.stops ends⟩, ?_⟩
  intro done start stop run parameters code front method parts
  obtain ⟨member, isMember, becomes⟩ := method.exists_memberAt parts
  obtain ⟨more, rfl, behind⟩ := front.exists_behind tiled isMember.stops brace
  cases behind with
  | nil => exact absurd brace (isMember.ne_brace _)
  | @cons _ _ _ _ _ found more here ahead apart apartSpans inside others =>
    obtain ⟨rfl, rfl⟩ := isMember.unique here
    exact ⟨member, more, comprises, .cons here ahead apart apartSpans inside others, becomes,
      becomes.eq_test_iff⟩

/-- A test case with a test under a name and a method under a number. -/
def numberedCase : Text :=
  "\x7bname: 'b', test_x: function() \x7b go(); \x7d, test1: function() \x7b go(); \x7d\x7d".toList

/-- The test case is read with one test and one helper method. -/
theorem exists_numberedCase :
    ∃ inner cursor', SuiteReader.testCase numberedCase {} = .ok (some inner) cursor' ∧
      inner.tests = [⟨"x".toList, ⟨"go();".toList, 1⟩⟩] ∧
      inner.helpers = [⟨"test1".toList, [], ⟨"go();".toList, 1⟩⟩] := by
  obtain ⟨found, cursor', ran, listed⟩ := exists_eq_ok_of_any_run' (by decide +kernel :
    ((SuiteReader.testCase numberedCase).run' {}).any (fun found => found.any fun inner =>
      decide (inner.tests = [⟨"x".toList, ⟨"go();".toList, 1⟩⟩] ∧
        inner.helpers = [⟨"test1".toList, [], ⟨"go();".toList, 1⟩⟩])) = true)
  obtain ⟨inner, rfl, listed⟩ := (Option.any_eq_true _ _).mp listed
  exact ⟨inner, cursor', ran, of_decide_eq_true listed⟩

/-- The header of a container in braces is read where it stands, and what sets it apart is skipped. -/
theorem BracesAt.exists_header {name : Text} {opened first close : Nat}
    (braces : BracesAt source name opened first close) (braced : Braced (source.drop opened))
    (stops : Stops isLoose (source.drop first)) :
    ∃ stop next mark marked, header source opened false = .ok (some ⟨name, stop, close, none⟩) ∧
      skip source stop = .ok next ∧ MaybeMarked (source.drop first) marked mark ∧
      Spans source next mark first := by
  obtain ⟨text, mark, marked, named, marking, spans⟩ := braces.headed
  obtain ⟨inner, around, encloses⟩ := (matchBracket_brace_iff braced).mp braces.matched
  obtain ⟨before, behind⟩ := spans.split
  have ends : Stops isLoose (source.drop (opened + 1 + text.length)) := by
    rw [behind.here]
    cases marking with
    | none => exact stops
    | some written => exact written.stops _
  obtain ⟨stop, read, skipped⟩ :=
    header_of_headerText .none (.inr rfl) (.refl source opened) around encloses named before ends
  exact ⟨stop, _, mark, marked, read, skipped, marking, behind⟩

/-- The members of the test case start behind its header. -/
theorem first_of_numberedCase {name : Text} {first close : Nat}
    (here : CaseAt numberedCase 0 name first close) : first = 12 := by
  obtain ⟨begin, constructor, before, opened, skipped, opening, lead, braces, stops⟩ := here
  have starts : Stops goesOn (numberedCase.drop 0) := (stops_cons _ _ _).mpr (by decide)
  obtain rfl : 0 = begin := Except.ok.inj ((skip_of_stops starts).symm.trans skipped)
  obtain rfl : opened = 0 := by
    cases opening with
    | none => simpa using lead.width
    | some isCall =>
      obtain ⟨apart, between, behind, -, -, -, -, -, -, rfl⟩ := isCall
      have brace : numberedCase.drop 0 = '\x7b' :: numberedCase.drop 1 := by decide
      have word := brace.symm.trans lead.here
      simp at word
  obtain ⟨stop, next, mark, marked, read, skippedStop, marking, spans⟩ :=
    braces.exists_header ⟨_, rfl⟩ stops
  obtain ⟨found, read', holds⟩ := exists_eq_ok_of_any (by decide +kernel :
    (header numberedCase 0 false).toOption.any (fun found => found.any fun found =>
      (skip numberedCase found.stop).toOption == some 12) = true)
  obtain rfl := Except.ok.inj (read.symm.trans read')
  rw [Option.any_some, skippedStop] at holds
  obtain rfl : next = 12 := Option.some.inj (eq_of_beq holds)
  cases marking with
  | none => simpa using spans.width
  | some written =>
    have marked := written.isSome_key?_ttype
    rw [← spans.here] at marked
    exact absurd marked (by decide)

/-- The function that both methods are. -/
theorem goFunction (line : Nat) :
    FunctionText .accepted line "function() \x7b go(); \x7d".toList [] ⟨"go();".toList, line⟩ := by
  have head : FunctionHead [] "function() ".toList := ⟨[], [' '], by decide, by decide, by simp, by decide⟩
  have body : Dialect.accepted.body " go(); ".toList :=
    (by decide +kernel : Bracket.brace.Encloses " go(); ".toList)
  exact .intro head trivial body

/-- The method under a number, written as a test is. -/
theorem methodAt_numberedCase :
    MethodAt numberedCase 42 ("test".toList ++ "1".toList) [] ⟨"go();".toList, 1⟩ 69 := by
  have key : Key ("test".toList ++ "1".toList) "test1: ".toList := ⟨[], [' '], by decide, by decide, by decide⟩
  exact ⟨_, _, key, .of_drop (show numberedCase.drop 42 = _ ++ "\x7d".toList by decide) (by decide),
    goFunction _⟩

/-- The test is the only member in front of it. -/
theorem tiles_numberedCase :
    Tiles numberedCase (MemberAt numberedCase) 12 [.test ⟨"x".toList, ⟨"go();".toList, 1⟩⟩] 42 := by
  have mark : TestMark "x".toList "test_x".toList := .underscore ⟨by decide, by decide⟩
  have key : Key "test_x".toList "test_x: ".toList := ⟨[], [' '], by decide, by decide, by decide⟩
  have here : MemberAt numberedCase 12 (.test ⟨"x".toList, ⟨"go();".toList, 1⟩⟩) 40 :=
    ⟨_, .of_drop (show numberedCase.drop 12 = _ ++ numberedCase.drop 40 by decide) (by decide),
      .test mark key rfl (goFunction _)⟩
  have apart : Separator ([] ++ ',' :: [' ']) := .comma .nil (.blank (by decide) .nil)
  exact .cons here (by decide) apart
    (.of_drop (show numberedCase.drop 40 = _ ++ numberedCase.drop 42 by decide) (by decide))
    (Nat.le_refl 42) (.nil 42)

/-- The method under a number is not recognised, and becomes a helper method behind the test. -/
theorem numberedCase_read :
    ∃ inner cursor' first close, SuiteReader.testCase numberedCase {} = .ok (some inner) cursor' ∧
      CaseAt numberedCase 0 inner.name first close ∧
      Tiles numberedCase (MemberAt numberedCase) first [.test ⟨"x".toList, ⟨"go();".toList, 1⟩⟩] 42 ∧
      ∃ member more, inner.Comprises (.test ⟨"x".toList, ⟨"go();".toList, 1⟩⟩ :: member :: more) ∧
        Tiles numberedCase (MemberAt numberedCase) 42 (member :: more) close ∧
        member = .helper ⟨"test1".toList, [], ⟨"go();".toList, 1⟩⟩ ∧
        ¬ Recognised "1".toList [] := by
  obtain ⟨inner, cursor', ran, -⟩ := exists_numberedCase
  obtain ⟨first, close, isCase, reads⟩ := testMethods_read ran
  have front := tiles_numberedCase
  rw [← first_of_numberedCase isCase] at front
  obtain ⟨member, more, comprises, tiled, becomes, -⟩ :=
    reads front methodAt_numberedCase (by decide)
  refine ⟨inner, cursor', first, close, ran, isCase, front, member, more, comprises, tiled, ?_, ?_⟩
  · cases becomes with
    | test recognised => exact absurd recognised.starts (by decide)
    | underscored _ split _ => cases split
    | helper _ => rfl
  · exact fun recognised => absurd recognised.starts (by decide)

/-- The method under a number is no test of the test case. -/
theorem numberedMethod_not_test :
    ∃ inner cursor', SuiteReader.testCase numberedCase {} = .ok (some inner) cursor' ∧
      MethodAt numberedCase 42 ("test".toList ++ "1".toList) [] ⟨"go();".toList, 1⟩ 69 ∧
      inner.tests = [⟨"x".toList, ⟨"go();".toList, 1⟩⟩] ∧
      inner.helpers = [⟨"test1".toList, [], ⟨"go();".toList, 1⟩⟩] := by
  obtain ⟨inner, cursor', ran, tests, helpers⟩ := exists_numberedCase
  exact ⟨inner, cursor', ran, methodAt_numberedCase, tests, helpers⟩

end JasmineConversion
