import JasmineConversion.Proofs.Suite.Anchor
import JasmineConversion.Proofs.Suite.ItemReading

/-! # Reading the outer container

The outer container stands between an anchor and the parentheses that close it. Reading finds
exactly the texts that are written so: what was read is written between the indexes that are given
back, and what is written behind a text without an anchor is read.
-/

namespace JasmineConversion

open Text Source Pattern JasmineConversion.Bracket

/-- The parentheses behind the outer container, two of them when it was constructed. -/
inductive OuterClose : (constructed : Bool) → Text → Prop
  | plain {blank : Text} (isBlank : isBlankText blank = true) : OuterClose false (blank ++ [')'])
  | constructed {first second : Text} (isBlank : isBlankText first = true)
      (isBlank' : isBlankText second = true) :
      OuterClose true (first ++ ')' :: second ++ [')'])

/-- What ends the outer container in front of a text: white space and a semicolon, or white space
alone where no semicolon follows. -/
inductive Ending (rest : Text) : Text → Prop
  | semicolon {blank : Text} (isBlank : isBlankText blank = true) : Ending rest (blank ++ [';'])
  | bare {blank : Text} (isBlank : isBlankText blank = true) (stops : Stops Text.isBlank rest)
      (absent : Stops (· == ';') rest) : Ending rest blank

/-- The outer container as it is written in front of a text, with its anchor and its end. -/
inductive OuterText (dialect : Dialect) (line : Nat) (rest : Text) :
    Text → (indent : Text) → Container → Prop
  | intro {indent package head text close ending : Text} {extClass : Option Text} {tree : Container}
      (anchored : AnchorHead indent package extClass head)
      (written : ContainerText dialect (line + head.count '\n')
        (extClass.any (endsWith "Case".toList)) text tree)
      (closes : OuterClose extClass.isSome close) (ends : Ending rest ending) :
      OuterText dialect line rest (head ++ text ++ close ++ ending) indent (tree.qualify package)

/-- The outer container closes with a parenthesis. -/
theorem OuterClose.exists_front {constructed : Bool} {close : Text}
    (closes : OuterClose constructed close) : ∃ front, close = front ++ [')'] := by
  cases closes with
  | plain _ => exact ⟨_, rfl⟩
  | constructed _ _ => exact ⟨_, rfl⟩

/-- What closes the outer container is not empty. -/
theorem OuterClose.ne_nil {constructed : Bool} {close : Text} (closes : OuterClose constructed close) :
    close ≠ [] := by
  obtain ⟨front, rfl⟩ := closes.exists_front
  simp

namespace Pattern

/-- White space and a semicolon behind a container are taken as its ending. -/
theorem semicolon_eq_iff {text rest : Text} :
    semicolon text = rest ↔ ∃ ending, Ending rest ending ∧ text = ending ++ rest := by
  unfold semicolon
  constructor
  · intro found
    obtain ⟨⟨blank, isBlank, split⟩, stops⟩ := trimStart_eq_iff.mp (rfl : trimStart text = _)
    cases ended : after? [';'] (trimStart text) with
    | some behind =>
      simp only [ended, Option.getD_some] at found
      subst found
      rw [after?_eq_some_iff.mp ended] at split
      exact ⟨_, .semicolon isBlank, by simpa using split⟩
    | none =>
      simp only [ended, Option.getD_none] at found
      subst found
      refine ⟨blank, .bare isBlank stops ?_, split⟩
      intro c member
      obtain ⟨more, here⟩ := List.head?_eq_some_iff.mp member
      rw [here, after?_singleton_cons] at ended
      rw [beq_eq_false_iff_ne]
      rintro rfl
      simp at ended
  · rintro ⟨ending, ends, rfl⟩
    cases ends with
    | @semicolon blank isBlank =>
      have trimmed : trimStart (blank ++ [';'] ++ rest) = [';'] ++ rest := by
        rw [List.append_assoc]
        exact trimStart_append isBlank ((stops_cons _ _ _).mpr (by decide))
      simp only [trimmed, after?_append, Option.getD_some]
    | bare isBlank stops absent =>
      simp only [trimStart_append isBlank stops]
      cases rest with
      | nil => rfl
      | cons c rest =>
        have other : ';' ≠ c := by
          rintro rfl
          simp at absent
        simp only [after?_singleton_cons, other, if_false, Option.getD_none]

/-- The end of the outer container is found exactly where it is written, with its ending. -/
theorem outerClose?_eq_some_iff {constructed : Bool} {text rest : Text} :
    outerClose? constructed text = some rest ↔
      ∃ close ending, OuterClose constructed close ∧ Ending rest ending ∧
        text = close ++ ending ++ rest := by
  have closer : ∀ {text behind : Text}, after? [')'] (trimStart text) = some behind ↔
      ∃ blank, isBlankText blank = true ∧ text = blank ++ ')' :: behind := by
    intro text behind
    rw [after?_eq_some_iff, trimStart_eq_iff]
    exact and_iff_left ((stops_cons _ _ _).mpr (by decide))
  simp only [outerClose?, Option.bind_eq_bind, Option.bind_eq_some_iff, closer]
  constructor
  · rintro ⟨behind, ⟨first, firstBlank, rfl⟩, found⟩
    cases constructed with
    | false =>
      obtain ⟨ending, ends, rfl⟩ := semicolon_eq_iff.mp (Option.some.inj found)
      exact ⟨_, ending, .plain firstBlank, ends, by simp⟩
    | true =>
      simp only [if_true, Option.bind_eq_some_iff, closer] at found
      obtain ⟨last, ⟨second, secondBlank, rfl⟩, found⟩ := found
      obtain ⟨ending, ends, rfl⟩ := semicolon_eq_iff.mp (Option.some.inj found)
      exact ⟨_, ending, .constructed firstBlank secondBlank, ends, by simp⟩
  · rintro ⟨close, ending, closes, ends, rfl⟩
    have ended : semicolon (ending ++ rest) = rest := semicolon_eq_iff.mpr ⟨ending, ends, rfl⟩
    cases closes with
    | @plain blank isBlank =>
      exact ⟨ending ++ rest, ⟨blank, isBlank, by simp⟩, by simp [ended]⟩
    | @constructed first second firstBlank secondBlank =>
      refine ⟨second ++ ')' :: (ending ++ rest), ⟨first, firstBlank, by simp⟩, ?_⟩
      simp only [if_true, Option.bind_eq_some_iff, closer]
      exact ⟨ending ++ rest, ⟨second, secondBlank, rfl⟩, by simp [ended]⟩

end Pattern

namespace SuiteReader

variable {source : Text} {cursor cursor' : Cursor}

/-! ## From the reading to the text -/

theorem closing_none {behind : Text} (closing : Closing none behind) : behind = [] := by
  cases closing
  rfl

/-- Where something follows a header and its mark, both are written up to there. -/
theorem exists_mark_of_skipTtype {opened start : Nat} {name : Text}
    (named : ∀ {next}, skip source cursor.index = .ok next → source.drop next ≠ [] →
      ∃ header, HeaderText name header ∧ Spans source opened header next)
    (passed : skipTtype source cursor = .ok () cursor')
    (skipped : skip source cursor'.index = .ok start) (more : source.drop start ≠ []) :
    start = cursor'.index ∧ ∃ header mark index marked, HeaderText name header ∧
      Spans source opened header index ∧ MaybeMarked (source.drop cursor'.index) marked mark ∧
      Spans source index mark cursor'.index ∧
      (marked = false → key? "ttype".toList (source.drop cursor'.index) = none) := by
  have moreBehind := ne_nil_of_le (le_of_skip skipped) more
  obtain ⟨index, skippedIndex, stays, -, marking⟩ := exists_markText_of_skipTtype passed moreBehind
  refine ⟨Except.ok.inj (skipped.symm.trans stays), ?_⟩
  rcases marking with ⟨absent, here⟩ | ⟨mark, markSpans, isMark⟩
  · obtain ⟨header, isHeader, headerSpans⟩ := named skippedIndex (here ▸ moreBehind)
    rw [here]
    exact ⟨header, [], _, false, isHeader, headerSpans, .none, .refl source _, fun _ => absent⟩
  · obtain ⟨header, isHeader, headerSpans⟩ :=
      named skippedIndex (ne_nil_of_le markSpans.start_le moreBehind)
    exact ⟨header, mark, index, true, isHeader, headerSpans, .some isMark, markSpans, by simp⟩

/-- The outer container is a suite when a list of items follows its header, and else a test
case. -/
theorem exists_containerText_of_outerSuite {tree : Container}
    (ran : outerSuite source cursor = .ok (some tree) cursor') :
    ∃ text, Spans source cursor.index text cursor'.index ∧
      ContainerText .accepted (lineAt source cursor.index) false text tree := by
  simp only [outerSuite, bind_eq_ok_iff, position_eq_ok_iff] at ran
  obtain ⟨_, _, ⟨rfl, rfl⟩, outcome, _, scanned, ran⟩ := ran
  obtain ⟨headed, rfl⟩ := ofExcept_eq_ok_iff.mp scanned
  cases outcome with
  | none => simp at ran
  | some head =>
    simp only [bind_eq_ok_iff, moveTo_eq_ok_iff, rest_eq_ok_iff] at ran
    obtain ⟨_, _, rfl, _, between, passed, _, _, ⟨rfl, rfl⟩, ran⟩ := ran
    obtain ⟨before, inner, opening, plain, braces, encloses, named⟩ := exists_headerText_of_header headed
    -- The outer container is never constructed, so its own brace is all that closes it.
    have unconstructed := plain rfl
    rw [unconstructed] at opening
    cases opening with
    | none =>
    rw [List.nil_append] at braces
    obtain ⟨-, -, closes⟩ := braces.inside
    have more : source.drop head.close ≠ [] := by simp [closes]
    by_cases listed : (items? (source.drop between.index)).isSome = true
    · simp only [listed, if_true, bind_eq_ok_iff, pure_eq_ok_iff, Option.some.injEq] at ran
      obtain ⟨found, _, ran, rfl, rfl⟩ := ran
      obtain ⟨start, skipped, inside, ⟨behind, closing, closingSpans⟩, list⟩ :=
        exists_list_of_suiteItems ran more
      obtain ⟨rfl, header, mark, index, marked, isHeader, headerSpans, marking, markSpans, -⟩ :=
        exists_mark_of_skipTtype named passed skipped (ne_nil_of_le inside more)
      rw [unconstructed] at closing
      obtain rfl := closing_none closing
      rcases list with ⟨absent, -⟩ | ⟨key, raw, separator, opened, close, log, last, isKey, keySpans,
        listSpans, enclosed, apart, apartSpans, children⟩
      · simp only [absent, Option.isSome_none, Bool.false_eq_true] at listed
      · obtain ⟨front, items, back, frame, whole, written⟩ := exists_frame_of_list
          (findsItems_items source _) braces encloses isHeader headerSpans marking markSpans isKey
          keySpans listSpans enclosed apart apartSpans children
        refine ⟨_, braces.append closingSpans, ?_⟩
        rw [List.append_nil, whole]
        exact .suite rfl frame written
    · simp only [listed, Bool.false_eq_true, if_false, bind_eq_ok_iff, pure_eq_ok_iff,
        Option.some.injEq] at ran
      obtain ⟨found, _, ran, rfl, rfl⟩ := ran
      obtain ⟨start, text, members, behind, skipped, textSpans, written, closing, closingSpans,
        comprises, name, constructed⟩ := exists_membersText_of_testCaseBody ran more
      obtain ⟨rfl, header, mark, index, marked, isHeader, headerSpans, marking, markSpans, unmarked⟩ :=
        exists_mark_of_skipTtype named passed skipped (ne_nil_of_le textSpans.start_le more)
      rw [unconstructed] at closing
      obtain rfl := closing_none closing
      refine ⟨_, braces.append closingSpans, ?_⟩
      rw [List.append_nil]
      rw [textSpans.here] at marking
      refine .testCase (caseText_of_pieces braces encloses isHeader headerSpans marking.of_append
        markSpans written textSpans ?_) (by simp) comprises name constructed
      intro plain
      have absent := unmarked plain
      rw [textSpans.here, closes] at absent
      rw [← written.isSome_key?_ttype (source.drop (head.close + 1)), absent]
      simp

/-- A declared test case stands in its braces without a constructor. -/
theorem exists_containerText_of_testCase {inner : TestCase} (braced : Braced (source.drop cursor.index))
    (ran : SuiteReader.testCase source cursor = .ok (some inner) cursor') :
    ∃ text, Spans source cursor.index text cursor'.index ∧
      ContainerText .accepted (lineAt source cursor.index) true text (.testCase inner) := by
  obtain ⟨start, constructor, before, text, behind, members, skipped, spans, opening, closing, -,
    written, comprises, constructed⟩ := exists_caseText_of_testCase ran
  have stays : skip source cursor.index = .ok cursor.index := by
    apply skip_of_stops
    exact braced.stops (by decide)
  obtain rfl := Except.ok.inj (stays.symm.trans skipped)
  obtain ⟨rest, here⟩ := braced
  cases opening with
  | none =>
    obtain rfl := closing_none closing
    refine ⟨text, by simpa using spans, ?_⟩
    exact .testCase (by simpa using written) (fun _ => rfl) comprises rfl (by simpa using constructed)
  | some isCall =>
    obtain ⟨apart, before, behind, -, -, -, -, -, -, rfl⟩ := isCall
    have brace := spans.here.symm.trans here
    simp at brace

/-- The outer container that is read is written there. -/
theorem exists_containerText_of_outerTree {declared : Bool} {tree : Container}
    (braced : Braced (source.drop cursor.index))
    (ran : outerTree source declared cursor = .ok (some tree) cursor') :
    ∃ text, Spans source cursor.index text cursor'.index ∧
      ContainerText .accepted (lineAt source cursor.index) declared text tree := by
  unfold outerTree at ran
  cases declared with
  | false => exact exists_containerText_of_outerSuite ran
  | true =>
    simp only [if_true, bind_eq_ok_iff, pure_eq_ok_iff, Option.map_eq_some_iff] at ran
    obtain ⟨_, _, ran, ⟨inner, rfl, rfl⟩, rfl⟩ := ran
    exact exists_containerText_of_testCase braced ran

/-- What is read has an anchor, a container behind it and an end. -/
theorem exists_tree_of_outer {found : OuterContainer} (ran : outer source cursor = .ok found cursor') :
    ∃ start anchor log tree between rest, findAnchor source = some (start, anchor) ∧
      outerTree source (anchor.extClass.any (endsWith "Case".toList))
        ⟨indexOf source anchor.body, log⟩ = .ok (some tree) between ∧
      outerClose? anchor.extClass.isSome (source.drop between.index) = some rest ∧
      found = ⟨tree.qualify anchor.package, start, indexOf source rest, indentLevel anchor.indent⟩ := by
  unfold outer at ran
  cases anchored : findAnchor source with
  | none => simp [anchored] at ran
  | some place =>
    obtain ⟨start, anchor⟩ := place
    simp only [anchored, bind_eq_ok_iff, note_eq_ok_iff, moveTo_eq_ok_iff] at ran
    obtain ⟨_, _, rfl, _, _, rfl, outcome, between, ranTree, ran⟩ := ran
    cases outcome with
    | none => simp at ran
    | some tree =>
      simp only [bind_eq_ok_iff, rest_eq_ok_iff] at ran
      obtain ⟨_, _, ⟨rfl, rfl⟩, ran⟩ := ran
      cases closed : outerClose? anchor.extClass.isSome (source.drop between.index) with
      | none => simp [closed] at ran
      | some rest =>
        simp only [closed, bind_eq_ok_iff, note_eq_ok_iff, moveTo_eq_ok_iff, pure_eq_ok_iff] at ran
        obtain ⟨_, _, rfl, _, _, rfl, rfl, rfl⟩ := ran
        exact ⟨start, anchor, _, tree, between, rest, rfl, ranTree, closed, rfl⟩

/-- An outer container is read from the start of the text. -/
theorem read_eq_ok_iff {found : OuterContainer} :
    OuterContainer.read source = .ok found ↔ ∃ last, outer source {} = .ok found last := by
  unfold OuterContainer.read
  cases outer source {} with
  | error error last => simp
  | ok found' last => simp

/-- What is read as the outer container is written between its indexes. -/
theorem exists_outerText_of_read {found : OuterContainer} (ran : OuterContainer.read source = .ok found) :
    ∃ anchor region, findAnchor source = some (found.start, anchor) ∧
      Spans source found.start region found.stop ∧
      found.indentLevel = indentLevel anchor.indent ∧
      OuterText .accepted (lineAt source found.start) (source.drop found.stop) region anchor.indent
        found.tree := by
  obtain ⟨last, ranOuter⟩ := read_eq_ok_iff.mp ran
  obtain ⟨start, anchor, log, tree, between, rest, anchored, ranTree, closed, rfl⟩ :=
    exists_tree_of_outer ranOuter
  obtain ⟨head, isHead, here, braced⟩ := anchor?_eq_some_iff.mp (anchor?_of_findAnchor anchored)
  have headSpans : Spans source start head (start + head.length) := .of_drop here rfl
  have brace := headSpans.drop_stop here
  have body : indexOf source anchor.body = start + head.length := by
    apply indexOf_of_drop here
    obtain ⟨inside, opens⟩ := braced
    simp [opens]
  rw [body] at ranTree
  obtain ⟨text, textSpans, written⟩ :=
    exists_containerText_of_outerTree (show Braced (source.drop (start + head.length)) from
      brace ▸ braced) ranTree
  obtain ⟨close, ending, closes, ends, behind⟩ := outerClose?_eq_some_iff.mp closed
  have nonempty : close ++ ending ++ rest ≠ [] := by simp [closes.ne_nil]
  have closeSpans : Spans source between.index (close ++ ending) (indexOf source rest) :=
    .of_drop behind (indexOf_of_drop behind nonempty)
  have whole := headSpans.append (textSpans.append closeSpans)
  refine ⟨anchor, _, anchored, whole, rfl, ?_⟩
  rw [headSpans.lineAt_eq] at written
  have ended : source.drop (indexOf source rest) = rest := closeSpans.drop_stop behind
  rw [ended]
  simpa using OuterText.intro isHead written closes ends

/-! ## From the text to the reading -/

/-- A declared test case that is written is read. -/
theorem testCase_of_containerText {text : Text} {tree : Container} {next : Nat}
    (spans : Spans source cursor.index text next)
    (written : ContainerText .accepted (lineAt source cursor.index) true text tree) :
    ∃ log inner, tree = .testCase inner ∧
      SuiteReader.testCase source cursor = .ok (some inner) ⟨next, log⟩ := by
  cases written with
  | suite undeclared => cases undeclared
  | @testCase name text marked members inner written unmarked comprises named unconstructed =>
    obtain rfl := unmarked rfl
    subst named
    have stays : skip source cursor.index = .ok cursor.index := by
      obtain ⟨content, rfl, -⟩ := exists_braces_of_caseText written
      apply skip_of_stops
      rw [spans.here]
      exact (stops_cons _ _ _).mpr (by decide)
    obtain ⟨log, ran⟩ := testCase_of_caseText stays .none .none (.refl source _) spans
      (.refl source next) (by simp) written comprises unconstructed
    exact ⟨log, inner, rfl, ran⟩

/-- The header of the outer container and its mark are passed, if there is one. -/
theorem skipTtype_of_maybeMarked {start next : Nat} {mark : Text} {marked : Bool}
    (skipped : skip source cursor.index = .ok start)
    (marking : MaybeMarked (source.drop next) marked mark) (spans : Spans source start mark next)
    (unmarked : marked = false → key? "ttype".toList (source.drop next) = none)
    (stops : Stops isLoose (source.drop next)) (more : source.drop next ≠ []) :
    skipTtype source cursor = .ok () { cursor with index := next } := by
  cases marking with
  | none =>
    obtain rfl : next = start := by simpa using spans.width
    exact skipTtype_of_unmarked skipped (unmarked rfl)
  | some isMark => exact skipTtype_of_markText skipped spans isMark stops more

/-- Behind its header and its mark, the outer container is a suite if a list of items follows, and else a
test case. -/
theorem outerSuite_apply {head : Header} {between : Cursor}
    (headed : header source cursor.index false = .ok (some head))
    (passed : skipTtype source { cursor with index := head.stop } = .ok () between) :
    outerSuite source cursor =
      (if (items? (source.drop between.index)).isSome then do
        return some (.suite head.name
          (← suiteItems source (SuiteReader.items source (source.length + 1)) head))
      else do
        return some (.testCase (← testCaseBody source head none)) : SuiteReader (Option Container))
        between := by
  have scanned : ofExcept (header source cursor.index false) cursor = .ok (some head) cursor :=
    ofExcept_eq_ok_iff.mpr ⟨headed, rfl⟩
  have position : SuiteReader.position cursor = .ok cursor.index cursor := rfl
  have moved : moveTo head.stop cursor = .ok () { cursor with index := head.stop } := rfl
  have rest : SuiteReader.rest source between = .ok (source.drop between.index) between := rfl
  simp only [outerSuite, bind_apply_of_ok position, bind_apply_of_ok scanned, bind_apply_of_ok moved,
    bind_apply_of_ok passed, bind_apply_of_ok rest]

/-- A test case in the place of the outer suite is read. -/
theorem outerSuite_of_caseText {text : Text} {marked : Bool} {inner : TestCase} {members : List Member}
    {next : Nat} (spans : Spans source cursor.index text next)
    (written : CaseText .accepted (lineAt source cursor.index) inner.name marked text members)
    (comprises : inner.Comprises members) (unconstructed : inner.constructorName = none) :
    outerSuite source cursor = .ok (some (.testCase inner)) ⟨next, cursor.log⟩ := by
  obtain ⟨stop, close, index, begin, mark, rest, rfl, headed, skipped, isMarked, marking, markSpans,
    restSpans, isMembers, brace⟩ := header_of_caseText .none
      (show false = true ∨ (none : Option Text) = none from .inr rfl) (.refl source cursor.index) spans
      written
  have more : source.drop close ≠ [] := by simp [brace]
  have stops : Stops isLoose (source.drop begin) := by
    rw [restSpans.here, brace]
    exact stops_of_membersText isMembers ((stops_cons _ _ _).mpr (by decide))
  have unmarked : marked = false → key? "ttype".toList (source.drop begin) = none := by
    rintro rfl
    cases marking with
    | none =>
    obtain rfl : begin = index := by simpa using markSpans.width
    obtain ⟨next, skippedNext, absent⟩ := hasTtype_eq_ok_iff.mp isMarked
    obtain rfl := Except.ok.inj (skipped.symm.trans skippedNext)
    simpa using absent
  have passed : skipTtype source ⟨stop, cursor.log⟩ = .ok () ⟨begin, cursor.log⟩ :=
    skipTtype_of_maybeMarked skipped marking markSpans unmarked stops
      (ne_nil_of_le restSpans.start_le more)
  have unlisted : items? (source.drop begin) = none := by
    rw [restSpans.here, brace]
    exact isMembers.items?_eq_none _
  have ran : testCaseBody source ⟨inner.name, stop, close, none⟩ none ⟨begin, cursor.log⟩ =
      .ok inner ⟨close + 1, cursor.log⟩ :=
    testCaseBody_of_membersText
      (skip_of_stops (stops.mono fun c loose => (isLoose_eq_false_iff.mp loose).1)) restSpans isMembers
      brace .none (.refl source _) comprises rfl unconstructed
  rw [outerSuite_apply headed passed]
  simp only [unlisted, Option.isSome_none, Bool.false_eq_true, if_false, bind_apply_of_ok ran]
  rfl

/-- A suite whose items are written is read as the outer one. -/
theorem outerSuite_of_frame {name front items back : Text} {marked : Bool} {children : List Container}
    {next : Nat} (frame : SuiteFrame .accepted name marked items front back)
    (spans : Spans source cursor.index (front ++ items ++ back) next)
    (written : ItemsText .accepted (lineAt source cursor.index + front.count '\n') items children) :
    ∃ log, outerSuite source cursor = .ok (some (.suite name children)) ⟨next, log⟩ := by
  obtain ⟨inner, header, mark, key, gap, separator, between, markStop, index, begin, close, stop, rfl,
    braces, encloses, named, headerSpans, marking, markSpans, isKey, keySpans, list, listed, isGap,
    gapSpans, itemsSpans, apart, apartSpans, atLine⟩ := pieces_of_suiteFrame frame spans
  obtain ⟨-, -, brace⟩ := braces.inside
  have more : source.drop stop ≠ [] := by simp [brace]
  obtain ⟨tail, rfl, -, -⟩ := isKey.split
  have opens : source.drop markStop = 'i' :: _ := keySpans.here
  have stops : Stops isLoose (source.drop markStop) := by
    rw [opens]
    exact (stops_cons _ _ _).mpr (by decide)
  -- The key of the list begins with another character than a mark.
  have unmarked : marked = false → key? "ttype".toList (source.drop markStop) = none := by
    intro _
    rw [opens]
    rfl
  have inside := (keySpans.append (list.append apartSpans)).start_le
  have starts : Stops isLoose (source.drop between) := by
    rw [markSpans.here]
    cases marking with
    | none => exact stops
    | some isMark => exact isMark.stops _
  obtain ⟨headStop, headed, skipped⟩ := header_of_headerText .none
    (show false = true ∨ (none : Option Text) = none from .inr rfl) (.refl source cursor.index) braces
    encloses named headerSpans starts
  have passed : skipTtype source ⟨headStop, cursor.log⟩ = .ok () ⟨markStop, cursor.log⟩ :=
    skipTtype_of_maybeMarked skipped marking markSpans unmarked stops (ne_nil_of_le inside more)
  have found : (items? (source.drop markStop)).isSome = true := by
    obtain ⟨bracket, -, -⟩ := list.inside
    rw [items?_eq_some_iff.mpr ⟨_, isKey, keySpans.here.trans (congrArg _ bracket.here)⟩]
    rfl
  have enough : items.length < source.length + 1 := by
    have lengths := congrArg List.length itemsSpans.here
    simp only [List.length_append, List.length_drop] at lengths
    omega
  obtain ⟨log, ran⟩ : ∃ log, ∀ headStop', suiteItems source (SuiteReader.items source (source.length + 1))
      ⟨name, headStop', stop, none⟩ ⟨markStop, cursor.log⟩ = .ok children ⟨stop + 1, log⟩ :=
    suiteItems_of_frame ⟨name, 0, stop, none⟩ isKey keySpans list listed isGap gapSpans itemsSpans apart
      apartSpans brace .none (.refl source _) atLine written (readsItems_of_itemsText written enough)
      (skip_of_stops (stops.mono fun c loose => (isLoose_eq_false_iff.mp loose).1))
  refine ⟨log, ?_⟩
  rw [outerSuite_apply headed passed]
  simp only [found, if_true, bind_apply_of_ok (ran headStop)]
  rfl

/-- A container that is written is read as the outer one. -/
theorem outerSuite_of_containerText {text : Text} {tree : Container} {next : Nat}
    (spans : Spans source cursor.index text next)
    (written : ContainerText .accepted (lineAt source cursor.index) false text tree) :
    ∃ log, outerSuite source cursor = .ok (some tree) ⟨next, log⟩ := by
  cases written with
  | testCase written unmarked comprises named unconstructed =>
    subst named
    exact ⟨_, outerSuite_of_caseText spans written comprises unconstructed⟩
  | suite undeclared frame written => exact outerSuite_of_frame frame spans written

/-- A container that is written is read as the outer one, whether it is declared a test case or not. -/
theorem outerTree_of_containerText {declared : Bool} {text : Text} {tree : Container} {next : Nat}
    (spans : Spans source cursor.index text next)
    (written : ContainerText .accepted (lineAt source cursor.index) declared text tree) :
    ∃ log, outerTree source declared cursor = .ok (some tree) ⟨next, log⟩ := by
  unfold outerTree
  cases declared with
  | false => exact outerSuite_of_containerText spans written
  | true =>
    obtain ⟨log, inner, rfl, ran⟩ := testCase_of_containerText spans written
    simp only [if_true, bind_eq_ok_iff, pure_eq_ok_iff]
    exact ⟨log, _, _, ran, rfl, rfl⟩

/-- A container is written from its brace on. -/
theorem exists_brace_of_containerText {dialect : Dialect} {line : Nat} {declared : Bool} {text : Text}
    {tree : Container} (written : ContainerText dialect line declared text tree) :
    ∃ inside, text = '{' :: inside := by
  cases written with
  | testCase written =>
    obtain ⟨-, -, -, -, -⟩ := written
    exact ⟨_, rfl⟩
  | suite undeclared frame written =>
    obtain ⟨-, -, -, -, -, -, -⟩ := frame
    exact ⟨_, rfl⟩

/-- The outer container is read wherever it is written, behind a text without an anchor. -/
theorem read_of_outerText {pre region post indent : Text} {tree : Container}
    (absent : findAnchor pre = none) (fresh : pre = [] ∨ endsWith ['\n'] pre = true)
    (written : OuterText .accepted (1 + pre.count '\n') post region indent tree) :
    OuterContainer.read (pre ++ region ++ post) =
      .ok ⟨tree, pre.length, pre.length + region.length, indentLevel indent⟩ := by
  obtain @⟨indent, package, head, text, close, ending, extClass, tree, anchored, written, closes, ends⟩ :=
    written
  obtain ⟨inside, opens⟩ := exists_brace_of_containerText written
  -- The places of the parts are found in the source as a whole, so that it is not taken apart again.
  generalize whole : pre ++ (head ++ text ++ close ++ ending) ++ post = source
  have front : Spans source 0 pre pre.length := by
    apply Spans.of_drop
    · rw [← whole, List.append_assoc]
      rfl
    · simp
  have here : source.drop pre.length = head ++ (text ++ (close ++ ending ++ post)) := by
    apply front.drop_stop
    rw [← whole]
    simp
  have headSpans : Spans source pre.length head (pre.length + head.length) := .of_drop here rfl
  have body := headSpans.drop_stop here
  have textSpans : Spans source (pre.length + head.length) text
      (pre.length + head.length + text.length) := .of_drop body rfl
  have behind := textSpans.drop_stop body
  have line : lineAt source pre.length = 1 + pre.count '\n' := by
    rw [front.lineAt_eq]
    rfl
  rw [← line, ← headSpans.lineAt_eq] at written
  have braced : Braced (source.drop (pre.length + head.length)) := by
    rw [body, opens]
    exact ⟨_, rfl⟩
  have more : source.drop (pre.length + head.length) ≠ [] := by
    obtain ⟨_, brace⟩ := braced
    simp [brace]
  have found : findAnchor source = some (pre.length,
      ⟨indent, package, extClass, source.drop (pre.length + head.length)⟩) := by
    have isAnchor := anchor?_eq_some_iff.mpr ⟨head, anchored, headSpans.here, braced⟩
    have place := findAnchorFrom_append isAnchor pre true 0 absent (fresh.imp_left fun empty => ⟨empty, rfl⟩)
    rw [Nat.zero_add, ← front.here] at place
    exact place
  have closed : outerClose? extClass.isSome (source.drop (pre.length + head.length + text.length)) =
      some post := outerClose?_eq_some_iff.mpr ⟨close, ending, closes, ends, behind⟩
  have stop : indexOf source post = pre.length + (head ++ text ++ close ++ ending).length := by
    rw [indexOf_of_drop behind (by simp [closes.ne_nil])]
    simp only [List.length_append]
    omega
  have reads : ∀ log, ∃ log', outerTree source (extClass.any (endsWith "Case".toList))
      ⟨pre.length + head.length, log⟩ =
        .ok (some tree) ⟨pre.length + head.length + text.length, log'⟩ :=
    fun log => outerTree_of_containerText textSpans written
  apply read_eq_ok_iff.mpr
  unfold outer
  simp only [found, indexOf_drop more, bind_eq_ok_iff, note_eq_ok_iff, moveTo_eq_ok_iff]
  obtain ⟨log, ran⟩ := reads _
  apply Exists.intro
  refine ⟨(), _, rfl, (), _, rfl, _, _, ran, ?_⟩
  simp only [bind_eq_ok_iff, rest_eq_ok_iff]
  refine ⟨_, _, ⟨rfl, rfl⟩, ?_⟩
  simp only [closed, stop, bind_eq_ok_iff, note_eq_ok_iff, moveTo_eq_ok_iff]
  exact ⟨(), _, rfl, (), _, rfl, rfl⟩

end SuiteReader

end JasmineConversion
