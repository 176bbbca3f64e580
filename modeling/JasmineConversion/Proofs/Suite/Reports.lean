import JasmineConversion.Proofs.Body.Reports
import JasmineConversion.Proofs.Literal.Reports
import JasmineConversion.Proofs.Suite.Anchor
import JasmineConversion.Proofs.Suite.ContainerReading

/-! # What failing readings report

Every scan of a reading starts at a bracket or a delimiter that a pattern has just found, so that a
reading fails only because of the source text. Every error points into it.
-/

namespace JasmineConversion

open Text Source Pattern

namespace SuiteReader

variable {α β : Type} {source : Text}

/-- A reader whose errors lie in the source text and point into it. -/
def PointsInto (source : Text) (reader : SuiteReader α) : Prop :=
  ∀ ⦃cursor error cursor'⦄, reader cursor = .error error cursor' → error.Inside (lineCount source)

namespace PointsInto

theorem pure (value : α) : PointsInto source (Pure.pure value : SuiteReader α) := by
  intro cursor error cursor' failed
  cases failed

/-- Two readers point into the text if each of them does. -/
theorem bind {reader : SuiteReader α} {next : α → SuiteReader β} (first : PointsInto source reader)
    (second : ∀ ⦃cursor value between⦄,
      reader cursor = .ok value between → PointsInto source (next value)) :
    PointsInto source (reader >>= next) := by
  intro cursor error cursor' failed
  change EStateM.bind reader next cursor = _ at failed
  unfold EStateM.bind at failed
  cases ran : reader cursor with
  | ok value between =>
    rw [ran] at failed
    exact second ran failed
  | error error between =>
    rw [ran] at failed
    cases failed
    exact first ran

theorem position : PointsInto source SuiteReader.position := by
  intro cursor error cursor' failed
  cases failed

theorem rest : PointsInto source (SuiteReader.rest source) := by
  intro cursor error cursor' failed
  cases failed

theorem moveTo (index : Nat) : PointsInto source (SuiteReader.moveTo index) := by
  intro cursor error cursor' failed
  cases failed

theorem note (message : String) : PointsInto source (SuiteReader.note message) := by
  intro cursor error cursor' failed
  cases failed

/-- An outcome that reports inside of the text points into it. -/
theorem ofExcept {outcome : Except SourceError α}
    (reports : Reports (SourceError.Inside (lineCount source)) outcome) :
    PointsInto source (SuiteReader.ofExcept outcome) := by
  cases outcome with
  | ok value => exact pure value
  | error error =>
    intro cursor _ cursor' failed
    cases failed
    exact reports rfl

/-- An error at an index points into the text. -/
theorem throw {cause : Cause} (inCode : cause.InCode) (index : Nat) :
    PointsInto source (MonadExcept.throw (.ofIndex cause source index) : SuiteReader α) := by
  intro cursor error cursor' failed
  cases failed
  exact .ofIndex inCode source index

theorem misplacedAt (what : Misplaced) (index : Nat) :
    PointsInto source (SuiteReader.misplacedAt source what index : SuiteReader α) :=
  throw (.misplaced what) index

theorem misplaced (what : Misplaced) :
    PointsInto source (SuiteReader.misplaced source what : SuiteReader α) :=
  position.bind fun _ index _ _ => misplacedAt what index

theorem skipGap : PointsInto source (SuiteReader.skipGap source) :=
  position.bind fun _ index _ _ => (ofExcept (skip_reports source index)).bind fun _ next _ _ =>
    moveTo next

/-- Skipping a comma points nowhere. -/
theorem skipComma : PointsInto source (SuiteReader.skipComma source) := by
  refine rest.bind fun _ text _ _ => ?_
  split
  · exact position.bind fun _ index _ _ => moveTo (index + 1)
  · exact pure ()

/-- The search for a pattern points into the text. -/
theorem find (pattern : Text → Option α) : PointsInto source (SuiteReader.find source pattern) := by
  refine position.bind fun _ start _ _ => skipGap.bind fun _ _ _ _ => rest.bind fun _ text _ _ => ?_
  split
  · exact pure _
  · exact (moveTo start).bind fun _ _ _ _ => pure none

end PointsInto

/-- What a pattern found behind a gap stands at an index of the source. -/
theorem exists_drop_of_find {pattern : Text → Option α} {cursor cursor' : Cursor} {found : α}
    (ran : find source pattern cursor = .ok (some found) cursor') :
    ∃ start, pattern (source.drop start) = some found :=
  (find_eq_ok_iff.mp ran).imp fun _ here => here.2.1

/-- What follows a text at an index of the source stands where the reading looks for it. -/
theorem drop_indexOf {start : Nat} {front text : Text} (here : source.drop start = front ++ text) :
    source.drop (indexOf source text) = text :=
  drop_of_suffix ((here ▸ List.suffix_append front text).trans (List.drop_suffix start source))

/-- A brace behind a front stands at its index. -/
theorem opens_of_behind {start : Nat} {front text : Text} (here : source.drop start = front ++ text)
    (braced : Braced text) : (source.drop (indexOf source text)).head? = some Bracket.brace.opener := by
  obtain ⟨inside, begins⟩ := braced
  rw [drop_indexOf here, begins]
  rfl

/-- A quote behind a front opens a literal that is reported inside of the text. -/
theorem matchLiteral_of_behind {start : Nat} {front text : Text}
    (here : source.drop start = front ++ text)
    (quoted : text.head?.any Mode.isQuote = true) :
    Reports (SourceError.Inside (lineCount source)) (matchLiteral source (indexOf source text)) := by
  obtain ⟨quote, begins, isQuote⟩ := Option.any_eq_true _ _ |>.mp quoted
  refine matchLiteral_reports (Mode.isDelimiter_of_isQuote isQuote) ?_
  rw [drop_indexOf here, begins]

/-! ## Members -/

/-- The reader of bodies points into the text. -/
theorem body_pointsInto {opened : Nat} (opens : (source.drop opened).head? = some Bracket.brace.opener) :
    PointsInto source (body source opened) :=
  (PointsInto.ofExcept (matchBracket_reports .brace opens)).bind fun _ close _ _ =>
    (PointsInto.moveTo (close + 1)).bind fun _ _ _ _ => .pure _

/-- The reader of hooks points into the text. -/
theorem hook_pointsInto (source name : Text) : PointsInto source (hook source name) := by
  refine (PointsInto.find (hook? name)).bind fun cursor found between ran => ?_
  cases found with
  | none => exact .pure none
  | some text =>
    obtain ⟨start, matched⟩ := exists_drop_of_find ran
    obtain ⟨key, parameters, head, -, -, -, here, braced⟩ := hook?_eq_some_iff.mp matched
    exact (body_pointsInto (opens_of_behind here braced)).bind fun _ _ _ _ => .pure _

/-- The reader of tests under phrases reports inside of the text. -/
theorem quotedTest_reports (source : Text) (index : Nat) :
    Reports (SourceError.Inside (lineCount source)) (quotedTest source index) := by
  unfold quotedTest
  split
  · exact .ok none
  · next c rest here =>
    split
    · next quoted =>
      have matched : Reports _ (matchLiteral source index) :=
        matchLiteral_reports (Mode.isDelimiter_of_isQuote quoted) (by rw [here, List.head?_cons])
      refine matched.bind fun close _ => ?_
      dsimp only
      split
      · exact .ok none
      · exact .ok _
    · exact .ok none

/-- The reader of tests points into the text. -/
theorem test_pointsInto (source : Text) : PointsInto source (test source) := by
  refine PointsInto.position.bind fun _ start _ _ => PointsInto.skipGap.bind fun _ _ _ _ => ?_
  refine PointsInto.rest.bind fun cursor text between ran => ?_
  obtain ⟨rfl, -⟩ := rest_eq_ok_iff.mp ran
  split
  · next name text matched =>
    obtain ⟨mark, key, parameters, head, -, -, -, -, here, braced⟩ := test?_eq_some_iff.mp matched
    exact (body_pointsInto (opens_of_behind here braced)).bind fun _ _ _ _ => .pure _
  · refine PointsInto.position.bind fun _ index _ _ => ?_
    refine (PointsInto.ofExcept (quotedTest_reports source index)).bind fun _ outcome _ ran => ?_
    cases outcome with
    | none => exact (PointsInto.moveTo start).bind fun _ _ _ _ => .pure none
    | some found =>
      obtain ⟨name, opened⟩ := found
      obtain ⟨quote, key, parameters, head, rest, -, -, -, -, -, -, here, braced, rfl⟩ :=
        quotedTest_eq_some_iff.mp (ofExcept_eq_ok_iff.mp ran).1
      exact (body_pointsInto (opens_of_behind here braced)).bind fun _ _ _ _ => .pure _

/-- The reader of members without a name points into the text. -/
theorem placeholder_pointsInto (source : Text) : PointsInto source (placeholder source) := by
  refine (PointsInto.find placeholder?).bind fun cursor found between ran => ?_
  cases found with
  | none => exact .pure false
  | some text =>
    obtain ⟨start, matched⟩ := exists_drop_of_find ran
    obtain ⟨quote, key, parameters, head, -, -, -, here, braced⟩ := placeholder?_eq_some_iff.mp matched
    refine (PointsInto.ofExcept (matchBracket_reports .brace (opens_of_behind here braced))).bind ?_
    exact fun _ close _ _ => (PointsInto.moveTo (close + 1)).bind fun _ _ _ _ => .pure true

/-- The reader of helper methods points into the text. -/
theorem helper_pointsInto (source : Text) : PointsInto source (helper source) := by
  refine (PointsInto.find helper?).bind fun cursor found between ran => ?_
  cases found with
  | none => exact .pure none
  | some found =>
    obtain ⟨name, parameters, text⟩ := found
    obtain ⟨start, matched⟩ := exists_drop_of_find ran
    obtain ⟨key, head, -, -, -, here, braced⟩ := helper?_eq_some_iff.mp matched
    exact (body_pointsInto (opens_of_behind here braced)).bind fun _ _ _ _ => .pure _

/-- An error in a piece of the source, moved to the line where the piece starts, points into the
source. -/
theorem inside_of_piece {opened close : Nat} {piece : Text} {error : SourceError}
    (spans : Spans source opened piece close) (inside : error.Inside (lineCount piece)) :
    (error.relocate (lineAt source opened - 1)).Inside (lineCount source) := by
  have down : (lineAt source opened : Int) - 1 = ((source.take opened).count '\n' : Nat) := by
    rw [lineAt]
    omega
  rw [down]
  refine (inside.relocate _).mono ?_
  calc lineCount piece + (source.take opened).count '\n' = lineAt source close := by
        rw [spans.lineAt_eq, lineCount, lineAt]
        omega
    _ ≤ lineCount source := lineAt_le_lineCount source close

/-- The reader of directives points into the text. -/
theorem should_pointsInto (source : Text) : PointsInto source (should source) := by
  refine (PointsInto.find should?).bind fun cursor found between ran => ?_
  cases found with
  | none => exact .pure none
  | some text =>
    obtain ⟨start, matched⟩ := exists_drop_of_find ran
    obtain ⟨key, -, here, braced⟩ := should?_eq_some_iff.mp matched
    have opens := opens_of_behind here braced
    refine (PointsInto.ofExcept (matchBracket_reports .brace opens)).bind fun _ close _ closed => ?_
    obtain ⟨raw, spans, -⟩ := (matchBracket_eq_ok_iff opens).mp (ofExcept_eq_ok_iff.mp closed).1
    have piece : Reports (SourceError.Inside (lineCount source))
        ((Literal.read (slice source (indexOf source text) (close + 1))).mapError
          (·.relocate (lineAt source (indexOf source text) - 1))) := by
      rw [spans.slice_eq]
      exact (Literal.read_reports _).mapError fun error inside => inside_of_piece spans inside
    refine (PointsInto.ofExcept piece).bind fun _ literal _ _ => ?_
    split
    · exact .throw (.directive _ _) _
    · exact (PointsInto.moveTo (close + 1)).bind fun _ _ _ _ => .pure _

/-- What is given twice is reported in the text. -/
theorem once_pointsInto {twice : Bool} {what : Misplaced} {index : Nat} {value : α} :
    PointsInto source (do
      if twice then misplacedAt source what index
      return value) := by
  cases twice with
  | false => exact .pure value
  | true => exact (PointsInto.misplacedAt what index).bind fun _ _ _ _ => .pure value

/-- The reader of a member points into the text. -/
theorem member_pointsInto (source : Text) (testCase : TestCase) :
    PointsInto source (member source testCase) := by
  refine PointsInto.position.bind fun _ start _ _ => ?_
  refine (hook_pointsInto source _).bind fun _ asSetUp _ _ => ?_
  cases asSetUp with
  | some code => exact once_pointsInto
  | none =>
  refine (hook_pointsInto source _).bind fun _ asTearDown _ _ => ?_
  cases asTearDown with
  | some code => exact once_pointsInto
  | none =>
  refine (should_pointsInto source).bind fun _ asShould _ _ => ?_
  cases asShould with
  | some directives => exact once_pointsInto
  | none =>
  refine (test_pointsInto source).bind fun _ asTest _ _ => ?_
  cases asTest with
  | some found => exact .pure _
  | none =>
  refine (placeholder_pointsInto source).bind fun _ asPlaceholder _ _ => ?_
  cases asPlaceholder with
  | true => exact .pure _
  | false =>
  refine (helper_pointsInto source).bind fun _ asHelper _ _ => ?_
  cases asHelper with
  | some found => exact .pure _
  | none => exact .misplaced _

/-- The reader of members points into the text. -/
theorem members_pointsInto (source : Text) (close bound : Nat) (testCase : TestCase) :
    PointsInto source (members source close bound testCase) := by
  induction bound generalizing testCase with
  | zero => exact .misplaced _
  | succ bound ih =>
    refine PointsInto.skipGap.bind fun _ _ _ _ => PointsInto.position.bind fun _ index _ _ => ?_
    split
    · exact .pure testCase
    · refine (member_pointsInto source testCase).bind fun _ found _ _ => ?_
      exact PointsInto.skipGap.bind fun _ _ _ _ => PointsInto.skipComma.bind fun _ _ _ _ => ih found

/-! ## Containers -/

/-- The reader of headers reports inside of the text. -/
theorem header_reports (source : Text) (index : Nat) (allow : Bool) :
    Reports (SourceError.Inside (lineCount source)) (header source index allow) := by
  rw [header]
  dsimp only
  generalize calls : (if allow then construction? (source.drop index) else none) = called
  split
  · exact .ok none
  · next opens =>
    have braced : Braced ((called.map (·.2)).getD (source.drop index)) := by
      simpa [startsWith_brace_iff] using opens
    obtain ⟨before, -, -, here⟩ := exists_opening calls braced
    have opens := opens_of_behind here braced
    refine (skip_reports source _).bind fun nameIndex _ => ?_
    split
    · exact .ok none
    · next text keyed =>
      obtain ⟨key, -, keyHere, -⟩ := key?_eq_some_iff.mp keyed
      split
      · exact .ok none
      · next quoted =>
        simp only [Bool.not_eq_true', Bool.not_eq_false] at quoted
        refine (matchLiteral_of_behind keyHere quoted).bind fun nameClose _ => ?_
        refine (skip_reports source _).bind fun afterName _ => ?_
        exact (matchBracket_reports .brace opens).bind fun _ _ => .ok _

theorem hasTtype_reports (source : Text) (index : Nat) :
    Reports (SourceError.Inside (lineCount source)) (hasTtype source index) :=
  (skip_reports source index).bind fun _ _ => .ok _

/-- Skipping a mark points into the text. -/
theorem skipTtype_pointsInto (source : Text) : PointsInto source (skipTtype source) := by
  refine PointsInto.skipGap.bind fun _ _ _ _ => PointsInto.rest.bind fun cursor text _ ran => ?_
  obtain ⟨rfl, -⟩ := rest_eq_ok_iff.mp ran
  have further : PointsInto source (do skipGap source; skipComma source; skipGap source) :=
    PointsInto.skipGap.bind fun _ _ _ _ => PointsInto.skipComma.bind fun _ _ _ _ => .skipGap
  split
  · exact .pure ()
  · next text keyed =>
    obtain ⟨key, -, here, -⟩ := key?_eq_some_iff.mp keyed
    dsimp only
    split
    · next quoted =>
      refine (PointsInto.ofExcept (matchLiteral_of_behind here quoted)).bind fun _ close _ _ => ?_
      exact (PointsInto.moveTo (close + 1)).bind fun _ _ _ _ => further
    · split
      · exact (PointsInto.moveTo _).bind fun _ _ _ _ => further
      · exact (PointsInto.misplacedAt _ _).bind fun _ _ _ _ => further

/-- Closing a container points into the text. -/
theorem closeContainer_pointsInto (source : Text) (head : Header) :
    PointsInto source (closeContainer source head) := by
  obtain ⟨name, stop, close, constructor⟩ := head
  refine PointsInto.skipGap.bind fun _ _ _ _ => PointsInto.position.bind fun _ index _ _ => ?_
  cases constructor with
  | none =>
    have closes : PointsInto source (do moveTo (close + 1); return) :=
      (PointsInto.moveTo _).bind fun _ _ _ _ => .pure ()
    dsimp only
    split
    · exact (PointsInto.misplaced _).bind fun _ _ _ _ => closes
    · exact closes
  | some constructor =>
    have ends : PointsInto source (do moveTo ((← position) + 1)) :=
      PointsInto.position.bind fun _ index _ _ => .moveTo (index + 1)
    have closes : PointsInto source (do
        moveTo (close + 1)
        skipGap source
        if !startsWith [')'] (← rest source) then misplaced source (.constructorClose constructor)
        moveTo ((← position) + 1)) := by
      refine (PointsInto.moveTo _).bind fun _ _ _ _ => PointsInto.skipGap.bind fun _ _ _ _ => ?_
      refine PointsInto.rest.bind fun _ text _ _ => ?_
      dsimp only
      split
      · exact (PointsInto.misplaced _).bind fun _ _ _ _ => ends
      · exact ends
    dsimp only
    split
    · exact (PointsInto.misplaced _).bind fun _ _ _ _ => closes
    · exact closes

/-- The reader of what is in a test case points into the text. -/
theorem testCaseBody_pointsInto (source : Text) (head : Header) (constructorName : Option Text) :
    PointsInto source (testCaseBody source head constructorName) :=
  (members_pointsInto source _ _ _).bind fun _ found _ _ =>
    (closeContainer_pointsInto source head).bind fun _ _ _ _ => .pure found

/-- The reader of test cases points into the text. -/
theorem testCase_pointsInto (source : Text) : PointsInto source (testCase source) := by
  refine PointsInto.position.bind fun _ start _ _ => PointsInto.skipGap.bind fun _ _ _ _ => ?_
  have absent : PointsInto source (do moveTo start; return none : SuiteReader (Option TestCase)) :=
    (PointsInto.moveTo start).bind fun _ _ _ _ => .pure none
  refine PointsInto.position.bind fun _ index _ _ => ?_
  refine (PointsInto.ofExcept (header_reports source index true)).bind fun _ outcome _ _ => ?_
  cases outcome with
  | none => exact absent
  | some head =>
    dsimp only
    split
    · exact absent
    · refine (PointsInto.ofExcept (hasTtype_reports source head.stop)).bind fun _ marked _ _ => ?_
      cases marked with
      | true => exact absent
      | false =>
        refine (PointsInto.moveTo head.stop).bind fun _ _ _ _ => ?_
        refine (testCaseBody_pointsInto source head _).bind fun _ found _ _ => ?_
        exact (PointsInto.note _).bind fun _ _ _ _ => .pure (some found)

variable {children : (name : Text) → (close : Nat) → SuiteReader (List Container)}

/-- The reader of the items of a suite points into the text if that of its children does. -/
theorem suiteItems_pointsInto (inside : ∀ name close, PointsInto source (children name close))
    (head : Header) :
    PointsInto source (suiteItems source children head) := by
  refine PointsInto.skipGap.bind fun _ _ _ _ => PointsInto.rest.bind fun _ text _ ran => ?_
  obtain ⟨rfl, -⟩ := rest_eq_ok_iff.mp ran
  split
  · exact (closeContainer_pointsInto source head).bind fun _ _ _ _ => .pure []
  · next text listed =>
    obtain ⟨key, -, here⟩ := items?_eq_some_iff.mp listed
    have bracket : source.drop (indexOf source text - 1) = '[' :: text := by
      rw [indexOf, Nat.sub_sub]
      exact drop_indexOf here
    have opens : (source.drop (indexOf source text - 1)).head? = some Bracket.square.opener := by
      rw [bracket]
      rfl
    refine (PointsInto.ofExcept (matchBracket_reports .square opens)).bind fun _ close _ _ => ?_
    refine (PointsInto.moveTo _).bind fun _ _ _ _ => (inside head.name close).bind fun _ found _ _ => ?_
    refine (PointsInto.moveTo _).bind fun _ _ _ _ => PointsInto.skipGap.bind fun _ _ _ _ => ?_
    refine PointsInto.skipComma.bind fun _ _ _ _ => ?_
    exact (closeContainer_pointsInto source head).bind fun _ _ _ _ => .pure found

/-- The reader of suites points into the text if that of their children does. -/
theorem suiteWith_pointsInto (inside : ∀ name close, PointsInto source (children name close)) :
    PointsInto source (suiteWith source children) := by
  refine PointsInto.position.bind fun _ start _ _ => PointsInto.skipGap.bind fun _ _ _ _ => ?_
  have absent : PointsInto source (do moveTo start; return none : SuiteReader (Option Container)) :=
    (PointsInto.moveTo start).bind fun _ _ _ _ => .pure none
  refine PointsInto.position.bind fun _ index _ _ => ?_
  refine (PointsInto.ofExcept (header_reports source index true)).bind fun _ outcome _ _ => ?_
  cases outcome with
  | none => exact absent
  | some head =>
    dsimp only
    split
    · exact absent
    · refine (PointsInto.ofExcept (hasTtype_reports source head.stop)).bind fun _ marked _ _ => ?_
      cases marked with
      | false => exact absent
      | true =>
        refine (PointsInto.moveTo head.stop).bind fun _ _ _ _ => ?_
        refine (skipTtype_pointsInto source).bind fun _ _ _ _ => ?_
        refine (suiteItems_pointsInto inside head).bind fun _ found _ _ => ?_
        exact (PointsInto.note _).bind fun _ _ _ _ => .pure _

/-- The reader of items points into the text. -/
theorem items_pointsInto (source : Text) (bound : Nat) (name : Text) (close : Nat) :
    PointsInto source (items source bound name close) := by
  induction bound generalizing name close with
  | zero => exact .misplaced _
  | succ bound ih =>
    refine PointsInto.skipGap.bind fun _ _ _ _ => PointsInto.position.bind fun _ index _ _ => ?_
    split
    · exact .pure []
    · have further (child : Container) : PointsInto source (do
          skipGap source
          skipComma source
          return child :: (← items source bound name close)) := by
        refine PointsInto.skipGap.bind fun _ _ _ _ => PointsInto.skipComma.bind fun _ _ _ _ => ?_
        exact (ih name close).bind fun _ others _ _ => .pure (child :: others)
      refine (suiteWith_pointsInto ih).bind fun _ asSuite _ _ => ?_
      cases asSuite with
      | some child => exact (PointsInto.pure child).bind fun _ child _ _ => further child
      | none =>
        refine (testCase_pointsInto source).bind fun _ asCase _ _ => ?_
        cases asCase with
        | some child => exact (PointsInto.pure _).bind fun _ child _ _ => further child
        | none => exact (PointsInto.misplaced _).bind fun _ child _ _ => further child

/-- The reader of the outer suite points into the text. -/
theorem outerSuite_pointsInto (source : Text) : PointsInto source (outerSuite source) := by
  refine PointsInto.position.bind fun _ index _ _ => ?_
  refine (PointsInto.ofExcept (header_reports source index false)).bind fun _ outcome _ _ => ?_
  cases outcome with
  | none => exact .pure none
  | some head =>
    refine (PointsInto.moveTo head.stop).bind fun _ _ _ _ => ?_
    refine (skipTtype_pointsInto source).bind fun _ _ _ _ => PointsInto.rest.bind fun _ text _ _ => ?_
    split
    · exact (suiteItems_pointsInto (items_pointsInto source _) head).bind fun _ _ _ _ => .pure _
    · exact (testCaseBody_pointsInto source head none).bind fun _ _ _ _ => .pure _

/-- The reader of the outer container points into the text. -/
theorem outerTree_pointsInto (source : Text) (declared : Bool) :
    PointsInto source (outerTree source declared) := by
  unfold outerTree
  cases declared with
  | true => exact (testCase_pointsInto source).bind fun _ found _ _ => .pure _
  | false => exact outerSuite_pointsInto source

/-- Behind the opening of the outer container, reading fails only because of the code there. -/
theorem outer_pointsInto {source : Text} (opened : findAnchor source ≠ none) :
    PointsInto source (outer source) := by
  unfold outer
  split
  · next absent => exact absurd absent opened
  · next start anchor _ =>
    refine (PointsInto.note _).bind fun _ _ _ _ => (PointsInto.moveTo _).bind fun _ _ _ _ => ?_
    refine (outerTree_pointsInto source _).bind fun _ outcome _ _ => ?_
    cases outcome with
    | none => exact .misplaced _
    | some tree =>
      refine PointsInto.rest.bind fun _ text _ _ => ?_
      dsimp only
      split
      · exact .misplaced _
      · exact (PointsInto.moveTo _).bind fun _ _ _ _ => (PointsInto.note _).bind fun _ _ _ _ => .pure _

/-- A text without an anchor has no outer container. -/
theorem outer_of_unopened {source : Text} (unopened : findAnchor source = none) (cursor : Cursor) :
    outer source cursor = .error (.ofIndex .noOuterContainer source 0) cursor := by
  unfold outer
  rw [unopened]
  rfl

end SuiteReader

namespace OuterContainer

theorem read_of_unopened {source : Text} (unopened : findAnchor source = none) :
    read source = .error (.ofIndex .noOuterContainer source 0) := by
  rw [read, SuiteReader.outer_of_unopened unopened]

/-- Reading the outer container fails only because of the source text, and the error points into it. -/
theorem read_reports (source : Text) :
    Reports (SourceError.Within (lineCount source)) (read source) := by
  by_cases unopened : findAnchor source = none
  · rw [read_of_unopened unopened]
    exact .error (.ofIndex .noOuterContainer source 0)
  · intro error failed
    unfold read at failed
    split at failed
    · cases failed
    · next found cursor ran =>
      cases failed
      exact (SuiteReader.outer_pointsInto unopened ran).toWithin

/-- Reading reports that there is no outer container, or what is wrong with the code of one. -/
theorem cause_of_read {source : Text} {error : SourceError} (failed : read source = .error error) :
    findAnchor source = none ∧ error.cause = .noOuterContainer ∨ error.cause.InCode := by
  by_cases unopened : findAnchor source = none
  · rw [read_of_unopened unopened] at failed
    exact .inl ⟨unopened, congrArg SourceError.cause (Except.error.inj failed).symm⟩
  · unfold read at failed
    split at failed
    · cases failed
    · next found cursor ran =>
      cases failed
      exact .inr (SuiteReader.outer_pointsInto unopened ran).inCode

/-- Reading reports that there is no outer container exactly for a text without an anchor. -/
theorem read_noOuterContainer_iff {source : Text} :
    (∃ error, read source = .error error ∧ error.cause = .noOuterContainer) ↔ findAnchor source = none := by
  constructor
  · rintro ⟨error, failed, missing⟩
    rcases cause_of_read failed with ⟨unopened, -⟩ | inCode
    · exact unopened
    · exact absurd missing inCode.ne
  · intro unopened
    exact ⟨_, read_of_unopened unopened, rfl⟩

end OuterContainer

end JasmineConversion
