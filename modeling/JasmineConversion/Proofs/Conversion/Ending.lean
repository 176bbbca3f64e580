import JasmineConversion.Proofs.Conversion.Surroundings
import JasmineConversion.Proofs.Suite.Coverage

/-! # Where the outer container ends

The outer container ends with the parenthesis that closes it, or with a semicolon behind that, and a
conversion keeps what follows. White space between the parenthesis and a semicolon belongs to the
container. White space that no semicolon follows is taken along as well, so it is missing from the
converted text: this is all that a conversion loses behind the container.
-/

namespace JasmineConversion

open Text Source Pattern

/-- The parenthesis at an index closes the outer container: it is the last of those that follow the
partner of the container's opening brace. -/
def ClosedAt (source : Text) (last : Nat) : Prop :=
  ∃ start anchor close parentheses, findAnchor source = some (start, anchor) ∧
    matchBracket source (SuiteReader.indexOf source anchor.body) = .ok close ∧
    OuterClose anchor.extClass.isSome parentheses ∧ Spans source (close + 1) parentheses (last + 1)

/-- A text begins with white space and goes on with something other than a semicolon, or ends. -/
def SpaceAlone (text : Text) : Prop :=
  ¬ Stops isBlank text ∧ Stops (· == ';') (trimStart text)

/-- The braces of a container that stands somewhere match. -/
theorem ContainerAt.matched {source : Text} {opened close : Nat} {tree : Container}
    (here : ContainerAt source opened tree close) : matchBracket source opened = .ok close := by
  cases here with
  | testCase braces => exact braces.matched
  | suite braces => exact braces.matched
  | bareSuite braces => exact braces.matched

/-- Behind the last parenthesis of a container that was read stands what ends it. -/
theorem exists_ending_of_read {source : Text} {found : OuterContainer}
    (ran : OuterContainer.read source = .ok found) :
    ∃ last ending, ClosedAt source last ∧ source.drop last = ')' :: source.drop (last + 1) ∧
      Ending (source.drop found.stop) ending ∧ Spans source (last + 1) ending found.stop := by
  obtain ⟨anchor, region, anchored, spans, -, written⟩ := SuiteReader.exists_outerText_of_read ran
  generalize found.tree = tree at written
  generalize ofIndent : anchor.indent = indent at written
  obtain @⟨indent, package, head, text, parentheses, ending, extClass, tree, isHead, inside, closes,
    ends⟩ := written
  obtain ⟨front, endingSpans⟩ := spans.split
  obtain ⟨front, closeSpans⟩ := front.split
  obtain ⟨headSpans, textSpans⟩ := front.split
  -- The anchor that was found is the one that the text was read with.
  have braced : Braced (source.drop (found.start + head.length)) := by
    obtain ⟨content, opens⟩ := SuiteReader.exists_brace_of_containerText inside
    exact ⟨_, by rw [textSpans.here, opens, List.cons_append]⟩
  have here := anchor?_eq_some_iff.mpr ⟨head, isHead, headSpans.here, braced⟩
  obtain rfl := Option.some.inj ((anchor?_of_findAnchor anchored).symm.trans here)
  have body : SuiteReader.indexOf source (source.drop (found.start + head.length)) =
      found.start + head.length := by
    apply SuiteReader.indexOf_drop
    obtain ⟨content, opens⟩ := braced
    simp [opens]
  rw [← headSpans.lineAt_eq] at inside
  obtain ⟨close, closed, container⟩ := containerAt_of_containerText textSpans inside
  rw [closed] at closeSpans
  obtain ⟨blank, rfl⟩ := closes.exists_front
  obtain ⟨-, parenthesis⟩ := closeSpans.split
  rw [parenthesis.width] at closeSpans endingSpans
  refine ⟨_, ending, ⟨_, _, close, _, anchored, ?_, closes, closeSpans⟩, ?_, ends, endingSpans⟩
  · exact body.symm ▸ container.matched
  · rw [parenthesis.here, parenthesis.width]
    rfl

/-- What ends the container is read off the text behind its last parenthesis: only white space alone
is there instead of a semicolon or nothing. -/
theorem Ending.cases_of_spans {source ending : Text} {start stop : Nat}
    (ends : Ending (source.drop stop) ending) (spans : Spans source start ending stop) :
    SpaceAlone (source.drop start) ∧ isBlankText ending = true ∧ ending ≠ [] ∨
      ¬ SpaceAlone (source.drop start) ∧ ((stop = start ∧ Stops (· == ';') (source.drop start)) ∨
        ∃ blank, isBlankText blank = true ∧ ending = blank ++ [';']) := by
  unfold SpaceAlone
  rw [spans.here]
  cases ends with
  | @semicolon blank isBlank =>
    refine .inr ⟨fun alone => ?_, .inr ⟨blank, isBlank, rfl⟩⟩
    have solid : Stops Text.isBlank ([';'] ++ source.drop stop) :=
      (stops_cons _ _ _).mpr (by decide)
    rw [List.append_assoc, trimStart_append isBlank solid] at alone
    exact absurd ((stops_cons _ _ _).mp alone.2) (by decide)
  | bare isBlank stops absent =>
    rw [trimStart_append isBlank stops]
    cases ending with
    | nil => exact .inr ⟨fun alone => alone.1 stops, .inl ⟨by simpa using spans.width, absent⟩⟩
    | cons c ending =>
      refine .inl ⟨⟨fun solid => ?_, absent⟩, isBlank, by simp⟩
      rw [isBlankText_cons, Bool.and_eq_true] at isBlank
      rw [List.cons_append, stops_cons, isBlank.1] at solid
      cases solid

/-- What starts with a character has it at its index. -/
theorem getElem?_of_drop {source rest : Text} {index : Nat} {c : Char}
    (here : source.drop index = c :: rest) : source[index]? = some c := by
  rw [← List.head?_drop, here]
  rfl

/-- A conversion that leaves the global names alone keeps the text behind the container. -/
theorem exists_front_of_convert {settings : Settings} (plain : settings.convertGlobals = false)
    {source output : Text} {found : OuterContainer} (ran : OuterContainer.read source = .ok found)
    (converted : convert settings source = .ok output) :
    ∃ front, output = front ++ source.drop found.stop := by
  obtain ⟨found', ran', -, rfl⟩ := exists_splice_of_convert converted
  obtain rfl := Except.ok.inj (ran.symm.trans ran')
  unfold OuterContainer.splice
  rw [plain]
  exact ⟨_, rfl⟩

/-- The outer container ends with its last parenthesis, or with a semicolon that only white space
keeps apart from it, unless white space alone stands behind the parenthesis: this is then the end of
the container. The converted text ends with all that follows. -/
theorem container_ends_behind_parenthesis {source : Text} {found : OuterContainer}
    (ran : OuterContainer.read source = .ok found) :
    ∃ last, ClosedAt source last ∧ source[last]? = some ')' ∧
      (¬ SpaceAlone (source.drop (last + 1)) →
        (found.stop = last + 1 ∧ Stops (· == ';') (source.drop (last + 1)) ∨
          ∃ blank, isBlankText blank = true ∧ Spans source (last + 1) (blank ++ [';']) found.stop)) ∧
      (SpaceAlone (source.drop (last + 1)) →
        ∃ blank, isBlankText blank = true ∧ blank ≠ [] ∧ Spans source (last + 1) blank found.stop) ∧
      ((source[found.stop - 1]? = some ')' ∨ source[found.stop - 1]? = some ';') ↔
        ¬ SpaceAlone (source.drop (last + 1))) ∧
      ∀ settings : Settings, settings.convertGlobals = false → ∀ output,
        convert settings source = .ok output → ∃ front, output = front ++ source.drop found.stop := by
  obtain ⟨last, ending, closed, parenthesis, ends, spans⟩ := exists_ending_of_read ran
  have character := getElem?_of_drop parenthesis
  refine ⟨last, closed, character, ?_, ?_, ?_, fun settings plain output =>
    exists_front_of_convert plain ran⟩
  all_goals rcases ends.cases_of_spans spans with ⟨alone, blank, nonempty⟩ | ⟨apart, shape⟩
  · exact fun apart => absurd alone apart
  · rintro -
    refine shape.imp_right ?_
    rintro ⟨blank, isBlank, rfl⟩
    exact ⟨blank, isBlank, spans⟩
  · exact fun _ => ⟨ending, blank, nonempty, spans⟩
  · exact fun alone => absurd alone apart
  · refine iff_of_false ?_ (not_not_intro alone)
    obtain ⟨front, c, rfl⟩ := (List.eq_nil_or_concat ending).resolve_left nonempty
    have white : Text.isBlank c = true := isBlankText_iff.mp blank c (by simp)
    rw [List.concat_eq_append] at spans
    have here : source[found.stop - 1]? = some c := by
      rw [spans.split.2.width, List.length_singleton, Nat.add_sub_cancel]
      exact getElem?_of_drop spans.split.2.here
    rw [here]
    rintro (same | same) <;> cases same <;> revert white <;> decide
  · refine iff_of_true ?_ apart
    rcases shape with ⟨stop, -⟩ | ⟨blank, -, rfl⟩
    · rw [stop, Nat.add_sub_cancel]
      exact .inl character
    · rw [spans.split.2.width, List.length_singleton, Nat.add_sub_cancel]
      exact .inr (getElem?_of_drop spans.split.2.here)

/-- A constructed test case with a semicolon on the next line. -/
def spacedCase : Text :=
  "tests.a.add( new Ext.test.TestCase( \x7bname: 'b'\x7d ) )\n; more();".toList

/-- A container ends behind its semicolon, also with white space in front of this. -/
theorem spacedCase_ends_behind_semicolon :
    ∃ found, OuterContainer.read spacedCase = .ok found ∧ ∃ last, ClosedAt spacedCase last ∧
      ¬ SpaceAlone (spacedCase.drop (last + 1)) ∧ ∃ front,
        convert { convertGlobals := false } spacedCase = .ok (front ++ " more();".toList) := by
  obtain ⟨found, ran, stop⟩ := exists_eq_ok_of_any (by decide +kernel :
    (OuterContainer.read spacedCase).toOption.any (·.stop == 53) = true)
  obtain ⟨output, converted, -⟩ := exists_eq_ok_of_any (by decide +kernel :
    (convert { convertGlobals := false } spacedCase).toOption.any (fun _ => true) = true)
  obtain ⟨last, closed, -, -, -, character, kept⟩ := container_ends_behind_parenthesis ran
  rw [beq_iff_eq] at stop
  rw [stop] at character kept
  obtain ⟨front, rfl⟩ := kept { convertGlobals := false } rfl output converted
  exact ⟨found, ran, last, closed, character.mp (.inr (by decide +kernel)), front, converted⟩

/-- A test case without a semicolon, and code on the next line. -/
def openedCase : Text :=
  "tests.a.add(\x7bname: 'b'\x7d)\nmore();".toList

/-- The line break behind the container is lost, though no semicolon follows it. -/
theorem openedCase_loses_line_break :
    ∃ found, OuterContainer.read openedCase = .ok found ∧
      openedCase[found.stop - 1]? = some '\n' ∧
      openedCase.drop (found.stop - 1) = "\nmore();".toList ∧
      ∃ output, convert { convertGlobals := false } openedCase = .ok output ∧
        ¬ "\nmore();".toList <:+ output := by
  obtain ⟨found, ran, stop⟩ := exists_eq_ok_of_any (by decide +kernel :
    (OuterContainer.read openedCase).toOption.any (·.stop == 25) = true)
  obtain ⟨output, converted, shown⟩ := exists_eq_ok_of_any (by decide +kernel :
    (convert { convertGlobals := false } openedCase).toOption.any
      (· == "describe( \"a.b\", function() \x7b\n\x7d );more();".toList) = true)
  rw [beq_iff_eq] at stop shown
  rw [shown] at converted
  refine ⟨found, ran, ?_, ?_, _, converted, by decide⟩ <;> rw [stop] <;> decide +kernel

end JasmineConversion
