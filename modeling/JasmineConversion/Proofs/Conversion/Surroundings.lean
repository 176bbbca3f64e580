import JasmineConversion.Conversion
import JasmineConversion.Proofs.Suite.Relocation

/-! # The text around the outer container

The outer container is found and read in the same way whatever stands around it, as long as no
other anchor comes first. Its text moves it to other lines and leaves it otherwise alone, so its
conversion takes its place and the text around it is kept.
-/

namespace JasmineConversion

open Text Source Pattern

/-- What ends with a semicolon ends so in front of any text. -/
theorem OuterText.of_semicolon {dialect : Dialect} {line : Nat} {rest text indent : Text}
    {tree : Container} (written : OuterText dialect line rest text indent tree)
    (ends : endsWith [';'] text = true) (post : Text) : OuterText dialect line post text indent tree := by
  obtain @⟨indent, package, head, inner, close, ending, extClass, tree, anchored, written, closes, ended⟩ :=
    written
  refine .intro anchored written closes ?_
  cases ended with
  | semicolon isBlank => exact .semicolon isBlank
  | bare isBlank stops absent =>
    obtain ⟨front, split⟩ := endsWith_iff.mp ends
    have last : (head ++ inner ++ close ++ ending).getLast? = some ';' := by
      rw [split]
      exact List.getLast?_concat
    rcases List.eq_nil_or_concat ending with rfl | ⟨blank, c, rfl⟩
    · obtain ⟨inside, rfl⟩ := closes.exists_front
      simp at last
    · have same : c = ';' := by simpa using last
      have white : Text.isBlank c = true := isBlankText_iff.mp isBlank c (by simp)
      rw [same] at white
      exact absurd white (by decide)

/-- The conversion of a text whose outer container is known. -/
theorem convert_of_read {settings : Settings} {source : Text} {found : OuterContainer}
    (ran : OuterContainer.read source = .ok found) :
    convert settings source =
      match (found.tree.adapt settings.bodyStyle).2.failure with
      | some error => .error error
      | none => .ok (found.splice settings source
          (Spec.write (settings.specStyle found) (found.tree.adapt settings.bodyStyle).1)) := by
  obtain ⟨cursor, read⟩ := SuiteReader.read_eq_ok_iff.mp ran
  unfold convert Conversion.run
  rw [read]
  dsimp only
  cases (found.tree.adapt settings.bodyStyle).2.failure <;> rfl

/-- A conversion succeeds with the spec for the adapted tree in place of the outer container. -/
theorem exists_splice_of_convert {settings : Settings} {source output : Text}
    (converted : convert settings source = .ok output) :
    ∃ found, OuterContainer.read source = .ok found ∧
      (found.tree.adapt settings.bodyStyle).2.failure = none ∧
      output = found.splice settings source
        (Spec.write (settings.specStyle found) (found.tree.adapt settings.bodyStyle).1) := by
  cases outer : SuiteReader.outer source {} with
  | error error cursor =>
    unfold convert Conversion.run at converted
    rw [outer] at converted
    cases converted
  | ok found cursor =>
    have ran := SuiteReader.read_eq_ok_iff.mpr ⟨cursor, outer⟩
    rw [convert_of_read ran] at converted
    cases failed : (found.tree.adapt settings.bodyStyle).2.failure with
    | some error =>
      rw [failed] at converted
      cases converted
    | none =>
      rw [failed] at converted
      cases converted
      exact ⟨found, ran, failed, rfl⟩

/-- A container that is read from a text is read from its own text alone, and from any text around
that. -/
theorem read_surrounded {source : Text} {found : OuterContainer}
    (ran : OuterContainer.read source = .ok found)
    (ends : endsWith [';'] (slice source found.start found.stop) = true) {pre : Text}
    (absent : findAnchor pre = none) (fresh : pre = [] ∨ endsWith ['\n'] pre = true) (post : Text) :
    OuterContainer.read (pre ++ slice source found.start found.stop ++ post) =
      .ok ⟨found.tree.mapLines (· + (1 + pre.count '\n' - lineAt source found.start : Int)), pre.length,
        pre.length + (slice source found.start found.stop).length, found.indentLevel⟩ := by
  obtain ⟨anchor, region, -, spans, indented, written⟩ := SuiteReader.exists_outerText_of_read ran
  rw [spans.slice_eq] at ends ⊢
  rw [indented]
  apply SuiteReader.read_of_outerText absent fresh
  apply (written.of_semicolon ends post).move
  omega

/-- Without a list of names to bring up to date, a spec takes the place of its region. -/
theorem splice_of_surrounded {settings : Settings} (plain : settings.convertGlobals = false)
    {found : OuterContainer} (pre region post : Text) (starts : found.start = pre.length)
    (stops : found.stop = pre.length + region.length) (spec : Text) :
    found.splice settings (pre ++ region ++ post) spec = pre ++ spec ++ post := by
  have front : (pre ++ region ++ post).take found.start = pre := by
    rw [starts, List.append_assoc, List.take_left]
  have back : (pre ++ region ++ post).drop found.stop = post := by
    rw [stops, ← List.length_append, List.drop_left]
  unfold OuterContainer.splice
  rw [front, back, plain]
  rfl

/-- A container that only stands on other lines in a larger text is converted in its place. -/
theorem convert_surrounded {settings : Settings} (plain : settings.convertGlobals = false)
    {alone : OuterContainer} {pre region post : Text} {lines : Int}
    (ran : OuterContainer.read region = .ok alone) (starts : alone.start = 0)
    (stops : alone.stop = region.length)
    (surrounded : OuterContainer.read (pre ++ region ++ post) =
      .ok ⟨alone.tree.mapLines (· + lines), pre.length, pre.length + region.length, alone.indentLevel⟩) :
    convert settings (pre ++ region ++ post) =
      match convert settings region with
      | .ok converted => .ok (pre ++ converted ++ post)
      | .error error => .error (error.relocate lines) := by
  rw [convert_of_read surrounded, convert_of_read ran, Container.adapt_mapLines]
  simp only [Trail.relocate, Spec.write_mapLines]
  cases failed : (alone.tree.adapt settings.bodyStyle).2.failure with
  | some error => rfl
  | none =>
    have own := splice_of_surrounded plain [] region [] starts (by simp [stops])
      (Spec.write (settings.specStyle alone) (alone.tree.adapt settings.bodyStyle).1)
    rw [List.nil_append, List.append_nil, List.nil_append, List.append_nil] at own
    simp only [Option.map_none, own]
    rw [splice_of_surrounded plain pre region post rfl rfl]
    rfl

/-- The text around the outer container only moves it to other lines: it is read and converted
alone as it is among any other text. -/
theorem conversion_independent_of_surroundings {source : Text} {found : OuterContainer}
    (ran : OuterContainer.read source = .ok found)
    (ends : endsWith [';'] (slice source found.start found.stop) = true) {pre : Text}
    (absent : findAnchor pre = none) (fresh : pre = [] ∨ endsWith ['\n'] pre = true) (post : Text) :
    ∃ alone, OuterContainer.read (slice source found.start found.stop) = .ok alone ∧
      OuterContainer.read (pre ++ slice source found.start found.stop ++ post) =
        .ok ⟨alone.tree.mapLines (· + pre.count '\n'), pre.length,
          pre.length + (slice source found.start found.stop).length, alone.indentLevel⟩ ∧
      ∀ settings : Settings, settings.convertGlobals = false →
        convert settings (pre ++ slice source found.start found.stop ++ post) =
          match convert settings (slice source found.start found.stop) with
          | .ok converted => .ok (pre ++ converted ++ post)
          | .error error => .error (error.relocate (pre.count '\n')) := by
  have whole := read_surrounded ran ends absent fresh post
  have alone := read_surrounded ran ends (show findAnchor [] = none from rfl) (.inl rfl) []
  generalize slice source found.start found.stop = region at *
  rw [List.nil_append, List.append_nil] at alone
  have moved : found.tree.mapLines (· + (1 + pre.count '\n' - lineAt source found.start : Int)) =
      (found.tree.mapLines (· + (1 + ([] : Text).count '\n' - lineAt source found.start : Int))).mapLines
        (· + pre.count '\n') := by
    rw [Container.mapLines_mapLines]
    congr 1
    funext line
    simp only [Function.comp, List.count_nil]
    omega
  rw [moved] at whole
  refine ⟨_, alone, whole, ?_⟩
  intro settings plain
  exact convert_surrounded plain alone rfl (by simp) whole

/-- A test case behind a comment and in front of code. -/
def commentedCase : Text :=
  "// old tests\n  tests.a.add(\x7bname: 'b', test_x: function() \x7b\n    go();\n  \x7d\x7d);\nmore();".toList

/-- A case is read and converted between a comment and a blank as it is alone. -/
theorem conversion_of_commented_case :
    ∃ found, OuterContainer.read commentedCase = .ok found ∧
      endsWith [';'] (slice commentedCase found.start found.stop) = true ∧
      findAnchor "/* a */\n".toList = none ∧
      ∃ alone, OuterContainer.read (slice commentedCase found.start found.stop) = .ok alone ∧
        OuterContainer.read ("/* a */\n".toList ++ slice commentedCase found.start found.stop ++ [' ']) =
          .ok ⟨alone.tree.mapLines (· + 1), 8, 8 + (slice commentedCase found.start found.stop).length,
            alone.indentLevel⟩ ∧
        ∀ settings : Settings, settings.convertGlobals = false →
          convert settings ("/* a */\n".toList ++ slice commentedCase found.start found.stop ++ [' ']) =
            match convert settings (slice commentedCase found.start found.stop) with
            | .ok converted => .ok ("/* a */\n".toList ++ converted ++ [' '])
            | .error error => .error (error.relocate 1) := by
  obtain ⟨found, ran, ends⟩ := exists_eq_ok_of_any (by decide +kernel :
    (OuterContainer.read commentedCase).toOption.any
      (fun found => endsWith [';'] (slice commentedCase found.start found.stop)) = true)
  have absent : findAnchor "/* a */\n".toList = none :=
    Option.isNone_iff_eq_none.mp (by decide +kernel)
  exact ⟨found, ran, ends, absent,
    conversion_independent_of_surroundings ran ends absent (.inr (by decide)) [' ']⟩

end JasmineConversion
