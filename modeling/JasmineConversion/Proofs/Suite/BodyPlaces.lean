import JasmineConversion.Proofs.Suite.Captured
import JasmineConversion.Proofs.Suite.Coverage
import JasmineConversion.Proofs.Text.Dedent

/-! # The lines of bodies in the source

A body that was read has a line for each line of the source between the braces of its function, from the first to the
last one that is not blank. The line that is kept with the body is that of its first one, whatever stands in front of
it, and the others follow one by one.
-/

namespace JasmineConversion

open Text Source Pattern

/-- What a text has of one of its lines between two indexes: all from one line feed to the next. The line may begin in
front of the first index and end behind the second. -/
structure LinePart (source : Text) (start stop first : Nat) (part : Text) (last : Nat) : Prop where
  spans : Spans source first part last
  inside : start ≤ first ∧ last ≤ stop
  single : '\n' ∉ part
  begins : first = start ∨ (source.take first).getLast? = some '\n'
  ends : last = stop ∨ (source.drop last).head? = some '\n'

/-- A line of code comes from a line between two indexes of a text, which has the same number counted from the line that
is kept with the code. It differs in blanks around it only. The first line and the last one come from the first and the
last one there that are not blank. -/
structure Code.ComesFrom (source : Text) (start stop : Nat) (code : Code) (number : Nat) (line : Text)
    (first : Nat) (part : Text) (last : Nat) : Prop where
  isPart : LinePart source start stop first part last
  atLine : (lineAt source first : Int) = code.line + number
  same : trim line = trim part
  starts : number = 0 → isBlankText part = false ∧ isBlankText (slice source start first) = true
  ends : number + 1 = (lines code.body).length →
    isBlankText part = false ∧ isBlankText (slice source last stop) = true

/-- The lines of code come one by one from those of a text between two indexes. -/
def Code.Follows (source : Text) (start stop : Nat) (code : Code) : Prop :=
  ∀ (number : Nat) (line : Text), (lines code.body)[number]? = some line →
    ∃ first part last, code.ComesFrom source start stop number line first part last

/-- The function of a member stands in a text, with its braces at two indexes. The member begins with its key, and the
head of the function in front of the opening brace, and ends with the closing one. -/
structure FunctionAt (source : Text) (member : Member) (opened close : Nat) : Prop where
  headed : ∃ start key parameters head, MemberAt source start member (close + 1) ∧ FunctionHead parameters head ∧
    Spans source start (key ++ head) opened
  matched : matchBracket source opened = .ok close

variable {source raw part : Text} {start stop : Nat} {front back : List Text}

/-! ## Lines of a piece of the source -/

/-- Single lines with a line feed each have as many line feeds as there are lines. -/
theorem count_flatMap_newline {texts : List Text} (single : ∀ line ∈ texts, '\n' ∉ line) :
    (texts.flatMap (· ++ ['\n'])).count '\n' = texts.length := by
  induction texts with
  | nil => rfl
  | cons line texts ih =>
    obtain ⟨here, further⟩ := List.forall_mem_cons.mp single
    rw [List.flatMap_cons, List.count_append, List.count_append, List.count_eq_zero_of_not_mem here, ih further,
      List.length_cons, Nat.add_comm]
    rfl

/-- Lines put between white space are blank if all of them are. -/
theorem isBlankText_flatMap {around : Text → Text} (same : ∀ line, isBlankText (around line) = isBlankText line)
    (texts : List Text) : isBlankText (texts.flatMap around) = texts.all isBlankText := by
  rw [isBlankText, List.all_flatMap]
  exact congrArg texts.all (funext same)

/-- A line of a list stands behind as many others as its number says. -/
theorem exists_append_cons_of_getElem? {texts : List Text} {line : Text} {number : Nat}
    (here : texts[number]? = some line) : ∃ front back, texts = front ++ line :: back ∧ front.length = number := by
  obtain ⟨inside, rfl⟩ := List.getElem?_eq_some_iff.mp here
  refine ⟨texts.take number, texts.drop (number + 1), ?_, List.length_take_of_le (Nat.le_of_lt inside)⟩
  rw [List.getElem_cons_drop, List.take_append_drop]

/-- A line of a piece of the source is in its place there, as many lines behind the start as there are lines in front of
it. What is in front of it in the piece is blank if these are, and what is behind it if those behind it are. -/
theorem exists_linePart (spans : Spans source start raw stop) (split : lines raw = front ++ part :: back) :
    ∃ first last, LinePart source start stop first part last ∧ lineAt source first = lineAt source start + front.length ∧
      isBlankText (slice source start first) = front.all isBlankText ∧
      isBlankText (slice source last stop) = back.all isBlankText := by
  have single : ∀ line ∈ front ++ part :: back, '\n' ∉ line := split ▸ fun line => not_mem_of_mem_lines
  have whole : raw = front.flatMap (· ++ ['\n']) ++ part ++ back.flatMap ('\n' :: ·) := by
    rw [← unlines_append_cons, ← split, unlines_lines]
  rw [whole] at spans
  obtain ⟨lead, trailSpans⟩ := spans.split
  obtain ⟨leadSpans, partSpans⟩ := lead.split
  have newline : isBlank '\n' = true := by decide
  have blankLead : isBlankText (front.flatMap (· ++ ['\n'])) = front.all isBlankText :=
    isBlankText_flatMap (fun line => by simp [newline]) front
  have blankTrail : isBlankText (back.flatMap ('\n' :: ·)) = back.all isBlankText :=
    isBlankText_flatMap (fun line => by simp [newline]) back
  refine ⟨_, _, ⟨partSpans, ⟨leadSpans.start_le, trailSpans.start_le⟩, single part (by simp), ?_, ?_⟩, ?_, ?_, ?_⟩
  · rcases List.eq_nil_or_concat front with rfl | ⟨others, line, rfl⟩
    · exact .inl rfl
    · refine .inr ?_
      rw [leadSpans.take_stop, List.concat_eq_append, List.flatMap_append, List.flatMap_singleton,
        ← List.append_assoc, ← List.append_assoc]
      exact List.getLast?_concat
  · cases back with
    | nil => exact .inl trailSpans.width.symm
    | cons line others =>
      refine .inr ?_
      rw [trailSpans.here]
      rfl
  · rw [leadSpans.lineAt_eq, count_flatMap_newline fun line member => single line (List.mem_append_left _ member)]
  · rw [leadSpans.slice_eq, blankLead]
  · rw [trailSpans.slice_eq, blankTrail]

/-! ## Lines of code in the source -/

/-- Code that is captured from a piece of the source follows the lines of the piece. -/
theorem Code.follows_ofRaw (spans : Spans source start raw stop) (solid : isBlankText raw = false) :
    (Code.ofRaw raw (bodyLine (lineAt source start) raw)).Follows source start stop := by
  obtain ⟨front, first, rest, back, inner, dedents⟩ := exists_dedents solid
  have indents : ∀ c ∈ first.takeWhile isIndent, isIndent c = true := List.all_eq_true.mp List.all_takeWhile
  intro number line here
  obtain ⟨own, among, -, same⟩ := dedents.getElem?_eq indents here
  obtain ⟨before, behind, kept, rfl⟩ := exists_append_cons_of_getElem? among
  have split : lines raw = (front ++ before) ++ own :: (behind ++ back) := by
    rw [inner.split, kept]
    simp
  obtain ⟨place, last, isPart, atLine, blankBefore, blankBehind⟩ := exists_linePart spans split
  refine ⟨place, own, last, isPart, ?_, same, fun isFirst => ?_, fun isLast => ?_⟩
  · have counted : (Code.ofRaw raw (bodyLine (lineAt source start) raw)).line =
        ((lineAt source start + front.length : Nat) : Int) := by
      rw [Code.ofRaw, bodyLine, inner.count_takeWhile]
    rw [counted, atLine, List.length_append]
    omega
  · rw [List.length_eq_zero_iff.mp isFirst] at kept blankBefore
    rw [List.append_nil, List.all_eq_true.mpr inner.blankFront] at blankBefore
    exact ⟨inner.first own (by rw [kept]; rfl), blankBefore⟩
  · have length : (lines (dedent raw)).length = (first :: rest).length := dedents.length_eq
    have none : behind = [] := by
      change before.length + 1 = (lines (dedent raw)).length at isLast
      rw [length, kept, List.length_append, List.length_cons] at isLast
      exact List.length_eq_zero_iff.mp (by omega)
    rw [none] at kept blankBehind
    rw [List.nil_append, List.all_eq_true.mpr inner.blankBack] at blankBehind
    exact ⟨inner.last own (by rw [kept]; exact List.getLast?_concat), blankBehind⟩

/-- The function of a member that is a piece of the source, with its braces. Its code follows the lines between them. -/
theorem exists_functionAt {member : Member} {code : Code} (piece : PieceIn (MemberText .accepted · · member) 1 source)
    (kept : member.code? = some code) : ∃ opened close, FunctionAt source member opened close ∧
      (code.body ≠ [] → code.Follows source (opened + 1) close) := by
  obtain ⟨front, text, back, whole, written⟩ := piece
  have behind : source.drop front.length = text ++ back := by
    rw [whole, List.append_assoc, List.drop_left]
  have spans : Spans source front.length text (front.length + text.length) := .of_drop behind rfl
  have atLine : lineAt source front.length = 1 + front.count '\n' := by
    rw [lineAt, whole, List.append_assoc, List.take_left, Nat.add_comm]
  rw [← atLine] at written
  have isMember : MemberAt source front.length member (front.length + text.length) := ⟨text, spans, written⟩
  obtain ⟨key, function, parameters, rfl, isFunction⟩ := written.exists_functionText kept
  obtain @⟨_, head, raw, isHead, -, encloses⟩ := isFunction
  have regrouped : key ++ (head ++ '{' :: raw ++ ['}']) = (key ++ head) ++ ('{' :: raw ++ ['}']) := by simp
  rw [regrouped] at spans isMember
  obtain ⟨headSpans, bodySpans⟩ := spans.split
  obtain ⟨close, closed⟩ : ∃ close, front.length + ((key ++ head) ++ ('{' :: raw ++ ['}'])).length = close + 1 :=
    ⟨_, by rw [← List.append_assoc, List.length_append, ← Nat.add_assoc]; rfl⟩
  rw [closed] at bodySpans isMember
  refine ⟨_, close, ⟨⟨_, key, parameters, head, isMember, isHead, headSpans⟩, ?_⟩, fun nonempty => ?_⟩
  · exact (SuiteReader.matchBracket_brace_iff ⟨_, bodySpans.here⟩).mpr ⟨raw, bodySpans, encloses⟩
  · have solid : isBlankText raw = false := Bool.eq_false_iff.mpr (nonempty ∘ dedent_of_blank)
    obtain ⟨brace, inside, -⟩ := bodySpans.inside
    have sameLine : lineAt source front.length + key.count '\n' + head.count '\n' =
        lineAt source (front.length + (key ++ head).length + 1) := by
      rw [brace.lineAt_eq, headSpans.lineAt_eq, List.count_append, ← Nat.add_assoc]
      rfl
    rw [sameLine]
    exact Code.follows_ofRaw inside solid

/-- Every body that was read follows the source. The code of each member of each test case is that of a function of the
source, and unless it is empty, its lines are those between the braces of this function, from the first to the last one
that is not blank, and start on the line that is kept with it. -/
theorem bodies_follow_source {found : OuterContainer} (ran : OuterContainer.read source = .ok found) :
    ∀ inner ∈ found.tree.cases, ∃ members, inner.Comprises members ∧
      ∀ member ∈ members, ∀ code, member.code? = some code → ∃ opened close, FunctionAt source member opened close ∧
        (code.body ≠ [] → code.Follows source (opened + 1) close) := by
  intro inner here
  obtain ⟨members, stands⟩ := OuterContainer.exists_standsIn_of_read ran inner here
  exact ⟨members, stands.comprises, fun member isMember code kept => exists_functionAt (stands.memberText isMember) kept⟩

/-- A test case with code right behind a brace, on blank lines of several kinds, and with different indents. -/
def spacedBodies : Text :=
  ("tests.a.add(\x7bname: 'b',\nsetUp: function() \x7b\u00a0\n\u2003\r\n\t\tthis.x = 1;\r\n \n\t\t\tgo();  \n\t\x7d,\n" ++
    "test_x: function()\n\x7b go();\n stop();\n\n\x7d\x7d);").toList

/-- The bodies of a hook and a test with other line ends and empty lines follow their source. -/
theorem bodies_follow_spacedBodies : ∃ found, OuterContainer.read spacedBodies = .ok found ∧
    ∃ inner ∈ found.tree.cases, inner.setUp = some ⟨"this.x = 1;\r\n\n\tgo();".toList, 4⟩ ∧
      inner.tests = [⟨"x".toList, ⟨"go();\nstop();".toList, 9⟩⟩] ∧
      ∃ members, inner.Comprises members ∧ ∀ member ∈ members, ∀ code, member.code? = some code →
        ∃ opened close, FunctionAt spacedBodies member opened close ∧
          (code.body ≠ [] → code.Follows spacedBodies (opened + 1) close) := by
  obtain ⟨found, ran, isFound⟩ := exists_eq_ok_of_any (by decide +kernel :
    (OuterContainer.read spacedBodies).toOption.any (fun found => found.tree.cases.any fun inner =>
      inner.setUp == some ⟨"this.x = 1;\r\n\n\tgo();".toList, 4⟩ &&
        inner.tests == [⟨"x".toList, ⟨"go();\nstop();".toList, 9⟩⟩]) = true)
  obtain ⟨inner, here, isInner⟩ := List.any_eq_true.mp isFound
  rw [Bool.and_eq_true, beq_iff_eq, beq_iff_eq] at isInner
  exact ⟨found, ran, inner, here, isInner.1, isInner.2, bodies_follow_source ran inner here⟩

end JasmineConversion
