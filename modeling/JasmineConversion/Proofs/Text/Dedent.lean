import Mathlib.Data.List.DropRight
import JasmineConversion.Proofs.Text.Front
import JasmineConversion.Proofs.Text.LineNumbers
import JasmineConversion.Text.Layout

/-! # Dedented code, line by line

Code is dedented by its lines from the first to the last one that is not blank. Each becomes one line: a blank one is
emptied, one that starts with the indent of the first loses it, any other stays, and the last one loses the blanks at
its end. Dedented code is dedented to itself.
-/

namespace JasmineConversion.Text

variable {code indent line moved rest : Text} {front kept back : List Text}

/-- The lines of a text from the first to the last one that is not blank, in front of and behind blank ones. -/
structure Inner (code : Text) (front kept back : List Text) : Prop where
  split : lines code = front ++ kept ++ back
  blankFront : ∀ line ∈ front, isBlankText line = true
  blankBack : ∀ line ∈ back, isBlankText line = true
  first : ∀ line ∈ kept.head?, isBlankText line = false
  last : ∀ line ∈ kept.getLast?, isBlankText line = false

/-- A line, and what it becomes when code is moved to the left by an indent. -/
inductive MovesLeft (indent : Text) : (line moved : Text) → Prop
  | blank {line : Text} (blank : isBlankText line = true) : MovesLeft indent line []
  | indented {rest : Text} (solid : isBlankText (indent ++ rest) = false) : MovesLeft indent (indent ++ rest) rest
  | other {line : Text} (solid : isBlankText line = false) (apart : ¬ indent <+: line) : MovesLeft indent line line

/-- Lines, and what they become one by one: all are moved to the left, and the last one loses the blanks at its end. -/
inductive Dedents (indent : Text) : (texts moved : List Text) → Prop
  | last {line moved : Text} (moves : MovesLeft indent line moved) : Dedents indent [line] [trimEnd moved]
  | cons {line moved : Text} {texts others : List Text} (moves : MovesLeft indent line moved)
      (further : Dedents indent texts others) : Dedents indent (line :: texts) (moved :: others)

/-! ## Blanks at the end -/

/-- What is dropped at the end stops at a text that does not only hold such characters. -/
theorem dropEndWhile_append {p : Char → Bool} (solid : rest.all p = false) (front : Text) :
    dropEndWhile p (front ++ rest) = front ++ dropEndWhile p rest := by
  have left : ¬ (rest.reverse.dropWhile p).isEmpty = true := by
    rw [List.isEmpty_iff, List.dropWhile_eq_nil_iff]
    intro all
    have every : rest.all p = true := List.all_eq_true.mpr fun c member => all c (List.mem_reverse.mpr member)
    exact Bool.noConfusion (solid.symm.trans every)
  rw [dropEndWhile, dropEndWhile, List.reverse_append, List.dropWhile_append, if_neg left, List.reverse_append,
    List.reverse_reverse]

/-- Blanks at the end do not decide whether a line is blank. -/
theorem isBlankText_trimEnd (line : Text) : isBlankText (trimEnd line) = isBlankText line := by
  obtain ⟨trail, blank, split⟩ := exists_trimEnd line
  have same := congrArg isBlankText split
  rw [isBlankText_append, blank, Bool.and_true] at same
  exact same.symm

theorem trimEnd_trimEnd (line : Text) : trimEnd (trimEnd line) = trimEnd line :=
  List.rdropWhile_idempotent isBlank line

/-- A line trimmed at its end is trimmed to the same. -/
theorem trim_trimEnd (line : Text) : trim (trimEnd line) = trim line := by
  obtain ⟨trail, blank, split⟩ := exists_trimEnd line
  have padded := trim_padded (isBlankText_nil) blank (trimEnd line)
  rw [List.nil_append, ← split] at padded
  exact padded.symm

/-! ## Lines that are moved to the left -/

/-- A dedented line is moved to the left. -/
theorem movesLeft_dedentLine (indent line : Text) : MovesLeft indent line (dedentLine indent line) := by
  unfold dedentLine
  split
  · next blank => exact .blank blank
  · next solid =>
    replace solid := Bool.eq_false_iff.mpr solid
    cases found : after? indent line with
    | some rest =>
      obtain rfl := after?_eq_some_iff.mp found
      exact .indented solid
    | none =>
      refine .other solid fun starts => ?_
      obtain ⟨rest, rfl⟩ := starts
      cases found.symm.trans (after?_append indent rest)

theorem isBlankText_of_isIndent (indents : ∀ c ∈ indent, isIndent c = true) : isBlankText indent = true :=
  isBlankText_iff.mpr fun c member => isBlank_of_isIndent (indents c member)

namespace MovesLeft

/-- A line that is moved to the left is trimmed to the same. -/
theorem trim_eq (moves : MovesLeft indent line moved) (indents : ∀ c ∈ indent, isIndent c = true) :
    trim moved = trim line := by
  cases moves with
  | blank blank => exact (trim_of_isBlankText blank).symm
  | indented solid =>
    have padded := trim_padded (isBlankText_of_isIndent indents) isBlankText_nil moved
    rw [List.append_nil] at padded
    exact padded.symm
  | other => rfl

theorem isBlankText_eq (moves : MovesLeft indent line moved) (indents : ∀ c ∈ indent, isIndent c = true) :
    isBlankText moved = isBlankText line := by
  rw [Bool.eq_iff_iff, ← trim_eq_nil_iff, ← trim_eq_nil_iff, moves.trim_eq indents]

/-- A blank line that is moved to the left is empty. -/
theorem eq_nil_of_blank (moves : MovesLeft indent line moved) (indents : ∀ c ∈ indent, isIndent c = true)
    (blank : isBlankText moved = true) : moved = [] := by
  rw [moves.isBlankText_eq indents] at blank
  cases moves with
  | blank => rfl
  | indented solid => exact Bool.noConfusion (blank.symm.trans solid)
  | other solid => exact Bool.noConfusion (blank.symm.trans solid)

/-- A line that is moved to the left is the end of what it was. -/
theorem suffix (moves : MovesLeft indent line moved) : moved <:+ line := by
  cases moves with
  | blank => exact List.nil_suffix
  | indented => exact List.suffix_append _ _
  | other => exact List.suffix_refl _

/-- A line that starts with its whole indent loses all of it. -/
theorem stops (moves : MovesLeft (line.takeWhile isIndent) line moved) : Stops isIndent moved := by
  generalize isLead : line.takeWhile isIndent = lead at moves
  cases moves with
  | blank => exact stops_nil _
  | indented solid =>
    have split := @List.takeWhile_append_dropWhile _ isIndent (lead ++ moved)
    rw [isLead] at split
    rw [← List.append_cancel_left split]
    exact stops_dropWhile isIndent _
  | other solid apart => exact absurd (isLead ▸ List.takeWhile_prefix isIndent) apart

end MovesLeft

/-- Blanks at the end of a line make no difference to how it is moved. -/
theorem dedentLine_trimEnd (indents : ∀ c ∈ indent, isIndent c = true) (solid : isBlankText line = false) :
    dedentLine indent (trimEnd line) = trimEnd (dedentLine indent line) := by
  have solid' : ¬ isBlankText (trimEnd line) = true := by
    rw [isBlankText_trimEnd, solid]
    exact Bool.false_ne_true
  rw [dedentLine, dedentLine, if_neg solid', if_neg (by rw [solid]; exact Bool.false_ne_true)]
  cases found : after? indent line with
  | some rest =>
    obtain rfl := after?_eq_some_iff.mp found
    rw [isBlankText_append, isBlankText_of_isIndent indents, Bool.true_and] at solid
    rw [trimEnd, dropEndWhile_append solid, after?_append]
    rfl
  | none =>
    have absent : after? indent (trimEnd line) = none := by
      obtain ⟨trail, -, split⟩ := exists_trimEnd line
      cases found' : after? indent (trimEnd line) with
      | none => rfl
      | some rest =>
        rw [split, after?_eq_some_iff.mp found', List.append_assoc, after?_append] at found
        cases found
    rw [absent]
    rfl

/-- The indent of a line that is not blank does not reach to the blanks at its end. -/
theorem takeWhile_isIndent_trimEnd (solid : isBlankText line = false) :
    (trimEnd line).takeWhile isIndent = line.takeWhile isIndent := by
  obtain ⟨trail, -, split⟩ := exists_trimEnd line
  have short : ((trimEnd line).takeWhile isIndent).length ≠ (trimEnd line).length := by
    intro whole
    have same := (List.takeWhile_prefix isIndent).eq_of_length whole
    have blank := isBlankText_of_isIndent (List.all_eq_true.mp (@List.all_takeWhile _ isIndent (trimEnd line)))
    rw [same, isBlankText_trimEnd, solid] at blank
    cases blank
  calc
    (trimEnd line).takeWhile isIndent = (trimEnd line ++ trail).takeWhile isIndent := by
      rw [List.takeWhile_append, if_neg short]
    _ = line.takeWhile isIndent := by rw [← split]

/-! ## Lines that are dedented -/

namespace Dedents

variable {texts others : List Text} {number : Nat}

/-- Lines that are dedented are moved to the left, with the last one trimmed. -/
theorem of_trimLastEnd (indents : ∀ c ∈ indent, isIndent c = true) (nonempty : texts ≠ [])
    (last : ∀ line ∈ texts.getLast?, isBlankText line = false) :
    Dedents indent texts ((trimLastEnd texts).map (dedentLine indent)) := by
  fun_induction trimLastEnd texts with
  | case1 => exact absurd rfl nonempty
  | case2 line =>
    rw [List.map_singleton, dedentLine_trimEnd indents (last line rfl)]
    exact .last (movesLeft_dedentLine indent line)
  | case3 first rest further ih =>
    have more : rest ≠ [] := fun empty => further empty
    refine .cons (movesLeft_dedentLine indent first) (ih more ?_)
    rwa [List.getLast?_cons_of_ne_nil more] at last

theorem length_eq (dedents : Dedents indent texts others) : others.length = texts.length := by
  induction dedents with
  | last => rfl
  | cons _ _ ih => exact congrArg Nat.succ ih

/-- A dedented line is its own one moved to the left, if need be without the blanks at its end. -/
theorem exists_moves (dedents : Dedents indent texts others) (here : others[number]? = some moved) :
    ∃ line whole, texts[number]? = some line ∧ MovesLeft indent line whole ∧ (moved = whole ∨ moved = trimEnd whole) := by
  induction dedents generalizing number with
  | last moves =>
    cases number with
    | zero => exact ⟨_, _, rfl, moves, .inr (Option.some.inj here).symm⟩
    | succ number => cases here
  | cons moves further ih =>
    cases number with
    | zero => exact ⟨_, _, rfl, moves, .inl (Option.some.inj here).symm⟩
    | succ number => exact ih here

/-- A dedented line and its own one differ in blanks at their ends only. -/
theorem getElem?_eq (dedents : Dedents indent texts others) (indents : ∀ c ∈ indent, isIndent c = true)
    (here : others[number]? = some moved) :
    ∃ line, texts[number]? = some line ∧ moved <:+: line ∧ trim moved = trim line := by
  obtain ⟨line, whole, found, moves, rfl | rfl⟩ := dedents.exists_moves here
  · exact ⟨line, found, moves.suffix.isInfix, moves.trim_eq indents⟩
  · obtain ⟨trail, -, split⟩ := exists_trimEnd whole
    have begins : trimEnd whole <+: whole := ⟨trail, split.symm⟩
    exact ⟨line, found, begins.isInfix.trans moves.suffix.isInfix, (trim_trimEnd whole).trans (moves.trim_eq indents)⟩

/-- The first line is not blank, and is left without an indent. -/
theorem exists_first {first : Text} {rest : List Text}
    (dedents : Dedents (first.takeWhile isIndent) (first :: rest) others) (solid : isBlankText first = false) :
    ∃ moved more, others = moved :: more ∧ isBlankText moved = false ∧ Stops isIndent moved := by
  have indents : ∀ c ∈ first.takeWhile isIndent, isIndent c = true := List.all_eq_true.mp List.all_takeWhile
  cases dedents with
  | @last _ moved moves =>
    obtain ⟨trail, -, split⟩ := exists_trimEnd moved
    refine ⟨_, [], rfl, ?_, (split ▸ moves.stops : Stops isIndent (trimEnd moved ++ trail)).of_append⟩
    rw [isBlankText_trimEnd, moves.isBlankText_eq indents, solid]
  | @cons _ moved _ more moves further =>
    exact ⟨moved, more, rfl, (moves.isBlankText_eq indents).trans solid, moves.stops⟩

theorem ne_nil (dedents : Dedents indent texts others) : others ≠ [] := by
  cases dedents <;> exact List.cons_ne_nil _ _

/-- The last of dedented lines is not blank if it was not. -/
theorem getLast?_solid (dedents : Dedents indent texts others) (indents : ∀ c ∈ indent, isIndent c = true)
    (last : ∀ line ∈ texts.getLast?, isBlankText line = false) :
    ∀ line ∈ others.getLast?, isBlankText line = false := by
  induction dedents with
  | @last line moved moves =>
    intro trimmed isLast
    obtain rfl := Option.some.inj isLast
    change isBlankText (trimEnd moved) = false
    rw [isBlankText_trimEnd, moves.isBlankText_eq indents]
    exact last line rfl
  | @cons line moved texts others moves further ih =>
    have more : texts ≠ [] := by
      rintro rfl
      cases further
    rw [List.getLast?_cons_of_ne_nil further.ne_nil]
    rw [List.getLast?_cons_of_ne_nil more] at last
    exact ih last

/-- Lines that were dedented have no more blanks to lose. -/
theorem trimLastEnd_eq (dedents : Dedents indent texts others) : trimLastEnd others = others := by
  induction dedents with
  | last => exact congrArg (fun line => [line]) (trimEnd_trimEnd _)
  | @cons line moved texts others moves further ih =>
    obtain ⟨second, more, rfl⟩ := List.exists_cons_of_ne_nil further.ne_nil
    exact congrArg (moved :: ·) ih

/-- A blank line among dedented ones is empty. -/
theorem eq_nil_of_blank (dedents : Dedents indent texts others) (indents : ∀ c ∈ indent, isIndent c = true) :
    ∀ line ∈ others, isBlankText line = true → line = [] := by
  induction dedents with
  | last moves =>
    intro line member blank
    obtain rfl := List.mem_singleton.mp member
    rw [isBlankText_trimEnd] at blank
    rw [moves.eq_nil_of_blank indents blank]
    rfl
  | cons moves _ ih =>
    intro line member blank
    rcases List.mem_cons.mp member with rfl | further
    · exact moves.eq_nil_of_blank indents blank
    · exact ih line further blank

end Dedents

/-! ## Dedented code -/

/-- Lines put together are blank if all of them are. -/
theorem isBlankText_unlines (texts : List Text) : isBlankText (unlines texts) = texts.all isBlankText := by
  induction texts with
  | nil => rfl
  | cons line texts ih =>
    by_cases last : texts = []
    · subst last
      simp [unlines, join]
    · have feed : isBlank '\n' = true := by decide
      rw [unlines_cons last, isBlankText_append, isBlankText_cons, feed, Bool.true_and, ih, List.all_cons]

theorem isBlankText_lines (code : Text) : (lines code).all isBlankText = isBlankText code := by
  rw [← isBlankText_unlines, unlines_lines]

/-- A code has inner lines between its blank edges. -/
theorem exists_inner (code : Text) : ∃ front kept back, Inner code front kept back ∧
    innerLines code = trimLastEnd kept := by
  refine ⟨(lines code).takeWhile isBlankText, dropBlankEnd ((lines code).dropWhile isBlankText),
    ((lines code).dropWhile isBlankText).rtakeWhile isBlankText, ?_, rfl⟩
  have begins : dropBlankEnd ((lines code).dropWhile isBlankText) <+: (lines code).dropWhile isBlankText :=
    List.rdropWhile_prefix _ _
  constructor
  · have back := @List.rdropWhile_append_rtakeWhile _ isBlankText ((lines code).dropWhile isBlankText)
    rw [List.append_assoc, dropBlankEnd, ← List.rdropWhile, back, List.takeWhile_append_dropWhile]
  · exact List.all_eq_true.mp List.all_takeWhile
  · exact fun line member => List.mem_rtakeWhile_imp member
  · intro line isFirst
    obtain ⟨more, same⟩ := begins
    have first : line ∈ ((lines code).dropWhile isBlankText).head? := by
      rw [← same, List.head?_append]
      exact Option.mem_def.mpr (by rw [isFirst]; rfl)
    have solid := List.head?_dropWhile_not isBlankText (lines code)
    rw [first] at solid
    simpa using solid
  · intro line isLast
    have nonempty : dropBlankEnd ((lines code).dropWhile isBlankText) ≠ [] := by
      intro empty
      rw [empty] at isLast
      cases isLast
    have solid := List.rdropWhile_last_not isBlankText _ nonempty
    rw [List.getLast?_eq_some_getLast nonempty] at isLast
    cases isLast
    exact Bool.eq_false_iff.mpr solid

theorem Inner.mem_lines (inner : Inner code front kept back) (member : line ∈ kept) : line ∈ lines code := by
  rw [inner.split]
  exact List.mem_append_left back (List.mem_append_right front member)

/-- Code that is not blank is dedented line by line, from the first to the last line that is not blank. -/
theorem exists_dedents (solid : isBlankText code = false) :
    ∃ front first rest back, Inner code front (first :: rest) back ∧
      Dedents (first.takeWhile isIndent) (first :: rest) (lines (dedent code)) := by
  obtain ⟨front, kept, back, inner, isInner⟩ := exists_inner code
  cases kept with
  | nil =>
    have split := inner.split
    rw [← isBlankText_lines, split, List.append_nil, List.all_append, List.all_eq_true.mpr inner.blankFront,
      List.all_eq_true.mpr inner.blankBack] at solid
    cases solid
  | cons first rest =>
    have firstSolid := inner.first first rfl
    have indents : ∀ c ∈ first.takeWhile isIndent, isIndent c = true := List.all_eq_true.mp List.all_takeWhile
    have dedents := Dedents.of_trimLastEnd indents (List.cons_ne_nil first rest) inner.last
    have result : dedent code =
        unlines ((trimLastEnd (first :: rest)).map (dedentLine (first.takeWhile isIndent))) := by
      unfold dedent
      rw [isInner]
      cases rest with
      | nil =>
        dsimp only [trimLastEnd]
        rw [takeWhile_isIndent_trimEnd firstSolid]
      | cons second more => rfl
    refine ⟨front, first, rest, back, inner, ?_⟩
    rw [result, lines_unlines dedents.ne_nil]
    · exact dedents
    · intro moved member feed
      obtain ⟨number, here⟩ := List.mem_iff_getElem?.mp member
      obtain ⟨line, among, part, -⟩ := dedents.getElem?_eq indents here
      exact not_mem_of_mem_lines (inner.mem_lines (List.mem_of_getElem? among)) (part.subset feed)

theorem count_takeWhile_of_not_mem {text : Text} (single : '\n' ∉ text) (p : Char → Bool) :
    (text.takeWhile p).count '\n' = 0 :=
  List.count_eq_zero_of_not_mem fun member => single ((List.takeWhile_sublist p).mem member)

/-- Behind a blank line, the blank characters at the start go on. -/
theorem takeWhile_isBlank_append_newline {text : Text} (single : '\n' ∉ text) (rest : Text) :
    ((text ++ '\n' :: rest).takeWhile isBlank).count '\n' =
      if isBlankText text then (rest.takeWhile isBlank).count '\n' + 1 else 0 := by
  split
  · next blank =>
    rw [List.takeWhile_append_of_pos (isBlankText_iff.mp blank), List.count_append,
      List.count_eq_zero_of_not_mem single, List.takeWhile_cons_of_pos (by decide), List.count_cons_self]
    omega
  · next solid =>
    have inside : (text ++ '\n' :: rest).takeWhile isBlank = text.takeWhile isBlank := by
      rw [List.takeWhile_append, if_neg]
      intro whole
      have same := (List.takeWhile_prefix isBlank).eq_of_length whole
      exact solid (same ▸ List.all_takeWhile)
    rw [inside, count_takeWhile_of_not_mem single]

/-- The first line that is not blank is that of the first character that is not blank. -/
theorem Inner.count_takeWhile {first : Text} {more : List Text} (inner : Inner code front (first :: more) back) :
    (code.takeWhile isBlank).count '\n' = front.length := by
  have solid : ¬ isBlankText first = true := by
    rw [inner.first first rfl]
    exact Bool.false_ne_true
  have split := inner.split
  have blankFront := inner.blankFront
  clear inner
  induction code using induction_on_lines generalizing front with
  | single line single =>
    rw [count_takeWhile_of_not_mem single]
    rw [lines_of_not_mem single, List.append_assoc] at split
    cases front with
    | nil => rfl
    | cons next front => simp at split
  | more line code single ih =>
    rw [takeWhile_isBlank_append_newline single]
    rw [lines_append_newline single, List.append_assoc] at split
    cases front with
    | nil =>
      obtain ⟨rfl, -⟩ := List.cons.inj split
      rw [if_neg solid]
      rfl
    | cons next front =>
      obtain ⟨rfl, further⟩ := List.cons.inj split
      obtain ⟨blank, blankFront⟩ := List.forall_mem_cons.mp blankFront
      rw [if_pos blank, ih (further.trans (List.append_assoc _ _ _).symm) blankFront, List.length_cons]

/-- A blank code is dedented to nothing. -/
theorem dedent_of_blank (blank : isBlankText code = true) : dedent code = [] := by
  rw [← isBlankText_lines, List.all_eq_true] at blank
  have none : innerLines code = [] := by
    rw [innerLines, List.dropWhile_eq_nil_iff.mpr blank]
    rfl
  rw [dedent, none]

/-- A line of dedented code is part of a line of the code, behind the blank lines at its start. -/
theorem exists_line_of_dedent {number : Nat} (here : (lines (dedent code))[number]? = some line) :
    ∃ whole, (lines code)[(code.takeWhile isBlank).count '\n' + number]? = some whole ∧ line <:+: whole := by
  cases blank : isBlankText code with
  | true =>
    rw [dedent_of_blank blank] at here
    cases number with
    | zero =>
      obtain rfl := Option.some.inj here
      obtain ⟨whole, found⟩ := exists_line_of_place (code.takeWhile isBlank) (code.dropWhile isBlank)
      rw [List.takeWhile_append_dropWhile] at found
      exact ⟨whole, found, List.nil_infix⟩
    | succ number => cases here
  | false =>
    obtain ⟨front, first, rest, back, inner, dedents⟩ := exists_dedents blank
    obtain ⟨own, among, part, -⟩ := dedents.getElem?_eq (List.all_eq_true.mp List.all_takeWhile) here
    refine ⟨own, ?_, part⟩
    rw [inner.count_takeWhile, inner.split, List.append_assoc, List.getElem?_append_right (Nat.le_add_right _ number),
      Nat.add_sub_cancel_left, List.getElem?_append_left (List.getElem?_eq_some_iff.mp among).1, among]

/-- Code all lines of which are kept as they are is dedented to itself. -/
theorem dedent_eq_self {first : Text} {rest : List Text} (split : lines code = first :: rest)
    (solid : isBlankText first = false) (stops : Stops isIndent first)
    (last : ∀ line ∈ (first :: rest).getLast?, isBlankText line = false)
    (trimmed : trimLastEnd (first :: rest) = first :: rest)
    (empty : ∀ line ∈ first :: rest, isBlankText line = true → line = []) : dedent code = code := by
  have ends : dropBlankEnd (first :: rest) = first :: rest := by
    refine List.rdropWhile_eq_self_iff.mpr fun nonempty => ?_
    rw [last _ (List.getLast?_eq_some_getLast nonempty)]
    exact Bool.false_ne_true
  have inner : innerLines code = first :: rest := by
    rw [innerLines, split, List.dropWhile_cons_of_neg (by rw [solid]; exact Bool.false_ne_true), ends, trimmed]
  have none : first.takeWhile isIndent = [] := takeWhile_append_of_stops (List.forall_mem_nil _) stops
  have same : (first :: rest).map (dedentLine []) = first :: rest := by
    refine (List.map_congr_left fun line member => ?_).trans (List.map_id _)
    unfold dedentLine
    split
    · next blank => exact (empty line member blank).symm
    · rfl
  calc
    dedent code = unlines ((first :: rest).map (dedentLine (first.takeWhile isIndent))) := by rw [dedent, inner]
    _ = unlines (lines code) := by rw [none, same, split]
    _ = code := unlines_lines code

/-- A code is dedented once. -/
theorem dedent_dedent (code : Text) : dedent (dedent code) = dedent code := by
  cases blank : isBlankText code with
  | true => rw [dedent_of_blank blank, dedent_of_blank isBlankText_nil]
  | false =>
    obtain ⟨front, first, rest, back, inner, dedents⟩ := exists_dedents blank
    have indents : ∀ c ∈ first.takeWhile isIndent, isIndent c = true := List.all_eq_true.mp List.all_takeWhile
    obtain ⟨moved, more, split, solid, stops⟩ := dedents.exists_first (inner.first first rfl)
    rw [split] at dedents
    exact dedent_eq_self split solid stops (dedents.getLast?_solid indents inner.last) dedents.trimLastEnd_eq
      (dedents.eq_nil_of_blank indents)

/-- Code that is not blank is left with a first line that is neither blank nor indented. -/
theorem exists_first_of_dedent (solid : isBlankText code = false) :
    ∃ first more, lines (dedent code) = first :: more ∧ isBlankText first = false ∧ Stops isIndent first := by
  obtain ⟨front, first, rest, back, inner, dedents⟩ := exists_dedents solid
  exact dedents.exists_first (inner.first first rfl)

/-- A code is dedented to nothing exactly if it is blank. -/
theorem dedent_eq_nil_iff : dedent code = [] ↔ isBlankText code = true := by
  refine ⟨fun empty => ?_, dedent_of_blank⟩
  by_contra solid
  obtain ⟨first, more, split, solid, -⟩ := exists_first_of_dedent (Bool.eq_false_iff.mpr solid)
  rw [empty] at split
  obtain ⟨rfl, -⟩ := List.cons.inj split
  cases solid

/-- Dedenting is exact. Blank code is left with nothing, and only that. The lines of other code, from the first to the
last one that is not blank, are dedented one by one by the spaces and tabs that start the first one, which is left with
neither. Dedenting again changes nothing. -/
theorem dedent_exact (code : Text) :
    dedent (dedent code) = dedent code ∧ (dedent code = [] ↔ isBlankText code = true) ∧
      (dedent code = [] ∨ ∃ front first rest back, Inner code front (first :: rest) back ∧
        Dedents (first.takeWhile isIndent) (first :: rest) (lines (dedent code))) ∧
      ∀ first ∈ (lines (dedent code)).head?, Stops isIndent first := by
  refine ⟨dedent_dedent code, dedent_eq_nil_iff, ?_⟩
  cases blank : isBlankText code with
  | true =>
    have empty := dedent_of_blank blank
    rw [empty]
    refine ⟨.inl rfl, ?_⟩
    rintro first ⟨⟩
    exact stops_nil _
  | false =>
    refine ⟨.inr (exists_dedents blank), fun first isFirst => ?_⟩
    obtain ⟨moved, more, split, -, stops⟩ := exists_first_of_dedent blank
    rw [split] at isFirst
    cases isFirst
    exact stops

example : dedent "\n\t a  \n\t\u00a0\n\tb\n\t c \u2003\n \n".toList = "a  \n\n\tb\nc".toList := by
  decide +kernel

end JasmineConversion.Text
