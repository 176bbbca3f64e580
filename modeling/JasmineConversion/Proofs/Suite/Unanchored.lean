import JasmineConversion.Proofs.Source.Indents
import JasmineConversion.Proofs.Suite.Anchor

/-! # Texts without an anchor

A text opens no outer container when no anchor stands at the start of a line. An anchor holds white
space, names, a parenthesis and at its end a brace, so none reaches over any other character, and a
text is searched piece by piece between such characters. Indents play no part in the search.
-/

namespace JasmineConversion

open Text

/-! ## Indents -/

namespace Indents

variable {plain text : Text}

theorem head?_eq (indents : Indents plain text) : text.head? = plain.head? := by
  cases indents <;> rfl

/-- A lead on one line is found in both or in neither. -/
theorem after? {lead : Text} (indents : Indents plain text) (single : '\n' ∉ lead) :
    (Text.after? lead plain = none ∧ Text.after? lead text = none) ∨
      ∃ plain' text', Text.after? lead plain = some plain' ∧ Text.after? lead text = some text' ∧
        Indents plain' text' := by
  induction lead generalizing plain text with
  | nil => exact .inr ⟨plain, text, rfl, rfl, indents⟩
  | cons l lead ih =>
    rw [List.mem_cons, not_or] at single
    cases indents with
    | nil => exact .inl ⟨rfl, rfl⟩
    | cons c rest =>
      by_cases same : l = c
      · simpa [Text.after?, same] using ih rest single.2
      · exact .inl (by simp [Text.after?, same])
    | newline => exact .inl (by simp [Text.after?, Ne.symm single.1])

/-- A run on the first line is the same in both. -/
theorem takeWhile {p : Char → Bool} (indents : Indents plain text) (stop : p '\n' = false) :
    text.takeWhile p = plain.takeWhile p := by
  induction indents with
  | nil => rfl
  | cons c _ ih =>
    cases holds : p c with
    | true => rw [List.takeWhile_cons_of_pos holds, List.takeWhile_cons_of_pos holds, ih]
    | false => simp [holds]
  | newline => simp [stop]

/-- What is behind a run on the first line is indented too. -/
theorem dropWhile {p : Char → Bool} (indents : Indents plain text) (stop : p '\n' = false) :
    Indents (plain.dropWhile p) (text.dropWhile p) := by
  induction indents with
  | nil => exact .nil
  | cons c rest ih =>
    cases holds : p c with
    | true => rwa [List.dropWhile_cons_of_pos holds, List.dropWhile_cons_of_pos holds]
    | false =>
      have stays : ¬ p c = true := by simp [holds]
      rw [List.dropWhile_cons_of_neg stays, List.dropWhile_cons_of_neg stays]
      exact .cons c rest
  | newline blank rest =>
    have stays : ¬ p '\n' = true := by simp [stop]
    rw [List.cons_append, List.dropWhile_cons_of_neg stays, List.dropWhile_cons_of_neg stays]
    exact .newline blank rest

/-- What is behind white space is indented too. -/
theorem trimStart (indents : Indents plain text) :
    Indents (Text.trimStart plain) (Text.trimStart text) := by
  induction indents with
  | nil => exact .nil
  | cons c rest ih =>
    cases white : isBlank c with
    | true =>
      unfold Text.trimStart at *
      rwa [List.dropWhile_cons_of_pos white, List.dropWhile_cons_of_pos white]
    | false =>
      have stops : ∀ text, Text.trimStart (c :: text) = c :: text :=
        fun text => trimStart_of_stops ((stops_cons _ _ _).mpr white)
      rw [stops, stops]
      exact .cons c rest
  | newline blank rest ih =>
    unfold Text.trimStart at *
    rw [List.cons_append, List.dropWhile_cons_of_pos (by decide), List.dropWhile_cons_of_pos (by decide),
      List.dropWhile_append_of_pos fun c member => isBlank_of_isIndent (blank c member)]
    exact ih

end Indents

namespace Pattern

/-- A text that is not shortened has no white space in front. -/
theorem length_trimStart_iff {text : Text} :
    (trimStart text).length = text.length ↔ Stops isBlank text := by
  constructor
  · intro same
    rw [← (trimStart_suffix text).eq_of_length same]
    exact stops_dropWhile isBlank text
  · intro stops
    rw [trimStart_of_stops stops]

/-- The call of a class is found in both or in neither. -/
theorem extClass?_indents {plain text : Text} (indents : Indents plain text) :
    (extClass? plain = none ∧ extClass? text = none) ∨
      ∃ name plain' text', extClass? plain = some (name, plain') ∧ extClass? text = some (name, text') ∧
        Indents plain' text' := by
  unfold extClass?
  simp only [Option.bind_eq_bind]
  rcases indents.after? (show '\n' ∉ "new".toList by decide) with
    ⟨none, none'⟩ | ⟨rest, rest', found, found', indents⟩
  · exact .inl ⟨by rw [none]; rfl, by rw [none']; rfl⟩
  have apart : (trimStart rest').length = rest'.length ↔ (trimStart rest).length = rest.length := by
    rw [length_trimStart_iff, length_trimStart_iff, Stops, Stops, indents.head?_eq]
  simp only [found, found', Option.bind_some, apart]
  split
  · exact .inl ⟨rfl, rfl⟩
  rcases indents.trimStart.after? (show '\n' ∉ "Ext.test.".toList by decide) with
    ⟨none, none'⟩ | ⟨called, called', found, found', indents⟩
  · exact .inl ⟨by rw [none]; rfl, by rw [none']; rfl⟩
  have word : isWord '\n' = false := by decide
  simp only [found, found', Option.bind_some, indents.takeWhile word]
  rcases (indents.dropWhile word).after? (show '\n' ∉ ['('] by decide) with
    ⟨none, none'⟩ | ⟨arguments, arguments', opened, opened', behind⟩
  · exact .inl ⟨by rw [none]; rfl, by rw [none']; rfl⟩
  simp only [opened, opened', Option.bind_some]
  split
  · exact .inr ⟨_, _, _, rfl, rfl, behind.trimStart⟩
  · exact .inl ⟨rfl, rfl⟩

/-- An anchor stands at the front of an indented text exactly when it stands there without indents. -/
theorem anchor?_indents {plain text : Text} (indents : Indents plain text) :
    anchor? text = none ↔ anchor? plain = none := by
  unfold anchor?
  simp only [Option.bind_eq_bind]
  have indent : isIndent '\n' = false := by decide
  have dotted : isDotted '\n' = false := by decide
  rcases (indents.dropWhile indent).after? (show '\n' ∉ "tests.".toList by decide) with
    ⟨none, none'⟩ | ⟨rest, rest', found, found', indents⟩
  · rw [none, none']
    exact .rfl
  simp only [found, found', Option.bind_some, indents.takeWhile dotted]
  rcases (indents.dropWhile dotted).after? (show '\n' ∉ ['('] by decide) with
    ⟨none, none'⟩ | ⟨argument, argument', opened, opened', behind⟩
  · rw [none, none']
    exact .rfl
  simp only [opened, opened', Option.bind_some]
  have braced : ∀ {plain text}, Indents plain text → startsWith ['{'] text = startsWith ['{'] plain := by
    intro plain text indents
    cases indents <;> simp
  split
  · exact .rfl
  rcases extClass?_indents behind.trimStart with
    ⟨none, none'⟩ | ⟨name, plain', text', isClass, isClass', within⟩
  · simp only [none, none', braced behind.trimStart]
    split <;> simp
  · simp only [isClass, isClass', braced within]
    split <;> simp

/-! ## Searching piece by piece -/

/-- No outer container opens at the start of a line of a text. `fresh` tells that a line starts at its
front. -/
def Unanchored (fresh : Bool) (text : Text) : Prop :=
  findAnchorFrom fresh 0 text = none

/-- No anchor is found exactly in a text without one. -/
theorem findAnchorFrom_eq_none_iff {fresh : Bool} {index : Nat} {text : Text} :
    findAnchorFrom fresh index text = none ↔ Unanchored fresh text := by
  suffices anywhere : ∀ index', findAnchorFrom fresh index text = none ↔
      findAnchorFrom fresh index' text = none from anywhere 0
  intro index'
  induction text generalizing fresh index index' with
  | nil => exact .rfl
  | cons c text ih =>
    simp only [findAnchorFrom]
    cases if fresh then anchor? (c :: text) else none with
    | some anchor => simp
    | none => exact ih (index' + 1)

@[simp] theorem unanchored_nil (fresh : Bool) : Unanchored fresh [] := rfl

/-- A text has no anchor if none stands at its first character and none behind. -/
theorem unanchored_cons {fresh : Bool} {c : Char} {text : Text} :
    Unanchored fresh (c :: text) ↔
      (fresh = true → anchor? (c :: text) = none) ∧ Unanchored (c == '\n') text := by
  rw [Unanchored, findAnchorFrom]
  cases fresh with
  | false => simp [findAnchorFrom_eq_none_iff]
  | true => cases anchor? (c :: text) <;> simp [findAnchorFrom_eq_none_iff]

/-- Where a line starts, the search looks at its front and goes on behind. -/
theorem unanchored_true_iff {text : Text} :
    Unanchored true text ↔ anchor? text = none ∧ Unanchored false text := by
  cases text with
  | nil => simp [show anchor? [] = none from rfl]
  | cons c text => simp [unanchored_cons]

/-- Behind the start of a line, only a line feed starts another one. -/
theorem unanchored_append_of_not_mem {front : Text} (single : '\n' ∉ front) (rest : Text) :
    Unanchored false (front ++ rest) ↔ Unanchored false rest := by
  induction front with
  | nil => exact .rfl
  | cons c front ih =>
    rw [List.mem_cons, not_or] at single
    have inLine : (c == '\n') = false := beq_false_of_ne (Ne.symm single.1)
    rw [List.cons_append, unanchored_cons, inLine, ih single.2]
    simp

@[simp] theorem unanchored_newline {fresh : Bool} {rest : Text} :
    Unanchored fresh ('\n' :: rest) ↔ Unanchored true rest := by
  have none : anchor? ('\n' :: rest) = none := rfl
  simp [unanchored_cons, none]

/-- An indent in front of a line does not matter. -/
theorem unanchored_indent {indent : Text} (blank : ∀ c ∈ indent, isIndent c = true) (rest : Text) :
    Unanchored true (indent ++ rest) ↔ Unanchored true rest := by
  have single : '\n' ∉ indent := fun member => absurd (blank _ member) (by decide)
  have same : anchor? (indent ++ rest) = none ↔ anchor? rest = none := by
    unfold anchor?
    simp only [Option.bind_eq_bind, List.dropWhile_append_of_pos blank]
    cases after? "tests.".toList (rest.dropWhile isIndent) with
    | none => exact .rfl
    | some named =>
      simp only [Option.bind_some]
      cases after? ['('] (named.dropWhile isDotted) with
      | none => exact .rfl
      | some argument =>
        simp only [Option.bind_some]
        split
        · exact .rfl
        · cases extClass? (trimStart argument) <;> simp
  rw [unanchored_true_iff, same, unanchored_append_of_not_mem single, ← unanchored_true_iff]

/-- Indents do not matter to the search. -/
theorem unanchored_indents {plain text : Text} (indents : Indents plain text) (fresh : Bool) :
    Unanchored fresh text ↔ Unanchored fresh plain := by
  induction indents generalizing fresh with
  | nil => exact .rfl
  | cons c rest ih => rw [unanchored_cons, unanchored_cons, ih, anchor?_indents (.cons c rest)]
  | newline blank rest ih =>
    rw [List.cons_append, unanchored_newline, unanchored_newline, unanchored_indent blank, ih]

/-- A character that no anchor holds, from its indent up to its brace. -/
def isForeign (c : Char) : Bool :=
  !(isBlank c || isDotted c || isWord c || c == '(' || c == '{')

/-- The head of an anchor has no foreign character. -/
theorem AnchorHead.not_foreign {indent package head : Text} {extClass : Option Text}
    (isHead : AnchorHead indent package extClass head) : ∀ c ∈ head, isForeign c = false := by
  have white : ∀ {blank : Text}, isBlankText blank = true → ∀ c ∈ blank, isForeign c = false := by
    intro blank isWhite c member
    simp [isForeign, isBlankText_iff.mp isWhite c member]
  obtain ⟨behind, call, indented, dotted, -, behindBlank, opening, rfl⟩ := isHead
  have called : ∀ c ∈ call, isForeign c = false := by
    cases opening with
    | none => simp
    | some isCall =>
      obtain ⟨apart, gap, apartBlank, -, gapBlank, word, -, rfl⟩ := isCall
      intro c member
      simp only [List.mem_append, List.mem_cons] at member
      rcases member with (((isNew | isApart) | isExt) | inName) | rfl | inGap
      · exact (by decide : ∀ c ∈ "new".toList, isForeign c = false) c isNew
      · exact white apartBlank c isApart
      · exact (by decide : ∀ c ∈ "Ext.test.".toList, isForeign c = false) c isExt
      · simp [isForeign, word c inName]
      · decide
      · exact white gapBlank c inGap
  intro c member
  simp only [List.mem_append] at member
  rcases member with ((((isIndent | isTests) | inPackage) | isAdd) | inBehind) | inCall
  · simp [isForeign, isBlank_of_isIndent (indented c isIndent)]
  · exact (by decide : ∀ c ∈ "tests.".toList, isForeign c = false) c isTests
  · simp [isForeign, dotted c inPackage]
  · exact (by decide : ∀ c ∈ ".add(".toList, isForeign c = false) c isAdd
  · exact white behindBlank c inBehind
  · exact called c inCall

/-- An anchor is still one with more behind it. -/
theorem anchor?_append_ne_none {front : Text} (found : anchor? front ≠ none) (rest : Text) :
    anchor? (front ++ rest) ≠ none := by
  obtain ⟨⟨indent, package, extClass, body⟩, here⟩ := Option.ne_none_iff_exists'.mp found
  obtain ⟨head, isHead, rfl, body, rfl⟩ := anchor?_eq_some_iff.mp here
  rw [anchor?_eq_some_iff.mpr ⟨head, isHead, List.append_assoc _ _ _, body ++ rest, rfl⟩]
  exact Option.some_ne_none _

/-- An anchor does not reach over a foreign character, and it ends at its brace. -/
theorem anchor?_across (front : Text) {between : Text} {c : Char} (closed : '{' ∉ between)
    (foreign : isForeign c = true) (rest : Text) :
    anchor? (front ++ between ++ c :: rest) = none ↔ anchor? front = none := by
  constructor
  · intro absent
    by_cases found : anchor? front = none
    · exact found
    · rw [List.append_assoc] at absent
      exact absurd absent (anchor?_append_ne_none found _)
  · intro absent
    rw [Option.eq_none_iff_forall_ne_some]
    rintro ⟨indent, package, extClass, body⟩ crossing
    obtain ⟨head, isHead, same, body, rfl⟩ := anchor?_eq_some_iff.mp crossing
    rw [List.append_assoc] at same
    rcases append_eq_append_cons_iff.mp same with ⟨tail, split, -⟩ | ⟨tail, rfl, split⟩
    · rw [anchor?_eq_some_iff.mpr ⟨head, isHead, split, tail, rfl⟩] at absent
      cases absent
    rcases append_eq_append_cons_iff.mp split with ⟨more, rfl, -⟩ | ⟨more, rfl, behind⟩
    · exact closed (by simp)
    cases more with
    | nil =>
      rw [(List.cons.inj behind).1] at foreign
      exact absurd foreign (by decide)
    | cons d more =>
      obtain ⟨rfl, -⟩ := List.cons.inj behind
      rw [isHead.not_foreign c (by simp)] at foreign
      cases foreign

/-- A foreign character in front of a brace keeps an anchor from standing there. -/
theorem unanchored_foreign {fresh : Bool} {between : Text} {c : Char} (closed : '{' ∉ between)
    (foreign : isForeign c = true) (rest : Text) :
    Unanchored fresh (between ++ c :: rest) ↔ Unanchored false rest := by
  have absent : ∀ {between}, '{' ∉ between → anchor? (between ++ c :: rest) = none :=
    fun closed => (anchor?_across [] closed foreign rest).mpr rfl
  induction between generalizing fresh with
  | nil =>
    have inLine : (c == '\n') = false := by
      apply beq_false_of_ne
      rintro rfl
      exact absurd foreign (by decide)
    have here := absent closed
    rw [List.nil_append] at here ⊢
    simp [unanchored_cons, here, inLine]
  | cons d between ih =>
    have here := absent closed
    rw [List.cons_append] at here ⊢
    simp [unanchored_cons, here, ih (List.not_mem_of_not_mem_cons closed)]

theorem unanchored_foreign_cons {fresh : Bool} {c : Char} (foreign : isForeign c = true) (rest : Text) :
    Unanchored fresh (c :: rest) ↔ Unanchored false rest :=
  @unanchored_foreign fresh [] c List.not_mem_nil foreign rest

/-- A text is searched piece by piece between foreign characters. What stands directly in front of
such a character plays no part if it holds no brace. -/
theorem unanchored_across {fresh : Bool} (front : Text) {between : Text} {c : Char}
    (closed : '{' ∉ between) (foreign : isForeign c = true) (rest : Text) :
    Unanchored fresh (front ++ between ++ c :: rest) ↔ Unanchored fresh front ∧ Unanchored false rest := by
  induction front generalizing fresh with
  | nil => simpa using unanchored_foreign closed foreign rest
  | cons d front ih =>
    have here := anchor?_across (d :: front) closed foreign rest
    rw [List.cons_append, List.cons_append] at here ⊢
    rw [unanchored_cons, unanchored_cons, here, @ih (d == '\n'), and_assoc]

/-- A foreign character keeps two texts apart. -/
theorem unanchored_append_cons {fresh : Bool} (front : Text) {c : Char} (foreign : isForeign c = true)
    (rest : Text) :
    Unanchored fresh (front ++ c :: rest) ↔ Unanchored fresh front ∧ Unanchored false rest := by
  have across := @unanchored_across fresh front [] c List.not_mem_nil foreign rest
  rwa [List.append_nil] at across

/-- The front of a text without an anchor has none. -/
theorem Unanchored.of_append {fresh : Bool} {front back : Text} (absent : Unanchored fresh (front ++ back)) :
    Unanchored fresh front := by
  induction front generalizing fresh with
  | nil => exact unanchored_nil fresh
  | cons c front ih =>
    rw [List.cons_append, unanchored_cons] at absent
    refine unanchored_cons.mpr ⟨fun starts => ?_, ih absent.2⟩
    by_cases found : anchor? (c :: front) = none
    · exact found
    · exact absurd (absent.1 starts) (anchor?_append_ne_none found back)

/-- There is no anchor before the first one. -/
theorem unanchored_take_of_findAnchorFrom {fresh : Bool} {index start : Nat} {text : Text} {anchor : Anchor}
    (found : findAnchorFrom fresh index text = some (start, anchor)) :
    index ≤ start ∧ Unanchored fresh (text.take (start - index)) := by
  induction text generalizing fresh index with
  | nil => cases found
  | cons c text ih =>
    rw [findAnchorFrom] at found
    split at found
    · simp only [Option.some.injEq, Prod.mk.injEq] at found
      obtain ⟨rfl, -⟩ := found
      simp
    · next absent =>
      obtain ⟨behind, further⟩ := ih found
      have width : start - index = (start - (index + 1)) + 1 := by omega
      rw [width, List.take_succ_cons]
      refine ⟨by omega, unanchored_cons.mpr ⟨?_, further⟩⟩
      rintro rfl
      by_cases early : anchor? (c :: text.take (start - (index + 1))) = none
      · exact early
      · have whole := anchor?_append_ne_none early (text.drop (start - (index + 1)))
        rw [List.cons_append, List.take_append_drop] at whole
        exact absurd absent whole

theorem unanchored_take_of_findAnchor {text : Text} {start : Nat} {anchor : Anchor}
    (found : findAnchor text = some (start, anchor)) : Unanchored true (text.take start) :=
  (unanchored_take_of_findAnchorFrom found).2

/-- Lines without an anchor play no part in front of a line where a foreign character stands before
any brace. -/
theorem unanchored_behind {pre between : Text} {c : Char} (absent : Unanchored true pre)
    (fresh : pre = [] ∨ endsWith ['\n'] pre = true) (closed : '{' ∉ between) (foreign : isForeign c = true)
    (rest : Text) :
    Unanchored true (pre ++ (between ++ c :: rest)) ↔ Unanchored true (between ++ c :: rest) := by
  rcases fresh with rfl | ends
  · exact .rfl
  · obtain ⟨front, rfl⟩ := endsWith_iff.mp ends
    have lines : front ++ ['\n'] ++ (between ++ c :: rest) = front ++ ('\n' :: between) ++ c :: rest := by
      simp
    rw [lines, unanchored_across front (by simpa using closed) foreign, unanchored_foreign closed foreign]
    exact and_iff_right absent.of_append

end Pattern

end JasmineConversion
