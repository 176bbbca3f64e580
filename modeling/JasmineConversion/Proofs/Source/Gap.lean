import JasmineConversion.Proofs.Source.Passage
import JasmineConversion.Proofs.Text.Position
import JasmineConversion.Source.Scan

/-! # Gaps

A gap is white space and complete comments. Skipping moves over the longest layout: it stops at a
character that neither is blank nor starts a comment, and an open line comment ends only with
the text. Unless the text ends with it, the layout is a gap.
-/

namespace JasmineConversion.Source

open Text

/-- White space and complete comments. -/
inductive Gap : Text → Prop
  | nil : Gap []
  | blank {c : Char} {rest : Text} (white : isBlank c = true) (gap : Gap rest) : Gap (c :: rest)
  | line {inner rest : Text} (oneLine : '\n' ∉ inner) (gap : Gap rest) :
      Gap ('/' :: '/' :: inner ++ '\n' :: rest)
  | block {inner rest : Text} (unended : occursIn ['*', '/'] inner = false) (gap : Gap rest) :
      Gap ('/' :: '*' :: inner ++ '*' :: '/' :: rest)

/-- Whether a gap may go on with a character. -/
def goesOn (c : Char) : Bool :=
  isBlank c || c == '/'

theorem goesOn_eq_false_iff {c : Char} : goesOn c = false ↔ isBlank c = false ∧ c ≠ '/' := by
  simp [goesOn]

/-- Two gaps are a gap. -/
theorem Gap.append {gap more : Text} (first : Gap gap) (second : Gap more) :
    Gap (gap ++ more) := by
  induction first with
  | nil => exact second
  | blank white _ ih => exact .blank white ih
  | line oneLine _ ih => simpa using Gap.line oneLine ih
  | block unended _ ih => simpa using Gap.block unended ih

/-- In code, a gap goes on with white space, or with a slash that opens a comment. -/
theorem gapFrom_code_cons (opened offset : Nat) (c : Char) (rest : Text) :
    gapFrom .code opened offset (c :: rest) =
      if isBlank c then gapFrom .code opened (offset + 1) rest
      else if c = '/' then
        match rest with
        | '/' :: rest => gapFrom .lineComment offset (offset + 2) rest
        | '*' :: rest => gapFrom .blockComment offset (offset + 2) rest
        | _ => .ok offset
      else .ok offset := by
  rw [gapFrom.eq_def]
  rfl

/-- Inside a comment, a gap goes on with any character. -/
theorem gapFrom_cons_of_ne {mode : Mode} (away : mode ≠ .code) (opened offset : Nat) (c : Char)
    (rest : Text) :
    gapFrom mode opened offset (c :: rest) = gapFrom (mode.next c) opened (offset + 1) rest := by
  cases mode <;> first | rfl | exact absurd rfl away

/-- The reading of a comment goes on in code behind the comment. -/
theorem gapFrom_append_of_returns {mode : Mode} {passage : Text} (away : mode ≠ .code)
    (returns : mode.Returns passage) (opened offset : Nat) (rest : Text) :
    gapFrom mode opened offset (passage ++ rest) =
      gapFrom .code opened (offset + passage.length) rest := by
  induction passage generalizing mode offset with
  | nil => exact returns.elim
  | cons c passage ih =>
    rw [List.cons_append, gapFrom_cons_of_ne away]
    by_cases back : mode.next c = .code
    · simp only [Mode.Returns, back, ↓reduceIte] at returns
      simp [back, returns]
    · rw [Mode.returns_cons_of_ne back] at returns
      rw [ih back returns]
      congr 1
      simp only [List.length_cons]
      omega

/-- The character behind a slash that starts a comment, and the mode of the comment. -/
inductive StartsComment : Char → Mode → Prop
  | line : StartsComment '/' .lineComment
  | block : StartsComment '*' .blockComment

theorem StartsComment.ne_code {mark : Char} {mode : Mode} (starts : StartsComment mark mode) :
    mode ≠ .code := by
  cases starts <;> decide

/-- A gap goes on inside a comment that starts. -/
theorem StartsComment.gapFrom_code {mark : Char} {mode : Mode} (starts : StartsComment mark mode)
    (opened offset : Nat) (rest : Text) :
    gapFrom .code opened offset ('/' :: mark :: rest) = gapFrom mode offset (offset + 2) rest := by
  have solid : isBlank '/' = false := by decide
  cases starts <;> simp [gapFrom_code_cons, solid]

/-- A comment in front of a gap is a gap. -/
theorem Gap.comment {mark : Char} {mode : Mode} {passage rest : Text}
    (starts : StartsComment mark mode) (returns : mode.Returns passage) (gap : Gap rest) :
    Gap ('/' :: mark :: passage ++ rest) := by
  cases starts with
  | line =>
    obtain ⟨inner, rfl, oneLine⟩ := Mode.lineComment_returns_iff.mp returns
    simpa using Gap.line oneLine gap
  | block =>
    obtain ⟨inner, rfl, unended⟩ := Mode.blockComment_returns_iff.mp returns
    simpa using Gap.block unended gap

/-- Gaps are built from blank characters and comments. -/
@[elab_as_elim] theorem Gap.rec_comment {motive : (gap : Text) → Gap gap → Prop} (nil : motive [] .nil)
    (blank : ∀ {c rest} (white : isBlank c = true) (gap : Gap rest),
      motive rest gap → motive (c :: rest) (.blank white gap))
    (comment : ∀ {mark mode passage rest} (starts : StartsComment mark mode)
      (returns : mode.Returns passage) (gap : Gap rest),
      motive rest gap → motive ('/' :: mark :: passage ++ rest) (.comment starts returns gap))
    {gap : Text} (holds : Gap gap) : motive gap holds := by
  induction holds with
  | nil => exact nil
  | blank white gap ih => exact blank white gap ih
  | @line inner rest oneLine gap ih =>
    have whole := comment .line (Mode.lineComment_returns_iff.mpr ⟨inner, rfl, oneLine⟩) gap ih
    have same : '/' :: '/' :: (inner ++ ['\n']) ++ rest = '/' :: '/' :: inner ++ '\n' :: rest := by
      simp
    simpa only [same] using whole
  | @block inner rest unended gap ih =>
    have whole := comment .block (Mode.blockComment_returns_iff.mpr ⟨inner, rfl, unended⟩) gap ih
    have same : '/' :: '*' :: (inner ++ ['*', '/']) ++ rest =
        '/' :: '*' :: inner ++ '*' :: '/' :: rest := by
      simp
    simpa only [same] using whole

/-! ## Layout -/

/-- White space and comments, with the rest of the text behind them. A line comment is complete in front of a line
feed and at the end of the text, a block comment with its first end mark. -/
inductive Layout : (layout rest : Text) → Prop
  | nil {rest : Text} : Layout [] rest
  | blank {c : Char} {layout rest : Text} (white : isBlank c = true) (more : Layout layout rest) :
      Layout (c :: layout) rest
  | line {inner layout rest : Text} (oneLine : '\n' ∉ inner) (ends : Stops (· != '\n') (layout ++ rest))
      (more : Layout layout rest) : Layout ('/' :: '/' :: inner ++ layout) rest
  | block {inner layout rest : Text} (unended : occursIn ['*', '/'] inner = false)
      (more : Layout layout rest) : Layout ('/' :: '*' :: inner ++ ['*', '/'] ++ layout) rest

/-- A text that starts neither with white space nor with a comment. -/
def Solid (text : Text) : Prop :=
  Stops isBlank text ∧ startsComment text = false

/-- A text that stops a gap is solid. -/
theorem Solid.of_stops {text : Text} (stops : Stops goesOn text) : Solid text := by
  cases text with
  | nil => exact ⟨stops_nil isBlank, rfl⟩
  | cons c text =>
    rw [stops_cons, goesOn_eq_false_iff] at stops
    refine ⟨(stops_cons _ _ _).mpr stops.1, ?_⟩
    simp [startsComment, startsWith, after?, Ne.symm stops.2]

/-- Nothing is skipped of a solid text. -/
theorem Solid.gapFrom {text : Text} (solid : Solid text) (opened offset : Nat) :
    gapFrom .code opened offset text = .ok offset := by
  cases text with
  | nil => rfl
  | cons c text =>
    obtain ⟨stops, noComment⟩ := solid
    rw [stops_cons] at stops
    rw [gapFrom_code_cons, stops, if_neg Bool.false_ne_true]
    split
    · next slash =>
      subst slash
      split
      · cases noComment
      · cases noComment
      · rfl
    · rfl

/-- A line comment is read up to the end of its line, and the line feed as in code. -/
theorem gapFrom_lineComment {inner rest : Text} (oneLine : '\n' ∉ inner) (ends : Stops (· != '\n') rest)
    (opened offset : Nat) :
    gapFrom .lineComment opened offset (inner ++ rest) =
      gapFrom .code opened (offset + inner.length) rest := by
  have away : Mode.lineComment ≠ .code := by decide
  induction inner generalizing offset with
  | nil =>
    cases rest with
    | nil => rfl
    | cons c rest =>
      obtain rfl : c = '\n' := by simpa using ends
      rw [List.nil_append, gapFrom_cons_of_ne away, gapFrom_code_cons, if_pos (by decide)]
      rfl
  | cons c inner ih =>
    rw [List.mem_cons, not_or] at oneLine
    have stays : Mode.lineComment.next c = .lineComment := if_neg (Ne.symm oneLine.1)
    rw [List.cons_append, gapFrom_cons_of_ne away, stays, ih oneLine.2, List.length_cons]
    congr 1
    omega

/-- Layout is skipped up to a solid text. -/
theorem Layout.gapFrom_append {layout rest : Text} (holds : Layout layout rest) (solid : Solid rest)
    (opened offset : Nat) :
    gapFrom .code opened offset (layout ++ rest) = .ok (offset + layout.length) := by
  induction holds generalizing opened offset with
  | nil => exact solid.gapFrom opened offset
  | blank white _ ih =>
    simp only [List.cons_append, gapFrom_code_cons, white, ↓reduceIte, ih solid, List.length_cons,
      Except.ok.injEq]
    omega
  | @line inner layout rest oneLine ends _ ih =>
    simp only [List.cons_append, List.append_assoc, StartsComment.line.gapFrom_code,
      gapFrom_lineComment oneLine ends, ih solid, List.length_cons, List.length_append, Except.ok.injEq]
    omega
  | @block inner layout rest unended _ ih =>
    have returns := Mode.blockComment_returns_iff.mpr ⟨inner, rfl, unended⟩
    have whole : '/' :: '*' :: inner ++ ['*', '/'] ++ layout ++ rest =
        '/' :: '*' :: ((inner ++ ['*', '/']) ++ (layout ++ rest)) := by simp
    rw [whole, StartsComment.block.gapFrom_code, gapFrom_append_of_returns (by decide) returns, ih solid]
    simp only [List.length_append, List.length_cons, List.length_nil, Except.ok.injEq]
    omega

/-- A block comment that was skipped over is complete. -/
private theorem exists_returns_of_gapFrom {mode : Mode} {text : Text} {opened offset width : Nat}
    (inside : mode = .blockComment ∨ mode = .blockStar) (skipped : gapFrom mode opened offset text = .ok width) :
    ∃ passage rest, text = passage ++ rest ∧ mode.Returns passage ∧
      gapFrom .code opened (offset + passage.length) rest = .ok width := by
  induction text generalizing mode offset with
  | nil => rcases inside with rfl | rfl <;> cases skipped
  | cons c text ih =>
    have away : mode ≠ .code := by rcases inside with rfl | rfl <;> decide
    rw [gapFrom_cons_of_ne away] at skipped
    by_cases back : mode.next c = .code
    · rw [back] at skipped
      exact ⟨[c], text, rfl, by simp [Mode.Returns, back], skipped⟩
    · obtain ⟨passage, rest, rfl, returns, further⟩ := ih (Mode.next_of_blockComment inside back) skipped
      refine ⟨c :: passage, rest, rfl, (Mode.returns_cons_of_ne back _).mpr returns, ?_⟩
      rw [← further]
      congr 1
      simp only [List.length_cons]
      omega

/-- One step of a skip in code: over a blank character, into a comment, or not at all. -/
private theorem gapFrom_code_cases {text : Text} {opened offset width : Nat}
    (skipped : gapFrom .code opened offset text = .ok width) :
    (∃ c rest, text = c :: rest ∧ isBlank c = true ∧
      gapFrom .code opened (offset + 1) rest = .ok width) ∨
    (∃ mark mode rest, text = '/' :: mark :: rest ∧ StartsComment mark mode ∧
      gapFrom mode offset (offset + 2) rest = .ok width) ∨
    (width = offset ∧ Solid text) := by
  cases text with
  | nil =>
    simp only [gapFrom, Mode.flaw?, Except.ok.injEq] at skipped
    exact .inr (.inr ⟨skipped.symm, stops_nil isBlank, rfl⟩)
  | cons c text =>
    rw [gapFrom_code_cons] at skipped
    split at skipped
    · next white => exact .inl ⟨c, text, rfl, white, skipped⟩
    · next solid =>
      have stops : Stops isBlank (c :: text) := (stops_cons _ _ _).mpr (Bool.eq_false_iff.mpr solid)
      split at skipped
      · next slash =>
        subst slash
        split at skipped
        · exact .inr (.inl ⟨'/', _, _, rfl, .line, skipped⟩)
        · exact .inr (.inl ⟨'*', _, _, rfl, .block, skipped⟩)
        · next noLine noBlock =>
          refine .inr (.inr ⟨(Except.ok.inj skipped).symm, stops, ?_⟩)
          rw [startsComment, Bool.or_eq_false_iff, Bool.eq_false_iff, Bool.eq_false_iff, Ne, Ne, startsWith_iff,
            startsWith_iff]
          constructor
          · rintro ⟨rest, same⟩
            exact noLine rest (List.cons.inj same).2
          · rintro ⟨rest, same⟩
            exact noBlock rest (List.cons.inj same).2
      · next noSlash =>
        exact .inr (.inr ⟨(Except.ok.inj skipped).symm, .of_stops ((stops_cons _ _ _).mpr
          (goesOn_eq_false_iff.mpr ⟨Bool.eq_false_iff.mpr solid, noSlash⟩))⟩)

/-- What was skipped is layout, and nothing more would be skipped. -/
theorem exists_layout_of_gapFrom {text : Text} {opened offset width : Nat}
    (skipped : gapFrom .code opened offset text = .ok width) :
    ∃ layout rest, text = layout ++ rest ∧ width = offset + layout.length ∧ Layout layout rest ∧ Solid rest := by
  induction size : text.length using Nat.strongRecOn generalizing text opened offset with
  | ind size ih =>
    subst size
    rcases gapFrom_code_cases skipped with ⟨c, text, rfl, white, further⟩ |
      ⟨mark, mode, text, rfl, starts, further⟩ | ⟨rfl, solid⟩
    · obtain ⟨layout, rest, rfl, rfl, holds, solid⟩ := ih text.length (by simp) further rfl
      refine ⟨c :: layout, rest, rfl, ?_, .blank white holds, solid⟩
      simp only [List.length_cons]
      omega
    · cases starts with
      | line =>
        obtain ⟨inner, tail, rfl, all, ends, -, -⟩ := exists_run (· != '\n') text
        have oneLine : '\n' ∉ inner := fun member => absurd (all _ member) (by decide)
        rw [gapFrom_lineComment oneLine ends] at further
        obtain ⟨layout, rest, rfl, rfl, holds, solid⟩ := ih tail.length (by simp; omega) further rfl
        refine ⟨'/' :: '/' :: inner ++ layout, rest, by simp, ?_, .line oneLine ends holds, solid⟩
        simp only [List.length_append, List.length_cons]
        omega
      | block =>
        obtain ⟨passage, tail, rfl, returns, behind⟩ := exists_returns_of_gapFrom (.inl rfl) further
        obtain ⟨inner, rfl, unended⟩ := Mode.blockComment_returns_iff.mp returns
        obtain ⟨layout, rest, rfl, rfl, holds, solid⟩ := ih tail.length (by simp; omega) behind rfl
        refine ⟨'/' :: '*' :: inner ++ ['*', '/'] ++ layout, rest, by simp, ?_, .block unended holds, solid⟩
        simp only [List.length_append, List.length_cons, List.length_nil]
        omega
    · exact ⟨[], text, rfl, rfl, .nil, solid⟩

/-! ## Gaps and layout -/

/-- A gap is layout in front of any text. -/
theorem Gap.layout {gap : Text} (holds : Gap gap) (rest : Text) : Layout gap rest := by
  induction holds with
  | nil => exact .nil
  | blank white _ ih => exact .blank white ih
  | line oneLine _ ih => exact .line oneLine (by simp) (.blank (by decide) ih)
  | block unended _ ih => simpa using Layout.block unended ih

/-- White space can be taken from the front of a gap. -/
theorem Gap.of_cons {c : Char} {gap : Text} (white : isBlank c = true) (holds : Gap (c :: gap)) : Gap gap := by
  have noSlash : c ≠ '/' := ne_of_isBlank white (by decide)
  generalize whole : c :: gap = text at holds
  cases holds with
  | nil => cases whole
  | blank _ holds => exact (List.cons.inj whole).2 ▸ holds
  | line => exact absurd (List.cons.inj whole).1 noSlash
  | block => exact absurd (List.cons.inj whole).1 noSlash

/-- Layout in front of a solid text is a gap: a line comment at its end would go on up to a line feed. -/
theorem Layout.gap {layout rest : Text} (holds : Layout layout rest) (solid : Solid rest) (more : rest ≠ []) :
    Gap layout := by
  induction holds with
  | nil => exact .nil
  | blank white _ ih => exact .blank white (ih solid more)
  | @line inner layout rest oneLine ends _ ih =>
    cases layout with
    | nil =>
      obtain ⟨c, tail, rfl⟩ := List.exists_cons_of_ne_nil more
      obtain rfl : c = '\n' := by simpa using ends
      exact absurd ((stops_cons _ _ _).mp solid.1) (by decide)
    | cons c layout =>
      obtain rfl : c = '\n' := by simpa using ends
      exact .line oneLine (.of_cons (by decide) (ih solid more))
  | block unended _ ih => simpa using Gap.block unended (ih solid more)

/-! ## Skipping -/

/-- Skipping moves over the layout at an index up to a solid text. -/
theorem skip_eq_ok_iff {source : Text} {index next : Nat} : skip source index = .ok next ↔
    ∃ layout, Spans source index layout next ∧ Layout layout (source.drop next) ∧ Solid (source.drop next) := by
  rw [skip]
  constructor
  · intro skipped
    split at skipped
    · next width found =>
      obtain ⟨layout, rest, here, rfl, holds, solid⟩ := exists_layout_of_gapFrom found
      have next_eq : next = index + layout.length := by simpa [eq_comm] using skipped
      have spans : Spans source index layout next := .of_drop here next_eq
      refine ⟨layout, spans, ?_⟩
      rw [spans.drop_stop here]
      exact ⟨holds, solid⟩
    · cases skipped
  · rintro ⟨layout, spans, holds, solid⟩
    rw [spans.here, holds.gapFrom_append solid, spans.width]
    simp

/-- Skipping moves over a gap to the first character that it cannot go on with. -/
theorem skip_eq_ok_of_gap {source gap : Text} {index next : Nat} (spans : Spans source index gap next)
    (holds : Gap gap) (stops : Stops goesOn (source.drop next)) : skip source index = .ok next :=
  skip_eq_ok_iff.mpr ⟨gap, spans, holds.layout _, .of_stops stops⟩

/-- Skipping moves over a gap, unless the text ends with what it moves over. -/
theorem exists_gap_of_skip {source : Text} {index next : Nat} (skipped : skip source index = .ok next) :
    ∃ gap, Spans source index gap next ∧ (source.drop next ≠ [] → Gap gap) := by
  obtain ⟨layout, spans, holds, solid⟩ := skip_eq_ok_iff.mp skipped
  exact ⟨layout, spans, holds.gap solid⟩

/-- Nothing more is skipped where skipping has come to. -/
theorem skip_eq_ok_self {source : Text} {index next : Nat} (skipped : skip source index = .ok next) :
    skip source next = .ok next := by
  obtain ⟨-, -, -, solid⟩ := skip_eq_ok_iff.mp skipped
  exact skip_eq_ok_iff.mpr ⟨[], .refl source next, .nil, solid⟩

/-- Skipping goes forward. -/
theorem le_of_skip {source : Text} {index next : Nat} (skipped : skip source index = .ok next) :
    index ≤ next := by
  obtain ⟨layout, spans, -, -⟩ := skip_eq_ok_iff.mp skipped
  exact spans.start_le

end JasmineConversion.Source
