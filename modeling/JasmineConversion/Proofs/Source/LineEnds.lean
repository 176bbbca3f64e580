import JasmineConversion.Proofs.Source.Enclosure
import JasmineConversion.Proofs.Source.Stripping

/-! # Line ends

Texts are compared up to the spaces and tabs at the ends of their lines. A line of which nothing but those
remains without its comments may as well stand in a line comment: what remains of the text is the same up to
line ends, and so is the reading behind the line.
-/

namespace JasmineConversion.Source

open Text

/-- A text without the spaces and tabs at the ends of its lines. -/
def trimLineEnds : Text → Text
  | [] => []
  | c :: rest =>
    if isIndent c && (trimLineEnds rest).head?.all (· == '\n') then trimLineEnds rest
    else c :: trimLineEnds rest

/-- The first line of a text. -/
def firstLine (text : Text) : Text :=
  text.takeWhile (· != '\n')

/-- Nothing but spaces and tabs remains of the first line of a text, and no literal or block comment that starts
there goes on behind it. -/
def QuietLine (text : Text) : Prop :=
  ∃ blank, stripComments (firstLine text) = .ok blank ∧ ∀ c ∈ blank, isIndent c = true

variable {mode : Mode} {text more line rest blank kept : Text} {c : Char}

/-! ## Trimming -/

/-- Texts whose lines end alike do so behind the same front. -/
theorem trimLineEnds_append (front : Text) (same : trimLineEnds text = trimLineEnds more) :
    trimLineEnds (front ++ text) = trimLineEnds (front ++ more) := by
  induction front with
  | nil => exact same
  | cons c front ih => simp only [List.cons_append, trimLineEnds, ih]

/-- Spaces and tabs are trimmed at the end of a line, and at that of the text. -/
theorem trimLineEnds_blank (indents : ∀ c ∈ blank, isIndent c = true) (ends : rest = [] ∨ ∃ more, rest = '\n' :: more) :
    trimLineEnds (blank ++ rest) = trimLineEnds rest := by
  have stops : (trimLineEnds rest).head?.all (· == '\n') = true := by
    rcases ends with rfl | ⟨more, rfl⟩ <;> rfl
  induction blank with
  | nil => rfl
  | cons c blank ih =>
    obtain ⟨here, further⟩ := List.forall_mem_cons.mp indents
    rw [List.cons_append, trimLineEnds, ih further, here, stops]
    rfl

/-! ## What remains of a line -/

theorem flaw?_eq_none_iff : mode.flaw? = none ↔ mode = .code ∨ mode = .lineComment := by
  cases mode <;> simp [Mode.flaw?]

/-- A line in a line comment leaves nothing, and stays in it. -/
theorem lineComment_of_line (oneLine : '\n' ∉ line) :
    keptFrom .lineComment line = [] ∧ line.foldl Mode.next .lineComment = .lineComment := by
  induction line with
  | nil => exact ⟨rfl, rfl⟩
  | cons c line ih =>
    rw [List.mem_cons, not_or] at oneLine
    obtain ⟨nothing, stays⟩ := ih oneLine.2
    have feed : c ≠ '\n' := Ne.symm oneLine.1
    simp [keptFrom, Mode.uncommented, Mode.next, feed, nothing, stays]

/-- Where nothing but spaces and tabs remains, no bracket counts. -/
theorem scan_of_indents (bracket : Bracket) (inner : Nat)
    (indents : ∀ c ∈ keptFrom mode text, isIndent c = true) :
    bracket.scan (mode, inner) text = some (text.foldl Mode.next mode, inner) := by
  induction text generalizing mode with
  | nil => rfl
  | cons c text ih =>
    rw [keptFrom, List.forall_mem_append] at indents
    obtain ⟨here, further⟩ := indents
    have step : bracket.step (mode, inner) c = some (mode.next c, inner) := by
      by_cases inCode : mode = .code
      · subst inCode
        have plain : c = '/' ∨ isIndent c = true := by
          by_cases slash : c = '/'
          · exact .inl slash
          · exact .inr (here c (by simp [Mode.uncommented, slash]))
        have noBracket : c ≠ bracket.opener ∧ c ≠ bracket.closer := by
          simp only [isIndent, Bool.or_eq_true, beq_iff_eq] at plain
          rcases plain with rfl | rfl | rfl <;> cases bracket <;> decide
        exact Bracket.step_of_other noBracket.1 noBracket.2 inner
      · exact Bracket.step_of_ne_code inCode inner c
    rw [Bracket.scan_cons, step, Option.bind_some, ih further, List.foldl_cons]

/-! ## Quiet lines -/

/-- The first line of a text with a line feed is not changed by what is behind. -/
theorem firstLine_append (feeds : '\n' ∈ text) (more : Text) : firstLine (text ++ more) = firstLine text := by
  induction text with
  | nil => cases feeds
  | cons c text ih =>
    by_cases feed : c = '\n'
    · subst feed
      rfl
    · have further : '\n' ∈ text := (List.mem_cons.mp feeds).resolve_left (Ne.symm feed)
      simpa [firstLine, feed] using ih further

/-- A quiet line has blanks and comments only, and ends in code or in a line comment. -/
theorem QuietLine.exists_line (quiet : QuietLine text) : ∃ line rest, text = line ++ rest ∧ '\n' ∉ line ∧
    (rest = [] ∨ ∃ more, rest = '\n' :: more) ∧ (∀ c ∈ keptFrom .code line, isIndent c = true) ∧
      (line.foldl Mode.next .code = .code ∨ line.foldl Mode.next .code = .lineComment) := by
  obtain ⟨blank, stripped, indents⟩ := quiet
  obtain ⟨closed, rfl⟩ := stripComments_eq_ok_iff.mp stripped
  refine ⟨firstLine text, text.dropWhile (· != '\n'), List.takeWhile_append_dropWhile.symm, ?_, ?_, indents,
    flaw?_eq_none_iff.mp closed⟩
  · intro member
    simpa using List.all_eq_true.mp List.all_takeWhile _ member
  · cases behind : text.dropWhile (· != '\n') with
    | nil => exact .inl rfl
    | cons c more =>
      have feed := List.head?_dropWhile_not (· != '\n') text
      rw [behind] at feed
      exact .inr ⟨more, by simpa using feed⟩

/-- A quiet line leaves as much in a line comment as in code, up to line ends. -/
theorem QuietLine.trim (quiet : QuietLine text) (indents : ∀ c ∈ blank, isIndent c = true) :
    trimLineEnds (blank ++ keptFrom .lineComment text) = trimLineEnds (keptFrom .code text) := by
  obtain ⟨line, rest, rfl, oneLine, ends, indents', closes⟩ := quiet.exists_line
  obtain ⟨nothing, stays⟩ := lineComment_of_line oneLine
  rw [keptFrom_append, keptFrom_append, nothing, stays, List.nil_append]
  have behind : keptFrom (line.foldl Mode.next .code) rest = keptFrom .lineComment rest ∧
      (keptFrom .lineComment rest = [] ∨ ∃ more, keptFrom .lineComment rest = '\n' :: more) := by
    rcases ends with rfl | ⟨more, rfl⟩
    · exact ⟨rfl, .inl rfl⟩
    · rcases closes with closes | closes <;> rw [closes] <;> exact ⟨rfl, .inr ⟨_, rfl⟩⟩
  rw [behind.1, trimLineEnds_blank indents behind.2, trimLineEnds_blank indents' behind.2]

/-- A reading stands at the same place behind a quiet line in a line comment and in code. -/
theorem QuietLine.foldl (quiet : QuietLine text) :
    (text ++ ['\n']).foldl Mode.next .lineComment = (text ++ ['\n']).foldl Mode.next .code := by
  obtain ⟨line, rest, rfl, oneLine, ends, -, closes⟩ := quiet.exists_line
  rw [List.append_assoc, List.foldl_append, (lineComment_of_line oneLine).2, @List.foldl_append _ _ _ _ line]
  rcases ends with rfl | ⟨more, rfl⟩ <;> rcases closes with closes | closes <;> rw [closes] <;> rfl

/-- Brackets count the same behind a quiet line in a line comment and in code. -/
theorem QuietLine.scan (quiet : QuietLine text) (bracket : Bracket) (inner : Nat) :
    bracket.scan (.lineComment, inner) (text ++ ['\n']) = bracket.scan (.code, inner) (text ++ ['\n']) := by
  obtain ⟨line, rest, rfl, oneLine, ends, indents, closes⟩ := quiet.exists_line
  obtain ⟨nothing, stays⟩ := lineComment_of_line oneLine
  have silent : ∀ c ∈ keptFrom .lineComment line, isIndent c = true := by
    simp [nothing]
  have feed (more : Text) : bracket.scan (line.foldl Mode.next .code, inner) ('\n' :: more) =
      bracket.scan (.lineComment, inner) ('\n' :: more) := by
    rcases closes with closes | closes <;> rw [closes]
    cases bracket <;> rfl
  rw [List.append_assoc, Bracket.scan_append, Bracket.scan_append, scan_of_indents bracket inner silent,
    scan_of_indents bracket inner indents, stays, Option.bind_some, Option.bind_some]
  rcases ends with rfl | ⟨more, rfl⟩
  · exact (feed []).symm
  · exact (feed _).symm

/-- Code on the first line is not quiet. -/
theorem QuietLine.mem_of_code (quiet : QuietLine (text ++ c :: more)) (code : text.foldl Mode.next .code = .code)
    (plain : Mode.isDelimiter c = false) (solid : isBlank c = false) : '\n' ∈ text := by
  refine Classical.byContradiction fun oneLine => ?_
  have feed : c ≠ '\n' := by
    rintro rfl
    exact absurd solid (by decide)
  have line : firstLine (text ++ c :: more) = text ++ c :: firstLine more := by
    have inside : ∀ d ∈ text, (d != '\n') = true := by
      intro d member
      rw [bne_iff_ne]
      rintro rfl
      exact oneLine member
    rw [firstLine, List.takeWhile_append_of_pos inside, List.takeWhile_cons, if_pos (bne_iff_ne.mpr feed)]
    rfl
  obtain ⟨blank, stripped, indents⟩ := quiet
  obtain ⟨-, rfl⟩ := stripComments_eq_ok_iff.mp stripped
  have noSlash : c ≠ '/' := by
    rintro rfl
    exact absurd plain (by decide)
  have indent := indents c (by
    rw [line, keptFrom_append, code]
    simp [keptFrom, Mode.uncommented, noSlash])
  exact Bool.noConfusion (solid.symm.trans (isBlank_of_isIndent indent))

/-- A quiet line stays so whatever follows its line feed. -/
theorem QuietLine.of_append {other : Text} (quiet : QuietLine (text ++ more)) (feeds : '\n' ∈ text) :
    QuietLine (text ++ other) := by
  unfold QuietLine at quiet ⊢
  rwa [firstLine_append feeds] at quiet ⊢

end JasmineConversion.Source
