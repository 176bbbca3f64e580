import JasmineConversion.Proofs.Outcome
import JasmineConversion.Proofs.Source.Gap

/-! # Removing comments

Comments are removed piece by piece: what remains of a text that starts and ends in code does not
depend on the text around it. A gap leaves white space behind, and literals stay as they are.
-/

namespace JasmineConversion.Source

open Text

/-- What remains of a text without its comments, read from a mode on. -/
def keptFrom : Mode → Text → Text
  | _, [] => []
  | mode, c :: rest => mode.uncommented c ++ keptFrom (mode.next c) rest

/-- What is kept of two texts is what is kept of each. -/
theorem keptFrom_append (mode : Mode) (text more : Text) :
    keptFrom mode (text ++ more) = keptFrom mode text ++ keptFrom (text.foldl Mode.next mode) more := by
  induction text generalizing mode with
  | nil => rfl
  | cons c text ih => simp only [List.cons_append, keptFrom, ih, List.foldl_cons, List.append_assoc]

/-- A text that ends without a flaw is stripped to what is kept of it. -/
theorem stripCommentsFrom_eq_ok {mode : Mode} {text : Text}
    (closed : (text.foldl Mode.next mode).flaw? = none) (opened offset : Nat) :
    stripCommentsFrom mode opened offset text = .ok (keptFrom mode text) := by
  induction text generalizing mode opened offset with
  | nil =>
    have unflawed : mode.flaw? = none := closed
    simp only [stripCommentsFrom, unflawed, keptFrom]
  | cons c text ih =>
    simp only [stripCommentsFrom, ih closed, keptFrom]
    rfl

/-- Comments are stripped exactly from a text that ends without a flaw. -/
theorem stripCommentsFrom_eq_ok_iff {mode : Mode} {opened offset : Nat} {text kept : Text} :
    stripCommentsFrom mode opened offset text = .ok kept ↔
      (text.foldl Mode.next mode).flaw? = none ∧ keptFrom mode text = kept := by
  constructor
  · intro stripped
    have closed : (text.foldl Mode.next mode).flaw? = none := by
      induction text generalizing mode opened offset kept with
      | nil =>
        cases flawed : mode.flaw? with
        | none => exact flawed
        | some cause => simp [stripCommentsFrom, flawed] at stripped
      | cons c text ih =>
        obtain ⟨_, further, _⟩ := exceptBind_eq_ok_iff.mp stripped
        exact ih further
    rw [stripCommentsFrom_eq_ok closed] at stripped
    exact ⟨closed, Except.ok.inj stripped⟩
  · rintro ⟨closed, rfl⟩
    exact stripCommentsFrom_eq_ok closed opened offset

theorem stripComments_eq_ok_iff {text kept : Text} : stripComments text = .ok kept ↔
    (text.foldl Mode.next .code).flaw? = none ∧ keptFrom .code text = kept := by
  rw [stripComments, mapError_eq_ok_iff, stripCommentsFrom_eq_ok_iff]

theorem count_uncommented (mode : Mode) (c : Char) : (mode.uncommented c).count '\n' = List.count '\n' [c] := by
  cases mode <;> grind [Mode.uncommented]

/-- Removing comments keeps every line feed. -/
theorem count_keptFrom (mode : Mode) (text : Text) : (keptFrom mode text).count '\n' = text.count '\n' := by
  induction text generalizing mode with
  | nil => rfl
  | cons c text ih =>
    rw [keptFrom, List.count_append, count_uncommented, ih, ← List.count_append, List.singleton_append]

/-- What a literal holds is kept as it is, and its delimiter ends it. -/
theorem kept_of_content {delimiter : Char} {content : Text} (noEscape : delimiter ≠ '\\')
    (holds : LiteralContent delimiter content) :
    (content ++ [delimiter]).foldl Mode.next (.literal delimiter) = .code ∧
      keptFrom (.literal delimiter) (content ++ [delimiter]) = content ++ [delimiter] := by
  induction holds with
  | nil => simp [Mode.next, noEscape, keptFrom, Mode.uncommented]
  | plain noEscape inside _ ih => simpa [Mode.next, noEscape, inside, keptFrom, Mode.uncommented] using ih
  | escaped _ ih => simpa [Mode.next, keptFrom, Mode.uncommented] using ih

/-- A text that starts and ends in code, with what remains of it without its comments. -/
structure Strips (text kept : Text) : Prop where
  ends : text.foldl Mode.next .code = .code
  keeps : keptFrom .code text = kept

namespace Strips

variable {text kept : Text}

theorem nil : Strips [] [] :=
  ⟨rfl, rfl⟩

/-- Two texts are stripped one after the other. -/
theorem append {more keptMore : Text} (first : Strips text kept) (second : Strips more keptMore) :
    Strips (text ++ more) (kept ++ keptMore) := by
  refine ⟨by rw [List.foldl_append, first.ends, second.ends], ?_⟩
  rw [keptFrom_append, first.ends, first.keeps, second.keeps]

/-- A character that delimits nothing is kept. -/
theorem single {c : Char} (plain : Mode.isDelimiter c = false) : Strips [c] [c] := by
  refine ⟨Mode.code_next_of_not_isDelimiter plain, ?_⟩
  have noSlash : c ≠ '/' := by
    rintro rfl
    exact absurd plain (by decide)
  simp [keptFrom, Mode.uncommented, noSlash]

/-- A text without delimiters is kept. -/
theorem plain (all : ∀ c ∈ text, Mode.isDelimiter c = false) : Strips text text := by
  induction text with
  | nil => exact nil
  | cons c text ih =>
    rw [List.forall_mem_cons] at all
    exact (single all.1).append (ih all.2)

/-- A string between quotes is kept. -/
theorem quoted {quote : Char} (isQuote : Mode.isQuote quote = true) (holds : LiteralContent quote text) :
    Strips (quote :: text ++ [quote]) (quote :: text ++ [quote]) := by
  have noEscape := Mode.ne_backslash_of_isDelimiter (Mode.isDelimiter_of_isQuote isQuote)
  have noSlash : quote ≠ '/' := by
    rcases Mode.isQuote_iff.mp isQuote with rfl | rfl <;> decide
  have inside := kept_of_content noEscape holds
  have enters := Mode.code_next_of_isQuote isQuote
  constructor
  · rw [List.cons_append, List.foldl_cons, enters]
    exact inside.1
  · rw [List.cons_append, keptFrom, enters, inside.2]
    simp [Mode.uncommented, noSlash]

end Strips

/-- The modes of comments. -/
inductive InComment : Mode → Prop
  | line : InComment .lineComment
  | block : InComment .blockComment
  | star : InComment .blockStar

/-- Inside a comment only line feeds are kept. -/
theorem InComment.next {mode : Mode} (inside : InComment mode) (c : Char) :
    mode.uncommented c = [c].filter (· == '\n') ∧ (mode.next c = .code ∨ InComment (mode.next c)) := by
  have feeds : (if c = '\n' then [c] else []) = [c].filter (· == '\n') := by
    simp [List.filter_cons]
  cases inside with
  | line =>
    refine ⟨feeds, ?_⟩
    by_cases ends : c = '\n'
    · exact .inl (by simp [Mode.next, ends])
    · exact .inr (by simpa [Mode.next, ends] using InComment.line)
  | block =>
    refine ⟨feeds, .inr ?_⟩
    by_cases star : c = '*'
    · simpa [Mode.next, star] using InComment.star
    · simpa [Mode.next, star] using InComment.block
  | star =>
    refine ⟨feeds, ?_⟩
    by_cases slash : c = '/'
    · exact .inl (by simp [Mode.next, slash])
    · by_cases star : c = '*'
      · exact .inr (by simpa [Mode.next, slash, star] using InComment.star)
      · exact .inr (by simpa [Mode.next, slash, star] using InComment.block)

/-- A comment leaves nothing but its line feeds. -/
theorem InComment.keptFrom {mode : Mode} {passage : Text} (inside : InComment mode)
    (returns : mode.Returns passage) :
    keptFrom mode passage = passage.filter (· == '\n') ∧ passage.foldl Mode.next mode = .code := by
  induction passage generalizing mode with
  | nil => exact returns.elim
  | cons c passage ih =>
    obtain ⟨feeds, step⟩ := inside.next c
    rw [Source.keptFrom, feeds, List.foldl_cons]
    by_cases back : mode.next c = .code
    · simp only [Mode.Returns, back, if_true] at returns
      subst returns
      exact ⟨List.append_nil _, back⟩
    · obtain ⟨further, ends⟩ := ih (step.resolve_left back) ((Mode.returns_cons_of_ne back _).mp returns)
      refine ⟨?_, ends⟩
      rw [further, ← List.filter_append, List.singleton_append]

/-- A gap leaves white space. -/
theorem Gap.strips {gap : Text} (holds : Gap gap) :
    ∃ blank, isBlankText blank = true ∧ Strips gap blank := by
  induction holds using Gap.rec_comment with
  | nil => exact ⟨[], rfl, .nil⟩
  | @blank c rest white _ ih =>
    obtain ⟨blank, isBlank, strips⟩ := ih
    refine ⟨c :: blank, ?_, (Strips.single (Mode.isDelimiter_of_isBlank white)).append strips⟩
    rw [isBlankText_cons, white, isBlank]
    rfl
  | @comment mark mode passage rest starts returns _ ih =>
    obtain ⟨blank, isBlank, strips⟩ := ih
    have inside : InComment mode ∧ (Mode.code.next '/').next mark = mode ∧
        Source.keptFrom .code ['/', mark] = [] := by
      cases starts with
      | line => exact ⟨.line, rfl, rfl⟩
      | block => exact ⟨.block, rfl, rfl⟩
    obtain ⟨inComment, enters, nothing⟩ := inside
    obtain ⟨feeds, ends⟩ := inComment.keptFrom returns
    have blankComment : isBlankText (Source.keptFrom mode passage) = true := by
      rw [feeds, isBlankText_iff]
      intro c member
      obtain rfl : c = '\n' := by simpa using (List.mem_filter.mp member).2
      decide
    have comment : Strips ('/' :: mark :: passage) (Source.keptFrom mode passage) := by
      refine ⟨by rw [List.foldl_cons, List.foldl_cons, enters, ends], ?_⟩
      have split := keptFrom_append .code ['/', mark] passage
      rwa [nothing, List.foldl_cons, List.foldl_cons, enters] at split
    refine ⟨_, ?_, comment.append strips⟩
    rw [isBlankText_append, blankComment, isBlank]
    rfl

theorem stripComments_eq_ok {text kept : Text} (strips : Strips text kept) :
    stripComments text = .ok kept :=
  stripComments_eq_ok_iff.mpr ⟨by rw [strips.ends]; rfl, strips.keeps⟩

end JasmineConversion.Source
