import JasmineConversion.Proofs.Text.Front
import JasmineConversion.Source.Reading

/-! # Literals and comments as passages

A literal or a comment is a passage of the source text: the reading leaves code with its first
character and is back in code with its last. The modes of a reading are compared here with what
the passages hold: escapes and plain characters, one line, or anything up to the first end mark.
-/

namespace JasmineConversion

open Text

/-- What may stand between two equal delimiters: a backslash with any character behind it, and
any other character except the delimiter. -/
inductive LiteralContent (delimiter : Char) : Text → Prop
  | nil : LiteralContent delimiter []
  | plain {c : Char} {rest : Text} (noEscape : c ≠ '\\') (inside : c ≠ delimiter)
      (content : LiteralContent delimiter rest) : LiteralContent delimiter (c :: rest)
  | escaped {c : Char} {rest : Text} (content : LiteralContent delimiter rest) :
      LiteralContent delimiter ('\\' :: c :: rest)

namespace Mode

theorem isDelimiter_iff {c : Char} : isDelimiter c = true ↔ c = '\'' ∨ c = '"' ∨ c = '/' := by
  simp [isDelimiter, isQuote, or_assoc]

theorem isQuote_iff {c : Char} : isQuote c = true ↔ c = '\'' ∨ c = '"' := by
  simp [isQuote]

theorem isDelimiter_of_isQuote {c : Char} (quote : isQuote c = true) : isDelimiter c = true := by
  simp [isDelimiter, quote]

theorem isBlank_of_isQuote {c : Char} (quote : isQuote c = true) : isBlank c = false := by
  rcases isQuote_iff.mp quote with rfl | rfl <;> decide

theorem ne_backslash_of_isDelimiter {c : Char} (delimits : isDelimiter c = true) : c ≠ '\\' := by
  rcases isDelimiter_iff.mp delimits with rfl | rfl | rfl <;> decide

/-- White space delimits nothing. -/
theorem isDelimiter_of_isBlank {c : Char} (white : isBlank c = true) : isDelimiter c = false := by
  rw [Bool.eq_false_iff]
  intro delimits
  rcases isDelimiter_iff.mp delimits with rfl | rfl | rfl <;> simp [isBlank] at white <;>
    exact absurd white (by decide)

/-- A character that delimits nothing stays in code. -/
theorem code_next_of_not_isDelimiter {c : Char} (plain : isDelimiter c = false) :
    code.next c = code := by
  simp only [isDelimiter, Bool.or_eq_false_iff, beq_eq_false_iff_ne] at plain
  simp [next, plain]

theorem code_next_of_isQuote {c : Char} (quote : isQuote c = true) : code.next c = literal c := by
  rcases isQuote_iff.mp quote with rfl | rfl <;> decide

/-- The reading is back in code with the last character of a text, and not before. -/
def Returns : Mode → Text → Prop
  | _, [] => False
  | mode, c :: rest => if mode.next c = code then rest = [] else Returns (mode.next c) rest

theorem returns_cons_of_ne {mode : Mode} {c : Char} (away : mode.next c ≠ code) (rest : Text) :
    mode.Returns (c :: rest) ↔ (mode.next c).Returns rest := by
  simp [Returns, away]

/-- A passage that returns to code does so whatever is behind it. -/
theorem untilCode_append {mode : Mode} {passage : Text} (returns : mode.Returns passage)
    (rest : Text) : mode.untilCode (passage ++ rest) = some (passage.length - 1) := by
  induction passage generalizing mode with
  | nil => exact returns.elim
  | cons c passage ih =>
    by_cases back : mode.next c = code
    · simp only [Returns, back, ↓reduceIte] at returns
      simp [untilCode, back, returns]
    · simp only [Returns, back, ↓reduceIte] at returns
      have nonempty : passage ≠ [] := by
        rintro rfl
        exact returns
      have positive := List.length_pos_iff.mpr nonempty
      simp only [List.cons_append, untilCode, back, ↓reduceIte, ih returns, Option.map_some,
        List.length_cons, Option.some.injEq]
      omega

/-- Where code is reached, a passage in front returns to it. -/
theorem exists_returns_of_untilCode {mode : Mode} {text : Text} {offset : Nat}
    (found : mode.untilCode text = some offset) :
    ∃ passage rest, text = passage ++ rest ∧ mode.Returns passage ∧
      passage.length = offset + 1 := by
  induction text generalizing mode offset with
  | nil => simp [untilCode] at found
  | cons c text ih =>
    by_cases back : mode.next c = code
    · simp only [untilCode, back, ↓reduceIte, Option.some.injEq] at found
      subst found
      exact ⟨[c], text, rfl, by simp [Returns, back], rfl⟩
    · simp only [untilCode, back, ↓reduceIte, Option.map_eq_some_iff] at found
      obtain ⟨inner, found, rfl⟩ := found
      obtain ⟨passage, rest, rfl, returns, width⟩ := ih found
      exact ⟨c :: passage, rest, rfl, by simpa [Returns, back] using returns, by simp [width]⟩

/-- What a literal holds, up to the delimiter that ends it. -/
private theorem exists_content {delimiter : Char} (plain : delimiter ≠ '\\') :
    ∀ {passage : Text}, (literal delimiter).Returns passage →
      ∃ content, passage = content ++ [delimiter] ∧ LiteralContent delimiter content
  | [], returns => returns.elim
  | [c], returns => by
    by_cases escape : c = '\\'
    · simp [Returns, next, escape] at returns
    · by_cases closes : c = delimiter
      · exact ⟨[], by simp [closes], .nil⟩
      · simp [Returns, next, escape, closes] at returns
  | c :: e :: rest, returns => by
    by_cases escape : c = '\\'
    · subst escape
      have inner : (literal delimiter).Returns rest := by simpa [Returns, next] using returns
      obtain ⟨content, rfl, holds⟩ := exists_content plain inner
      exact ⟨'\\' :: e :: content, rfl, .escaped holds⟩
    · by_cases closes : c = delimiter
      · simp [Returns, next, closes, plain] at returns
      · have stays : (literal delimiter).next c = literal delimiter := by
          simp [next, escape, closes]
        rw [returns_cons_of_ne (by simp [stays]), stays] at returns
        obtain ⟨content, same, holds⟩ := exists_content plain returns
        exact ⟨c :: content, by rw [same, List.cons_append], .plain escape closes holds⟩

/-- A literal is closed by the first delimiter that no backslash takes with it. -/
theorem literal_returns_iff {delimiter : Char} (plain : delimiter ≠ '\\') {passage : Text} :
    (literal delimiter).Returns passage ↔
      ∃ content, passage = content ++ [delimiter] ∧ LiteralContent delimiter content := by
  refine ⟨exists_content plain, ?_⟩
  rintro ⟨content, rfl, holds⟩
  induction holds with
  | nil => simp [Returns, next, plain]
  | plain noEscape inside _ ih => simpa [Returns, next, noEscape, inside] using ih
  | escaped _ ih => simpa [Returns, next] using ih

/-- A line comment ends with the first line feed. -/
theorem lineComment_returns_iff {passage : Text} :
    lineComment.Returns passage ↔ ∃ inner, passage = inner ++ ['\n'] ∧ '\n' ∉ inner := by
  constructor
  · intro returns
    induction passage with
    | nil => exact returns.elim
    | cons c passage ih =>
      by_cases ends : c = '\n'
      · subst ends
        simp only [Returns, next, ↓reduceIte] at returns
        exact ⟨[], by simp [returns], by simp⟩
      · have inside : lineComment.Returns passage := by simpa [Returns, next, ends] using returns
        obtain ⟨inner, rfl, oneLine⟩ := ih inside
        exact ⟨c :: inner, rfl, by simp [oneLine, Ne.symm ends]⟩
  · rintro ⟨inner, rfl, oneLine⟩
    induction inner with
    | nil => simp [Returns, next]
    | cons c inner ih =>
      simp only [List.mem_cons, not_or] at oneLine
      simpa [Returns, next, Ne.symm oneLine.1] using ih oneLine.2

/-- Behind an asterisk a block comment ends at once, or goes on as if it had not been there. -/
theorem blockStar_returns_iff {passage : Text} :
    blockStar.Returns passage ↔
      passage = ['/'] ∨ (passage.head? ≠ some '/' ∧ blockComment.Returns passage) := by
  cases passage with
  | nil => simp [Returns]
  | cons c passage =>
    by_cases ends : c = '/'
    · subst ends
      simp [Returns, next]
    · by_cases star : c = '*'
      · subst star
        simp [Returns, next]
      · simp [Returns, next, ends, star]

/-- A block comment that does not end goes on. -/
theorem next_of_blockComment {mode : Mode} {c : Char} (inside : mode = blockComment ∨ mode = blockStar)
    (away : mode.next c ≠ code) : mode.next c = blockComment ∨ mode.next c = blockStar := by
  by_cases star : c = '*'
  · subst star
    exact .inr (by rcases inside with rfl | rfl <;> rfl)
  · refine .inl ?_
    rcases inside with rfl | rfl
    · simp [next, star]
    · simpa [next, star] using away

/-- A block comment ends with the first asterisk that a slash follows. -/
theorem blockComment_returns_iff {passage : Text} :
    blockComment.Returns passage ↔
      ∃ inner, passage = inner ++ ['*', '/'] ∧ occursIn ['*', '/'] inner = false := by
  constructor
  · intro returns
    induction passage with
    | nil => exact returns.elim
    | cons c passage ih =>
      by_cases star : c = '*'
      · subst star
        have behind : blockStar.Returns passage := by simpa [Returns, next] using returns
        rcases blockStar_returns_iff.mp behind with rfl | ⟨noEnd, inside⟩
        · exact ⟨[], rfl, rfl⟩
        · obtain ⟨inner, rfl, absent⟩ := ih inside
          refine ⟨'*' :: inner, rfl, ?_⟩
          cases inner with
          | nil => rfl
          | cons d inner =>
            have other : '/' ≠ d := by
              rintro rfl
              simp at noEnd
            rw [occursIn, absent]
            simp [startsWith, after?, other]
      · have inside : blockComment.Returns passage := by simpa [Returns, next, star] using returns
        obtain ⟨inner, rfl, absent⟩ := ih inside
        refine ⟨c :: inner, rfl, ?_⟩
        simp [occursIn, startsWith, after?, Ne.symm star, absent]
  · rintro ⟨inner, rfl, absent⟩
    induction inner with
    | nil => simp [Returns, next]
    | cons c inner ih =>
      simp only [occursIn, Bool.or_eq_false_iff] at absent
      have inside := ih absent.2
      by_cases star : c = '*'
      · subst star
        have noEnd : (inner ++ ['*', '/']).head? ≠ some '/' := by
          cases inner with
          | nil => simp
          | cons d inner =>
            intro ends
            simp only [List.cons_append, List.head?_cons, Option.some.injEq] at ends
            subst ends
            simp [startsWith, after?] at absent
        simpa [Returns, next] using blockStar_returns_iff.mpr (.inr ⟨noEnd, inside⟩)
      · simpa [Returns, next, star] using inside

end Mode

end JasmineConversion
