import JasmineConversion.Proofs.Source.Lexemes

/-! # Well-formed code

Code is a stream of comments, closed literals and single characters. It is well-formed when each of
the three kinds of brackets nests properly among its single characters. Every bracket encloses
well-formed code, whatever the comments and literals hold, and code that every bracket encloses is
well-formed.
-/

namespace JasmineConversion

open Text Source

/-- Code with the characters of it that stand in no comment and no literal. A slash that starts no
comment starts a regular expression. -/
inductive CodeText : Text → (singles : Text) → Prop
  | nil : CodeText [] []
  | single {c : Char} {rest singles : Text} (plain : Mode.isDelimiter c = false)
      (others : CodeText rest singles) : CodeText (c :: rest) (c :: singles)
  | lineComment {inner rest singles : Text} (oneLine : '\n' ∉ inner)
      (others : CodeText rest singles) : CodeText ('/' :: '/' :: inner ++ '\n' :: rest) singles
  | blockComment {inner rest singles : Text} (unended : occursIn ['*', '/'] inner = false)
      (others : CodeText rest singles) : CodeText ('/' :: '*' :: inner ++ '*' :: '/' :: rest) singles
  | string {quote : Char} {content rest singles : Text} (isQuote : Mode.isQuote quote = true)
      (holds : LiteralContent quote content) (others : CodeText rest singles) :
      CodeText (quote :: content ++ quote :: rest) singles
  | regex {content rest singles : Text} (holds : LiteralContent '/' content) (nonempty : content ≠ [])
      (noComment : content.head? ≠ some '*') (others : CodeText rest singles) :
      CodeText ('/' :: content ++ '/' :: rest) singles

/-- Brackets of one kind are closed in the order in which they nest. -/
inductive Balanced (bracket : Bracket) : Text → Prop
  | nil : Balanced bracket []
  | other {c : Char} {rest : Text} (noOpener : c ≠ bracket.opener) (noCloser : c ≠ bracket.closer)
      (others : Balanced bracket rest) : Balanced bracket (c :: rest)
  | nested {inner rest : Text} (inside : Balanced bracket inner) (others : Balanced bracket rest) :
      Balanced bracket (bracket.opener :: inner ++ bracket.closer :: rest)

/-- Code in which every comment and literal is closed and every bracket nests properly. -/
def WellFormed (code : Text) : Prop :=
  ∃ singles, CodeText code singles ∧ ∀ bracket, Balanced bracket singles

namespace Bracket

variable {bracket : Bracket}

/-- A passage that a slash opens is read without effect. -/
theorem scan_slash {passage : Text} {away : Mode} {c : Char} (enters : Mode.slash.next c = away)
    (outside : away ≠ .code) (returns : away.Returns passage) (inner : Nat) :
    bracket.scan (.code, inner) ('/' :: c :: passage) = some (.code, inner) := by
  have noBracket : '/' ≠ bracket.opener ∧ '/' ≠ bracket.closer := by
    cases bracket <;> decide
  rw [scan_cons, step_of_other noBracket.1 noBracket.2, Option.bind_some, scan_cons,
    step_of_ne_code (by decide), Option.bind_some]
  change bracket.scan (Mode.slash.next c, inner) passage = _
  rw [enters, scan_of_returns outside returns]

/-- A regular expression leaves the nesting as it was. -/
theorem scan_regex {content : Text} (holds : LiteralContent '/' content) (nonempty : content ≠ [])
    (noComment : content.head? ≠ some '*') (inner : Nat) :
    bracket.scan (.code, inner) ('/' :: content ++ ['/']) = some (.code, inner) := by
  cases holds with
  | nil => exact absurd rfl nonempty
  | @plain c rest noEscape inside content =>
    have enters : Mode.slash.next c = .literal '/' := by
      have noStar : c ≠ '*' := by simpa using noComment
      simp [Mode.next, inside, noStar, noEscape]
    have returns := (Mode.literal_returns_iff (by decide)).mpr ⟨rest, rfl, content⟩
    exact scan_slash enters (by decide) returns inner
  | @escaped c rest content =>
    have returns : (Mode.escape '/').Returns (c :: rest ++ ['/']) := by
      rw [List.cons_append, Mode.returns_cons_of_ne Mode.noConfusion]
      exact (Mode.literal_returns_iff (by decide)).mpr ⟨rest, rfl, content⟩
    exact scan_slash (by decide) (by decide) returns inner

/-- A passage that leaves the nesting as it was can be left out. -/
theorem scan_append_of_passage {passage : Text} {inner : Nat}
    (read : bracket.scan (.code, inner) passage = some (.code, inner)) (rest : Text) :
    bracket.scan (.code, inner) (passage ++ rest) = bracket.scan (.code, inner) rest := by
  rw [scan_append, read, Option.bind_some]

/-- A bracket is matched among the single characters of code. -/
theorem scan_codeText {code singles : Text} (written : CodeText code singles) (inner : Nat) :
    bracket.scan (.code, inner) code = bracket.scan (.code, inner) singles := by
  induction written generalizing inner with
  | nil => rfl
  | @single c rest singles plain _ ih =>
    rw [scan_cons, scan_cons]
    cases read : bracket.step (.code, inner) c with
    | none => rfl
    | some state =>
      obtain ⟨mode, count⟩ := state
      obtain rfl : mode = .code := (mode_of_step read).trans (Mode.code_next_of_not_isDelimiter plain)
      exact ih count
  | lineComment oneLine _ ih =>
    rw [← ih]
    simpa using scan_append_of_passage (scan_gap (.line oneLine .nil) inner) _
  | blockComment unended _ ih =>
    rw [← ih]
    simpa using scan_append_of_passage (scan_gap (.block unended .nil) inner) _
  | string isQuote holds _ ih =>
    rw [← ih]
    simpa using scan_append_of_passage (scan_quoted isQuote holds inner) _
  | regex holds nonempty noComment _ ih =>
    rw [← ih]
    simpa using scan_append_of_passage (scan_regex holds nonempty noComment inner) _

/-- Balanced brackets leave the nesting as it was. -/
theorem scan_balanced {singles : Text} (balanced : Balanced bracket singles)
    (plain : ∀ c ∈ singles, Mode.isDelimiter c = false) (inner : Nat) :
    bracket.scan (.code, inner) singles = some (.code, inner) := by
  induction balanced generalizing inner with
  | nil => rfl
  | other noOpener noCloser _ ih =>
    simp only [List.mem_cons, forall_eq_or_imp] at plain
    rw [scan_cons, step_of_other noOpener noCloser, Mode.code_next_of_not_isDelimiter plain.1,
      Option.bind_some]
    exact ih plain.2 inner
  | nested _ _ ihInside ih =>
    simp only [List.cons_append, List.mem_cons, List.mem_append, or_imp, forall_and] at plain
    rw [List.cons_append, scan_cons, step_opener, Option.bind_some, scan_append, ihInside plain.2.1,
      Option.bind_some, scan_cons, step_closer_succ, Option.bind_some]
    exact ih plain.2.2.2 inner

end Bracket

/-- The single characters of code delimit nothing. -/
theorem CodeText.plain {code singles : Text} (written : CodeText code singles) :
    ∀ c ∈ singles, Mode.isDelimiter c = false := by
  induction written with
  | nil => simp
  | single plain _ ih => exact List.forall_mem_cons.mpr ⟨plain, ih⟩
  | lineComment _ _ ih => exact ih
  | blockComment _ _ ih => exact ih
  | string _ _ _ ih => exact ih
  | regex _ _ _ _ ih => exact ih

/-- Every bracket encloses well-formed code. -/
theorem WellFormed.encloses {code : Text} (wellFormed : WellFormed code) (bracket : Bracket) :
    bracket.Encloses code := by
  obtain ⟨singles, written, balanced⟩ := wellFormed
  unfold Bracket.Encloses
  rw [Bracket.scan_codeText written, Bracket.scan_balanced (balanced bracket) written.plain]

/-! ## From the scan to the text -/

namespace CodeText

/-- A line feed is a single character. -/
theorem of_feed {rest singles : Text} (written : CodeText ('\n' :: rest) singles) :
    ∃ singles, CodeText rest singles := by
  generalize split : '\n' :: rest = text at written
  cases written with
  | nil => cases split
  | single plain others =>
    cases split
    exact ⟨_, others⟩
  | string isQuote => cases split; exact absurd isQuote (by decide)
  | _ => cases split

/-- Closed lexemes are comments, literals and single characters. The line feed behind a line comment belongs to
the comment. -/
theorem exists_of_lexes {mode : Mode} {text : Text} {lexemes : List Lexeme} (lexes : Lexes text lexemes)
    (clear : mode.Clear text) (ends : text.foldl Mode.next mode = .code) : ∃ singles, CodeText text singles := by
  induction lexes generalizing mode with
  | nil => exact ⟨[], .nil⟩
  | @cons lexeme rest lexemes leads _ ih =>
    rw [List.foldl_append, clear.foldl leads.text_ne_nil] at ends
    by_cases closed : ∀ text, lexeme ≠ .unclosed text
    · obtain ⟨singles, others⟩ := ih (leads.clear closed) ends
      cases leads with
      | @single c _ plain => exact ⟨c :: singles, .single plain others⟩
      | @literal delimiter content _ delimits holds noComment =>
        by_cases quote : Mode.isQuote delimiter = true
        · exact ⟨singles, by simpa [Lexeme.text] using CodeText.string quote holds others⟩
        · obtain rfl : delimiter = '/' := by simpa [Mode.isDelimiter, quote] using delimits
          have front : content ≠ [] ∧ content.head? ≠ some '*' := by
            cases content with
            | nil => cases noComment
            | cons c content =>
              simp only [List.cons_append, startsComment_cons_cons] at noComment
              simp_all
          exact ⟨singles, by simpa [Lexeme.text] using CodeText.regex holds front.1 front.2 others⟩
      | @lineComment inner _ oneLine stops =>
        cases rest with
        | nil => exact absurd (ends.symm.trans (lineComment_of_line oneLine).2) Mode.noConfusion
        | cons c rest =>
          obtain rfl : c = '\n' := by simpa using stops
          obtain ⟨singles, others⟩ := others.of_feed
          exact ⟨singles, .lineComment oneLine others⟩
      | blockComment unended => exact ⟨singles, by simpa [Lexeme.text] using CodeText.blockComment unended others⟩
      | unclosedLiteral => exact absurd rfl (closed _)
      | unclosedComment => exact absurd rfl (closed _)
    · obtain ⟨text, rfl⟩ : ∃ text, lexeme = .unclosed text := by simpa using closed
      obtain rfl := leads.rest_eq_nil
      exact absurd (congrArg Mode.flaw? ends) leads.flaw?

end CodeText

namespace Bracket

variable {bracket : Bracket}

/-- A bracket that is open when a text starts and closed when it ends is closed inside it. -/
theorem exists_closer_of_scan {mode : Mode} {inner more : Nat} {text : Text}
    (read : bracket.scan (mode, inner + 1 + more) text = some (.code, 0)) :
    ∃ raw rest, text = raw ++ bracket.closer :: rest ∧ bracket.scan (mode, inner) raw = some (.code, 0) ∧
      bracket.scan (.code, more) rest = some (.code, 0) := by
  induction text generalizing mode inner with
  | nil =>
    simp only [scan_nil, Option.some.injEq, Prod.mk.injEq] at read
    omega
  | cons c text ih =>
    rw [scan_cons] at read
    rcases bracket.step_cases mode inner c with ⟨rfl, rfl, step⟩ | ⟨rfl, rfl, rfl, -⟩ |
      ⟨rfl, rfl, less, rfl, step⟩ | ⟨other, step⟩
    · have counts : inner + 1 + more + 1 = inner + 1 + 1 + more := by omega
      rw [step_opener, Option.bind_some, counts] at read
      obtain ⟨raw, rest, rfl, inside, behind⟩ := ih read
      exact ⟨bracket.opener :: raw, rest, rfl, by rw [scan_cons, step_opener]; exact inside, behind⟩
    · have counts : 0 + 1 + more = more + 1 := by omega
      rw [counts, step_closer_succ] at read
      exact ⟨[], text, rfl, rfl, read⟩
    · have counts : less + 1 + 1 + more = less + 1 + more + 1 := by omega
      rw [counts, step_closer_succ] at read
      obtain ⟨raw, rest, rfl, inside, behind⟩ := ih read
      exact ⟨bracket.closer :: raw, rest, rfl, by rw [scan_cons, step_closer_succ]; exact inside, behind⟩
    · have step' := step_add step (1 + more)
      rw [← Nat.add_assoc] at step'
      rw [step', Option.bind_some] at read
      obtain ⟨raw, rest, rfl, inside, behind⟩ := ih read
      exact ⟨c :: raw, rest, rfl, by rw [scan_cons, step]; exact inside, behind⟩

/-- Single characters that leave the nesting as it was are balanced. -/
theorem balanced_of_scan {singles : Text} (plain : ∀ c ∈ singles, Mode.isDelimiter c = false)
    (read : bracket.scan (.code, 0) singles = some (.code, 0)) : Balanced bracket singles := by
  induction size : singles.length using Nat.strongRecOn generalizing singles with
  | ind size ih =>
    subst size
    cases singles with
    | nil => exact .nil
    | cons c rest =>
      obtain ⟨here, further⟩ := List.forall_mem_cons.mp plain
      rw [scan_cons] at read
      by_cases opens : c = bracket.opener
      · subst opens
        rw [step_opener, Option.bind_some] at read
        obtain ⟨raw, rest, rfl, inside, behind⟩ := @exists_closer_of_scan _ _ 0 0 _ read
        rw [List.forall_mem_append, List.forall_mem_cons] at further
        have size : (bracket.opener :: (raw ++ bracket.closer :: rest)).length =
            raw.length + rest.length + 2 := by
          simp only [List.length_cons, List.length_append]
          omega
        exact .nested (ih raw.length (by omega) further.1 inside rfl)
          (ih rest.length (by omega) further.2.2 behind rfl)
      by_cases closes : c = bracket.closer
      · simp [closes] at read
      · rw [step_of_other opens closes, Mode.code_next_of_not_isDelimiter here] at read
        exact .other opens closes (ih rest.length (by simp) further read rfl)

end Bracket

/-- Code is well-formed if and only if every bracket encloses it. -/
theorem wellFormed_iff {code : Text} : WellFormed code ↔ ∀ bracket : Bracket, bracket.Encloses code := by
  refine ⟨WellFormed.encloses, fun encloses => ?_⟩
  have ends := Bracket.mode_of_scan (encloses .brace)
  obtain ⟨lexemes, lexes⟩ := Lexes.exists_lexes code
  obtain ⟨singles, written⟩ := CodeText.exists_of_lexes lexes (Mode.clear_code code) ends.symm
  refine ⟨singles, written, fun bracket => Bracket.balanced_of_scan written.plain ?_⟩
  rw [← Bracket.scan_codeText written]
  exact encloses bracket

end JasmineConversion
