import JasmineConversion.Proofs.Source.Gap

/-! # What a bracket encloses

A bracket is matched by counting brackets of its own kind in code. Here this is a run over the
text between the bracket and its partner: it starts and ends in code with nothing left open, and
it does not close the bracket before. Such a run depends on no other text.
-/

namespace JasmineConversion

open Text Source

namespace Bracket

/-- One character read inside a bracket, in a mode and with a number of brackets of the same kind
open inside it. There is no result when the bracket is closed. -/
def step (bracket : Bracket) : Mode × Nat → Char → Option (Mode × Nat)
  | (.code, inner), c =>
    if c = bracket.opener then some (.code, inner + 1)
    else if c = bracket.closer then
      match inner with
      | 0 => none
      | inner + 1 => some (.code, inner)
    else some (Mode.code.next c, inner)
  | (mode, inner), c => some (mode.next c, inner)

/-- A text read inside a bracket, as long as the bracket stays open. -/
def scan (bracket : Bracket) : Mode × Nat → Text → Option (Mode × Nat)
  | state, [] => some state
  | state, c :: rest => (bracket.step state c).bind fun state => scan bracket state rest

/-- A text that leaves the bracket around it open, in code and with nothing open inside. -/
def Encloses (bracket : Bracket) (inner : Text) : Prop :=
  bracket.scan (.code, 0) inner = some (.code, 0)

instance (bracket : Bracket) (inner : Text) : Decidable (bracket.Encloses inner) :=
  inferInstanceAs (Decidable (_ = _))

variable {bracket : Bracket}

@[simp] theorem ofOpener?_opener (bracket : Bracket) : ofOpener? bracket.opener = some bracket := by
  cases bracket <;> rfl

theorem ofOpener?_eq_some_iff {c : Char} : ofOpener? c = some bracket ↔ c = bracket.opener := by
  cases bracket <;> grind [ofOpener?, opener]

theorem closer_ne_opener (bracket : Bracket) : bracket.closer ≠ bracket.opener := by
  cases bracket <;> decide

theorem code_next_opener (bracket : Bracket) : Mode.code.next bracket.opener = .code := by
  cases bracket <;> decide

theorem code_next_closer (bracket : Bracket) : Mode.code.next bracket.closer = .code := by
  cases bracket <;> decide

theorem isBlank_opener (bracket : Bracket) : isBlank bracket.opener = false := by
  cases bracket <;> decide

theorem isBlank_closer (bracket : Bracket) : isBlank bracket.closer = false := by
  cases bracket <;> decide

theorem step_of_ne_code {mode : Mode} (away : mode ≠ .code) (inner : Nat) (c : Char) :
    bracket.step (mode, inner) c = some (mode.next c, inner) := by
  cases mode <;> first | rfl | exact absurd rfl away

@[simp] theorem step_opener (bracket : Bracket) (inner : Nat) :
    bracket.step (.code, inner) bracket.opener = some (.code, inner + 1) := by
  simp [step]

@[simp] theorem step_closer_zero (bracket : Bracket) :
    bracket.step (.code, 0) bracket.closer = none := by
  simp [step, bracket.closer_ne_opener]

@[simp] theorem step_closer_succ (bracket : Bracket) (inner : Nat) :
    bracket.step (.code, inner + 1) bracket.closer = some (.code, inner) := by
  simp [step, bracket.closer_ne_opener]

theorem step_of_other {c : Char} (noOpener : c ≠ bracket.opener) (noCloser : c ≠ bracket.closer)
    (inner : Nat) : bracket.step (.code, inner) c = some (Mode.code.next c, inner) := by
  simp [step, noOpener, noCloser]

/-- What one character does inside a bracket: it opens or closes one of the same kind, closes the
bracket itself, or leaves the count alone. The mode does not depend on the brackets. -/
theorem step_cases (bracket : Bracket) (mode : Mode) (inner : Nat) (c : Char) :
    (mode = .code ∧ c = bracket.opener ∧
      bracket.step (mode, inner) c = some (mode.next c, inner + 1)) ∨
    (mode = .code ∧ c = bracket.closer ∧ inner = 0 ∧ bracket.step (mode, inner) c = none) ∨
    (mode = .code ∧ c = bracket.closer ∧ ∃ less, inner = less + 1 ∧
      bracket.step (mode, inner) c = some (mode.next c, less)) ∨
    ((mode = .code → c ≠ bracket.opener ∧ c ≠ bracket.closer) ∧
      bracket.step (mode, inner) c = some (mode.next c, inner)) := by
  by_cases inCode : mode = .code
  · subst inCode
    by_cases opens : c = bracket.opener
    · subst opens
      exact .inl ⟨rfl, rfl, by rw [step_opener, code_next_opener]⟩
    · by_cases closes : c = bracket.closer
      · subst closes
        cases inner with
        | zero => exact .inr (.inl ⟨rfl, rfl, rfl, step_closer_zero _⟩)
        | succ inner =>
          exact .inr (.inr (.inl ⟨rfl, rfl, inner, rfl, by rw [step_closer_succ, code_next_closer]⟩))
      · exact .inr (.inr (.inr ⟨fun _ => ⟨opens, closes⟩, step_of_other opens closes _⟩))
  · exact .inr (.inr (.inr ⟨fun same => absurd same inCode, step_of_ne_code inCode _ _⟩))

/-- The scan ends exactly at a closer in code that nothing opened. -/
theorem step_eq_none_iff {mode : Mode} {inner : Nat} {c : Char} :
    bracket.step (mode, inner) c = none ↔ mode = .code ∧ inner = 0 ∧ c = bracket.closer := by
  constructor
  · intro closed
    rcases bracket.step_cases mode inner c with ⟨-, -, read⟩ | ⟨inCode, closes, none, -⟩ |
      ⟨-, -, _, -, read⟩ | ⟨-, read⟩
    · simp [read] at closed
    · exact ⟨inCode, none, closes⟩
    · simp [read] at closed
    · simp [read] at closed
  · rintro ⟨rfl, rfl, rfl⟩
    exact step_closer_zero _

/-- The mode of a reading does not depend on the brackets. -/
theorem mode_of_step {mode mode' : Mode} {inner inner' : Nat} {c : Char}
    (read : bracket.step (mode, inner) c = some (mode', inner')) : mode' = mode.next c := by
  rcases bracket.step_cases mode inner c with ⟨-, -, found⟩ | ⟨-, -, -, found⟩ |
    ⟨-, -, _, -, found⟩ | ⟨-, found⟩ <;> simp_all

/-- Brackets that are open around a text only add to the count. -/
theorem step_add {mode mode' : Mode} {inner inner' : Nat} {c : Char}
    (read : bracket.step (mode, inner) c = some (mode', inner')) (more : Nat) :
    bracket.step (mode, inner + more) c = some (mode', inner' + more) := by
  rcases bracket.step_cases mode inner c with ⟨rfl, rfl, found⟩ | ⟨-, -, -, found⟩ |
    ⟨rfl, rfl, less, rfl, found⟩ | ⟨other, found⟩
  · rw [found, Option.some.injEq, Prod.mk.injEq] at read
    obtain ⟨rfl, rfl⟩ := read
    rw [step_opener, code_next_opener, Nat.add_right_comm]
  · simp [found] at read
  · rw [found, Option.some.injEq, Prod.mk.injEq] at read
    obtain ⟨rfl, rfl⟩ := read
    rw [Nat.add_right_comm, step_closer_succ, code_next_closer]
  · rw [found, Option.some.injEq, Prod.mk.injEq] at read
    obtain ⟨rfl, rfl⟩ := read
    by_cases inCode : mode = .code
    · subst inCode
      exact step_of_other (other rfl).1 (other rfl).2 _
    · exact step_of_ne_code inCode _ _

@[simp] theorem scan_nil (state : Mode × Nat) : bracket.scan state [] = some state := rfl

theorem scan_cons (state : Mode × Nat) (c : Char) (rest : Text) :
    bracket.scan state (c :: rest) = (bracket.step state c).bind (bracket.scan · rest) := rfl

theorem scan_singleton (state : Mode × Nat) (c : Char) : bracket.scan state [c] = bracket.step state c := by
  rw [scan_cons]
  cases bracket.step state c <;> rfl

/-- Two texts are scanned one after the other. -/
theorem scan_append (state : Mode × Nat) (text more : Text) :
    bracket.scan state (text ++ more) = (bracket.scan state text).bind (bracket.scan · more) := by
  induction text generalizing state with
  | nil => rfl
  | cons c text ih =>
    rw [List.cons_append, scan_cons, scan_cons, Option.bind_assoc]
    exact congrArg _ (funext ih)

/-- A text can be scanned at any greater depth. -/
theorem scan_add {mode mode' : Mode} {inner inner' : Nat} {text : Text}
    (read : bracket.scan (mode, inner) text = some (mode', inner')) (more : Nat) :
    bracket.scan (mode, inner + more) text = some (mode', inner' + more) := by
  induction text generalizing mode inner with
  | nil =>
    simp only [scan_nil, Option.some.injEq, Prod.mk.injEq] at read
    simp [read]
  | cons c text ih =>
    rw [scan_cons, Option.bind_eq_some_iff] at read
    obtain ⟨⟨mode'', inner''⟩, first, rest⟩ := read
    rw [scan_cons, step_add first, Option.bind_some]
    exact ih rest

/-- A passage that starts and ends outside code holds no brackets. -/
theorem scan_of_returns {mode : Mode} {passage : Text} (away : mode ≠ .code)
    (returns : mode.Returns passage) (inner : Nat) :
    bracket.scan (mode, inner) passage = some (.code, inner) := by
  induction passage generalizing mode with
  | nil => exact returns.elim
  | cons c passage ih =>
    rw [scan_cons, step_of_ne_code away, Option.bind_some]
    by_cases back : mode.next c = .code
    · simp only [Mode.Returns, back, ↓reduceIte] at returns
      simp [back, returns]
    · rw [Mode.returns_cons_of_ne back] at returns
      exact ih back returns

/-- A scan goes through the modes of the text. -/
theorem mode_of_scan {mode mode' : Mode} {inner inner' : Nat} {text : Text}
    (read : bracket.scan (mode, inner) text = some (mode', inner')) :
    mode' = text.foldl Mode.next mode := by
  induction text generalizing mode inner with
  | nil =>
    simp only [scan_nil, Option.some.injEq, Prod.mk.injEq] at read
    exact read.1.symm
  | cons c text ih =>
    rw [scan_cons, Option.bind_eq_some_iff] at read
    obtain ⟨⟨mode'', inner''⟩, first, rest⟩ := read
    rw [List.foldl_cons, ← mode_of_step first]
    exact ih rest

/-- Text without delimiters and brackets of the kind is read without effect. -/
theorem scan_of_plain {text : Text} (plain : ∀ c ∈ text, Mode.isDelimiter c = false)
    (noOpener : bracket.opener ∉ text) (noCloser : bracket.closer ∉ text) (inner : Nat) :
    bracket.scan (.code, inner) text = some (.code, inner) := by
  induction text with
  | nil => rfl
  | cons c text ih =>
    simp only [List.mem_cons, not_or, forall_eq_or_imp] at plain noOpener noCloser
    rw [scan_cons, step_of_other (Ne.symm noOpener.1) (Ne.symm noCloser.1),
      Mode.code_next_of_not_isDelimiter plain.1, Option.bind_some]
    exact ih plain.2 noOpener.2 noCloser.2

/-- A quoted literal is read without effect. -/
theorem scan_quoted {quote : Char} {content : Text} (isQuote : Mode.isQuote quote = true)
    (holds : LiteralContent quote content) (inner : Nat) :
    bracket.scan (.code, inner) (quote :: content ++ [quote]) = some (.code, inner) := by
  have returns : (Mode.literal quote).Returns (content ++ [quote]) :=
    (Mode.literal_returns_iff (Mode.ne_backslash_of_isDelimiter
      (Mode.isDelimiter_of_isQuote isQuote))).mpr ⟨content, rfl, holds⟩
  have noBracket : quote ≠ bracket.opener ∧ quote ≠ bracket.closer := by
    rcases Mode.isQuote_iff.mp isQuote with rfl | rfl <;> cases bracket <;> decide
  rw [List.cons_append, scan_cons, step_of_other noBracket.1 noBracket.2,
    Mode.code_next_of_isQuote isQuote, Option.bind_some]
  exact scan_of_returns (by simp) returns inner

/-- A gap is read without effect. -/
theorem scan_gap {gap : Text} (holds : Gap gap) (inner : Nat) :
    bracket.scan (.code, inner) gap = some (.code, inner) := by
  induction holds using Gap.rec_comment with
  | nil => rfl
  | @blank c _ white _ ih =>
    have noOpener := ne_of_isBlank white bracket.isBlank_opener
    have noCloser := ne_of_isBlank white bracket.isBlank_closer
    rw [scan_cons, step_of_other noOpener noCloser,
      Mode.code_next_of_not_isDelimiter (Mode.isDelimiter_of_isBlank white), Option.bind_some]
    exact ih
  | @comment mark mode passage rest starts returns _ ih =>
    have noBracket : '/' ≠ bracket.opener ∧ '/' ≠ bracket.closer := by
      cases bracket <;> decide
    have enters : (Mode.code.next '/').next mark = mode ∧ Mode.code.next '/' ≠ .code := by
      cases starts <;> decide
    rw [List.cons_append, List.cons_append, scan_cons, step_of_other noBracket.1 noBracket.2,
      Option.bind_some, scan_cons, step_of_ne_code enters.2, Option.bind_some, enters.1,
      scan_append, scan_of_returns starts.ne_code returns, Option.bind_some]
    exact ih

/-! ## Texts without effect -/

variable {text : Text} {c : Char}

/-- A character that neither opens or closes a bracket of a kind nor starts a literal. -/
def Plain (bracket : Bracket) (c : Char) : Prop :=
  Mode.isDelimiter c = false ∧ c ≠ bracket.opener ∧ c ≠ bracket.closer

instance (bracket : Bracket) (c : Char) : Decidable (bracket.Plain c) :=
  inferInstanceAs (Decidable (_ ∧ _))

theorem step_of_plain (plain : bracket.Plain c) (inner : Nat) :
    bracket.step (.code, inner) c = some (.code, inner) := by
  rw [step_of_other plain.2.1 plain.2.2, Mode.code_next_of_not_isDelimiter plain.1]

/-- Brackets of another kind are plain. -/
theorem plain_of_ne {other : Bracket} (different : bracket ≠ other) :
    bracket.Plain other.opener ∧ bracket.Plain other.closer := by
  cases bracket <;> cases other <;> first | exact absurd rfl different | decide

/-- A text that is read without effect inside a bracket. -/
def Passes (bracket : Bracket) (text : Text) : Prop :=
  ∀ inner, bracket.scan (.code, inner) text = some (.code, inner)

theorem passes_nil : bracket.Passes [] :=
  fun _ => rfl

/-- Two texts that leave the nesting as it was do so together. -/
theorem Passes.append {more : Text} (first : bracket.Passes text) (second : bracket.Passes more) :
    bracket.Passes (text ++ more) := by
  intro inner
  rw [scan_append, first, Option.bind_some, second]

theorem passes_of_plain (plain : ∀ c ∈ text, bracket.Plain c) : bracket.Passes text :=
  scan_of_plain (fun c member => (plain c member).1)
    (fun member => (plain _ member).2.1 rfl) (fun member => (plain _ member).2.2 rfl)

theorem passes_singleton (plain : bracket.Plain c) : bracket.Passes [c] :=
  passes_of_plain (by simpa using plain)

theorem Passes.cons (plain : bracket.Plain c) (rest : bracket.Passes text) :
    bracket.Passes (c :: text) :=
  (passes_singleton plain).append rest

theorem passes_gap (gap : Gap text) : bracket.Passes text :=
  scan_gap gap

theorem passes_quoted {quote : Char} (isQuote : Mode.isQuote quote = true)
    (content : LiteralContent quote text) : bracket.Passes (quote :: text ++ [quote]) :=
  scan_quoted isQuote content

theorem passes_of_encloses (encloses : bracket.Encloses text) : bracket.Passes text := by
  intro inner
  simpa using scan_add encloses inner

/-- A bracket of the kind with what it encloses is read without effect. -/
theorem passes_enclosed (encloses : bracket.Encloses text) :
    bracket.Passes (bracket.opener :: text ++ [bracket.closer]) := by
  intro inner
  rw [List.cons_append, scan_cons, step_opener, Option.bind_some, scan_append,
    passes_of_encloses encloses, Option.bind_some, scan_cons, step_closer_succ]
  rfl

theorem Passes.encloses (passes : bracket.Passes text) : bracket.Encloses text :=
  passes 0

/-- A text without effect stays so inside any pair of brackets. -/
theorem Passes.enclosed (inside : bracket.Passes text) (other : Bracket) :
    bracket.Passes (other.opener :: text ++ [other.closer]) := by
  by_cases same : bracket = other
  · subst same
    exact passes_enclosed inside.encloses
  · have plain := plain_of_ne same
    exact ((passes_singleton plain.1).append inside).append (passes_singleton plain.2)

theorem Passes.braces (inside : bracket.Passes text) : bracket.Passes ('{' :: text ++ ['}']) :=
  inside.enclosed brace

theorem Passes.squares (inside : bracket.Passes text) : bracket.Passes ('[' :: text ++ [']']) :=
  inside.enclosed square

theorem plain_of_isBlank (white : isBlank c = true) : bracket.Plain c :=
  ⟨Mode.isDelimiter_of_isBlank white, ne_of_isBlank white bracket.isBlank_opener,
    ne_of_isBlank white bracket.isBlank_closer⟩

theorem ofOpener?_of_plain (plain : ∀ bracket : Bracket, bracket.Plain c) : ofOpener? c = none := by
  cases opens : ofOpener? c with
  | none => rfl
  | some bracket => exact absurd (ofOpener?_eq_some_iff.mp opens) (plain bracket).2.1

theorem plain_space : bracket.Plain ' ' :=
  plain_of_isBlank (by decide)

theorem plain_newline : bracket.Plain '\n' :=
  plain_of_isBlank (by decide)

theorem passes_blank (blank : isBlankText text = true) : bracket.Passes text :=
  passes_of_plain fun c member => plain_of_isBlank (isBlankText_iff.mp blank c member)

end Bracket

namespace Nesting

/-- The mode of a reading does not depend on the open bracket. -/
theorem mode_next (nesting : Nesting) (offset : Nat) (c : Char) :
    (nesting.next offset c).mode = nesting.mode.next c := by
  obtain ⟨mode, opened, group⟩ := nesting
  cases mode <;> rfl

/-- Inside a bracket, a reading goes on as the run over the text does. -/
theorem next_eq {bracket : Bracket} (mode : Mode) (inner opened start offset : Nat) (c : Char) :
    next ⟨mode, opened, some ⟨bracket, inner, start⟩⟩ offset c =
      ⟨mode.next c, if mode = .code then offset else opened,
        (bracket.step (mode, inner) c).map fun state => ⟨bracket, state.2, start⟩⟩ := by
  rcases bracket.step_cases mode inner c with ⟨rfl, rfl, read⟩ | ⟨rfl, rfl, rfl, read⟩ |
    ⟨rfl, rfl, less, rfl, read⟩ | ⟨other, read⟩
  · simp [next, nextGroup, read]
  · simp [next, nextGroup, read, bracket.closer_ne_opener]
  · simp [next, nextGroup, read, bracket.closer_ne_opener]
  · by_cases inCode : mode = .code
    · subst inCode
      simp [next, nextGroup, read, other rfl]
    · rw [read]
      cases mode <;> first | exact absurd rfl inCode | simp [next]

/-- One step towards the closing bracket. -/
private theorem closesAt_cons {bracket : Bracket} (mode : Mode) (inner opened start offset : Nat)
    (c : Char) (text : Text) :
    closesAt ⟨mode, opened, some ⟨bracket, inner, start⟩⟩ offset (c :: text) =
      match bracket.step (mode, inner) c with
      | none => .ok offset
      | some (mode', inner') =>
        closesAt ⟨mode', if mode = .code then offset else opened, some ⟨bracket, inner', start⟩⟩
          (offset + 1) text := by
  rw [closesAt, next_eq]
  cases read : bracket.step (mode, inner) c with
  | none => rfl
  | some state =>
    obtain ⟨mode', inner'⟩ := state
    obtain rfl := Bracket.mode_of_step read
    rfl

/-- The closing bracket is found exactly where the run over the text before it has come back to
where it started. -/
theorem closesAt_eq_ok_iff {bracket : Bracket} {mode : Mode} {text : Text}
    {inner opened start offset close : Nat} :
    closesAt ⟨mode, opened, some ⟨bracket, inner, start⟩⟩ offset text = .ok close ↔
      ∃ raw rest, text = raw ++ bracket.closer :: rest ∧ close = offset + raw.length ∧
        bracket.scan (mode, inner) raw = some (.code, 0) := by
  induction text generalizing mode inner opened offset with
  | nil => simp [closesAt]
  | cons c text ih =>
    rw [closesAt_cons]
    cases read : bracket.step (mode, inner) c with
    | none =>
      obtain ⟨rfl, rfl, rfl⟩ := Bracket.step_eq_none_iff.mp read
      constructor
      · intro found
        exact ⟨[], text, rfl, by simpa [eq_comm] using found, rfl⟩
      · rintro ⟨raw, rest, same, rfl, run⟩
        cases raw with
        | nil => rfl
        | cons d raw =>
          obtain ⟨rfl, -⟩ := List.cons.inj same
          simp [Bracket.scan_cons] at run
    | some state =>
      obtain ⟨mode', inner'⟩ := state
      constructor
      · intro found
        obtain ⟨raw, rest, rfl, rfl, run⟩ := ih.mp found
        refine ⟨c :: raw, rest, rfl, ?_, by rw [Bracket.scan_cons, read]; exact run⟩
        simp only [List.length_cons]
        omega
      · rintro ⟨raw, rest, same, rfl, run⟩
        cases raw with
        | nil =>
          obtain ⟨rfl, -⟩ := List.cons.inj same
          simp only [Bracket.scan_nil, Option.some.injEq, Prod.mk.injEq] at run
          simp [run.1, run.2] at read
        | cons d raw =>
          obtain ⟨rfl, rfl⟩ := List.cons.inj same
          rw [Bracket.scan_cons, read, Option.bind_some] at run
          refine ih.mpr ⟨raw, rest, rfl, ?_, run⟩
          simp only [List.length_cons]
          omega

end Nesting

namespace Source

/-- A bracket is matched exactly by the closing one behind a text that it encloses. -/
theorem matchBracket_eq_ok_iff {source : Text} {bracket : Bracket} {index close : Nat}
    (opens : (source.drop index).head? = some bracket.opener) :
    matchBracket source index = .ok close ↔
      ∃ raw, Spans source index (bracket.opener :: raw ++ [bracket.closer]) (close + 1) ∧
        bracket.Encloses raw := by
  obtain ⟨text, here⟩ := List.head?_eq_some_iff.mp opens
  simp only [matchBracket, here, Bracket.ofOpener?_opener]
  constructor
  · intro matched
    split at matched
    · next offset closed =>
      obtain ⟨raw, rest, rfl, rfl, run⟩ := Nesting.closesAt_eq_ok_iff.mp closed
      have stop : index + (1 + raw.length) = close := Except.ok.inj matched
      have whole : source.drop index = (bracket.opener :: raw ++ [bracket.closer]) ++ rest := by
        rw [here]
        simp
      refine ⟨raw, .of_drop whole ?_, run⟩
      simp only [List.length_append, List.length_cons, List.length_nil]
      omega
    · cases matched
  · rintro ⟨raw, spans, run⟩
    have whole := spans.here
    rw [here, List.append_assoc, List.cons_append, List.cons.injEq] at whole
    have closed : Nesting.closesAt ⟨.code, 0, some ⟨bracket, 0, 0⟩⟩ 1 text = .ok (1 + raw.length) :=
      Nesting.closesAt_eq_ok_iff.mpr ⟨raw, source.drop (close + 1), whole.2, rfl, run⟩
    have width := spans.width
    simp only [List.length_append, List.length_cons, List.length_nil] at width
    simp only [closed, Except.ok.injEq]
    omega

/-- What is matched is a bracket with what it encloses. -/
theorem exists_encloses_of_matchBracket {text : Text} {index close : Nat}
    (matched : matchBracket text index = .ok close) :
    ∃ (bracket : Bracket) (raw : Text), Spans text index (bracket.opener :: raw ++ [bracket.closer]) (close + 1) ∧
      bracket.Encloses raw := by
  have here := matched
  unfold matchBracket at here
  split at here
  · cases here
  · next c rest split =>
    split at here
    · cases here
    · next bracket opens =>
      obtain rfl := Bracket.ofOpener?_eq_some_iff.mp opens
      exact ⟨bracket, (matchBracket_eq_ok_iff (by rw [split]; rfl)).mp matched⟩

/-- A bracket that is matched closes behind its opening and inside the text. -/
theorem lt_of_matchBracket {source : Text} (bracket : Bracket) {index close : Nat}
    (opens : (source.drop index).head? = some bracket.opener)
    (matched : matchBracket source index = .ok close) :
    index < close ∧ close < source.length := by
  obtain ⟨raw, spans, -⟩ := (matchBracket_eq_ok_iff opens).mp matched
  obtain ⟨-, inside⟩ := spans.inside_of_ne_nil (by simp)
  have width := spans.width
  simp only [List.length_append, List.length_cons, List.length_nil] at width
  omega

/-- A literal is matched exactly by the delimiter behind its content. -/
theorem matchLiteral_eq_ok_iff {source : Text} {delimiter : Char} {index close : Nat}
    (delimits : Mode.isDelimiter delimiter = true)
    (opens : (source.drop index).head? = some delimiter) :
    matchLiteral source index = .ok close ↔
      ∃ content, Spans source index (delimiter :: content ++ [delimiter]) (close + 1) ∧
        LiteralContent delimiter content := by
  obtain ⟨text, here⟩ := List.head?_eq_some_iff.mp opens
  have noEscape := Mode.ne_backslash_of_isDelimiter delimits
  simp only [matchLiteral, here, delimits, ↓reduceIte]
  constructor
  · intro matched
    split at matched
    · next offset found =>
      obtain ⟨passage, rest, rfl, returns, width⟩ := Mode.exists_returns_of_untilCode found
      obtain ⟨content, rfl, holds⟩ := (Mode.literal_returns_iff noEscape).mp returns
      refine ⟨content, .of_drop here ?_, holds⟩
      simp only [Except.ok.injEq, List.length_append, List.length_cons, List.length_nil]
        at matched width ⊢
      omega
    · cases matched
  · rintro ⟨content, spans, holds⟩
    have whole := spans.here
    rw [here, List.cons_append, List.cons_append, List.cons.injEq] at whole
    have returns := (Mode.literal_returns_iff noEscape).mpr ⟨content, rfl, holds⟩
    have width := spans.width
    simp only [List.length_append, List.length_cons, List.length_nil] at width
    simp only [whole.2, Mode.untilCode_append returns, List.length_append, List.length_cons,
      List.length_nil, Except.ok.injEq]
    omega

/-- A block comment is matched exactly up to its first end mark. -/
theorem matchComment_eq_ok_iff {source : Text} {index stop : Nat}
    (opens : startsWith ['/', '*'] (source.drop index) = true) :
    matchComment source index = .ok stop ↔
      ∃ inner, Spans source index ('/' :: '*' :: inner ++ ['*', '/']) stop ∧ occursIn ['*', '/'] inner = false := by
  obtain ⟨text, here⟩ := startsWith_iff.mp opens
  simp only [matchComment, here, List.cons_append, List.nil_append]
  constructor
  · intro matched
    split at matched
    · next offset found =>
      obtain ⟨passage, rest, rfl, returns, width⟩ := Mode.exists_returns_of_untilCode found
      obtain ⟨inner, rfl, unended⟩ := Mode.blockComment_returns_iff.mp returns
      refine ⟨inner, .of_drop here ?_, unended⟩
      simp only [Except.ok.injEq, List.length_append, List.length_cons, List.length_nil]
        at matched width ⊢
      omega
    · cases matched
  · rintro ⟨inner, spans, unended⟩
    have whole : text = (inner ++ ['*', '/']) ++ source.drop stop :=
      List.append_cancel_left (here.symm.trans spans.here)
    have returns := Mode.blockComment_returns_iff.mpr ⟨inner, rfl, unended⟩
    have width := spans.width
    simp only [List.length_append, List.length_cons, List.length_nil] at width
    simp only [whole, Mode.untilCode_append returns, List.length_append, List.length_cons, List.length_nil,
      Except.ok.injEq]
    omega

end Source

end JasmineConversion
