import JasmineConversion.Proofs.Source.Lexemes

/-! # Matching brackets of all kinds

A bracket is matched by counting brackets of its own kind only. Where the brackets of all three kinds nest properly
up to its partner, a stack of open brackets finds the same partner; and what the count finds always stands among
the single characters of the text, outside its comments and literals.
-/

namespace JasmineConversion

open Text Source

/-- The bracket that a character closes. -/
def Bracket.ofCloser? (c : Char) : Option Bracket :=
  if c = '}' then some brace
  else if c = ']' then some square
  else if c = ')' then some round
  else none

/-- The open brackets behind a lexeme, the innermost first. There are none behind a bracket that closes another one
than the innermost, nor behind a literal or comment that is not closed. -/
def nest? (stack : List Bracket) : Lexeme → Option (List Bracket)
  | .single c =>
    match Bracket.ofOpener? c, Bracket.ofCloser? c, stack with
    | some bracket, _, _ => some (bracket :: stack)
    | none, none, _ => some stack
    | none, some bracket, top :: others => if top = bracket then some others else none
    | none, some _, [] => none
  | .literal _ => some stack
  | .comment _ => some stack
  | .unclosed _ => none

/-- The index at which the last open bracket is closed, if everything before nests properly. -/
def partner? : (stack : List Bracket) → (index : Nat) → List Lexeme → Option Nat
  | _, _, [] => none
  | stack, index, lexeme :: lexemes =>
    match nest? stack lexeme with
    | none => none
    | some [] => some index
    | some (top :: others) => partner? (top :: others) (index + lexeme.text.length) lexemes

variable {bracket : Bracket} {mode : Mode} {lexeme : Lexeme} {lexemes behind before : List Lexeme}
  {text rest raw : Text} {above : List Bracket} {index close inner : Nat} {c : Char}

/-! ## Single characters -/

namespace Bracket

theorem ofCloser?_eq_some_iff : ofCloser? c = some bracket ↔ c = bracket.closer := by
  cases bracket <;> grind [ofCloser?, closer]

theorem ne_of_isDelimiter (delimits : Mode.isDelimiter c = true) : c ≠ bracket.opener ∧ c ≠ bracket.closer := by
  rcases Mode.isDelimiter_iff.mp delimits with rfl | rfl | rfl <;> cases bracket <;> decide

/-- A text that is read away from code up to its last character holds no brackets. -/
theorem scan_of_away (away : mode ≠ .code)
    (ahead : ∀ offset, mode.untilCode text = some offset → offset + 1 = text.length) (inner : Nat) :
    bracket.scan (mode, inner) text = some (text.foldl Mode.next mode, inner) := by
  induction text generalizing mode with
  | nil => rfl
  | cons c text ih =>
    rw [scan_cons, step_of_ne_code away, Option.bind_some, List.foldl_cons]
    by_cases back : mode.next c = .code
    · have last := ahead 0 (by rw [Mode.untilCode, if_pos back])
      obtain rfl : text = [] := by simpa using last
      rfl
    · apply ih back
      intro offset found
      have further := ahead (offset + 1) (by rw [Mode.untilCode_cons_of_ne back, found]; rfl)
      exact Nat.succ.inj further

/-- In a clear reading, brackets count as in code. -/
theorem step_of_clear (clear : mode.Clear (c :: rest)) (inner : Nat) :
    bracket.step (mode, inner) c = bracket.step (.code, inner) c := by
  by_cases feed : c = '\n'
  · subst feed
    rw [step_of_plain plain_newline]
    rcases clear with rfl | ⟨rfl, -⟩
    · exact step_of_plain plain_newline inner
    · rfl
  · rw [clear.eq_code feed]

end Bracket

/-- A single character that a stack takes either closes the outermost bracket, or it changes the number of open
brackets of that kind as counting them does. -/
theorem nest?_single {stack : List Bracket} (plain : Mode.isDelimiter c = false)
    (nested : nest? (above ++ [bracket]) (.single c) = some stack) :
    (above = [] ∧ c = bracket.closer ∧ stack = []) ∨ ∃ above', stack = above' ++ [bracket] ∧
      bracket.step (.code, above.count bracket) c = some (.code, above'.count bracket) := by
  unfold nest? at nested
  cases opens : Bracket.ofOpener? c with
  | some other =>
    obtain rfl := Bracket.ofOpener?_eq_some_iff.mp opens
    simp only [opens, Option.some.injEq] at nested
    subst nested
    refine .inr ⟨other :: above, rfl, ?_⟩
    -- A bracket of another kind leaves the count of this one.
    by_cases same : bracket = other
    · subst same
      rw [Bracket.step_opener, List.count_cons_self]
    · rw [Bracket.step_of_plain (Bracket.plain_of_ne same).1, List.count_cons_of_ne (Ne.symm same)]
  | none =>
    cases closes : Bracket.ofCloser? c with
    | none =>
      simp only [opens, closes, Option.some.injEq] at nested
      subst nested
      refine .inr ⟨above, rfl, Bracket.step_of_plain ⟨plain, ?_, ?_⟩ _⟩
      · rintro rfl
        cases opens.symm.trans (Bracket.ofOpener?_opener bracket)
      · rintro rfl
        cases closes.symm.trans (Bracket.ofCloser?_eq_some_iff.mpr rfl)
    | some other =>
      obtain rfl := Bracket.ofCloser?_eq_some_iff.mp closes
      cases above with
      | nil =>
        simp only [opens, closes, List.nil_append] at nested
        split at nested
        · next same =>
          subst same
          cases nested
          exact .inl ⟨rfl, rfl, rfl⟩
        · cases nested
      | cons top above =>
        simp only [opens, closes, List.cons_append] at nested
        split at nested
        · next same =>
          subst same
          cases nested
          refine .inr ⟨above, rfl, ?_⟩
          by_cases same : bracket = top
          · subst same
            rw [List.count_cons_self, Bracket.step_closer_succ]
          · rw [Bracket.step_of_plain (Bracket.plain_of_ne same).2, List.count_cons_of_ne (Ne.symm same)]
        · cases nested

/-- A lexeme of more than one character nests nothing, and is closed. -/
theorem nest?_of_ne {stack stack' : List Bracket} (whole : ∀ c, lexeme ≠ .single c)
    (nested : nest? stack lexeme = some stack') : stack' = stack ∧ ∀ text, lexeme ≠ .unclosed text := by
  cases lexeme with
  | single c => exact absurd rfl (whole c)
  | unclosed => cases nested
  | _ =>
    cases nested
    exact ⟨rfl, fun _ => Lexeme.noConfusion⟩

/-- The search for a partner goes on behind a lexeme while brackets are open. -/
theorem partner?_cons {stack stack' : List Bracket} (nested : nest? stack lexeme = some stack') (more : stack' ≠ []) :
    partner? stack index (lexeme :: lexemes) = partner? stack' (index + lexeme.text.length) lexemes := by
  rw [partner?, nested]
  cases stack' with
  | nil => exact absurd rfl more
  | cons => rfl

/-! ## Counting and the stack -/

/-- A lexeme that is no single character is read without effect. -/
theorem Lexeme.Leads.scan (leads : lexeme.Leads rest) (whole : ∀ c, lexeme ≠ .single c) (inner : Nat) :
    bracket.scan (.code, inner) lexeme.text = some (lexeme.text.foldl Mode.next .code, inner) := by
  obtain ⟨delimiter, tail, same, delimits, ahead⟩ := leads.exists_tail whole
  have noBracket := @Bracket.ne_of_isDelimiter bracket _ delimits
  rw [same, Bracket.scan_cons, Bracket.step_of_other noBracket.1 noBracket.2, Option.bind_some, List.foldl_cons]
  exact Bracket.scan_of_away (Mode.code_next_ne_code delimits) ahead inner

/-- What a stack finds, counting finds. -/
theorem exists_raw_of_partner? (lexes : Lexes text lexemes) (clear : mode.Clear text)
    (found : partner? (above ++ [bracket]) index lexemes = some close) :
    ∃ raw rest, text = raw ++ bracket.closer :: rest ∧ close = index + raw.length ∧
      bracket.scan (mode, above.count bracket) raw = some (.code, 0) := by
  induction lexes generalizing mode above index with
  | nil => cases found
  | @cons lexeme rest lexemes leads _ ih =>
    cases nested : nest? (above ++ [bracket]) lexeme with
    | none => simp [partner?, nested] at found
    | some stack =>
      by_cases whole : ∀ c, lexeme ≠ .single c
      · obtain ⟨rfl, closed⟩ := nest?_of_ne whole nested
        obtain rfl := leads.eq_code whole clear
        rw [partner?_cons nested (by simp)] at found
        obtain ⟨raw, behind, rfl, rfl, read⟩ := ih (leads.clear closed) found
        refine ⟨lexeme.text ++ raw, behind, (List.append_assoc _ _ _).symm, ?_, ?_⟩
        · rw [List.length_append, Nat.add_assoc]
        · rw [Bracket.scan_append, leads.scan whole, Option.bind_some, read]
      · obtain ⟨c, rfl⟩ : ∃ c, lexeme = .single c := by simpa using whole
        rcases nest?_single leads.plain nested with ⟨rfl, rfl, rfl⟩ | ⟨above', rfl, step⟩
        · have inCode : mode = .code := Mode.Clear.eq_code clear (by cases bracket <;> decide)
          simp only [partner?, nested, Option.some.injEq] at found
          exact ⟨[], rest, rfl, found.symm, by rw [inCode]; rfl⟩
        · rw [partner?_cons nested (by simp)] at found
          obtain ⟨raw, behind, rfl, rfl, read⟩ := ih (Mode.clear_code rest) found
          refine ⟨c :: raw, behind, rfl, ?_, ?_⟩
          · simp only [Lexeme.text, List.length_cons, List.length_nil]
            omega
          · rw [Bracket.scan_cons, Bracket.step_of_clear clear, step, Option.bind_some, read]

/-! ## Where counting ends -/


/-- A reading that stands in code before a character that starts no literal and no comment stands before a lexeme
of its own. -/
theorem Lexes.eq_single (lexes : Lexes text (before ++ lexeme :: behind)) (clear : mode.Clear text)
    (split : text = raw ++ c :: rest) (inCode : raw.foldl Mode.next mode = .code) (plain : Mode.isDelimiter c = false)
    (starts : (spelled before).length ≤ raw.length)
    (ends : raw.length < (spelled before).length + lexeme.text.length) : lexeme = .single c := by
  induction before generalizing text mode raw with
  | nil =>
    cases lexes with
    | @cons _ rest' _ leads _ =>
      rcases append_eq_append_cons_iff.mp split with ⟨more, same, -⟩ | ⟨more, rfl, -⟩
      · by_cases whole : ∀ c, lexeme ≠ .single c
        · -- Inside the lexeme, the reading would stand away from code.
          obtain rfl := leads.eq_code whole clear
          obtain ⟨delimiter, tail, text, delimits, ahead⟩ := leads.exists_tail whole
          rw [text] at same
          cases raw with
          | nil =>
            obtain ⟨rfl, -⟩ := List.cons.inj same
            exact absurd (delimits.symm.trans plain) Bool.noConfusion
          | cons d raw =>
            rw [List.cons_append, List.cons.injEq] at same
            obtain ⟨rfl, rfl⟩ := same
            have stays : raw.foldl Mode.next (Mode.code.next delimiter) ≠ .code := by
              apply @Mode.foldl_ne_code _ (c :: more) _ (Mode.code_next_ne_code delimits)
              intro offset found
              have last := ahead offset found
              rw [List.length_append, List.length_cons] at last
              omega
            exact absurd inCode stays
        · obtain ⟨d, rfl⟩ : ∃ d, lexeme = .single d := by simpa using whole
          cases raw with
          | nil =>
            obtain ⟨rfl, -⟩ := List.cons.inj same
            rfl
          | cons _ raw =>
            obtain ⟨-, none⟩ := List.cons.inj same
            exact absurd none.symm (by simp)
      · rw [List.length_append] at ends
        exact absurd ends (by simp [spelled])
  | cons other before ih =>
    cases lexes with
    | @cons _ rest' _ leads others =>
      rw [spelled_cons, List.length_append] at starts ends
      rcases append_eq_append_cons_iff.mp split with ⟨more, same, -⟩ | ⟨more, rfl, rfl⟩
      · rw [same, List.length_append, List.length_cons] at starts
        omega
      · have closed : ∀ text, other ≠ .unclosed text := by
          rintro text rfl
          exact absurd leads.rest_eq_nil (by simp)
        have clear' := leads.clear closed
        rw [← clear.foldl leads.text_ne_nil] at clear'
        rw [List.length_append] at starts ends
        exact ih others clear' rfl (by rwa [List.foldl_append] at inCode) (by omega) (by omega)

/-- A bracket is matched where a stack of open brackets of all kinds finds its partner, if it does; and it is
matched only by a single character of the text, which is read in one way. -/
theorem matchBracket_agrees (opens : text[index]? = some bracket.opener) :
    ∃ lexemes, (∀ others, Lexes (text.drop (index + 1)) others ↔ others = lexemes) ∧
      (∀ close, partner? [bracket] (index + 1) lexemes = some close → matchBracket text index = .ok close) ∧
      ∀ close, matchBracket text index = .ok close → ∀ before lexeme behind, lexemes = before ++ lexeme :: behind →
        index + 1 + (spelled before).length ≤ close →
        close < index + 1 + (spelled before).length + lexeme.text.length → lexeme = .single bracket.closer := by
  obtain ⟨lexemes, lexes⟩ := Lexes.exists_lexes (text.drop (index + 1))
  have split : text.drop index = bracket.opener :: text.drop (index + 1) := by
    obtain ⟨inside, here⟩ := List.getElem?_eq_some_iff.mp opens
    rw [List.drop_eq_getElem_cons inside, here]
  have head : (text.drop index).head? = some bracket.opener := by
    rw [split, List.head?_cons]
  refine ⟨lexemes, fun others => ⟨fun lexes' => lexes'.unique lexes, fun same => same ▸ lexes⟩, ?_, ?_⟩
  · intro close found
    obtain ⟨raw, rest, behind, rfl, read⟩ := @exists_raw_of_partner? _ _ _ _ [] _ _ lexes (Mode.clear_code _) found
    have whole : text.drop index = (bracket.opener :: raw ++ [bracket.closer]) ++ rest := by
      rw [split, behind]
      simp
    refine (matchBracket_eq_ok_iff head).mpr ⟨raw, .of_drop whole ?_, read⟩
    simp only [List.length_append, List.length_cons, List.length_nil]
    omega
  · rintro close matched before lexeme behind rfl starts ends
    obtain ⟨raw, spans, encloses⟩ := (matchBracket_eq_ok_iff head).mp matched
    have here := spans.here
    rw [split, List.append_assoc, List.cons_append, List.cons.injEq] at here
    have width := spans.width
    simp only [List.length_append, List.length_cons, List.length_nil] at width
    have inCode : raw.foldl Mode.next .code = .code := (Bracket.mode_of_scan encloses).symm
    have plain : Mode.isDelimiter bracket.closer = false := by cases bracket <;> decide
    exact lexes.eq_single (Mode.clear_code _) here.2 inCode plain (by omega) (by omega)

/-- What follows an opening brace: braces in a string, in a comment and in a regular expression, and its partner
behind brackets of another kind. -/
def decoys : List Lexeme :=
  [.single ' ', .literal "'\x7d'".toList, .comment "/*\x7d*/".toList, .single '[', .literal "/]\x7d/".toList,
    .single ']', .single '\x7d', .single ')']

/-- The decoys are the lexemes of what they spell. -/
theorem decoys_lexes : Lexes (spelled decoys) decoys := by
  have string (rest : Text) : Lexeme.Leads (.literal "'\x7d'".toList) rest :=
    @Lexeme.Leads.literal '\'' ['\x7d'] rest (by decide) (.plain (by decide) (by decide) .nil) (by decide)
  have comment (rest : Text) : Lexeme.Leads (.comment "/*\x7d*/".toList) rest :=
    @Lexeme.Leads.blockComment ['\x7d'] rest (by decide)
  have regex (rest : Text) : Lexeme.Leads (.literal "/]\x7d/".toList) rest :=
    @Lexeme.Leads.literal '/' [']', '\x7d'] rest (by decide)
      (.plain (by decide) (by decide) (.plain (by decide) (by decide) .nil)) (by decide)
  exact .cons (.single (by decide)) (.cons (string _) (.cons (comment _) (.cons (.single (by decide))
    (.cons (regex _) (.cons (.single (by decide)) (.cons (.single (by decide)) (.cons (.single (by decide)) .nil)))))))

/-- A brace is matched behind braces in a string, a comment and a regular expression. -/
theorem matchBracket_agrees_on_decoys : partner? [.brace] 1 decoys = some 16 ∧
    matchBracket ('\x7b' :: spelled decoys) 0 = .ok 16 := by
  have found : partner? [.brace] 1 decoys = some 16 := rfl
  obtain ⟨lexemes, only, agrees, -⟩ := @matchBracket_agrees .brace ('\x7b' :: spelled decoys) 0 rfl
  obtain rfl := (only decoys).mp decoys_lexes
  exact ⟨found, agrees 16 found⟩

end JasmineConversion
