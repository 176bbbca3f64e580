import JasmineConversion.Proofs.Source.Lexemes

/-! # What removing comments keeps

Of the lexemes of a text, those that are no comments stay when comments are removed, and a comment leaves its line
feeds. What stays is read as the same lexemes, whatever they are next to: a slash among them delimits a literal,
and none is left that could start a comment.
-/

namespace JasmineConversion

open Text Source

namespace Lexeme

/-- What remains of a lexeme without comments. -/
def remains : Lexeme → List Lexeme
  | comment text => (text.filter (· == '\n')).map single
  | lexeme => [lexeme]

/-- A string or a regular expression, as it is written. -/
def literal? : Lexeme → Option Text
  | literal text => some text
  | _ => none

end Lexeme

/-- What remains of lexemes without comments. -/
def remains (lexemes : List Lexeme) : List Lexeme :=
  lexemes.flatMap Lexeme.remains

/-- The strings and regular expressions among lexemes, as they are written. -/
def literals (lexemes : List Lexeme) : List Text :=
  lexemes.filterMap Lexeme.literal?

variable {mode : Mode} {lexeme other : Lexeme} {lexemes before behind : List Lexeme} {text rest kept : Text} {c : Char}

/-! ## What lexemes leave -/

theorem spelled_append (lexemes more : List Lexeme) : spelled (lexemes ++ more) = spelled lexemes ++ spelled more :=
  List.flatMap_append

/-- Single characters spell themselves. -/
theorem spelled_map_single (text : Text) : spelled (text.map .single) = text := by
  induction text with
  | nil => rfl
  | cons c text ih =>
    rw [List.map_cons, spelled_cons, ih]
    rfl

theorem remains_cons (lexeme : Lexeme) (lexemes : List Lexeme) :
    remains (lexeme :: lexemes) = lexeme.remains ++ remains lexemes := rfl

theorem remains_append (lexemes more : List Lexeme) : remains (lexemes ++ more) = remains lexemes ++ remains more :=
  List.flatMap_append

namespace Lexeme

theorem remains_of_ne (stays : ∀ text, lexeme ≠ comment text) : lexeme.remains = [lexeme] := by
  cases lexeme with
  | comment text => exact absurd rfl (stays text)
  | _ => rfl

/-- What remains of a lexeme is the lexeme itself, if it is no comment, or a line feed. -/
theorem mem_remains (member : other ∈ lexeme.remains) :
    other = lexeme ∧ (∀ text, lexeme ≠ comment text) ∨ other = single '\n' := by
  cases lexeme with
  | comment text =>
    obtain ⟨c, feeds, rfl⟩ := List.mem_map.mp member
    obtain rfl : c = '\n' := by simpa using (List.mem_filter.mp feeds).2
    exact .inr rfl
  | _ => exact .inl ⟨List.mem_singleton.mp member, fun _ => Lexeme.noConfusion⟩

/-- Every lexeme leaves its line feeds. -/
theorem count_remains (lexeme : Lexeme) : (spelled lexeme.remains).count '\n' = lexeme.text.count '\n' := by
  by_cases stays : ∀ text, lexeme ≠ comment text
  · rw [remains_of_ne stays, spelled_cons, spelled, List.flatMap_nil, List.append_nil]
  · obtain ⟨text, rfl⟩ : ∃ text, lexeme = comment text := by simpa using stays
    rw [remains, spelled_map_single]
    exact List.count_filter rfl

/-- A lexeme keeps its literal. -/
theorem literals_remains (lexeme : Lexeme) : literals lexeme.remains = literals [lexeme] := by
  by_cases stays : ∀ text, lexeme ≠ comment text
  · rw [remains_of_ne stays]
  · obtain ⟨text, rfl⟩ : ∃ text, lexeme = comment text := by simpa using stays
    exact List.filterMap_eq_nil_iff.mpr fun other member => by
      rcases mem_remains member with ⟨-, stays⟩ | rfl
      · exact absurd rfl (stays text)
      · rfl

end Lexeme

/-- The line feeds of comments remain. -/
theorem count_remains (lexemes : List Lexeme) :
    (spelled (remains lexemes)).count '\n' = (spelled lexemes).count '\n' := by
  induction lexemes with
  | nil => rfl
  | cons lexeme lexemes ih =>
    rw [remains_cons, spelled_append, spelled_cons, List.count_append, List.count_append, lexeme.count_remains, ih]

/-- The literals of a text remain as they are. -/
theorem literals_remains (lexemes : List Lexeme) : literals (remains lexemes) = literals lexemes := by
  induction lexemes with
  | nil => rfl
  | cons lexeme lexemes ih =>
    have front : literals (lexeme.remains ++ remains lexemes) = literals lexeme.remains ++ literals (remains lexemes) :=
      List.filterMap_append
    rw [remains_cons, front, lexeme.literals_remains, ih]
    exact List.filterMap_append.symm

/-- What remains is no comment: it was there before, or is a line feed. -/
theorem mem_remains (member : other ∈ remains lexemes) :
    other ∈ lexemes ∧ (∀ text, other ≠ .comment text) ∨ other = .single '\n' := by
  obtain ⟨lexeme, inside, remains⟩ := List.mem_flatMap.mp member
  rcases Lexeme.mem_remains remains with ⟨rfl, stays⟩ | feed
  · exact .inl ⟨inside, stays⟩
  · exact .inr feed

/-- Nothing more is taken from what remains. -/
theorem remains_remains (lexemes : List Lexeme) : remains (remains lexemes) = remains lexemes := by
  have stays : ∀ lexeme ∈ remains lexemes, lexeme.remains = [lexeme] := by
    intro lexeme member
    apply Lexeme.remains_of_ne
    rcases mem_remains member with ⟨-, stays⟩ | rfl
    · exact stays
    · exact fun _ => Lexeme.noConfusion
  generalize remains lexemes = lexemes at stays
  induction lexemes with
  | nil => rfl
  | cons lexeme lexemes ih =>
    obtain ⟨here, further⟩ := List.forall_mem_cons.mp stays
    rw [remains_cons, here, ih further, List.singleton_append]

/-! ## What is kept of a text -/

/-- A literal behind a delimiter that starts no comment is kept. -/
theorem keptFrom_of_startsComment {delimiter : Char} (delimits : Mode.isDelimiter delimiter = true)
    (noComment : startsComment (delimiter :: text) = false) (nonempty : text ≠ []) :
    keptFrom .code (delimiter :: text) = delimiter :: keptFrom (.literal delimiter) text := by
  cases text with
  | nil => exact absurd rfl nonempty
  | cons c text =>
    have same := Mode.next_of_startsComment delimits noComment
    have front : Mode.code.uncommented delimiter ++ (Mode.code.next delimiter).uncommented c = [delimiter, c] := by
      by_cases quote : Mode.isQuote delimiter = true
      · rcases Mode.isQuote_iff.mp quote with rfl | rfl <;> rfl
      · obtain rfl : delimiter = '/' := by simpa [Mode.isDelimiter, quote] using delimits
        rw [startsComment_cons_cons] at noComment
        change Mode.slash.uncommented c = ['/', c]
        simpa [Mode.uncommented] using noComment
    rw [keptFrom, keptFrom, ← List.append_assoc, front, same]
    rfl

/-- What is kept of a lexeme spells what remains of it. -/
theorem Lexeme.Leads.keptFrom (leads : lexeme.Leads rest) (closed : ∀ text, lexeme ≠ .unclosed text) :
    keptFrom .code lexeme.text = spelled lexeme.remains := by
  cases leads with
  | @single c _ plain => exact (Strips.single plain).keeps
  | @literal delimiter content _ delimits holds noComment =>
    have starts : startsComment (delimiter :: (content ++ [delimiter])) = false := noComment
    have inside := (kept_of_content (Mode.ne_backslash_of_isDelimiter delimits) holds).2
    change Source.keptFrom .code (delimiter :: (content ++ [delimiter])) = _
    rw [keptFrom_of_startsComment delimits starts (by simp), inside]
    exact (List.append_nil _).symm
  | @lineComment inner _ oneLine ends =>
    rw [Lexeme.remains, spelled_map_single]
    have nothing : inner.filter (· == '\n') = [] := by
      apply List.filter_eq_nil_iff.mpr
      intro c member feed
      obtain rfl : c = '\n' := by simpa using feed
      exact oneLine member
    exact (lineComment_of_line oneLine).1.trans nothing.symm
  | @blockComment inner _ unended =>
    rw [Lexeme.remains, spelled_map_single]
    exact (InComment.block.keptFrom (Mode.blockComment_returns_iff.mpr ⟨inner, rfl, unended⟩)).1
  | unclosedLiteral => exact absurd rfl (closed _)
  | unclosedComment => exact absurd rfl (closed _)

/-- A clear reading keeps as much as one in code. -/
theorem keptFrom_of_clear (clear : mode.Clear text) : keptFrom mode text = keptFrom .code text := by
  rcases clear with rfl | ⟨rfl, stops⟩
  · rfl
  · cases text with
    | nil => rfl
    | cons c text =>
      obtain rfl : c = '\n' := by simpa using stops
      rfl

/-- A single character or a literal is read in front of any text. -/
theorem Lexeme.Leads.of_stays (leads : lexeme.Leads rest) (closed : ∀ text, lexeme ≠ .unclosed text)
    (stays : ∀ text, lexeme ≠ .comment text) (more : Text) : lexeme.Leads more := by
  cases leads with
  | single plain => exact .single plain
  | literal delimits holds noComment => exact .literal delimits holds noComment
  | lineComment => exact absurd rfl (stays _)
  | blockComment => exact absurd rfl (stays _)
  | unclosedLiteral => exact absurd rfl (closed _)
  | unclosedComment => exact absurd rfl (closed _)

namespace Lexes

/-- Every lexeme of a text leads some rest of it. -/
theorem exists_leads (lexes : Lexes text lexemes) (member : lexeme ∈ lexemes) : ∃ rest, lexeme.Leads rest := by
  induction lexes with
  | nil => cases member
  | @cons _ rest _ leads _ ih =>
    rcases List.mem_cons.mp member with rfl | further
    · exact ⟨rest, leads⟩
    · exact ih further

/-- Lexemes that lead any rest are those of the text that they spell. -/
theorem of_leads (leads : ∀ lexeme ∈ lexemes, ∀ rest, lexeme.Leads rest) : Lexes (spelled lexemes) lexemes := by
  induction lexemes with
  | nil => exact .nil
  | cons lexeme lexemes ih =>
    obtain ⟨here, further⟩ := List.forall_mem_cons.mp leads
    exact .cons (here _) (ih further)

/-- A text is free of flaws if all its lexemes are closed. -/
theorem flaw?_eq_none_iff (lexes : Lexes text lexemes) (clear : mode.Clear text) :
    (text.foldl Mode.next mode).flaw? = none ↔ ∀ text, .unclosed text ∉ lexemes := by
  induction lexes generalizing mode with
  | nil =>
    have unflawed : mode.flaw? = none := by
      rcases clear with rfl | ⟨rfl, -⟩ <;> rfl
    simp [unflawed]
  | @cons lexeme rest lexemes leads others ih =>
    rw [List.foldl_append, clear.foldl leads.text_ne_nil]
    by_cases closed : ∀ text, lexeme ≠ .unclosed text
    · rw [ih (leads.clear closed)]
      have here (text : Text) : .unclosed text ∉ lexeme :: lexemes ↔ .unclosed text ∉ lexemes := by
        simp [(closed text).symm]
      simp only [here]
    · obtain ⟨text, rfl⟩ : ∃ text, lexeme = .unclosed text := by simpa using closed
      obtain rfl := leads.rest_eq_nil
      refine iff_of_false leads.flaw? fun none => none text List.mem_cons_self

/-- What is kept of a text spells what remains of its lexemes. -/
theorem keptFrom (lexes : Lexes text lexemes) (closed : ∀ text, .unclosed text ∉ lexemes) :
    keptFrom .code text = spelled (remains lexemes) := by
  induction lexes with
  | nil => rfl
  | @cons lexeme rest lexemes leads _ ih =>
    have here : ∀ text, lexeme ≠ .unclosed text := by
      rintro text rfl
      exact closed text List.mem_cons_self
    have further : ∀ text, .unclosed text ∉ lexemes := fun text member =>
      closed text (List.mem_cons_of_mem _ member)
    rw [keptFrom_append, keptFrom_of_clear (leads.clear here), leads.keptFrom here, ih further, remains_cons,
      spelled_append]

/-- What remains of the lexemes of a text is read as just those. -/
theorem remains (lexes : Lexes text lexemes) (closed : ∀ text, .unclosed text ∉ lexemes) :
    Lexes (spelled (remains lexemes)) (remains lexemes) := by
  apply of_leads
  intro lexeme member more
  rcases mem_remains member with ⟨inside, stays⟩ | rfl
  · obtain ⟨rest, leads⟩ := lexes.exists_leads inside
    refine leads.of_stays ?_ stays more
    rintro text rfl
    exact closed text inside
  · exact .single (by decide)

/-- Removing comments succeeds where every lexeme is closed, and gives what remains of them. -/
theorem stripComments_eq_ok_iff (lexes : Lexes text lexemes) : stripComments text = .ok kept ↔
    (∀ text, .unclosed text ∉ lexemes) ∧ kept = spelled (JasmineConversion.remains lexemes) := by
  rw [Source.stripComments_eq_ok_iff, lexes.flaw?_eq_none_iff (Mode.clear_code text)]
  constructor
  · rintro ⟨closed, rfl⟩
    exact ⟨closed, lexes.keptFrom closed⟩
  · rintro ⟨closed, rfl⟩
    exact ⟨closed, lexes.keptFrom closed⟩

end Lexes

/-- The line of a place in the middle of a text. -/
theorem lineAt_append (before text : Text) {index : Nat} (inside : index ≤ text.length) (behind : Text) :
    lineAt (before ++ text ++ behind) (before.length + index) =
      before.count '\n' + (text.take index).count '\n' + 1 := by
  have front : (before ++ text ++ behind).take (before.length + index) = before ++ text.take index := by
    rw [List.append_assoc, List.take_length_add_append, List.take_append_of_le_length inside]
  rw [lineAt, front, List.count_append]

/-- Removing comments from what they have been removed from changes nothing. The text and what is kept of it are
read in one way each, with the same literals and as many line feeds; and every lexeme that is no comment stands in
both between what is read before and behind it, and each of its characters on the same line. -/
theorem stripComments_keeps (stripped : stripComments text = .ok kept) :
    stripComments kept = .ok kept ∧ kept.count '\n' = text.count '\n' ∧
    ∃ lexemes, (∀ others, Lexes text others ↔ others = lexemes) ∧
      (∀ others, Lexes kept others ↔ others = remains lexemes) ∧ literals (remains lexemes) = literals lexemes ∧
      ∀ before lexeme behind, lexemes = before ++ lexeme :: behind → (∀ text, lexeme ≠ .comment text) →
        text = spelled before ++ lexeme.text ++ spelled behind ∧
        kept = spelled (remains before) ++ lexeme.text ++ spelled (remains behind) ∧
        ∀ index < lexeme.text.length, lineAt kept ((spelled (remains before)).length + index) =
          lineAt text ((spelled before).length + index) := by
  obtain ⟨lexemes, lexes⟩ := Lexes.exists_lexes text
  obtain ⟨closed, rfl⟩ := lexes.stripComments_eq_ok_iff.mp stripped
  have left := lexes.remains closed
  have closedLeft : ∀ text, .unclosed text ∉ remains lexemes := by
    intro text member
    rcases mem_remains member with ⟨inside, -⟩ | feed
    · exact closed text inside
    · cases feed
  refine ⟨left.stripComments_eq_ok_iff.mpr ⟨closedLeft, by rw [remains_remains]⟩, ?_, lexemes, ?_, ?_,
    literals_remains lexemes, ?_⟩
  · rw [count_remains, lexes.text_eq]
  · exact fun others => ⟨fun lexes' => lexes'.unique lexes, fun same => same ▸ lexes⟩
  · exact fun others => ⟨fun left' => left'.unique left, fun same => same ▸ left⟩
  · rintro before lexeme behind rfl stays
    have split : text = spelled before ++ lexeme.text ++ spelled behind := by
      rw [lexes.text_eq, spelled_append, spelled_cons, List.append_assoc]
    have kept : spelled (remains (before ++ lexeme :: behind)) =
        spelled (remains before) ++ lexeme.text ++ spelled (remains behind) := by
      rw [remains_append, remains_cons, Lexeme.remains_of_ne stays, spelled_append, List.singleton_append,
        spelled_cons, List.append_assoc]
    refine ⟨split, kept, fun index inside => ?_⟩
    rw [kept, split, lineAt_append _ _ (Nat.le_of_lt inside), lineAt_append _ _ (Nat.le_of_lt inside), count_remains]

/-- A string and a regular expression that hold what opens comments, and a comment of each kind. -/
def commentedText : Text :=
  "a = '//'; // gone\n/* gone\n too */ b = /\\/*/;".toList

def strippedText : Text :=
  "a = '//'; \n\n b = /\\/*/;".toList

/-- A text with comments, a string and a regular expression is stripped and keeps its lines and
literals. -/
theorem stripComments_keeps_strippedText : stripComments commentedText = .ok strippedText ∧
    stripComments strippedText = .ok strippedText ∧ strippedText.count '\n' = commentedText.count '\n' ∧
    ∃ lexemes, Lexes commentedText lexemes ∧ Lexes strippedText (remains lexemes) ∧
      literals (remains lexemes) = literals lexemes := by
  have stripped : stripComments commentedText = .ok strippedText := rfl
  obtain ⟨again, feeds, lexemes, only, onlyLeft, same, -⟩ := stripComments_keeps stripped
  exact ⟨stripped, again, feeds, lexemes, (only lexemes).mpr rfl, (onlyLeft _).mpr rfl, same⟩

end JasmineConversion
