import JasmineConversion.Proofs.Source.Enclosure
import JasmineConversion.Spec.Writer

/-! # Titles in double quotes

A title or a message was the content of a literal before it is put between double quotes. Each double quote that
stands bare in it is escaped, unless a backslash precedes it: then it counts as escaped already, which is wrong
behind a backslash that is escaped itself. Such a title ends too early, and no other one does. What the title stands
for does not change.
-/

namespace JasmineConversion

open Text Source

/-- What the content of a literal stands for: plain characters, and characters behind a backslash. -/
def resolved {α : Type} (plain escaped : Char → α) : Text → List α
  | [] => []
  | [c] => [plain c]
  | c :: d :: rest =>
    if c = '\\' then escaped d :: resolved plain escaped rest else plain c :: resolved plain escaped (d :: rest)

/-- A double quote stands bare behind a backslash that is escaped. -/
def QuoteBehindEscape (delimiter : Char) (content : Text) : Prop :=
  ∃ front rest, LiteralContent delimiter front ∧ content = front ++ '\\' :: '\\' :: '"' :: rest

variable {α : Type} {plain escaped : Char → α} {delimiter c : Char} {content front rest text : Text}

/-! ## The content of a literal -/

/-- A character that is no backslash stands for itself. -/
theorem resolved_cons (noEscape : c ≠ '\\') (rest : Text) :
    resolved plain escaped (c :: rest) = plain c :: resolved plain escaped rest := by
  cases rest with
  | nil => rfl
  | cons d rest => rw [resolved, if_neg noEscape]

theorem resolved_escaped (c : Char) (rest : Text) :
    resolved plain escaped ('\\' :: c :: rest) = escaped c :: resolved plain escaped rest := by
  rw [resolved, if_pos rfl]

namespace LiteralContent

/-- A character that is neither a backslash nor the delimiter may stand in front of the content. -/
theorem cons_iff (noEscape : c ≠ '\\') (inside : c ≠ delimiter) :
    LiteralContent delimiter (c :: rest) ↔ LiteralContent delimiter rest := by
  refine ⟨fun holds => ?_, .plain noEscape inside⟩
  cases holds with
  | plain _ _ content => exact content
  | escaped content => exact absurd rfl noEscape

/-- Any character behind a backslash may stand in front of the content. -/
theorem escaped_iff : LiteralContent delimiter ('\\' :: c :: rest) ↔ LiteralContent delimiter rest := by
  refine ⟨fun holds => ?_, .escaped⟩
  cases holds with
  | plain noEscape _ _ => exact absurd rfl noEscape
  | escaped content => exact content

/-- A text without backslashes and delimiters is the content of a literal. -/
theorem of_not_mem (noEscape : '\\' ∉ content) (inside : delimiter ∉ content) :
    LiteralContent delimiter content := by
  induction content with
  | nil => exact .nil
  | cons c content ih =>
    rw [List.mem_cons, not_or] at noEscape inside
    exact .plain (Ne.symm noEscape.1) (Ne.symm inside.1) (ih noEscape.2 inside.2)

/-- A delimiter that no backslash takes with it ends a literal. -/
theorem not_cons_delimiter (noEscape : delimiter ≠ '\\') : ¬ LiteralContent delimiter (delimiter :: rest) := by
  intro holds
  cases holds with
  | plain _ inside _ => exact inside rfl
  | escaped _ => exact noEscape rfl

/-- What is behind a content in a content is one. -/
theorem of_append (holds : LiteralContent delimiter (front ++ rest)) (first : LiteralContent delimiter front) :
    LiteralContent delimiter rest := by
  induction first with
  | nil => exact holds
  | plain noEscape inside _ ih => exact ih ((cons_iff noEscape inside).mp holds)
  | escaped _ ih => exact ih (escaped_iff.mp holds)

end LiteralContent

namespace QuoteBehindEscape

/-- A character that is no backslash and no delimiter puts no quote behind an escape. -/
theorem cons_iff (noEscape : c ≠ '\\') (inside : c ≠ delimiter) :
    QuoteBehindEscape delimiter (c :: rest) ↔ QuoteBehindEscape delimiter rest := by
  constructor
  · rintro ⟨front, behind, holds, same⟩
    cases front with
    | nil => exact absurd (List.cons.inj same).1 noEscape
    | cons d front =>
      obtain ⟨rfl, others⟩ := List.cons.inj same
      exact ⟨front, behind, (LiteralContent.cons_iff noEscape inside).mp holds, others⟩
  · rintro ⟨front, behind, holds, rfl⟩
    exact ⟨c :: front, behind, .plain noEscape inside holds, rfl⟩

/-- A quote stands behind an escape if the escaped character is a backslash in front of one, or further
behind. -/
theorem escaped_iff : QuoteBehindEscape delimiter ('\\' :: c :: rest) ↔
    c = '\\' ∧ rest.head? = some '"' ∨ QuoteBehindEscape delimiter rest := by
  constructor
  · rintro ⟨front, behind, holds, same⟩
    cases holds with
    | nil =>
      obtain ⟨rfl, others⟩ := List.cons.inj (List.cons.inj same).2
      exact .inl ⟨rfl, others ▸ rfl⟩
    | plain noEscape _ _ => exact absurd (List.cons.inj same).1.symm noEscape
    | escaped content =>
      obtain ⟨rfl, others⟩ := List.cons.inj (List.cons.inj same).2
      exact .inr ⟨_, behind, content, others⟩
  · rintro (⟨rfl, quote⟩ | ⟨front, behind, holds, rfl⟩)
    · obtain ⟨behind, rfl⟩ := List.head?_eq_some_iff.mp quote
      exact ⟨[], behind, .nil, rfl⟩
    · exact ⟨'\\' :: c :: front, behind, .escaped holds, rfl⟩

theorem not_nil : ¬ QuoteBehindEscape delimiter [] := by
  rintro ⟨front, behind, -, same⟩
  simp at same

/-- Where a double quote delimits, none stands bare. -/
theorem not_of_content (holds : LiteralContent '"' content) : ¬ QuoteBehindEscape '"' content := by
  rintro ⟨front, rest, first, rfl⟩
  have behind := holds.of_append first
  exact LiteralContent.not_cons_delimiter (by decide) (LiteralContent.escaped_iff.mp behind)

end QuoteBehindEscape

/-! ## Escaping double quotes -/

namespace Spec

/-- A double quote is escaped unless a backslash precedes it. -/
theorem replaceFrom_bareQuote (previous : Option Char) (c : Char) (rest : Text) :
    replaceFrom bareQuote 0 previous (c :: rest) =
      if c = '"' ∧ previous ≠ some '\\' then '\\' :: '"' :: replaceFrom bareQuote 0 (some c) rest
      else c :: replaceFrom bareQuote 0 (some c) rest := by
  by_cases bare : c = '"' ∧ previous ≠ some '\\'
  · have found : bareQuote previous (c :: rest) = some (1, ['\\', '"']) := by simp [bareQuote, bare]
    simp only [replaceFrom, found, if_pos bare]
    rfl
  · have absent : bareQuote previous (c :: rest) = none := by simpa [bareQuote] using bare
    simp only [replaceFrom, absent, if_neg bare]

theorem replaceFrom_escaped (previous : Option Char) (c : Char) (rest : Text) :
    replaceFrom bareQuote 0 previous ('\\' :: c :: rest) = '\\' :: c :: replaceFrom bareQuote 0 (some c) rest := by
  rw [replaceFrom_bareQuote, if_neg (by simp), replaceFrom_bareQuote, if_neg (by simp)]

/-- Escaping bare double quotes does not change what a content stands for. -/
theorem resolved_replaceFrom (same : escaped '"' = plain '"') (holds : LiteralContent delimiter content)
    (previous : Option Char) :
    resolved plain escaped (replaceFrom bareQuote 0 previous content) = resolved plain escaped content := by
  induction holds generalizing previous with
  | nil => rfl
  | @plain c rest noEscape _ _ ih =>
    rw [replaceFrom_bareQuote, resolved_cons noEscape]
    split
    · next bare => rw [resolved_escaped, ih, bare.1, same]
    · rw [resolved_cons noEscape, ih]
  | @escaped c rest _ ih => rw [replaceFrom_escaped, resolved_escaped, resolved_escaped, ih]

/-- What becomes of a content stays inside double quotes, unless it has a bare one behind an escaped backslash. The
character before the content may be such a backslash, too. -/
theorem content_replaceFrom_iff (holds : LiteralContent delimiter content) (previous : Option Char) :
    LiteralContent '"' (replaceFrom bareQuote 0 previous content) ↔
      ¬ (previous = some '\\' ∧ content.head? = some '"') ∧ ¬ QuoteBehindEscape delimiter content := by
  induction holds generalizing previous with
  | nil => exact iff_of_true .nil ⟨by simp, QuoteBehindEscape.not_nil⟩
  | @plain c rest noEscape inside _ ih =>
    have further := ih (some c)
    rw [Option.some.injEq, and_iff_right (fun escape => noEscape escape.1)] at further
    rw [replaceFrom_bareQuote, QuoteBehindEscape.cons_iff noEscape inside, List.head?_cons, Option.some.injEq]
    by_cases quote : c = '"'
    · by_cases escape : previous = some '\\'
      · rw [if_neg (fun bare => bare.2 escape), quote]
        exact iff_of_false (LiteralContent.not_cons_delimiter (by decide)) fun clear => clear.1 ⟨escape, rfl⟩
      · rw [if_pos ⟨quote, escape⟩, LiteralContent.escaped_iff, further, and_iff_right (fun found => escape found.1)]
    · rw [if_neg (fun bare => quote bare.1), LiteralContent.cons_iff noEscape quote, further,
        and_iff_right (fun found => quote found.2)]
  | @escaped c rest _ ih =>
    rw [replaceFrom_escaped, LiteralContent.escaped_iff, ih (some c), QuoteBehindEscape.escaped_iff, not_or,
      Option.some.injEq, List.head?_cons]
    exact (and_iff_right fun found => absurd found.2 (by decide)).symm

/-- A quoted title is one literal exactly if its content is the content of one. -/
theorem matchLiteral_quote_iff (title : Text) :
    matchLiteral (quote title) 0 = .ok ((quote title).length - 1) ↔ LiteralContent '"' (replaceAll bareQuote title) := by
  have width : (quote title).length = (replaceAll bareQuote title).length + 1 + 1 := by simp [quote]
  rw [matchLiteral_eq_ok_iff (by decide : Mode.isDelimiter '"' = true) rfl, width, Nat.add_sub_cancel]
  have whole : Spans (quote title) 0 ('"' :: replaceAll bareQuote title ++ ['"'])
      ((replaceAll bareQuote title).length + 1 + 1) := by
    refine ⟨?_, by simp⟩
    simp [quote]
  constructor
  · rintro ⟨content, spans, holds⟩
    have same := spans.unique whole
    simp only [List.cons_append, List.cons.injEq, true_and, List.append_cancel_right_eq] at same
    exact same ▸ holds
  · intro holds
    exact ⟨_, whole, holds⟩

/-- A title or a message that is the content of a literal in single or double quotes is written as one closed literal
in double quotes, unless a double quote stands bare in it behind an escaped backslash, which none does in double
quotes. What it stands for stays the same. -/
theorem quote_of_literal {source : Text} {index close : Nat} (isQuote : Mode.isQuote delimiter = true)
    (opens : source[index]? = some delimiter) (matched : matchLiteral source index = .ok close)
    (delimited : slice source (index + 1) close = content) :
    (matchLiteral (quote content) 0 = .ok ((quote content).length - 1) ↔ ¬ QuoteBehindEscape delimiter content) ∧
    (delimiter = '"' → ¬ QuoteBehindEscape delimiter content) ∧
    ∀ (α : Type) (plain escaped : Char → α), escaped '"' = plain '"' →
      resolved plain escaped (slice (quote content) 1 ((quote content).length - 1)) =
        resolved plain escaped content := by
  have head : (source.drop index).head? = some delimiter := by
    rw [List.head?_drop, opens]
  obtain ⟨inner, spans, holds⟩ := (matchLiteral_eq_ok_iff (Mode.isDelimiter_of_isQuote isQuote) head).mp matched
  obtain rfl : inner = content := spans.slice_inside.symm.trans delimited
  refine ⟨?_, ?_, ?_⟩
  · rw [matchLiteral_quote_iff, replaceAll, content_replaceFrom_iff holds, and_iff_right (by simp)]
  · rintro rfl
    exact QuoteBehindEscape.not_of_content holds
  · intro α plain escaped same
    have inside : slice (quote inner) 1 ((quote inner).length - 1) = replaceAll bareQuote inner := by
      simp [quote, slice]
    rw [inside]
    exact resolved_replaceFrom same holds none

/-- A literal with a bare double quote, an escaped one and an escaped backslash at its end. -/
def mixedLiteral : Text := ['\'', 'a', '"', '\\', '"', '\\', '\\', '\'']

/-- A literal with an escaped quote, a bare one and an escaped backslash is quoted to one with the same
content. -/
theorem mixedLiteral_quoted : matchLiteral mixedLiteral 0 = .ok 7 ∧
    quote (slice mixedLiteral 1 7) = ['"', 'a', '\\', '"', '\\', '"', '\\', '\\', '"'] ∧
    matchLiteral (quote (slice mixedLiteral 1 7)) 0 = .ok 8 ∧
    resolved id id (slice (quote (slice mixedLiteral 1 7)) 1 8) = resolved id id (slice mixedLiteral 1 7) := by
  obtain ⟨closed, -, same⟩ :=
    @quote_of_literal '\'' (slice mixedLiteral 1 7) mixedLiteral 0 7 (by decide) rfl rfl rfl
  refine ⟨rfl, rfl, closed.mpr ?_, same Char id id rfl⟩
  change ¬ QuoteBehindEscape '\'' ['a', '"', '\\', '"', '\\', '\\']
  rw [QuoteBehindEscape.cons_iff (by decide) (by decide), QuoteBehindEscape.cons_iff (by decide) (by decide),
    QuoteBehindEscape.escaped_iff, QuoteBehindEscape.escaped_iff]
  simp [QuoteBehindEscape.not_nil]

/-- A literal with a bare double quote behind an escaped backslash. -/
def escapedBackslash : Text := ['\'', 'a', '\\', '\\', '"', 'b', '\'']

/-- The quote behind the escaped backslash is left bare, and ends the title. -/
theorem escapedBackslash_ends_early : matchLiteral escapedBackslash 0 = .ok 6 ∧
    quote (slice escapedBackslash 1 6) = ['"', 'a', '\\', '\\', '"', 'b', '"'] ∧
    matchLiteral (quote (slice escapedBackslash 1 6)) 0 = .ok 4 ∧
    matchLiteral (quote (slice escapedBackslash 1 6)) 0 ≠ .ok ((quote (slice escapedBackslash 1 6)).length - 1) := by
  refine ⟨rfl, rfl, rfl, fun same => ?_⟩
  have early : matchLiteral (quote (slice escapedBackslash 1 6)) 0 = .ok 4 := rfl
  have last : (quote (slice escapedBackslash 1 6)).length - 1 = 6 := rfl
  rw [early, last] at same
  cases same

end Spec

end JasmineConversion
