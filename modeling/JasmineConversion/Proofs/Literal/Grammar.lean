import JasmineConversion.Proofs.Literal.Numerals
import JasmineConversion.Proofs.Literal.Reading

/-! # The grammar of plain literals

What plain literals are is said without the reader: words, numbers and quoted strings, and lists of literals and of
entries between brackets. The reader takes a text apart again and again, by its brackets, at its commas and behind
its keys. Each literal of the grammar is read as the value that it denotes, by induction on its length, and whatever
is read is a literal of the grammar, by induction on the depth of the reader.
-/

namespace JasmineConversion

open Text Source Pattern JasmineConversion.Bracket

/-- A plain literal as it is written, without comments and without blank characters around it, and the value that it
denotes. -/
inductive Writes : Text → Literal → Prop
  | null : Writes "null".toList .null
  | yes : Writes "true".toList (.boolean true)
  | no : Writes "false".toList (.boolean false)
  | number {text : Text} {numeral : Numeral} (written : NumberText text numeral) : Writes text (.ofNumeral numeral)
  | string {quote : Char} {text : Text} (isQuote : Mode.isQuote quote = true) (content : LiteralContent quote text) :
      Writes (quote :: text ++ [quote]) (.string text)
  | array {text : Text} {items : List Literal} (written : Listed (Padded Writes) text items) :
      Writes ('[' :: text ++ [']']) (.array items)
  | object {text : Text} {written found : List (Text × Literal)}
      (entries : Listed (EntryText (isBlankText · = true) Writes) text written)
      (overrides : Entries.Overrides written found) : Writes ('{' :: text ++ ['}']) (.object found)

variable {text : Text} {literal : Literal} {numeral : Numeral} {c : Char}

/-! ## Literals are read -/

/-- A digit starts no gap. -/
theorem solid_of_isDecimal (decimal : isDecimal c = true) : Solid c := by
  have apart {d : Char} (other : isDecimal d = false) : c ≠ d := ne_of_isDecimal decimal other
  refine ⟨?_, apart (by decide), fun bracket => ⟨?_, apart ?_, apart ?_⟩⟩
  · rw [Bool.eq_false_iff]
    intro white
    exact Bool.noConfusion ((isDecimal_of_isBlank white).symm.trans decimal)
  · rw [Bool.eq_false_iff]
    intro delimits
    rcases Mode.isDelimiter_iff.mp delimits with rfl | rfl | rfl <;> exact absurd decimal (by decide)
  · cases bracket <;> decide
  · cases bracket <;> decide

/-- No character of a number starts a gap. -/
theorem NumberText.solid (written : NumberText text numeral) : ∀ c ∈ text, Solid c := by
  intro c member
  rcases written.characters c member with decimal | mark
  · exact solid_of_isDecimal decimal
  · have each : ∀ c ∈ ['-', '+', '.', 'e', 'E'], isBlank c = false ∧ c ≠ ',' ∧
        brace.Plain c ∧ square.Plain c ∧ round.Plain c := by decide
    obtain ⟨visible, noComma, inBrace, inSquare, inRound⟩ := each c mark
    exact ⟨visible, noComma, fun bracket => by cases bracket <;> assumption⟩

/-- No number is a word. -/
theorem NumberText.ofWord? (written : NumberText text numeral) :
    Literal.ofWord? text = some (.ofNumeral numeral) := by
  have read := read?_eq_some_iff.mpr written
  have apart {word : Text} (other : Numeral.read? word = none) : text ≠ word := by
    rintro rfl
    cases other.symm.trans read
  rw [Literal.ofWord?, if_neg (apart rfl), if_neg (apart rfl), if_neg (apart rfl), read]
  rfl

/-- A literal of the grammar is read wherever a value is expected, and no bracket in it is left open. -/
theorem Writes.denotes (written : Writes text literal) :
    Denotes text literal ∧ ∀ bracket : Bracket, bracket.Passes text := by
  have word {text : Text} {literal : Literal} (parts : ∀ c ∈ text, Solid c)
      (stands : Literal.ofWord? text = some literal) :
      Denotes text literal ∧ ∀ bracket : Bracket, bracket.Passes text :=
    ⟨denotes_word parts stands, fun bracket => passes_of_plain fun c member => (parts c member).2.2 bracket⟩
  have letters {text : Text} (parts : ∀ c ∈ text, isIdentifierPart c = true) (c : Char) (member : c ∈ text) :
      Solid c :=
    solid_of_isIdentifierPart (parts c member)
  induction size : text.length using Nat.strongRecOn generalizing text literal with
  | ind size ih =>
    subst size
    cases written with
    | null => exact word (letters (by decide)) rfl
    | yes => exact word (letters (by decide)) rfl
    | no => exact word (letters (by decide)) rfl
    | number written => exact word written.solid written.ofWord?
    | string isQuote content => exact ⟨denotes_string isQuote content, fun _ => passes_quoted isQuote content⟩
    | @array text items written =>
      have each (piece : Text) (short : piece.length ≤ text.length) (item : Literal) (_ : item ∈ items)
          (padded : Padded Writes piece item) :
          Padded Denotes piece item ∧ ∀ bracket : Bracket, bracket.Passes piece := by
        obtain ⟨leads, here, trails⟩ := padded
        obtain ⟨denotes, passes⟩ := ih _ (by simp at short ⊢; omega) here rfl
        exact ⟨.intro leads denotes trails, fun bracket =>
          ((passes_blank leads).append (passes bracket)).append (passes_blank trails)⟩
      have listed := written.imp each
      have passes (bracket : Bracket) : bracket.Passes text := listed.passes fun _ _ here => here.2 bracket
      refine ⟨denotes_items (listed.imp fun _ _ _ _ here => here.1) (passes square).encloses (passes brace), ?_⟩
      exact fun bracket => (passes bracket).squares
    | @object text written found entries overrides =>
      have each (piece : Text) (short : piece.length ≤ text.length) (entry : Text × Literal) (_ : entry ∈ written)
          (here : EntryText (isBlankText · = true) Writes piece entry) :
          EntryText (isBlankText · = true) Denotes piece entry ∧ ∀ bracket : Bracket, bracket.Passes piece := by
        obtain @⟨_, _, _, _, _, _, name, literal, leads, isKey, colonBefore, colonBehind, here, trails⟩ := here
        obtain ⟨denotes, passes⟩ := ih _ (by simp at short ⊢; omega) here rfl
        refine ⟨.intro leads isKey colonBefore colonBehind denotes trails, fun bracket => ?_⟩
        have inside : EntryText (isBlankText · = true) (fun text _ => bracket.Passes text) _ (name, literal) :=
          .intro leads isKey colonBefore colonBehind (passes bracket) trails
        exact inside.passes (fun blank => passes_blank blank) id
      have listed := entries.imp each
      have passes (bracket : Bracket) : bracket.Passes text := listed.passes fun _ _ here => here.2 bracket
      rw [overrides.eq_putAll]
      exact ⟨denotes_entries (listed.imp fun _ _ _ _ here => here.1) (passes brace),
        fun bracket => (passes bracket).braces⟩

/-! ## What is read is a literal -/

/-- The longest run of an identifier is one. -/
theorem isIdentifier_takeWhile {rest : Text} (starts : isIdentifierStart c = true) :
    Identifier ((c :: rest).takeWhile isIdentifierPart) := by
  constructor
  · rw [List.takeWhile_cons, if_pos (isIdentifierPart_of_isIdentifierStart starts)]
    simpa using starts
  · exact List.all_eq_true.mp List.all_takeWhile

/-- What is split off an entry is its key, with a colon behind it. -/
theorem exists_key_of_splitKey {whole entry name value : Text} {offset : Nat}
    (split : Literal.splitKey whole entry offset = .ok (name, value)) :
    ∃ key before, EntryKey name key ∧ isBlankText before = true ∧ entry = key ++ before ++ ':' :: value := by
  unfold Literal.splitKey at split
  cases entry with
  | nil => cases split
  | cons c tail =>
    dsimp only at split
    split at split
    · next isQuote =>
      obtain ⟨close, matched, split⟩ := exceptBind_eq_ok_iff.mp split
      obtain ⟨_, found, split⟩ := exceptBind_eq_ok_iff.mp split
      cases found
      dsimp only at split
      split at split
      · next colon =>
        cases split
        obtain ⟨content, spans, holds⟩ :=
          (matchLiteral_eq_ok_iff (Mode.isDelimiter_of_isQuote isQuote) rfl).mp matched
        obtain ⟨⟨before, blank, behind⟩, -⟩ := trimStart_eq_iff.mp colon
        rw [show slice (c :: tail) 1 close = content from spans.slice_inside]
        refine ⟨c :: content ++ [c], before, .quoted isQuote holds, blank, ?_⟩
        rw [List.append_assoc, ← behind]
        exact spans.here
      · cases split
    · split at split
      · next starts =>
        obtain ⟨_, found, split⟩ := exceptBind_eq_ok_iff.mp split
        cases found
        dsimp only at split
        split at split
        · next colon =>
          cases split
          obtain ⟨⟨before, blank, behind⟩, -⟩ := trimStart_eq_iff.mp colon
          refine ⟨_, before, .bare (isIdentifier_takeWhile starts), blank, ?_⟩
          rw [List.append_assoc, ← behind, List.takeWhile_append_dropWhile]
        · cases split
      · cases split

/-- The words of truth values and of nothing are written as they are. -/
theorem writes_of_ofWord? (stands : Literal.ofWord? text = some literal) : Writes text literal := by
  unfold Literal.ofWord? at stands
  split at stands
  · next same =>
    cases stands
    exact same ▸ .yes
  · split at stands
    · next same =>
      cases stands
      exact same ▸ .no
    · split at stands
      · next same =>
        cases stands
        exact same ▸ .null
      · obtain ⟨numeral, read, rfl⟩ := Option.map_eq_some_iff.mp stands
        exact .number (read?_eq_some_iff.mp read)

/-- A list that is read gives for each value its own result. -/
theorem forall₂_of_exceptMapM {ε α β : Type} {step : α → Except ε β} {values : List α} {results : List β}
    (ran : values.mapM step = .ok results) :
    List.Forall₂ (fun value result => step value = .ok result) values results := by
  induction values generalizing results with
  | nil =>
    cases ran
    exact .nil
  | cons value values ih =>
    rw [List.mapM_cons] at ran
    obtain ⟨first, here, ran⟩ := exceptBind_eq_ok_iff.mp ran
    obtain ⟨others, further, ran⟩ := exceptBind_eq_ok_iff.mp ran
    cases ran
    exact .cons here (ih further)

/-- Entries that are read one after the other are put under their keys in this order. -/
theorem exists_entries_of_foldlM {whole : Text} {depth offset : Nat} {items : List Text}
    {before found : Entries Text Literal}
    (ran : items.foldlM (putEntry whole depth offset) before = .ok found) :
    ∃ written, found = Entries.putAll written before ∧ List.Forall₂ (fun item (entry : Text × Literal) =>
      ∃ value, Literal.splitKey whole item offset = .ok (entry.1, value) ∧
        Literal.readFrom whole depth value offset = .ok entry.2) items written := by
  induction items generalizing before with
  | nil =>
    cases ran
    exact ⟨[], rfl, .nil⟩
  | cons item items ih =>
    rw [List.foldlM_cons] at ran
    obtain ⟨made, here, ran⟩ := exceptBind_eq_ok_iff.mp ran
    obtain ⟨⟨key, value⟩, keyed, here⟩ := exceptBind_eq_ok_iff.mp here
    obtain ⟨literal, read, here⟩ := exceptBind_eq_ok_iff.mp here
    cases here
    obtain ⟨written, rfl, others⟩ := ih ran
    exact ⟨(key, literal) :: written, rfl, .cons ⟨value, keyed, read⟩ others⟩

/-- A bracket that is matched and that only blank characters follow is the whole of a trimmed text. -/
theorem eq_enclosed_of_matchBracket {close : Nat} (ends : Stops isBlank text.reverse)
    (matched : matchBracket text 0 = .ok close) (behind : isBlankText (text.drop (close + 1)) = true) :
    ∃ (bracket : Bracket) (raw : Text), text = bracket.opener :: raw ++ [bracket.closer] ∧
      slice text 1 close = raw := by
  obtain ⟨bracket, raw, spans, -⟩ := exists_encloses_of_matchBracket matched
  have whole : text = bracket.opener :: raw ++ [bracket.closer] ++ text.drop (close + 1) := spans.here
  refine ⟨bracket, raw, ?_, spans.slice_inside⟩
  cases last : (text.drop (close + 1)).reverse with
  | nil => rwa [List.reverse_eq_nil_iff.mp last, List.append_nil] at whole
  | cons c more =>
    have white : isBlank c = true := by
      apply isBlankText_iff.mp behind
      exact List.mem_reverse.mp (last ▸ List.mem_cons_self)
    rw [whole, List.reverse_append, last, List.cons_append, stops_cons] at ends
    cases white.symm.trans ends

/-- An entry may stand between white space. -/
theorem EntryText.of_trim {entry : Text × Literal}
    (written : EntryText (isBlankText · = true) Writes (trim text) entry) :
    EntryText (isBlankText · = true) Writes text entry := by
  obtain ⟨lead, trail, leads, trails, split⟩ := exists_trim text
  generalize trim text = inner at written split
  obtain @⟨lead', key, before, behind, inner, trail', name, literal, leads', isKey, colonBefore, colonBehind, here,
    trails'⟩ := written
  have wider : EntryText (isBlankText · = true) Writes
      (lead ++ lead' ++ key ++ before ++ ':' :: behind ++ inner ++ (trail' ++ trail)) (name, literal) :=
    .intro (by simp [leads, leads']) isKey colonBefore colonBehind here (by simp [trails, trails'])
  rw [split]
  simpa using wider

/-- An entry whose key is split off is written with this key and its value. -/
theorem entryText_of_splitKey {whole item value : Text} {offset : Nat} {entry : Text × Literal}
    (keyed : Literal.splitKey whole item offset = .ok (entry.1, value)) (padded : Padded Writes value entry.2) :
    EntryText (isBlankText · = true) Writes item entry := by
  obtain ⟨name, literal⟩ := entry
  obtain ⟨key, before, isKey, blank, rfl⟩ := exists_key_of_splitKey keyed
  obtain @⟨lead, inner, trail, literal, leads, here, trails⟩ := padded
  have written : EntryText (isBlankText · = true) Writes ([] ++ key ++ before ++ ':' :: lead ++ inner ++ trail)
      (name, literal) := .intro isBlankText_nil isKey blank leads here trails
  simpa using written

/-- Only the square bracket opens with its own opener. -/
theorem Bracket.eq_square_of_opener {bracket : Bracket} (square : (bracket.opener == '[') = true) :
    bracket = .square := by
  revert square
  cases bracket <;> decide

/-- Of braces and square brackets, what is not square is a brace. -/
theorem Bracket.eq_brace_of_opener {bracket : Bracket}
    (opening : (bracket.opener == '{' || bracket.opener == '[') = true)
    (notSquare : ¬ (bracket.opener == '[') = true) : bracket = .brace := by
  revert opening notSquare
  cases bracket <;> decide

theorem noBracket_of_isQuote (isQuote : Mode.isQuote c = true) : (c == '{' || c == '[') = false := by
  rcases Mode.isQuote_iff.mp isQuote with rfl | rfl <;> decide

/-- A text that opens with a bracket is an array or an object, if what it holds is read as the grammar has it. -/
theorem writes_of_opened {whole source rest : Text} {depth offset : Nat} (opens : trim source = c :: rest)
    (opening : (c == '{' || c == '[') = true)
    (inner : ∀ {value : Text} {offset : Nat} {literal : Literal},
      Literal.readFrom whole depth value offset = .ok literal → Padded Writes value literal)
    (read : Literal.readFrom whole (depth + 1) source offset = .ok literal) : Writes (trim source) literal := by
  have ends := (stops_trim source).2
  rw [Literal.readFrom, opens] at read
  rw [opens] at ends ⊢
  dsimp only at read
  rw [if_pos opening] at read
  obtain ⟨close, matched, read⟩ := exceptBind_eq_ok_iff.mp read
  split at read
  · cases read
  next behind =>
  obtain ⟨items, split, read⟩ := exceptBind_eq_ok_iff.mp read
  obtain ⟨bracket, raw, enclosed, inside⟩ := eq_enclosed_of_matchBracket ends matched (by simpa using behind)
  obtain rfl : c = bracket.opener := (List.cons.inj enclosed).1
  rw [inside] at split
  rw [enclosed]
  split at read
  · next square =>
    obtain ⟨values, ran, same⟩ := exceptBind_eq_ok_iff.mp read
    cases same
    obtain rfl := Bracket.eq_square_of_opener square
    have each := (forall₂_of_exceptMapM ran).imp fun _ _ here => inner here
    exact .array (listed_of_splitArguments split each fun piece _ here => here.of_trim)
  · next notSquare =>
    obtain ⟨entries, ran, same⟩ := exceptBind_eq_ok_iff.mp read
    cases same
    obtain ⟨written, rfl, members⟩ := exists_entries_of_foldlM ran
    obtain rfl := Bracket.eq_brace_of_opener opening notSquare
    have each := members.imp fun item entry here => by
      obtain ⟨value, keyed, read⟩ := here
      exact entryText_of_splitKey keyed (inner read)
    exact .object (listed_of_splitArguments split each fun piece _ here => here.of_trim)
      (Entries.overrides_putAll written)

/-- A text that opens with a quote is a string. -/
theorem writes_of_quoted {whole source rest : Text} {depth offset : Nat} (opens : trim source = c :: rest)
    (isQuote : Mode.isQuote c = true)
    (read : Literal.readFrom whole (depth + 1) source offset = .ok literal) : Writes (trim source) literal := by
  rw [Literal.readFrom, opens] at read
  rw [opens]
  dsimp only at read
  rw [if_neg (by simp [noBracket_of_isQuote isQuote]), if_pos isQuote] at read
  obtain ⟨close, matched, read⟩ := exceptBind_eq_ok_iff.mp read
  split at read
  · cases read
  next last =>
  cases read
  obtain ⟨content, spans, holds⟩ := (matchLiteral_eq_ok_iff (Mode.isDelimiter_of_isQuote isQuote) rfl).mp matched
  have all : c :: rest = c :: content ++ [c] := by
    have here := spans.here
    rwa [Classical.not_not.mp last, List.drop_zero, List.drop_length, List.append_nil] at here
  rw [show slice (c :: rest) 1 close = content from spans.slice_inside, all]
  exact .string isQuote holds

/-- Whatever is read is a literal of the grammar. -/
theorem padded_of_readFrom {whole source : Text} {depth offset : Nat}
    (read : Literal.readFrom whole depth source offset = .ok literal) : Padded Writes source literal := by
  induction depth generalizing source offset literal with
  | zero => cases read
  | succ depth ih =>
    obtain ⟨lead, trail, leads, trails, split⟩ := exists_trim source
    suffices written : Writes (trim source) literal by
      have padded := Padded.intro leads written trails
      rwa [← split] at padded
    cases opens : trim source with
    | nil =>
      rw [Literal.readFrom, opens] at read
      cases read
    | cons first rest =>
      rw [← opens]
      by_cases opening : (first == '{' || first == '[') = true
      · exact writes_of_opened opens opening ih read
      by_cases isQuote : Mode.isQuote first = true
      · exact writes_of_quoted opens isQuote read
      rw [Literal.readFrom, opens] at read
      dsimp only at read
      rw [if_neg opening, if_neg isQuote, ← opens] at read
      split at read
      · next value stands =>
        cases read
        exact writes_of_ofWord? stands
      · cases read

/-! ## Reading literals -/

private theorem isDecimal_of_small : ∀ code < 128, isIdentifierStart (Char.ofNat code) = true →
    isDecimal (Char.ofNat code) = false := by
  decide +kernel

theorem isDecimal_of_isIdentifierStart (starts : isIdentifierStart c = true) : isDecimal c = false := by
  have decimal := isDecimal_of_small c.toNat (toNat_lt_of_isIdentifierStart starts)
  rw [Char.ofNat_toNat] at decimal
  exact decimal starts

/-- Of the literals, only three words start as identifiers do. -/
theorem Writes.eq_word {rest : Text} (written : Writes (c :: rest) literal) (starts : isIdentifierStart c = true) :
    c :: rest ∈ ["null".toList, "true".toList, "false".toList] := by
  generalize whole : c :: rest = text at written
  cases written with
  | null => decide
  | yes => decide
  | no => decide
  | number written =>
    obtain ⟨d, more, rfl, head⟩ := written.exists_head
    obtain ⟨rfl, -⟩ := List.cons.inj whole
    rcases head with decimal | mark
    · cases (isDecimal_of_isIdentifierStart starts).symm.trans decimal
    · exact absurd starts (by simp at mark; rcases mark with rfl | rfl <;> decide)
  | string isQuote _ =>
    obtain ⟨rfl, -⟩ := List.cons.inj whole
    rcases Mode.isQuote_iff.mp isQuote with rfl | rfl <;> exact absurd starts (by decide)
  | array _ =>
    obtain ⟨rfl, -⟩ := List.cons.inj whole
    exact absurd starts (by decide)
  | object _ _ =>
    obtain ⟨rfl, -⟩ := List.cons.inj whole
    exact absurd starts (by decide)

/-- A value is read without the white space around it. -/
theorem readFrom_trim (whole : Text) (depth : Nat) (source : Text) (offset : Nat) :
    Literal.readFrom whole (depth + 1) source offset = Literal.readFrom whole (depth + 1) (trim source)
      (offset + (source.length - (trimStart source).length)) := by
  simp only [Literal.readFrom, trim_trim, trimStart_of_stops (stops_trim source).1, Nat.sub_self, Nat.add_zero]

/-- No text denotes two values. -/
theorem Writes.unique {other : Literal} (written : Writes text literal) (written' : Writes text other) :
    literal = other := by
  have read := @(written.denotes.1).reads [] [] (text.length + 1) 0 isBlankText_nil (Nat.lt_succ_self _)
  have read' := @(written'.denotes.1).reads [] [] (text.length + 1) 0 isBlankText_nil (Nat.lt_succ_self _)
  exact Except.ok.inj (read.symm.trans read')

/-- A literal is read exactly from the texts that are one without their comments, with white space around it, and its
value is the one that is written. What starts as an identifier is no literal, except for three words. A whole number
of at most fifteen digits is written exactly. -/
theorem Literal.read_iff_writes (text : Text) :
    (∀ literal, Literal.read text = .ok literal ↔
      ∃ plain, stripComments text = .ok plain ∧ Padded Writes plain literal) ∧
    (∀ plain c rest, stripComments text = .ok plain → trim plain = c :: rest → isIdentifierStart c = true →
      trim plain ∉ ["null".toList, "true".toList, "false".toList] → ∃ error, Literal.read text = .error error) ∧
    ∀ (negative : Bool) digits, digits ≠ [] → digits.length ≤ 15 → (∀ c ∈ digits, isDecimal c = true) →
      Writes ((if negative then ['-'] else []) ++ digits)
        (.integer (if negative then -(Numeral.ofDigits digits : Int) else Numeral.ofDigits digits)) := by
  have reads (literal : Literal) : Literal.read text = .ok literal ↔
      ∃ plain, stripComments text = .ok plain ∧ Padded Writes plain literal := by
    refine exceptBind_eq_ok_iff.trans (exists_congr fun plain => and_congr_right fun _ => ?_)
    refine ⟨padded_of_readFrom, fun padded => ?_⟩
    have denotes : Padded Denotes plain literal := by
      obtain ⟨leads, written, trails⟩ := padded
      exact .intro leads written.denotes.1 trails
    rw [readFrom_trim]
    exact (readFrom_of_padded denotes).2.2 (Nat.lt_succ_self _)
  refine ⟨reads, ?_, ?_⟩
  · intro plain c rest stripped trimmed starts noWord
    cases read : Literal.read text with
    | error error => exact ⟨error, rfl⟩
    | ok literal =>
      obtain ⟨plain', stripped', padded⟩ := (reads literal).mp read
      cases stripped.symm.trans stripped'
      obtain @⟨lead, inner, trail, literal, leads, written, trails⟩ := padded
      have denotes := written.denotes.1
      rw [trim_append leads trails denotes.nonempty denotes.starts denotes.ends] at trimmed noWord
      subst trimmed
      exact absurd (written.eq_word starts) noWord
  · intro negative digits nonempty short decimals
    have small : Numeral.ofDigits digits < 10 ^ 15 :=
      Nat.lt_of_lt_of_le (Numeral.ofDigits_lt digits) (Nat.pow_le_pow_right (by decide) short)
    have number : NumberText ((if negative then ['-'] else []) ++ digits ++ [])
        ⟨negative, Numeral.ofDigits digits, 0 - (0 : Nat), false⟩ := .intro (.whole nonempty decimals) .none
    rw [← ofNumeral_whole small]
    rw [List.append_nil] at number
    exact .number number

/-- An object with a bracket in a string, a comment, a key that comes twice, a sign and commas behind the last items. -/
def overriddenObject : Text :=
  ['\x7b', 'a', ':', '[', '\'', '\x7d', '\'', ',', '/', '*', '*', '/', ']', ',', 'a', ':', '-', '7', ',', '\x7d']

/-- The last value under a key is the one that is read. -/
theorem overriddenObject_read : Literal.read overriddenObject = .ok (.object [(['a'], .integer (-7))]) := by
  obtain ⟨reads, -, whole⟩ := Literal.read_iff_writes overriddenObject
  have noBlank := isBlankText_nil
  have string : Writes ['\'', '\x7d', '\''] (.string ['\x7d']) :=
    @Writes.string '\'' ['\x7d'] (by decide) (.plain (by decide) (by decide) .nil)
  have array : Writes ['[', '\'', '\x7d', '\'', ',', ']'] (.array [.string ['\x7d']]) :=
    .array (.cons (@Padded.intro _ _ [] _ [] _ noBlank string noBlank) (.nil noBlank))
  have number : Writes ['-', '7'] (.integer (-7)) := whole true ['7'] (by decide) (by decide) (by decide)
  have key : EntryKey ['a'] ['a'] := .bare (by decide)
  have first : EntryText (isBlankText · = true) Writes _ (['a'], _) :=
    @EntryText.intro _ _ [] _ [] [] _ [] _ _ noBlank key noBlank noBlank array noBlank
  have second : EntryText (isBlankText · = true) Writes _ (['a'], _) :=
    @EntryText.intro _ _ [] _ [] [] _ [] _ _ noBlank key noBlank noBlank number noBlank
  have object := Writes.object (.cons first (.cons second (.nil noBlank))) (Entries.overrides_putAll _)
  exact (reads _).mpr ⟨_, by rfl, @Padded.intro _ _ [] _ [] _ noBlank object noBlank⟩

end JasmineConversion
