import JasmineConversion.Proofs.Literal.Grammar
import JasmineConversion.Proofs.Literal.Reports

/-! # Where a reading of literals fails

A text is read as a literal from its front to its back, and what keeps it from being one is a single value in it:
everything before this value has been read. The reader counts how far it has come by the opening brackets and the
white space in front of the values alone. What stands in front of an item or an entry between its brackets is not
counted, so that a fault is reported where it is or before it.
-/

namespace JasmineConversion

open Text Source Pattern JasmineConversion.Bracket

/-- The faults that are a value's own, not those of an entry without a proper key. -/
def LiteralFault.isOfValue : LiteralFault → Bool
  | .invalidKey _ => false
  | .missingColon _ => false
  | _ => true

/-- A value at fault, with how far behind its start the fault is found: there is no value, or a text that is no literal
by itself, or something behind a bracket or a string. -/
inductive Faulty : (value : Text) → LiteralFault → (width : Nat) → Prop
  | missing : Faulty [] .missing 0
  | word {c : Char} {rest : Text} (noBracket : c ≠ '{' ∧ c ≠ '[') (noQuote : Mode.isQuote c = false)
      (noWord : Literal.ofWord? (c :: rest) = none) : Faulty (c :: rest) (.notLiteral (c :: rest)) 0
  | behindBracket {bracket : Bracket} {raw more : Text} (value : bracket ≠ .round) (encloses : bracket.Encloses raw)
      (visible : isBlankText more = false) :
      Faulty (bracket.opener :: raw ++ bracket.closer :: more) .textAfter (raw.length + 2)
  | behindString {quote : Char} {content more : Text} (isQuote : Mode.isQuote quote = true)
      (holds : LiteralContent quote content) (visible : more ≠ []) :
      Faulty (quote :: content ++ quote :: more) .textAfterString (content.length + 2)

/-- A value that the reader of a text comes to, when it has read all values before it: what stands before the value in
the text and behind it, and where the reader takes it to start. For a value inside brackets, that is behind the
opening bracket, with the white space that the reader skips there. -/
inductive ComesTo : (text before value behind : Text) → (taken : Nat) → Prop
  | whole {lead value trail : Text} (leads : isBlankText lead = true) (starts : Stops isBlank (value ++ trail))
      (ends : Stops isBlank value.reverse) (trails : isBlankText trail = true) :
      ComesTo (lead ++ value ++ trail) lead value trail lead.length
  | item {lead inner trail pad item back before value behind : Text} {front others : List Text} {taken : Nat}
      (leads : isBlankText lead = true) (trails : isBlankText trail = true)
      (pieces : segmentsFrom {} 0 inner = .ok (front ++ (pad ++ item ++ back) :: others))
      (read : ∀ piece ∈ front, ∃ literal, Padded Writes piece literal)
      (pads : isBlankText pad = true) (starts : Stops isBlank item) (backs : isBlankText back = true)
      (inside : ComesTo item before value behind taken) :
      ComesTo (lead ++ '[' :: inner ++ ']' :: trail) (lead ++ '[' :: front.flatMap (· ++ [',']) ++ pad ++ before)
        value (behind ++ back ++ others.flatMap (',' :: ·) ++ ']' :: trail) (lead.length + 1 + taken)
  | entry {lead inner trail pad key name gap item back before value behind : Text} {front others : List Text}
      {taken : Nat} (leads : isBlankText lead = true) (trails : isBlankText trail = true)
      (pieces : segmentsFrom {} 0 inner = .ok (front ++ (pad ++ (key ++ gap ++ ':' :: item) ++ back) :: others))
      (read : ∀ piece ∈ front, ∃ entry, EntryText (isBlankText · = true) Writes piece entry)
      (pads : isBlankText pad = true) (isKey : EntryKey name key) (gaps : isBlankText gap = true)
      (backs : isBlankText back = true) (inside : ComesTo item before value behind taken) :
      ComesTo (lead ++ '{' :: inner ++ '}' :: trail)
        (lead ++ '{' :: front.flatMap (· ++ [',']) ++ pad ++ key ++ gap ++ ':' :: before) value
        (behind ++ back ++ others.flatMap (',' :: ·) ++ '}' :: trail) (lead.length + 1 + taken)

variable {text before value behind whole source : Text} {taken depth offset width : Nat} {error : SourceError}
  {fault : LiteralFault}

/-! ## What stands before a value -/

/-- A list of pieces is joined in front of one of them, this piece, and behind it. -/
theorem join_split (front : List Text) (piece : Text) (others : List Text) :
    join [','] (front ++ piece :: others) =
      front.flatMap (· ++ [',']) ++ piece ++ others.flatMap (',' :: ·) := by
  have joined (piece : Text) {others : List Text} (more : others ≠ []) :
      join [','] (piece :: others) = piece ++ ',' :: join [','] others := by
    obtain ⟨other, others, rfl⟩ := List.exists_cons_of_ne_nil more
    simp [join]
  induction front with
  | nil =>
    induction others generalizing piece with
    | nil => simp [join]
    | cons other others ih =>
      have rest := ih other
      simp only [List.nil_append, List.flatMap_nil] at rest ⊢
      rw [joined piece (by simp), rest]
      simp
  | cons first front ih =>
    rw [List.cons_append, joined first (by simp), ih]
    simp

namespace ComesTo

/-- A place in a text splits it into what is in front of the value, the value and what is behind. -/
theorem split (comes : ComesTo text before value behind taken) : text = before ++ value ++ behind := by
  induction comes with
  | whole => rfl
  | item _ _ pieces _ _ _ _ _ ih =>
    rw [← (join_of_segmentsFrom pieces).2, join_split, ih]
    simp
  | entry _ _ pieces _ _ _ _ _ _ ih =>
    rw [← (join_of_segmentsFrom pieces).2, join_split, ih]
    simp

/-- No value is taken to start behind its start. -/
theorem taken_le (comes : ComesTo text before value behind taken) : taken ≤ before.length := by
  induction comes with
  | whole => exact Nat.le_refl _
  | item _ _ _ _ _ _ _ _ ih =>
    simp only [List.length_append, List.length_cons]
    omega
  | entry _ _ _ _ _ _ _ _ _ ih =>
    simp only [List.length_append, List.length_cons]
    omega

/-- A value is come to without white space around it. -/
theorem trim_value (comes : ComesTo text before value behind taken) : trim value = value := by
  induction comes with
  | @whole lead value trail leads starts ends trails =>
    by_cases nonempty : value = []
    · subst nonempty
      rfl
    · have trimmed := trim_append isBlankText_nil isBlankText_nil nonempty starts.of_append ends
      rwa [List.nil_append, List.append_nil] at trimmed
  | item _ _ _ _ _ _ _ _ ih => exact ih
  | entry _ _ _ _ _ _ _ _ _ ih => exact ih

/-- A value is come to in code. -/
theorem ends_code (comes : ComesTo text before value behind taken) : before.foldl Mode.next .code = .code := by
  have neutral {text : Text} (passes : brace.Passes text) : text.foldl Mode.next .code = .code :=
    (mode_of_scan (passes 0)).symm
  have pieces {front : List Text} (each : ∀ piece ∈ front, brace.Passes piece) :
      brace.Passes (front.flatMap (· ++ [','])) := by
    induction front with
    | nil => exact passes_nil
    | cons piece front ih =>
      obtain ⟨here, further⟩ := List.forall_mem_cons.mp each
      exact (here.append (passes_singleton (by decide))).append (ih further)
  induction comes with
  | whole leads => exact neutral (passes_blank leads)
  | item leads _ _ read pads _ _ _ ih =>
    have literals := pieces fun piece member => by
      obtain ⟨_, lead, here, trail⟩ := read piece member
      exact ((passes_blank lead).append (here.denotes.2 brace)).append (passes_blank trail)
    rw [List.foldl_append, List.foldl_append, List.foldl_append, neutral (passes_blank leads), List.foldl_cons,
      Mode.code_next_of_not_isDelimiter (by decide), neutral literals, neutral (passes_blank pads), ih]
  | entry leads _ _ read pads isKey gaps _ _ ih =>
    have entries := pieces fun piece member => by
      obtain ⟨_, here⟩ := read piece member
      exact here.passes passes_blank fun written => written.denotes.2 brace
    simp only [List.foldl_append, List.foldl_cons]
    rw [neutral (passes_blank leads), Mode.code_next_of_not_isDelimiter (by decide), neutral entries,
      neutral (passes_blank pads), neutral isKey.passes, neutral (passes_blank gaps),
      Mode.code_next_of_not_isDelimiter (by decide), ih]

end ComesTo

/-- A value at fault is not read. -/
theorem Faulty.readFrom (faulty : Faulty value fault width) (trimmed : trim value = value) (whole : Text)
    (depth offset : Nat) :
    Literal.readFrom whole (depth + 1) value offset = .error (.ofIndex (.literal fault) whole (offset + width)) := by
  have moved : offset + (value.length - (trimStart value).length) = offset := by
    rw [trimStart_of_stops (trimmed ▸ (stops_trim value).1)]
    omega
  rw [Literal.readFrom, trimmed, moved]
  cases faulty with
  | missing => rfl
  | word noBracket noQuote noWord => simp [noBracket, noQuote, noWord]
  | @behindBracket bracket raw more noRound encloses visible =>
    have opening : (bracket.opener == '{' || bracket.opener == '[') = true := by
      revert noRound
      cases bracket <;> decide
    have spans : Spans (bracket.opener :: raw ++ bracket.closer :: more) 0 (bracket.opener :: raw ++ [bracket.closer])
        (raw.length + 1 + 1) := .of_drop (show _ = _ ++ more by simp) (by simp)
    have matched := (matchBracket_eq_ok_iff rfl).mpr ⟨raw, spans, encloses⟩
    have behind : (bracket.opener :: raw ++ bracket.closer :: more).drop (raw.length + 1 + 1) = more :=
      spans.drop_stop (by simp)
    simp only [List.cons_append] at matched behind ⊢
    simp only [opening, if_true, matched, bind, Except.bind, behind, visible, Bool.not_false]
    rfl
  | @behindString quote content more isQuote holds visible =>
    have noBracket := noBracket_of_isQuote isQuote
    have spans : Spans (quote :: content ++ quote :: more) 0 (quote :: content ++ [quote])
        (content.length + 1 + 1) := .of_drop (show _ = _ ++ more by simp) (by simp)
    have matched := (matchLiteral_eq_ok_iff (Mode.isDelimiter_of_isQuote isQuote) rfl).mpr ⟨content, spans, holds⟩
    have longer : content.length + 1 + 1 ≠ (quote :: (content ++ quote :: more)).length := by
      have positive := List.length_pos_iff.mpr visible
      simp
      omega
    simp only [List.cons_append] at matched ⊢
    simp only [noBracket, Bool.false_eq_true, if_false, isQuote, if_true, matched, bind, Except.bind, longer, ne_eq,
      not_false_eq_true]
    rfl

/-- A faulty value is none that can be written. -/
theorem Faulty.not_writes (faulty : Faulty value fault width) (literal : Literal) : ¬Writes value literal := by
  intro written
  have denotes := written.denotes.1
  have trimmed := trim_append isBlankText_nil isBlankText_nil denotes.nonempty denotes.starts denotes.ends
  rw [List.nil_append, List.append_nil] at trimmed
  have fails := faulty.readFrom trimmed [] value.length 0
  have read := @denotes.reads [] [] (value.length + 1) 0 isBlankText_nil (Nat.lt_succ_self _)
  cases fails.symm.trans read

/-! ## The first value at fault -/

/-- Dropping an empty last piece leaves the front of the pieces. -/
theorem dropEmptyLast_prefix (pieces : List Text) : dropEmptyLast pieces <+: pieces := by
  fun_induction dropEmptyLast pieces with
  | case1 => exact List.prefix_refl _
  | case2 last empty => exact List.nil_prefix
  | case3 last nonempty => exact List.prefix_refl _
  | case4 first rest more ih => exact (List.prefix_cons_inj first).mpr ih

/-- The arguments of a text are its pieces, trimmed, up to an empty last one. -/
theorem exists_pieces_of_splitArguments {inner item : Text} {front others : List Text}
    (split : splitArguments inner = .ok (front ++ item :: others)) :
    ∃ pieces piece more, segmentsFrom {} 0 inner = .ok (pieces ++ piece :: more) ∧ front = pieces.map trim ∧
      item = trim piece := by
  unfold splitArguments at split
  split at split
  · next pieces read =>
    obtain ⟨rest, dropped⟩ := dropEmptyLast_prefix (pieces.map trim)
    rw [Except.ok.inj split, List.append_assoc] at dropped
    obtain ⟨before, behind, rfl, rfl, last⟩ := List.map_eq_append_iff.mp dropped.symm
    obtain ⟨piece, more, rfl, rfl, -⟩ := List.map_eq_cons_iff.mp last
    exact ⟨before, piece, more, read, rfl, rfl⟩
  · cases split

/-- The reader moves over the white space in front of a text and leaves out that behind it. -/
theorem exists_trim_width (source : Text) :
    ∃ lead trail, isBlankText lead = true ∧ isBlankText trail = true ∧ Stops isBlank (trim source ++ trail) ∧
      source = lead ++ trim source ++ trail ∧ source.length - (trimStart source).length = lead.length := by
  obtain ⟨⟨lead, leads, front⟩, starts⟩ := trimStart_eq_iff.mp (rfl : trimStart source = trimStart source)
  obtain ⟨trail, trails, back⟩ := exists_trimEnd (trimStart source)
  have lengths := congrArg List.length front
  rw [List.length_append] at lengths
  refine ⟨lead, trail, leads, trails, ?_, ?_, by omega⟩
  · rwa [trim, ← back]
  · rw [trim, List.append_assoc, ← back]
    exact front

/-- A text is no literal because of a value in it that the reader comes to, and the fault of this value is reported in
the text that is read, from an offset on. -/
def FailsAt (whole : Text) (offset : Nat) (source : Text) (fault : LiteralFault) (error : SourceError) : Prop :=
  ∃ before value behind taken width, ComesTo source before value behind taken ∧ Faulty value fault width ∧
    error = .ofIndex (.literal fault) whole (offset + taken + width)

/-- The value at fault may be all of the text. -/
theorem failsAt_whole {found : LiteralFault} (all : trim source = value) (faulty : Faulty value found width)
    (cause : error.cause = .literal fault)
    (same : SourceError.ofIndex (.literal found) whole
      (offset + (source.length - (trimStart source).length) + width) = error) :
    FailsAt whole offset source fault error := by
  subst same all
  cases cause
  obtain ⟨lead, trail, leads, trails, starts, split, moved⟩ := exists_trim_width source
  have comes := ComesTo.whole leads starts (stops_trim source).2 trails
  rw [← split] at comes
  exact ⟨lead, _, trail, lead.length, width, comes, faulty, by rw [moved]⟩

/-- The item at fault between square brackets is the first one that is no literal. -/
theorem failsAt_items {inner : Text} {items : List Text} (enclosed : trim source = '[' :: inner ++ [']'])
    (split : splitArguments inner = .ok items)
    (each : ∀ item ∈ items, ∀ offset,
      Literal.readFrom whole depth item offset = .error error → FailsAt whole offset item fault error)
    (ran : items.mapM (fun item => Literal.readFrom whole depth item
      (offset + (source.length - (trimStart source).length) + 1)) = .error error) :
    FailsAt whole offset source fault error := by
  obtain ⟨front, item, others, rfl, read, fails⟩ := exists_split_of_exceptMapM_eq_error ran
  obtain ⟨before, value, behind, taken, width, comes, faulty, rfl⟩ := each item (by simp) _ fails
  obtain ⟨lead, trail, leads, trails, -, around, moved⟩ := exists_trim_width source
  obtain ⟨pieces, piece, more, segments, rfl, rfl⟩ := exists_pieces_of_splitArguments split
  obtain ⟨pad, back, pads, backs, padded⟩ := exists_trim piece
  rw [padded] at segments
  have literals : ∀ piece ∈ pieces, ∃ literal, Padded Writes piece literal := fun piece member => by
    obtain ⟨literal, here⟩ := read (trim piece) (List.mem_map_of_mem member)
    exact ⟨literal, (padded_of_readFrom here).of_trim⟩
  have outer := ComesTo.item leads trails segments literals pads (stops_trim piece).1 backs comes
  have whole : lead ++ '[' :: inner ++ ']' :: trail = source := by
    rw [around, enclosed]
    simp
  rw [whole] at outer
  refine ⟨_, value, _, _, width, outer, faulty, ?_⟩
  rw [moved]
  congr 1
  omega

/-- An entry between braces whose value is at fault. -/
theorem failsAt_entry {inner item key value : Text} {front others : List Text} {begin reached : Entries Text Literal}
    (enclosed : trim source = '{' :: inner ++ ['}'])
    (split : splitArguments inner = .ok (front ++ item :: others))
    (read : front.foldlM (putEntry whole depth (offset + (source.length - (trimStart source).length) + 1)) begin =
      .ok reached)
    (keyed : Literal.splitKey whole item (offset + (source.length - (trimStart source).length) + 1) =
      .ok (key, value))
    (fails : FailsAt whole (offset + (source.length - (trimStart source).length) + 1) value fault error) :
    FailsAt whole offset source fault error := by
  obtain ⟨lead, trail, leads, trails, -, around, moved⟩ := exists_trim_width source
  obtain ⟨pieces, piece, more, segments, rfl, rfl⟩ := exists_pieces_of_splitArguments split
  obtain ⟨pad, back, pads, backs, padded⟩ := exists_trim piece
  obtain ⟨written, gap, isKey, gaps, here⟩ := exists_key_of_splitKey keyed
  obtain ⟨before, value, behind, taken, width, comes, faulty, rfl⟩ := fails
  rw [padded, here] at segments
  have entries : ∀ piece ∈ pieces, ∃ entry, EntryText (isBlankText · = true) Writes piece entry := by
    obtain ⟨written, -, each⟩ := exists_entries_of_foldlM read
    clear segments split read
    induction pieces generalizing written with
    | nil => simp
    | cons piece pieces ih =>
      obtain ⟨entry, others, ⟨text, keyed, literal⟩, further, rfl⟩ := List.forall₂_cons_left_iff.mp each
      have here := (entryText_of_splitKey keyed (padded_of_readFrom literal)).of_trim
      exact List.forall_mem_cons.mpr ⟨⟨entry, here⟩, ih others further⟩
  have outer := ComesTo.entry leads trails segments entries pads isKey gaps backs comes
  have whole : lead ++ '{' :: inner ++ '}' :: trail = source := by
    rw [around, enclosed]
    simp
  rw [whole] at outer
  refine ⟨_, _, _, _, width, outer, faulty, ?_⟩
  rw [moved]
  congr 1
  omega

/-- A scan finds no fault of a literal. -/
theorem ne_error_of_ofScan {α : Type} {lines : Nat} {outcome : Except SourceError α}
    (reports : Reports (SourceError.OfScan lines) outcome) (cause : error.cause = .literal fault) :
    outcome ≠ .error error := by
  intro failed
  have ofScan := (reports failed).ofScan
  rw [cause] at ofScan
  cases ofScan

/-- An entry without a proper key has no fault of a value. -/
theorem isOfValue_of_splitKey {entry : Text} (failed : Literal.splitKey whole entry offset = .error error)
    (cause : error.cause = .literal fault) : fault.isOfValue = false := by
  have faulty {found : LiteralFault} (key : found.isOfValue = false)
      (same : (.error (.ofIndex (.literal found) whole offset) : Except SourceError (Text × Text)) = .error error) :
      fault.isOfValue = false := by
    cases same
    cases cause
    exact key
  unfold Literal.splitKey at failed
  cases entry with
  | nil => exact faulty rfl failed
  | cons c rest =>
    dsimp only at failed
    split at failed
    · next isQuote =>
      rcases exceptBind_eq_error_iff.mp failed with scan | ⟨close, -, failed⟩
      · have delimits := Mode.isDelimiter_of_isQuote isQuote
        exact absurd scan (ne_error_of_ofScan (matchLiteral_ofScan delimits rfl) cause)
      · rcases exceptBind_eq_error_iff.mp failed with ended | ⟨_, -, failed⟩
        · cases ended
        · split at failed
          · cases failed
          · exact faulty rfl failed
    · split at failed
      · rcases exceptBind_eq_error_iff.mp failed with ended | ⟨_, -, failed⟩
        · cases ended
        · split at failed
          · cases failed
          · exact faulty rfl failed
      · exact faulty rfl failed

/-- The entry at fault between braces is the first one without a value. -/
theorem failsAt_entries {inner : Text} {items : List Text} (enclosed : trim source = '{' :: inner ++ ['}'])
    (split : splitArguments inner = .ok items) (cause : error.cause = .literal fault)
    (ofValue : fault.isOfValue = true)
    (each : ∀ item ∈ items, ∀ value : Text, value.length ≤ item.length → ∀ offset,
      Literal.readFrom whole depth value offset = .error error → FailsAt whole offset value fault error)
    (ran : items.foldlM (putEntry whole depth (offset + (source.length - (trimStart source).length) + 1)) [] =
      .error error) : FailsAt whole offset source fault error := by
  obtain ⟨front, item, others, reached, rfl, read, fails⟩ := exists_split_of_exceptFoldlM_eq_error ran
  rcases exceptBind_eq_error_iff.mp fails with unkeyed | ⟨⟨key, value⟩, keyed, fails⟩
  · exact Bool.noConfusion ((isOfValue_of_splitKey unkeyed cause).symm.trans ofValue)
  · rcases exceptBind_eq_error_iff.mp fails with fails | ⟨_, -, ended⟩
    · have shorter := (Literal.sublist_of_splitKey keyed).length_le
      exact failsAt_entry enclosed split read keyed (each item (by simp) value shorter _ fails)
    · cases ended

/-- A text that opens with a bracket fails with what is behind the bracket, or with something that it holds. -/
theorem failsAt_opened {bracket : Bracket} {rest : Text} (text : trim source = bracket.opener :: rest)
    (noRound : bracket ≠ .round) (cause : error.cause = .literal fault) (ofValue : fault.isOfValue = true)
    (shorter : ∀ value : Text, value.length < source.length → ∀ offset,
      Literal.readFrom whole depth value offset = .error error → FailsAt whole offset value fault error)
    (failed : Literal.readFrom whole (depth + 1) source offset = .error error) :
    FailsAt whole offset source fault error := by
  have opening : (bracket.opener == '{' || bracket.opener == '[') = true := by
    revert noRound
    cases bracket <;> decide
  rw [Literal.readFrom, text] at failed
  dsimp only at failed
  rw [if_pos opening] at failed
  rcases exceptBind_eq_error_iff.mp failed with scan | ⟨close, matched, behind⟩
  · exact absurd scan (ne_error_of_ofScan (matchBracket_ofScan bracket rfl) cause)
  clear failed
  split at behind
  · next visible =>
    obtain ⟨raw, spans, encloses⟩ := (matchBracket_eq_ok_iff rfl).mp matched
    have width : close + 1 = raw.length + 2 := by simpa using spans.width
    have all : trim source =
        bracket.opener :: raw ++ bracket.closer :: (bracket.opener :: rest).drop (close + 1) := by
      rw [text]
      simpa using spans.here
    refine failsAt_whole all (.behindBracket noRound encloses (by simpa using visible)) cause ?_
    rw [← width]
    exact Except.error.inj behind
  · next nothing =>
    obtain ⟨other, inner, enclosed, inside⟩ :=
      eq_enclosed_of_matchBracket (text ▸ (stops_trim source).2) matched (by simpa using nothing)
    -- Brackets with the same opener are the same.
    obtain rfl : bracket = other := by
      have opens := (List.cons.inj enclosed).1
      revert opens
      cases bracket <;> cases other <;> decide
    rw [← text] at enclosed
    rw [inside] at behind
    rcases exceptBind_eq_error_iff.mp behind with scan | ⟨items, split, inItems⟩
    · exact absurd scan (ne_error_of_ofScan (splitArguments_ofScan inner) cause)
    clear behind
    -- Items are shorter than the text that holds them, and so are the values of entries.
    have each (item : Text) (member : item ∈ items) (value : Text) (short : value.length ≤ item.length)
        (offset : Nat) (fails : Literal.readFrom whole depth value offset = .error error) :
        FailsAt whole offset value fault error := by
      have within := (sublist_of_splitArguments split item member).length_le
      have trimmed := (trim_sublist source).length_le
      simp only [enclosed, List.length_append, List.length_cons] at trimmed
      exact shorter value (by omega) offset fails
    split at inItems
    · next square =>
      obtain rfl := Bracket.eq_square_of_opener square
      rcases exceptBind_eq_error_iff.mp inItems with ran | ⟨_, -, ended⟩
      · exact failsAt_items enclosed split (fun item member => each item member item (Nat.le_refl _)) ran
      · cases ended
    · next notSquare =>
      obtain rfl := Bracket.eq_brace_of_opener opening notSquare
      rcases exceptBind_eq_error_iff.mp inItems with ran | ⟨_, -, ended⟩
      · exact failsAt_entries enclosed split cause ofValue each ran
      · cases ended

/-- A text that opens with a quote fails with what is behind the string. -/
theorem failsAt_quoted {quote : Char} {rest : Text} (text : trim source = quote :: rest)
    (isQuote : Mode.isQuote quote = true) (cause : error.cause = .literal fault)
    (failed : Literal.readFrom whole (depth + 1) source offset = .error error) :
    FailsAt whole offset source fault error := by
  rw [Literal.readFrom, text] at failed
  dsimp only at failed
  rw [if_neg (by simp [noBracket_of_isQuote isQuote]), if_pos isQuote] at failed
  rcases exceptBind_eq_error_iff.mp failed with scan | ⟨close, matched, behind⟩
  · exact absurd scan (ne_error_of_ofScan (matchLiteral_ofScan (Mode.isDelimiter_of_isQuote isQuote) rfl) cause)
  obtain ⟨content, spans, holds⟩ := (matchLiteral_eq_ok_iff (Mode.isDelimiter_of_isQuote isQuote) rfl).mp matched
  split at behind
  · next more =>
    have width : close + 1 = content.length + 2 := by simpa using spans.width
    have all : trim source = quote :: content ++ quote :: (quote :: rest).drop (close + 1) := by
      rw [text]
      simpa using spans.here
    have visible : (quote :: rest).drop (close + 1) ≠ [] := by
      have inside := spans.stop_le_length (Nat.zero_le _)
      rw [Ne, List.drop_eq_nil_iff]
      omega
    refine failsAt_whole all (.behindString isQuote holds visible) cause ?_
    rw [← width]
    exact Except.error.inj behind
  · cases behind

/-- What keeps a text from being a literal is a value in it that the reader comes to. -/
theorem failsAt_of_readFrom (enough : source.length < depth)
    (failed : Literal.readFrom whole depth source offset = .error error) (cause : error.cause = .literal fault)
    (ofValue : fault.isOfValue = true) : FailsAt whole offset source fault error := by
  induction depth generalizing source offset with
  | zero => cases enough
  | succ depth ih =>
    cases text : trim source with
    | nil =>
      rw [Literal.readFrom, text] at failed
      exact failsAt_whole text .missing cause (Except.error.inj failed)
    | cons first rest =>
      by_cases opening : first = '{' ∨ first = '['
      · have shorter (value : Text) (short : value.length < source.length) (offset : Nat)
            (fails : Literal.readFrom whole depth value offset = .error error) :=
          ih (by omega) fails
        rcases opening with rfl | rfl
        · have opened : trim source = Bracket.brace.opener :: rest := text
          exact failsAt_opened opened Bracket.noConfusion cause ofValue shorter failed
        · have opened : trim source = Bracket.square.opener :: rest := text
          exact failsAt_opened opened Bracket.noConfusion cause ofValue shorter failed
      by_cases isQuote : Mode.isQuote first = true
      · exact failsAt_quoted text isQuote cause failed
      · rw [not_or] at opening
        rw [Literal.readFrom, text] at failed
        dsimp only at failed
        rw [if_neg (by simpa using opening), if_neg isQuote] at failed
        split at failed
        · cases failed
        · next noWord =>
          exact failsAt_whole text (.word opening (by simpa using isQuote) noWord) cause
            (Except.error.inj failed)

end JasmineConversion
