import JasmineConversion.Literal.Reader
import JasmineConversion.Proofs.Entries
import JasmineConversion.Proofs.Outcome
import JasmineConversion.Proofs.Source.Listing
import JasmineConversion.Proofs.Source.Stripping
import JasmineConversion.Proofs.Suite.Enclosure

/-! # Objects as they are written

An object is written as entries between braces, with white space and comments around their keys and
values. Reading takes the comments out, splits the entries at their commas and gives each value back
under its key, in order.
-/

namespace JasmineConversion

open Text Source Pattern JasmineConversion.Bracket

/-- The key of an entry: quoted, or an identifier. -/
inductive EntryKey (name : Text) : Text → Prop
  | quoted {quote : Char} (isQuote : Mode.isQuote quote = true) (content : LiteralContent quote name) :
      EntryKey name (quote :: name ++ [quote])
  | bare (identifier : Identifier name) : EntryKey name name

section

variable (apart : Text → Prop) (value : Text → Literal → Prop)

/-- An entry of an object with what may stand apart around its key and its value. -/
inductive EntryText : Text → Text × Literal → Prop
  | intro {lead key before behind text trail name : Text} {literal : Literal} (leads : apart lead)
      (isKey : EntryKey name key) (colonBefore : apart before) (colonBehind : apart behind)
      (written : value text literal) (trails : apart trail) :
      EntryText (lead ++ key ++ before ++ ':' :: behind ++ text ++ trail) (name, literal)

/-- The entries of an object under different keys, with a comma behind each that another follows.
The last one may have a comma too. -/
inductive EntriesText : Text → List (Text × Literal) → Prop
  | nil {gap : Text} (isApart : apart gap) : EntriesText gap []
  | last {text : Text} {entry : Text × Literal} (written : EntryText apart value text entry) :
      EntriesText text [entry]
  | cons {text rest : Text} {entry : Text × Literal} {more : List (Text × Literal)}
      (written : EntryText apart value text entry) (fresh : entry.1 ∉ more.map Prod.fst)
      (others : EntriesText rest more) : EntriesText (text ++ ',' :: rest) (entry :: more)

end

variable {apart : Text → Prop} {value : Text → Literal → Prop} {text : Text}
  {entries : List (Text × Literal)}

/-! ## Brackets and comments -/

/-- The key of an entry leaves the nesting as it was. -/
theorem EntryKey.passes {name key : Text} {bracket : Bracket} (isKey : EntryKey name key) :
    bracket.Passes key := by
  cases isKey with
  | quoted isQuote content => exact passes_quoted isQuote content
  | bare identifier =>
    exact passes_of_plain fun c member => plain_of_isIdentifierPart (identifier.2 c member)

/-- An entry leaves the nesting as it was if its gaps and its value do. -/
theorem EntryText.passes {bracket : Bracket} {entry : Text × Literal} (written : EntryText apart value text entry)
    (gaps : ∀ {gap}, apart gap → bracket.Passes gap)
    (inside : ∀ {text literal}, value text literal → bracket.Passes text) : bracket.Passes text := by
  obtain ⟨leads, isKey, colonBefore, colonBehind, inner, trails⟩ := written
  have key := ((gaps leads).append isKey.passes).append (gaps colonBefore)
  have colon : bracket.Plain ':' := by cases bracket <;> decide
  simpa using ((key.append (.cons colon (gaps colonBehind))).append (inside inner)).append (gaps trails)

/-- Entries are read without effect inside a bracket, if what they hold is. -/
theorem EntriesText.passes {bracket : Bracket} (written : EntriesText apart value text entries)
    (gaps : ∀ {gap}, apart gap → bracket.Passes gap)
    (values : ∀ {text literal}, value text literal → bracket.Passes text) : bracket.Passes text := by
  induction written with
  | nil isApart => exact gaps isApart
  | last written => exact written.passes gaps values
  | cons written _ _ ih => exact (written.passes gaps values).append (.cons (by cases bracket <;> decide) ih)

/-- The key of an entry holds no comment. -/
theorem EntryKey.strips {name key : Text} (isKey : EntryKey name key) : Strips key key := by
  cases isKey with
  | quoted isQuote content => exact .quoted isQuote content
  | bare identifier =>
    apply Strips.plain
    intro c member
    have plain : brace.Plain c := plain_of_isIdentifierPart (identifier.2 c member)
    exact plain.1

/-- Without its comments, an object has the same entries with white space around them. -/
theorem EntriesText.strips {value' : Text → Literal → Prop} (written : EntriesText Gap value text entries)
    (values : ∀ {text literal}, value text literal → ∃ plain, Strips text plain ∧ value' plain literal) :
    ∃ plain, Strips text plain ∧ EntriesText (isBlankText · = true) value' plain entries := by
  have entry : ∀ {text entry}, EntryText Gap value text entry →
      ∃ plain, Strips text plain ∧ EntryText (isBlankText · = true) value' plain entry := by
    rintro _ _ ⟨leads, isKey, colonBefore, colonBehind, inner, trails⟩
    obtain ⟨lead, leadBlank, stripsLead⟩ := leads.strips
    obtain ⟨before, beforeBlank, stripsBefore⟩ := colonBefore.strips
    obtain ⟨behind, behindBlank, stripsBehind⟩ := colonBehind.strips
    obtain ⟨trail, trailBlank, stripsTrail⟩ := trails.strips
    obtain ⟨plain, stripsInner, inner⟩ := values inner
    have key := (stripsLead.append isKey.strips).append stripsBefore
    have colon := (Strips.single (by decide : Mode.isDelimiter ':' = false)).append stripsBehind
    have whole := ((key.append colon).append stripsInner).append stripsTrail
    refine ⟨_, ?_, .intro leadBlank isKey beforeBlank behindBlank inner trailBlank⟩
    simpa using whole
  induction written with
  | nil isApart =>
    obtain ⟨blank, isBlank, strips⟩ := isApart.strips
    exact ⟨blank, strips, .nil isBlank⟩
  | last written =>
    obtain ⟨plain, strips, written⟩ := entry written
    exact ⟨plain, strips, .last written⟩
  | cons written fresh _ ih =>
    obtain ⟨plain, strips, written⟩ := entry written
    obtain ⟨rest, stripsRest, others⟩ := ih
    have comma := (Strips.single (by decide : Mode.isDelimiter ',' = false)).append stripsRest
    exact ⟨_, strips.append comma, .cons written fresh others⟩

/-! ## Reading entries -/

/-- A text without comments that is read as a value wherever it is expected. -/
structure Denotes (text : Text) (literal : Literal) : Prop where
  nonempty : text ≠ []
  starts : Stops isBlank text
  ends : Stops isBlank text.reverse
  unsplit : Unsplit text
  passes : brace.Passes text
  reads : ∀ {whole before : Text} {depth offset : Nat}, isBlankText before = true →
    text.length < depth → Literal.readFrom whole depth (before ++ text) offset = .ok literal

/-- A character of a word, which neither ends one nor opens, closes or separates anything. -/
def Solid (c : Char) : Prop :=
  isBlank c = false ∧ c ≠ ',' ∧ ∀ bracket : Bracket, bracket.Plain c

/-- A part of an identifier starts no gap. -/
theorem solid_of_isIdentifierPart {c : Char} (part : isIdentifierPart c = true) : Solid c := by
  refine ⟨?_, ?_, fun _ => plain_of_isIdentifierPart part⟩
  · rw [Bool.eq_false_iff]
    intro white
    exact Bool.noConfusion ((isIdentifierPart_of_isBlank white).symm.trans part)
  · rintro rfl
    exact absurd part (by decide)

theorem unsplit_of_solid (solid : ∀ c ∈ text, Solid c) : Unsplit text :=
  .plain fun c member =>
    ⟨((solid c member).2.2 brace).1, ofOpener?_of_plain (solid c member).2.2, (solid c member).2.1⟩

theorem EntryKey.unsplit {name key : Text} (isKey : EntryKey name key) : Unsplit key := by
  cases isKey with
  | quoted isQuote content => exact .quoted isQuote content
  | bare identifier => exact unsplit_of_solid fun c member => solid_of_isIdentifierPart (identifier.2 c member)

/-- The key of an entry is not empty and starts with no white space. -/
theorem EntryKey.stops {name key : Text} (isKey : EntryKey name key) : key ≠ [] ∧ Stops isBlank key := by
  cases isKey with
  | @quoted quote isQuote content =>
    exact ⟨by simp, (stops_cons _ _ _).mpr (Mode.isBlank_of_isQuote isQuote)⟩
  | bare identifier =>
    obtain ⟨c, tail, rfl⟩ := List.exists_cons_of_ne_nil identifier.ne_nil
    exact ⟨by simp, (stops_cons _ _ _).mpr (isBlank_of_isIdentifierStart (by simpa using identifier.1))⟩

/-- The key of an entry is split off at its colon. -/
theorem splitKey_eq_ok {whole name key before rest : Text} {offset : Nat} (isKey : EntryKey name key)
    (blank : isBlankText before = true) :
    Literal.splitKey whole (key ++ before ++ ':' :: rest) offset = .ok (name, rest) := by
  have trimmed : trimStart (before ++ ':' :: rest) = ':' :: rest :=
    trimStart_append blank ((stops_cons _ _ _).mpr (by decide))
  cases isKey with
  | @quoted quote isQuote content =>
    generalize whole' : quote :: name ++ [quote] ++ before ++ ':' :: rest = entry
    have here : entry = quote :: name ++ [quote] ++ (before ++ ':' :: rest) := by simp [← whole']
    have spans : Spans entry 0 (quote :: name ++ [quote]) (name.length + 1 + 1) :=
      .of_drop here (by simp)
    have matched : matchLiteral entry 0 = .ok (name.length + 1) :=
      (matchLiteral_eq_ok_iff (Mode.isDelimiter_of_isQuote isQuote) (by rw [here]; rfl)).mpr
        ⟨name, spans, content⟩
    have behind : entry.drop (name.length + 1 + 1) = before ++ ':' :: rest := spans.drop_stop here
    have head : entry = quote :: entry.tail := by rw [here]; rfl
    unfold Literal.splitKey
    rw [head]
    simp only [isQuote, if_true]
    rw [← head]
    simp only [exceptBind_eq_ok_iff, exceptPure_eq_ok_iff]
    refine ⟨_, matched, _, rfl, ?_⟩
    simp only [behind, trimmed, show slice entry 1 (name.length + 1) = name from spans.slice_inside]
  | bare identifier =>
    have stops : Stops isIdentifierPart (before ++ ':' :: rest) :=
      stops_blank_append (fun c white => isIdentifierPart_of_isBlank white) blank
        ((stops_cons _ _ _).mpr (by decide))
    obtain ⟨c, tail, rfl⟩ := List.exists_cons_of_ne_nil identifier.ne_nil
    have starts : isIdentifierStart c = true := by simpa using identifier.1
    have noQuote : Mode.isQuote c = false := by
      rw [Bool.eq_false_iff]
      intro quote
      rcases Mode.isQuote_iff.mp quote with rfl | rfl <;> exact absurd starts (by decide)
    have taken := takeWhile_append_of_stops identifier.2 stops
    have dropped := dropWhile_append_of_stops identifier.2 stops
    rw [List.append_assoc]
    unfold Literal.splitKey
    simp only [List.cons_append, noQuote, starts, if_true, Bool.false_eq_true, if_false,
      exceptBind_eq_ok_iff, exceptPure_eq_ok_iff]
    refine ⟨_, rfl, ?_⟩
    rw [← List.cons_append, taken, dropped, trimmed]
    rfl

/-- What reading does with one entry of an object. -/
def putEntry (whole : Text) (depth offset : Nat) (entries : Entries Text Literal) (item : Text) :
    Except SourceError (Entries Text Literal) := do
  let (key, value) ← Literal.splitKey whole item offset
  return Entries.put key (← Literal.readFrom whole depth value offset) entries

/-- One entry of an object is in one piece. Its value is put under its key. -/
theorem putEntry_of_entryText {entry : Text × Literal}
    (written : EntryText (isBlankText · = true) Denotes text entry) :
    Unsplit text ∧ trim text ≠ [] ∧
      ∀ {whole : Text} {depth offset : Nat} {before : Entries Text Literal}, text.length < depth →
        putEntry whole depth offset before (trim text) = .ok (Entries.put entry.1 entry.2 before) := by
  obtain @⟨lead, key, colonBefore, colonBehind, inner, trail, name, literal, leadBlank, isKey, beforeBlank,
    behindBlank, denotes, trailBlank⟩ := written
  have regroup : lead ++ key ++ colonBefore ++ ':' :: colonBehind ++ inner ++ trail =
      lead ++ (key ++ colonBefore ++ ':' :: (colonBehind ++ inner)) ++ trail := by simp
  have colon : Unsplit [':'] := .single (by decide) (by decide) (by decide)
  have unsplit : Unsplit (key ++ colonBefore ++ ':' :: (colonBehind ++ inner)) :=
    (isKey.unsplit.append (unsplit_of_isBlankText beforeBlank)).append
      (colon.append ((unsplit_of_isBlankText behindBlank).append denotes.unsplit))
  have starts : Stops isBlank (key ++ colonBefore ++ ':' :: (colonBehind ++ inner)) := by
    rw [List.append_assoc]
    exact isKey.stops.2.append_of_ne_nil isKey.stops.1 _
  have ends : Stops isBlank (key ++ colonBefore ++ ':' :: (colonBehind ++ inner)).reverse := by
    have back : (key ++ colonBefore ++ ':' :: (colonBehind ++ inner)).reverse =
        inner.reverse ++ (key ++ colonBefore ++ ':' :: colonBehind).reverse := by simp
    rw [back]
    exact denotes.ends.append_of_ne_nil (by simpa using denotes.nonempty) _
  rw [regroup, trim_append leadBlank trailBlank (by simp) starts ends]
  refine ⟨((unsplit_of_isBlankText leadBlank).append unsplit).append (unsplit_of_isBlankText trailBlank),
    by simp, ?_⟩
  intro whole depth offset before enough
  have shorter : inner.length < depth := by
    simp only [List.length_append, List.length_cons] at enough
    omega
  simp only [putEntry, exceptBind_eq_ok_iff, exceptPure_eq_ok_iff]
  exact ⟨_, splitKey_eq_ok isKey beforeBlank, literal, denotes.reads behindBlank shorter, rfl⟩

/-- The keys of written entries are distinct. -/
theorem EntriesText.nodup (written : EntriesText apart value text entries) :
    (entries.map Prod.fst).Nodup := by
  induction written with
  | nil _ => simp
  | last _ => simp
  | cons _ fresh _ ih => exact List.nodup_cons.mpr ⟨fresh, ih⟩

/-- Written entries are a list at the commas between them. -/
theorem EntriesText.listed (written : EntriesText (isBlankText · = true) value text entries) :
    Listed (EntryText (isBlankText · = true) value) text entries := by
  induction written with
  | nil isBlank => exact .nil isBlank
  | last written => exact .last written
  | cons written _ _ ih => exact .cons written ih

/-- Entries are split at their commas and put under their keys one after the other. -/
theorem readEntries_of_listed (written : Listed (EntryText (isBlankText · = true) Denotes) text entries)
    (whole : Text) {depth : Nat} (enough : text.length < depth) (offset : Nat) :
    (splitArguments text >>= fun items => items.foldlM (putEntry whole depth offset) []) =
      .ok (Entries.putAll entries []) := by
  obtain ⟨texts, split, members⟩ := (written.imp fun piece short entry _ here => And.intro here short).splitArguments
    fun piece entry here => ⟨(putEntry_of_entryText here.1).1, (putEntry_of_entryText here.1).2.1⟩
  refine exceptBind_eq_ok_iff.mpr ⟨_, split, ?_⟩
  generalize ([] : Entries Text Literal) = before
  clear split written
  induction members generalizing before with
  | nil => rfl
  | cons here _ ih =>
    rw [List.map_cons, List.foldlM_cons, (putEntry_of_entryText here.1).2.2 (Nat.lt_of_le_of_lt here.2 enough)]
    exact ih _

/-- A value that is denoted is read between white space. -/
theorem readFrom_of_padded {literal : Literal} (padded : Padded Denotes text literal) :
    Unsplit text ∧ trim text ≠ [] ∧
      ∀ {whole : Text} {depth offset : Nat}, text.length < depth →
        Literal.readFrom whole depth (trim text) offset = .ok literal := by
  obtain @⟨lead, inner, trail, literal, leads, denotes, trails⟩ := padded
  rw [trim_append leads trails denotes.nonempty denotes.starts denotes.ends]
  refine ⟨((unsplit_of_isBlankText leads).append denotes.unsplit).append (unsplit_of_isBlankText trails),
    denotes.nonempty, ?_⟩
  intro whole depth offset enough
  simp only [List.length_append] at enough
  exact denotes.reads isBlankText_nil (by omega)

/-- Values are split at their commas and read one after the other. -/
theorem readValues_of_listed {items : List Literal} (written : Listed (Padded Denotes) text items)
    (whole : Text) {depth : Nat} (enough : text.length < depth) (offset : Nat) :
    (splitArguments text >>= fun items => items.mapM fun item => Literal.readFrom whole depth item offset) =
      .ok items := by
  obtain ⟨texts, split, members⟩ := (written.imp fun piece short item _ here => And.intro here short).splitArguments
    fun piece item here => ⟨(readFrom_of_padded here.1).1, (readFrom_of_padded here.1).2.1⟩
  refine exceptBind_eq_ok_iff.mpr ⟨_, split, ?_⟩
  clear split written
  induction members with
  | nil => rfl
  | cons here _ ih =>
    rw [List.map_cons, List.mapM_cons, (readFrom_of_padded here.1).2.2 (Nat.lt_of_le_of_lt here.2 enough), ih]
    rfl

/-! ## Reading values -/

/-- A string between quotes denotes itself. -/
theorem denotes_string {quote : Char} (isQuote : Mode.isQuote quote = true)
    (content : LiteralContent quote text) : Denotes (quote :: text ++ [quote]) (.string text) := by
  have solid := Mode.isBlank_of_isQuote isQuote
  have starts : Stops isBlank (quote :: text ++ [quote]) := (stops_cons _ _ _).mpr solid
  have ends : Stops isBlank (quote :: text ++ [quote]).reverse := by simpa using solid
  refine ⟨by simp, starts, ends, .quoted isQuote content, passes_quoted isQuote content, ?_⟩
  intro whole before depth offset blank enough
  obtain ⟨depth, rfl⟩ : ∃ less, depth = less + 1 := ⟨depth - 1, by omega⟩
  have noBracket : quote ≠ '{' ∧ quote ≠ '[' := by
    rcases Mode.isQuote_iff.mp isQuote with rfl | rfl <;> decide
  have trimmed := trim_append blank isBlankText_nil (by simp) starts ends
  rw [List.append_nil] at trimmed
  have spans : Spans (quote :: text ++ [quote]) 0 (quote :: text ++ [quote]) (text.length + 1 + 1) := by
    refine ⟨?_, by simp⟩
    simp
  have matched : matchLiteral (quote :: text ++ [quote]) 0 = .ok (text.length + 1) :=
    (matchLiteral_eq_ok_iff (Mode.isDelimiter_of_isQuote isQuote) rfl).mpr ⟨text, spans, content⟩
  have inside : slice (quote :: text ++ [quote]) 1 (text.length + 1) = text := spans.slice_inside
  rw [List.cons_append] at trimmed matched inside ⊢
  rw [Literal.readFrom, trimmed]
  simp [noBracket, isQuote, matched, inside, bind, Except.bind, pure, Except.pure]

/-- A text between brackets starts and ends with no white space. -/
theorem stops_enclosed (bracket : Bracket) (text : Text) :
    Stops isBlank (bracket.opener :: text ++ [bracket.closer]) ∧
      Stops isBlank (bracket.opener :: text ++ [bracket.closer]).reverse := by
  have last : (bracket.opener :: text ++ [bracket.closer]).reverse =
      bracket.closer :: (bracket.opener :: text).reverse := List.reverse_concat
  rw [last]
  exact ⟨(stops_cons _ _ _).mpr bracket.isBlank_opener, (stops_cons _ _ _).mpr bracket.isBlank_closer⟩

/-- What reading does with the items between brackets: square ones hold values, and braces hold entries. -/
def readItems (whole : Text) (depth offset : Nat) (bracket : Bracket) (items : List Text) :
    Except SourceError Literal :=
  if bracket = .square then do
    return .array (← items.mapM fun item => Literal.readFrom whole depth item offset)
  else do
    return .object (← items.foldlM (putEntry whole depth offset) [])

/-- What stands between brackets is read item by item. -/
theorem readFrom_enclosed {bracket : Bracket} {whole before : Text} {depth offset : Nat} (holds : bracket ≠ .round)
    (encloses : bracket.Encloses text) (blank : isBlankText before = true) :
    Literal.readFrom whole (depth + 1) (before ++ (bracket.opener :: text ++ [bracket.closer])) offset =
      splitArguments text >>= readItems whole depth (offset + before.length + 1) bracket := by
  obtain ⟨starts, ends⟩ := stops_enclosed bracket text
  have trimmed := trim_append blank isBlankText_nil (by simp) starts ends
  rw [List.append_nil] at trimmed
  have front : offset + ((before ++ (bracket.opener :: text ++ [bracket.closer])).length -
      (trimStart (before ++ (bracket.opener :: text ++ [bracket.closer]))).length) = offset + before.length := by
    rw [trimStart_append blank starts, List.length_append, Nat.add_sub_cancel]
  have spans : Spans (bracket.opener :: text ++ [bracket.closer]) 0 (bracket.opener :: text ++ [bracket.closer])
      (text.length + 1 + 1) := by
    refine ⟨?_, by simp⟩
    simp
  have matched : matchBracket (bracket.opener :: text ++ [bracket.closer]) 0 = .ok (text.length + 1) :=
    (@matchBracket_eq_ok_iff _ bracket _ _ rfl).mpr ⟨text, spans, encloses⟩
  have behind : (bracket.opener :: text ++ [bracket.closer]).drop (text.length + 1 + 1) = [] := by simp
  have content : slice (bracket.opener :: text ++ [bracket.closer]) 1 (text.length + 1) = text := spans.slice_inside
  rw [List.cons_append] at trimmed matched behind content front ⊢
  rw [Literal.readFrom, trimmed, front]
  have opens : (bracket.opener == '{' || bracket.opener == '[') = true := by
    cases bracket with
    | round => exact absurd rfl holds
    | _ => rfl
  simp only [opens, if_true, matched]
  change (if !isBlankText ((bracket.opener :: (text ++ [bracket.closer])).drop (text.length + 1 + 1)) then _ else _) = _
  rw [behind, content]
  cases bracket with
  | round => exact absurd rfl holds
  | _ => rfl

/-- What stands between braces is read as an object, entry by entry. -/
theorem readFrom_braces {whole before : Text} {depth offset : Nat} (encloses : brace.Encloses text)
    (blank : isBlankText before = true) :
    Literal.readFrom whole (depth + 1) (before ++ ('{' :: text ++ ['}'])) offset =
      splitArguments text >>= fun items =>
        items.foldlM (putEntry whole depth (offset + before.length + 1)) [] >>= fun entries =>
          pure (.object entries) :=
  @readFrom_enclosed _ brace whole before depth offset (by decide) encloses blank

/-- An object is read with the values that its entries denote. -/
theorem denotes_entries (written : Listed (EntryText (isBlankText · = true) Denotes) text entries)
    (inside : brace.Passes text) : Denotes ('{' :: text ++ ['}']) (.object (Entries.putAll entries [])) := by
  obtain ⟨starts, ends⟩ := stops_enclosed .brace text
  refine ⟨by simp, starts, ends, Unsplit.enclosed inside.encloses, passes_enclosed inside.encloses, ?_⟩
  intro whole before depth offset blank enough
  obtain ⟨depth, rfl⟩ : ∃ less, depth = less + 1 := ⟨depth - 1, by omega⟩
  have shorter : text.length < depth := by
    simp only [List.length_append, List.length_cons] at enough
    omega
  obtain ⟨items, split, folded⟩ :=
    exceptBind_eq_ok_iff.mp (readEntries_of_listed written whole shorter (offset + before.length + 1))
  rw [readFrom_braces inside.encloses blank]
  exact exceptBind_eq_ok_iff.mpr ⟨items, split, exceptBind_eq_ok_iff.mpr ⟨_, folded, rfl⟩⟩

/-- Written entries between braces denote an object. -/
theorem denotes_object (written : EntriesText (isBlankText · = true) Denotes text entries) :
    Denotes ('{' :: text ++ ['}']) (.object entries) := by
  have inside : brace.Passes text := written.passes (fun blank => passes_blank blank) (·.passes)
  have denotes := denotes_entries written.listed inside
  have kept : Entries.putAll entries [] = [] ++ entries := Entries.putAll_of_nodup written.nodup
  rwa [kept] at denotes

/-- An array is read with the values that its items denote. -/
theorem denotes_items {items : List Literal} (written : Listed (Padded Denotes) text items)
    (encloses : square.Encloses text) (inside : brace.Passes text) : Denotes ('[' :: text ++ [']']) (.array items) := by
  obtain ⟨starts, ends⟩ := stops_enclosed .square text
  refine ⟨by simp, starts, ends, Unsplit.enclosed encloses, inside.squares, ?_⟩
  intro whole before depth offset blank enough
  obtain ⟨depth, rfl⟩ : ∃ less, depth = less + 1 := ⟨depth - 1, by omega⟩
  have shorter : text.length < depth := by
    simp only [List.length_append, List.length_cons] at enough
    omega
  obtain ⟨texts, split, values⟩ :=
    exceptBind_eq_ok_iff.mp (readValues_of_listed written whole shorter (offset + before.length + 1))
  refine (@readFrom_enclosed _ square whole before depth offset (by decide) encloses blank).trans ?_
  refine exceptBind_eq_ok_iff.mpr ⟨texts, split, ?_⟩
  exact exceptBind_eq_ok_iff.mpr ⟨items, values, rfl⟩

/-- A word is read as what it stands for. -/
theorem denotes_word {literal : Literal} (solid : ∀ c ∈ text, Solid c)
    (stands : Literal.ofWord? text = some literal) : Denotes text literal := by
  obtain ⟨c, rest, rfl⟩ : ∃ c rest, text = c :: rest := by
    cases text with
    | nil => cases stands
    | cons c rest => exact ⟨c, rest, rfl⟩
  have ends : Stops isBlank (c :: rest).reverse := by
    intro d last
    exact (solid d (List.mem_reverse.mp (List.mem_of_mem_head? last))).1
  obtain ⟨visible, -, plain⟩ := solid c List.mem_cons_self
  have starts : Stops isBlank (c :: rest) := (stops_cons _ _ _).mpr visible
  refine ⟨List.cons_ne_nil _ _, starts, ends, unsplit_of_solid solid,
    passes_of_plain fun d member => (solid d member).2.2 brace, ?_⟩
  intro whole before depth offset blank enough
  obtain ⟨depth, rfl⟩ : ∃ less, depth = less + 1 := ⟨depth - 1, by omega⟩
  have trimmed := trim_append blank isBlankText_nil (List.cons_ne_nil c rest) starts ends
  rw [List.append_nil] at trimmed
  have noBracket : (c == '{' || c == '[') = false := by
    rw [Bool.or_eq_false_iff]
    exact ⟨beq_false_of_ne (plain brace).2.1, beq_false_of_ne (plain square).2.1⟩
  have noQuote : Mode.isQuote c = false := by
    rw [Bool.eq_false_iff]
    intro quote
    exact Bool.noConfusion ((Mode.isDelimiter_of_isQuote quote).symm.trans (plain brace).1)
  rw [Literal.readFrom, trimmed]
  simp only [noBracket, noQuote, stands, Bool.false_eq_true, if_false]

theorem denotes_true : Denotes "true".toList (.boolean true) := by
  have parts : ∀ c ∈ "true".toList, isIdentifierPart c = true := by decide
  exact denotes_word (fun c member => solid_of_isIdentifierPart (parts c member)) rfl

/-- A literal is read from what is left when its comments are stripped. -/
theorem Literal.read_of_strips {plain : Text} {literal : Literal} (strips : Strips text plain)
    (denotes : Denotes plain literal) : Literal.read text = .ok literal := by
  refine exceptBind_eq_ok_iff.mpr ⟨plain, stripComments_eq_ok strips, ?_⟩
  exact denotes.reads isBlankText_nil (Nat.lt_succ_self _)

/-- Every entry has a value that is written. -/
theorem EntriesText.exists_value (written : EntriesText apart value text entries) {entry : Text × Literal}
    (member : entry ∈ entries) : ∃ text, value text entry.2 := by
  have inside : ∀ {text entry}, EntryText apart value text entry → ∃ text, value text entry.2 := by
    rintro _ _ ⟨_, _, _, _, written, _⟩
    exact ⟨_, written⟩
  induction written with
  | nil _ => cases member
  | last written =>
    obtain rfl := List.mem_singleton.mp member
    exact inside written
  | cons written _ _ ih =>
    rcases List.mem_cons.mp member with rfl | member
    · exact inside written
    · exact ih member

end JasmineConversion
