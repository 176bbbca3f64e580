import JasmineConversion.Text.Basic

/-! # The front of a text

What stands at the front of a text is taken off in two ways: a fixed lead, and the longest run of
characters of one kind. Both are described by how the text is put together.
-/

namespace JasmineConversion.Text

/-- A run of characters that satisfy `p` ends at the front of a text. -/
def Stops (p : Char → Bool) (text : Text) : Prop :=
  ∀ c ∈ text.head?, p c = false

instance (p : Char → Bool) : (text : Text) → Decidable (Stops p text)
  | [] => .isTrue (by simp [Stops])
  | c :: _ => decidable_of_iff (p c = false) (by simp [Stops])

@[simp] theorem stops_nil (p : Char → Bool) : Stops p [] := by
  simp [Stops]

@[simp] theorem stops_cons (p : Char → Bool) (c : Char) (text : Text) :
    Stops p (c :: text) ↔ p c = false := by
  simp [Stops]

/-- A text that stops a run still does so with more text behind it, unless it is empty. -/
theorem Stops.append {p : Char → Bool} {text rest : Text} (front : Stops p text)
    (back : Stops p rest) : Stops p (text ++ rest) := by
  cases text with
  | nil => exact back
  | cons c text => simpa using front

/-- A text that is not empty stops alone. -/
theorem Stops.append_of_ne_nil {p : Char → Bool} {text : Text} (front : Stops p text)
    (nonempty : text ≠ []) (rest : Text) : Stops p (text ++ rest) := by
  cases text with
  | nil => exact absurd rfl nonempty
  | cons c text => simpa using front

/-- A text stops what a longer one stops. -/
theorem Stops.of_append {p : Char → Bool} {text rest : Text} (stops : Stops p (text ++ rest)) :
    Stops p text := by
  cases text with
  | nil => exact stops_nil p
  | cons c text => simpa using stops

/-- What is left behind a run stops it. -/
theorem stops_dropWhile (p : Char → Bool) (text : Text) : Stops p (text.dropWhile p) := by
  induction text with
  | nil => simp
  | cons c text ih =>
    by_cases holds : p c = true
    · rw [List.dropWhile_cons_of_pos holds]
      exact ih
    · rw [List.dropWhile_cons_of_neg holds]
      simpa using holds

/-- A run in front of what stops it is taken. -/
theorem takeWhile_append_of_stops {p : Char → Bool} {run rest : Text}
    (all : ∀ c ∈ run, p c = true) (stops : Stops p rest) : (run ++ rest).takeWhile p = run := by
  rw [List.takeWhile_append_of_pos all]
  cases rest with
  | nil => simp
  | cons c rest =>
    rw [stops_cons] at stops
    simp [stops]

/-- A run in front of what stops it is dropped. -/
theorem dropWhile_append_of_stops {p : Char → Bool} {run rest : Text}
    (all : ∀ c ∈ run, p c = true) (stops : Stops p rest) : (run ++ rest).dropWhile p = rest := by
  rw [List.dropWhile_append_of_pos all]
  cases rest with
  | nil => rfl
  | cons c rest =>
    rw [stops_cons] at stops
    simp [stops]

/-- The longest run at the front of a text is the only one that a stop follows. -/
theorem run_unique {p : Char → Bool} {run run' rest rest' : Text}
    (all : ∀ c ∈ run, p c = true) (stops : Stops p rest)
    (all' : ∀ c ∈ run', p c = true) (stops' : Stops p rest')
    (same : run ++ rest = run' ++ rest') : run = run' ∧ rest = rest' := by
  constructor
  · rw [← takeWhile_append_of_stops all stops, same, takeWhile_append_of_stops all' stops']
  · rw [← dropWhile_append_of_stops all stops, same, dropWhile_append_of_stops all' stops']

/-- A text is taken apart behind its longest run. -/
theorem exists_run (p : Char → Bool) (text : Text) :
    ∃ run rest, text = run ++ rest ∧ (∀ c ∈ run, p c = true) ∧ Stops p rest ∧
      text.takeWhile p = run ∧ text.dropWhile p = rest :=
  ⟨text.takeWhile p, text.dropWhile p, List.takeWhile_append_dropWhile.symm,
    List.all_eq_true.mp List.all_takeWhile, stops_dropWhile p text, rfl, rfl⟩

/-- The text before the first occurrence of a character, and the text behind it. -/
theorem takeWhile_ne_dropWhile_ne_iff {c : Char} {text before behind : Text} :
    text.takeWhile (· != c) = before ∧ text.dropWhile (· != c) = c :: behind ↔
      c ∉ before ∧ text = before ++ c :: behind := by
  constructor
  · rintro ⟨rfl, rest⟩
    refine ⟨?_, by rw [← rest, List.takeWhile_append_dropWhile]⟩
    intro member
    have other := List.all_eq_true.mp List.all_takeWhile c member
    simp at other
  · rintro ⟨absent, rfl⟩
    have all : ∀ d ∈ before, (d != c) = true := by
      intro d member
      rw [bne_iff_ne]
      rintro rfl
      exact absent member
    have stops : Stops (· != c) (c :: behind) := by simp
    exact ⟨takeWhile_append_of_stops all stops, dropWhile_append_of_stops all stops⟩

/-- A lead is taken off a text exactly when the text is that lead and the rest. -/
theorem after?_eq_some_iff {lead text rest : Text} :
    after? lead text = some rest ↔ text = lead ++ rest := by
  induction lead generalizing text with
  | nil => simp [after?]
  | cons l lead ih =>
    cases text with
    | nil => simp [after?]
    | cons c text =>
      by_cases same : l = c
      · subst same
        simp [after?, ih]
      · simp [after?, same, Ne.symm same]

@[simp] theorem after?_append (lead rest : Text) : after? lead (lead ++ rest) = some rest :=
  after?_eq_some_iff.mpr rfl

@[simp] theorem after?_singleton_cons (c d : Char) (rest : Text) :
    after? [c] (d :: rest) = if c = d then some rest else none := by
  simp [after?]

theorem startsWith_iff {lead text : Text} :
    startsWith lead text = true ↔ ∃ rest, text = lead ++ rest := by
  simp [startsWith, Option.isSome_iff_exists, after?_eq_some_iff]

theorem startsWith_singleton_iff {c : Char} {text : Text} :
    startsWith [c] text = true ↔ ∃ rest, text = c :: rest := by
  simp [startsWith_iff]

@[simp] theorem startsWith_singleton_cons (c d : Char) (rest : Text) :
    startsWith [c] (d :: rest) = decide (c = d) := by
  by_cases same : c = d <;> simp [startsWith, same]

@[simp] theorem startsWith_singleton_nil (c : Char) : startsWith [c] [] = false := rfl

/-- A text ends with a tail if something stands in front of it. -/
theorem endsWith_iff {tail text : Text} :
    endsWith tail text = true ↔ ∃ front, text = front ++ tail := by
  rw [endsWith, startsWith_iff]
  constructor
  · rintro ⟨rest, reversed⟩
    refine ⟨rest.reverse, ?_⟩
    rw [← List.reverse_reverse text, reversed]
    simp
  · rintro ⟨front, rfl⟩
    exact ⟨front.reverse, by simp⟩

theorem isBlankText_iff {text : Text} : isBlankText text = true ↔ ∀ c ∈ text, isBlank c = true := by
  simp [isBlankText]

theorem isBlank_of_isIndent {c : Char} (indents : isIndent c = true) : isBlank c = true := by
  simp only [isIndent, Bool.or_eq_true, beq_iff_eq] at indents
  rcases indents with rfl | rfl <;> decide

@[simp] theorem isBlankText_nil : isBlankText [] = true := rfl

@[simp] theorem isBlankText_cons (c : Char) (text : Text) :
    isBlankText (c :: text) = (isBlank c && isBlankText text) := rfl

@[simp] theorem isBlankText_append (text more : Text) :
    isBlankText (text ++ more) = (isBlankText text && isBlankText more) := by
  simp [isBlankText]

/-- White space is other than what is none. -/
theorem ne_of_isBlank {c d : Char} (white : isBlank c = true) (solid : isBlank d = false) :
    c ≠ d := by
  rintro rfl
  simp [white] at solid

/-- The blank characters before a stop are all that trimming removes. -/
theorem trimStart_append {blank rest : Text} (allBlank : isBlankText blank = true)
    (stops : Stops isBlank rest) : trimStart (blank ++ rest) = rest :=
  dropWhile_append_of_stops (isBlankText_iff.mp allBlank) stops

theorem trimStart_of_stops {text : Text} (stops : Stops isBlank text) : trimStart text = text :=
  dropWhile_append_of_stops (List.forall_mem_nil _) stops

/-- Trimming removes blank characters, up to a stop. -/
theorem trimStart_eq_iff {text rest : Text} :
    trimStart text = rest ↔
      (∃ blank, isBlankText blank = true ∧ text = blank ++ rest) ∧ Stops isBlank rest := by
  constructor
  · rintro rfl
    exact ⟨⟨text.takeWhile isBlank, List.all_takeWhile, List.takeWhile_append_dropWhile.symm⟩,
      stops_dropWhile isBlank text⟩
  · rintro ⟨⟨blank, allBlank, rfl⟩, stops⟩
    exact trimStart_append allBlank stops

/-- Only the blank characters around a text are removed from it. -/
theorem trim_append {before text behind : Text} (blankBefore : isBlankText before = true)
    (blankBehind : isBlankText behind = true) (nonempty : text ≠ []) (starts : Stops isBlank text)
    (ends : Stops isBlank text.reverse) : trim (before ++ text ++ behind) = text := by
  have front : trimStart (before ++ text ++ behind) = text ++ behind := by
    rw [List.append_assoc]
    exact trimStart_append blankBefore (starts.append_of_ne_nil nonempty behind)
  have back : ∀ c ∈ behind.reverse, isBlank c = true :=
    fun c member => isBlankText_iff.mp blankBehind c (List.mem_reverse.mp member)
  rw [trim, front, trimEnd, dropEndWhile, List.reverse_append, dropWhile_append_of_stops back ends,
    List.reverse_reverse]

/-- A blank text is trimmed to nothing. -/
theorem trim_of_isBlankText {text : Text} (blank : isBlankText text = true) : trim text = [] := by
  have front : trimStart (text ++ []) = [] := trimStart_append blank (stops_nil isBlank)
  rw [List.append_nil] at front
  rw [trim, front]
  rfl

/-- A text is what is left and what is dropped at its end. -/
theorem exists_dropEndWhile (p : Char → Bool) (text : Text) :
    ∃ trail, trail.all p = true ∧ text = dropEndWhile p text ++ trail := by
  refine ⟨(text.reverse.takeWhile p).reverse, ?_, ?_⟩
  · rw [List.all_reverse]
    exact List.all_takeWhile
  · rw [dropEndWhile, ← List.reverse_append, List.takeWhile_append_dropWhile, List.reverse_reverse]

/-- At the end, blank characters are removed too. -/
theorem exists_trimEnd (text : Text) : ∃ trail, isBlankText trail = true ∧ text = trimEnd text ++ trail :=
  exists_dropEndWhile isBlank text

/-- What is trimmed stands in blank characters. -/
theorem exists_trim (text : Text) : ∃ lead trail, isBlankText lead = true ∧ isBlankText trail = true ∧
    text = lead ++ trim text ++ trail := by
  obtain ⟨lead, leads, front⟩ := (trimStart_eq_iff.mp (rfl : trimStart text = trimStart text)).1
  obtain ⟨trail, trails, back⟩ := exists_trimEnd (trimStart text)
  exact ⟨lead, trail, leads, trails, by rw [List.append_assoc, trim, ← back, ← front]⟩

/-- A trimmed text starts and ends with no white space. -/
theorem stops_trim (text : Text) : Stops isBlank (trim text) ∧ Stops isBlank (trim text).reverse := by
  have front : Stops isBlank (trimStart text) := stops_dropWhile isBlank text
  have back : (trim text).reverse = (trimStart text).reverse.dropWhile isBlank := List.reverse_reverse _
  obtain ⟨trail, -, split⟩ := exists_trimEnd (trimStart text)
  exact ⟨Stops.of_append (split ▸ front), back ▸ stops_dropWhile isBlank _⟩

/-- Blank characters around a text make no difference once it is trimmed. -/
theorem trim_padded {lead trail : Text} (leads : isBlankText lead = true) (trails : isBlankText trail = true)
    (text : Text) : trim (lead ++ text ++ trail) = trim text := by
  obtain ⟨before, behind, blankBefore, blankBehind, split⟩ := exists_trim text
  have regroup : lead ++ text ++ trail = lead ++ before ++ trim text ++ (behind ++ trail) := by
    calc
      lead ++ text ++ trail = lead ++ (before ++ trim text ++ behind) ++ trail := by rw [← split]
      _ = lead ++ before ++ trim text ++ (behind ++ trail) := by simp
  rw [regroup]
  by_cases empty : trim text = []
  · rw [empty]
    exact trim_of_isBlankText (by simp [leads, trails, blankBefore, blankBehind])
  · exact trim_append (by simp [leads, blankBefore]) (by simp [trails, blankBehind]) empty (stops_trim text).1
      (stops_trim text).2

/-- A text is trimmed once. -/
theorem trim_trim (text : Text) : trim (trim text) = trim text := by
  obtain ⟨lead, trail, leads, trails, split⟩ := exists_trim text
  have padded := trim_padded leads trails (trim text)
  rw [← split] at padded
  exact padded.symm

theorem trim_trimStart (text : Text) : trim (trimStart text) = trim text := by
  have stops : Stops isBlank (trimStart text) := stops_dropWhile isBlank text
  rw [trim, trim, trimStart_of_stops stops]

/-- A text is trimmed to nothing exactly if it is blank. -/
theorem trim_eq_nil_iff {text : Text} : trim text = [] ↔ isBlankText text = true := by
  refine ⟨fun empty => ?_, trim_of_isBlankText⟩
  obtain ⟨lead, trail, leads, trails, split⟩ := exists_trim text
  rw [split, empty]
  simp [leads, trails]

/-- A character of a text that is put together stands in one of the two parts. -/
theorem append_eq_append_cons_iff {first second before behind : Text} {c : Char} :
    first ++ second = before ++ c :: behind ↔
      (∃ rest, first = before ++ c :: rest ∧ behind = rest ++ second) ∨
        ∃ rest, before = first ++ rest ∧ second = rest ++ c :: behind := by
  constructor
  · intro same
    rcases List.append_eq_append_iff.mp same with ⟨rest, rfl, rfl⟩ | ⟨rest, rfl, split⟩
    · exact .inr ⟨rest, rfl, rfl⟩
    · cases rest with
      | nil => exact .inr ⟨[], by simp, by simpa using split.symm⟩
      | cons d rest =>
        obtain ⟨rfl, rfl⟩ := List.cons.inj split
        exact .inl ⟨rest, rfl, rfl⟩
  · rintro (⟨rest, rfl, rfl⟩ | ⟨rest, rfl, rfl⟩) <;> simp

/-- Of two texts that are split elsewhere, the first goes on behind the split or ends in front of it. -/
theorem append_eq_append_cases {first second before behind : Text} (same : first ++ second = before ++ behind) :
    (∃ rest, first = before ++ rest ∧ rest ≠ [] ∧ behind = rest ++ second) ∨
      ∃ rest, before = first ++ rest ∧ second = rest ++ behind := by
  rcases List.append_eq_append_iff.mp same with ⟨rest, rfl, rfl⟩ | ⟨rest, rfl, rfl⟩
  · exact .inr ⟨rest, rfl, rfl⟩
  · by_cases empty : rest = []
    · exact .inr ⟨[], by simp [empty], by simp [empty]⟩
    · exact .inl ⟨rest, rfl, empty, rfl⟩

/-- The character in front of a rest is the last one of the front, or the one in front of this. -/
theorem getLast?_cons_or (d : Char) (front : Text) (previous : Option Char) :
    (d :: front).getLast?.or previous = front.getLast?.or (some d) := by
  rw [List.getLast?_cons]
  cases front.getLast? <;> rfl

/-! ## Pieces -/

/-- A text that ends another one is what follows its start there. -/
theorem drop_of_suffix {rest text : Text} (suffix : rest <:+ text) :
    text.drop (text.length - rest.length) = rest :=
  (List.suffix_iff_eq_drop.mp suffix).symm

theorem suffix_of_after? {lead text rest : Text} (found : after? lead text = some rest) :
    rest <:+ text :=
  after?_eq_some_iff.mp found ▸ List.suffix_append lead rest

theorem trimStart_suffix (text : Text) : trimStart text <:+ text :=
  List.dropWhile_suffix _

/-- Dropping at the end only takes characters away. -/
theorem dropEndWhile_sublist (p : Char → Bool) (text : Text) :
    (dropEndWhile p text).Sublist text := by
  have back := (List.dropWhile_sublist (l := text.reverse) p).reverse
  rwa [List.reverse_reverse] at back

theorem trim_sublist (text : Text) : (trim text).Sublist text :=
  (dropEndWhile_sublist isBlank _).trans (List.dropWhile_sublist isBlank)

theorem slice_sublist (text : Text) (start stop : Nat) : (slice text start stop).Sublist text :=
  (List.drop_sublist _ _).trans (List.take_sublist _ _)

end JasmineConversion.Text
