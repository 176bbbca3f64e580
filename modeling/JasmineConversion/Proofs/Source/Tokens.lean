import JasmineConversion.Proofs.Source.Indents
import JasmineConversion.Proofs.Text.Replace

/-! # The literals and comments of a text

A reading meets literals and comments one after the other. Replacing pieces of dotted names keeps their
delimiters, and with them where each of them starts and ends. It replaces the pieces inside of each as if it
stood alone.
-/

namespace JasmineConversion

open Text

namespace Mode

/-- The reading stays away from code. -/
def Away : Mode → Text → Prop
  | _, [] => True
  | mode, c :: rest => mode.next c ≠ code ∧ Away (mode.next c) rest

/-- Where the reading stands after a character of a dotted name. -/
def calm : Mode → Mode
  | code => code
  | slash => literal '/'
  | literal delimiter => literal delimiter
  | escape delimiter => literal delimiter
  | lineComment => lineComment
  | blockComment => blockComment
  | blockStar => blockComment

/-- The literal or comment that ends with a character or, as a line comment, before it. -/
def ended (mode : Mode) (read : Text) (c : Char) : List Text :=
  match mode with
  | code => []
  | lineComment => [read]
  | _ => [read ++ [c]]

end Mode

namespace Source

/-- The literals and comments of a text, as they are written. What was `read` of the first one before the
text belongs to it, and one that is still open at the end counts. -/
def tokensFrom : (mode : Mode) → (read : Text) → Text → List Text
  | mode, read, [] => if mode = .code then [] else [read]
  | mode, read, c :: rest =>
    if mode.next c = .code then mode.ended read c ++ tokensFrom .code [] rest
    else tokensFrom (mode.next c) (read ++ [c]) rest

/-- The literals and comments of a text, as they are written and one after the other. -/
def tokens (text : Text) : List Text :=
  tokensFrom .code [] text

end Source

namespace Mode

variable {mode : Mode} {c : Char} {text piece rest : Text}

/-! ## Dotted names -/

/-- A character of a dotted name is other than one that is none. -/
theorem ne_of_isDotted {d : Char} (dotted : Pattern.isDotted c = true)
    (apart : Pattern.isDotted d = false) : c ≠ d := by
  rintro rfl
  exact Bool.noConfusion (dotted.symm.trans apart)

theorem isDelimiter_of_isDotted (dotted : Pattern.isDotted c = true) : isDelimiter c = false := by
  rw [Bool.eq_false_iff]
  intro delimits
  rcases isDelimiter_iff.mp delimits with rfl | rfl | rfl <;> exact absurd dotted (by decide)

theorem isDotted_of_isDelimiter (delimits : isDelimiter c = true) : Pattern.isDotted c = false := by
  rw [Bool.eq_false_iff]
  intro dotted
  exact Bool.noConfusion (delimits.symm.trans (isDelimiter_of_isDotted dotted))

/-- A character of a dotted name calms the mode. -/
theorem next_of_isDotted (proper : mode.Proper) (dotted : Pattern.isDotted c = true) :
    mode.next c = mode.calm := by
  have slash := ne_of_isDotted dotted (by decide : Pattern.isDotted '/' = false)
  have star := ne_of_isDotted dotted (by decide : Pattern.isDotted '*' = false)
  have backslash := ne_of_isDotted dotted (by decide : Pattern.isDotted '\\' = false)
  have feed := ne_of_isDotted dotted (by decide : Pattern.isDotted '\n' = false)
  cases mode with
  | code => exact code_next_of_not_isDelimiter (isDelimiter_of_isDotted dotted)
  | slash => simp [next, calm, slash, star, backslash]
  | literal delimiter =>
    have other := ne_of_isDotted dotted (isDotted_of_isDelimiter (proper delimiter rfl))
    simp [next, calm, backslash, other]
  | escape delimiter => rfl
  | lineComment => simp [next, calm, feed]
  | blockComment => simp [next, calm, star]
  | blockStar => simp [next, calm, slash, star]

/-- Only a character that no dotted name holds brings the reading back to code. -/
theorem isDotted_of_next_eq_code (proper : mode.Proper) (away : mode ≠ code)
    (back : mode.next c = code) : Pattern.isDotted c = false := by
  rw [Bool.eq_false_iff]
  intro dotted
  rw [next_of_isDotted proper dotted] at back
  cases mode <;> first | exact away rfl | cases back

theorem calm_calm (mode : Mode) : mode.calm.calm = mode.calm := by
  cases mode <;> rfl

/-- A proper mode is proper when it is calm. -/
theorem Proper.calm (proper : mode.Proper) : mode.calm.Proper := by
  cases mode with
  | literal delimiter => exact proper
  | escape delimiter => exact proper
  | _ => simp [Proper, delimiter?, Mode.calm, isDelimiter]

/-- A dotted name calms the mode. -/
theorem foldl_next_of_isDotted (proper : mode.Proper) (nonempty : piece ≠ [])
    (dotted : ∀ c ∈ piece, Pattern.isDotted c = true) : piece.foldl next mode = mode.calm := by
  induction piece generalizing mode with
  | nil => exact absurd rfl nonempty
  | cons c piece ih =>
    obtain ⟨here, further⟩ := List.forall_mem_cons.mp dotted
    rw [List.foldl_cons, next_of_isDotted proper here]
    cases piece with
    | nil => rfl
    | cons d piece =>
      rw [ih (proper.calm) (List.cons_ne_nil d piece) further, calm_calm]

/-! ## Readings away from code -/

theorem away_append : mode.Away (piece ++ rest) ↔ mode.Away piece ∧ (piece.foldl next mode).Away rest := by
  induction piece generalizing mode with
  | nil => simp [Away]
  | cons c piece ih => simp [Away, ih, and_assoc]

/-- A dotted name stays away from code where it is read outside of it. -/
theorem Away.of_isDotted (proper : mode.Proper) (away : mode.calm ≠ code)
    (dotted : ∀ c ∈ piece, Pattern.isDotted c = true) : mode.Away piece := by
  induction piece generalizing mode with
  | nil => trivial
  | cons c piece ih =>
    obtain ⟨here, further⟩ := List.forall_mem_cons.mp dotted
    rw [Away, next_of_isDotted proper here]
    exact ⟨away, ih (proper.calm) (by rwa [calm_calm]) further⟩

/-- A text that stays away from code does not end in it. -/
theorem Away.foldl_ne_code (away : mode ≠ code) (stays : mode.Away piece) :
    piece.foldl next mode ≠ code := by
  induction piece generalizing mode with
  | nil => exact away
  | cons c piece ih => exact ih stays.1 stays.2

/-- A text is taken apart where its reading is back in code. -/
theorem exists_away (mode : Mode) (text : Text) :
    ∃ piece rest, text = piece ++ rest ∧ mode.Away piece ∧
      ∀ c ∈ rest.head?, (piece.foldl next mode).next c = code := by
  induction text generalizing mode with
  | nil => exact ⟨[], [], rfl, trivial, by simp⟩
  | cons c text ih =>
    by_cases back : mode.next c = code
    · exact ⟨[], c :: text, rfl, trivial, by simpa using back⟩
    · obtain ⟨piece, rest, rfl, away, stops⟩ := ih (mode.next c)
      exact ⟨c :: piece, rest, rfl, ⟨back, away⟩, stops⟩

end Mode

namespace Text.Finder.Dotted

open Mode

variable {find : Finder} (dotted : find.Dotted) {mode : Mode}
include dotted

/-- Replacing pieces of dotted names changes neither whether a reading stays away from code nor where it ends.
Characters that are skipped belong to a piece, of which one character was read. -/
theorem away_replaceFrom {skipped : Nat} {previous : Option Char} {text : Text}
    (proper : mode.Proper) (inside : ∀ c ∈ text.take skipped, Pattern.isDotted c = true)
    (settled : skipped = 0 ∨ mode.calm = mode) :
    (mode.Away text → mode.Away (replaceFrom find skipped previous text)) ∧
      (replaceFrom find skipped previous text).foldl next mode = text.foldl next mode := by
  induction text generalizing mode skipped previous with
  | nil => exact ⟨id, rfl⟩
  | cons c text ih =>
    cases skipped with
    | succ skipped =>
      obtain ⟨here, further⟩ := List.forall_mem_cons.mp inside
      have same : mode.calm = mode := settled.resolve_left (Nat.succ_ne_zero skipped)
      have stays : mode.next c = mode := (next_of_isDotted proper here).trans same
      obtain ⟨away, ends⟩ := @ih mode skipped (some c) proper further (.inr same)
      rw [replaceFrom, List.foldl_cons, Mode.Away, stays]
      exact ⟨fun kept => away kept.2, ends⟩
    | zero =>
      rw [replaceFrom]
      cases found : find previous (c :: text) with
      | none =>
        obtain ⟨away, ends⟩ := @ih (mode.next c) 0 (some c) (proper.next c) (by simp) (.inl rfl)
        exact ⟨fun kept => ⟨kept.1, away kept.2⟩, ends⟩
      | some result =>
        obtain ⟨width, replacement⟩ := result
        obtain ⟨piece, rest, same, rfl, nonempty, written, isDotted, areDotted⟩ := dotted.fits found
        obtain ⟨d, piece, rfl⟩ := List.exists_cons_of_ne_nil nonempty
        obtain ⟨rfl, rfl⟩ := List.cons.inj same
        obtain ⟨here, further⟩ := List.forall_mem_cons.mp isDotted
        have calms := next_of_isDotted proper here
        have lead : (c :: piece).length - 1 = piece.length := rfl
        obtain ⟨away, ends⟩ := @ih mode.calm piece.length (some c) proper.calm (by simpa using further) (.inr (calm_calm mode))
        dsimp only
        rw [lead, List.foldl_append, foldl_next_of_isDotted proper written areDotted, List.foldl_cons,
          calms, away_append, foldl_next_of_isDotted proper written areDotted, Mode.Away, calms]
        exact ⟨fun kept => ⟨.of_isDotted proper kept.1 areDotted, away kept.2⟩, ends⟩

theorem away_replaceAll {text : Text} (proper : mode.Proper) (away : mode.Away text) :
    mode.Away (replaceAll find text) :=
  (@away_replaceFrom find dotted mode 0 none text proper (by simp) (.inl rfl)).1 away

theorem foldl_next_replaceAll {text : Text} (proper : mode.Proper) :
    (replaceAll find text).foldl next mode = text.foldl next mode :=
  (@away_replaceFrom find dotted mode 0 none text proper (by simp) (.inl rfl)).2

end Text.Finder.Dotted

namespace Source

variable {mode : Mode} {read piece gap rest : Text}

/-- A text away from code belongs to the token that is being read. -/
theorem tokensFrom_append (away : mode.Away piece) :
    tokensFrom mode read (piece ++ rest) = tokensFrom (piece.foldl Mode.next mode) (read ++ piece) rest := by
  induction piece generalizing mode read with
  | nil => simp
  | cons c piece ih =>
    rw [List.cons_append, tokensFrom, if_neg away.1, ih away.2]
    simp

/-- A text without delimiters in front adds no token. -/
theorem tokens_append (code : ∀ c ∈ gap, Mode.isDelimiter c = false) : tokens (gap ++ rest) = tokens rest := by
  induction gap with
  | nil => rfl
  | cons c gap ih =>
    obtain ⟨here, further⟩ := List.forall_mem_cons.mp code
    have stays := Mode.code_next_of_not_isDelimiter here
    rw [List.cons_append, tokens, tokensFrom, if_pos stays]
    exact ih further

theorem tokens_of_code (code : ∀ c ∈ gap, Mode.isDelimiter c = false) : tokens gap = [] := by
  have none := @tokens_append gap [] code
  rwa [List.append_nil] at none

/-- The first literal or comment behind a gap, which a character opens. -/
theorem tokens_append_cons {c : Char} (code : ∀ c ∈ gap, Mode.isDelimiter c = false)
    (opens : Mode.code.next c ≠ .code) (away : (Mode.code.next c).Away piece) :
    tokens (gap ++ c :: (piece ++ rest)) =
      tokensFrom (piece.foldl Mode.next (Mode.code.next c)) (c :: piece) rest := by
  rw [tokens_append code, tokens, tokensFrom, if_neg opens, tokensFrom_append away]
  rfl

/-- A token ends as it does when it is rewritten. -/
theorem ended_map {find : Finder} (dotted : find.Dotted) {c : Char} (apart : Pattern.isDotted c = false) :
    (mode.ended read c).map (replaceAll find) = mode.ended (replaceAll find read) c := by
  have ends : replaceAll find (read ++ [c]) = replaceAll find read ++ [c] :=
    @Finder.Dotted.replaceAll_append_cons find read [] c dotted apart
  cases mode <;> simp [Mode.ended, ends]

/-- Where pieces of dotted names are replaced, they are replaced in each literal and comment alone. -/
theorem tokens_replaceAll {find : Finder} (dotted : find.Dotted) (text : Text) :
    tokens (replaceAll find text) = (tokens text).map (replaceAll find) := by
  generalize size : text.length = n
  induction n using Nat.strongRecOn generalizing text with
  | ind n ih =>
  obtain ⟨gap, behind, rfl, isCode, stops, -⟩ := exists_run (fun c => !Mode.isDelimiter c) text
  have code : ∀ c ∈ gap, Mode.isDelimiter c = false := by simpa using isCode
  have kept : ∀ c ∈ replaceAll find gap, Mode.isDelimiter c = false := fun c member =>
    (dotted.mem_of_mem_replaceFrom member).elim (code c) Mode.isDelimiter_of_isDotted
  cases behind with
  | nil => rw [List.append_nil, tokens_of_code code, tokens_of_code kept, List.map_nil]
  | cons c behind =>
    have delimits : Mode.isDelimiter c = true := by simpa using stops
    have apart := Mode.isDotted_of_isDelimiter delimits
    have opens : Mode.code.next c ≠ .code := by
      rcases Mode.isDelimiter_iff.mp delimits with rfl | rfl | rfl <;> decide
    have proper : (Mode.code.next c).Proper := Mode.proper_code.next c
    obtain ⟨piece, rest, rfl, away, back⟩ := Mode.exists_away (Mode.code.next c) behind
    have away' := dotted.away_replaceAll proper away
    have ends := @Finder.Dotted.foldl_next_replaceAll find dotted (Mode.code.next c) piece proper
    rw [tokens_append_cons code opens away, dotted.replaceAll_append_cons apart]
    cases rest with
    | nil =>
      have whole := @tokens_append_cons (replaceAll find piece) (replaceAll find gap) [] c kept opens away'
      rw [List.append_nil] at whole
      rw [List.append_nil, whole, ends, tokensFrom, if_neg (away.foldl_ne_code opens), tokensFrom,
        if_neg (away.foldl_ne_code opens), List.map_singleton, dotted.replaceAll_cons apart]
    | cons e rest =>
      have closes := back e rfl
      have outside := Mode.isDotted_of_next_eq_code (proper.foldl piece)
        (away.foldl_ne_code opens) closes
      have further := ih rest.length (by simp [← size]; omega) rest rfl
      rw [dotted.replaceAll_append_cons outside, tokens_append_cons kept opens away', ends, tokensFrom,
        if_pos closes, tokensFrom, if_pos closes, List.map_append, ended_map dotted outside,
        dotted.replaceAll_cons apart]
      exact congrArg (_ ++ ·) further

end Source

end JasmineConversion
