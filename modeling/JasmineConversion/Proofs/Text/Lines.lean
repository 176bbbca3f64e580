import JasmineConversion.Text.Basic

/-! # Lines and line feeds

A text is split at its line feeds, and its lines put together give it back. Lines without a line
feed are found again in the text that they make.
-/

namespace JasmineConversion.Text

/-- Every text has a line. -/
theorem lines_ne_nil (text : Text) : lines text ≠ [] := by
  cases text with
  | nil => simp [lines]
  | cons c rest =>
    unfold lines
    split
    · simp
    · split <;> simp

theorem lines_cons_of_ne {c : Char} (other : c ≠ '\n') {rest first : Text} {more : List Text}
    (split : lines rest = first :: more) : lines (c :: rest) = (c :: first) :: more := by
  simp only [lines, if_neg other, split]

/-- A text without line feeds is one line. -/
theorem lines_of_not_mem {text : Text} (single : '\n' ∉ text) : lines text = [text] := by
  induction text with
  | nil => rfl
  | cons c rest ih =>
    rw [List.mem_cons, not_or] at single
    exact lines_cons_of_ne (Ne.symm single.1) (ih single.2)

/-- A first line is split off at its line feed. -/
theorem lines_append_newline {text : Text} (single : '\n' ∉ text) (rest : Text) :
    lines (text ++ '\n' :: rest) = text :: lines rest := by
  induction text with
  | nil => simp [lines]
  | cons c text ih =>
    rw [List.mem_cons, not_or] at single
    exact lines_cons_of_ne (Ne.symm single.1) (ih single.2)

/-- Text without line feeds goes on the first line of what follows. -/
theorem lines_append_of_not_mem {text : Text} (single : '\n' ∉ text) {rest first : Text} {more : List Text}
    (split : lines rest = first :: more) : lines (text ++ rest) = (text ++ first) :: more := by
  induction text with
  | nil => exact split
  | cons c text ih =>
    rw [List.mem_cons, not_or] at single
    exact lines_cons_of_ne (Ne.symm single.1) (ih single.2)

/-- A line holds no line feed. -/
theorem not_mem_of_mem_lines {text line : Text} (member : line ∈ lines text) : '\n' ∉ line := by
  induction text generalizing line with
  | nil =>
    obtain rfl : line = [] := by simpa [lines] using member
    simp
  | cons c rest ih =>
    by_cases feed : c = '\n'
    · simp only [lines, if_pos feed, List.mem_cons] at member
      rcases member with rfl | member
      · simp
      · exact ih member
    · obtain ⟨first, more, split⟩ := List.exists_cons_of_ne_nil (lines_ne_nil rest)
      rw [lines_cons_of_ne feed split, List.mem_cons] at member
      rw [split] at ih
      rcases member with rfl | member
      · rw [List.mem_cons, not_or]
        exact ⟨Ne.symm feed, ih List.mem_cons_self⟩
      · exact ih (List.mem_cons_of_mem _ member)

/-- A first piece is joined to further ones. -/
theorem join_cons {separator first : Text} {more : List Text} (nonempty : more ≠ []) :
    join separator (first :: more) = first ++ separator ++ join separator more := by
  obtain ⟨second, more, rfl⟩ := List.exists_cons_of_ne_nil nonempty
  rfl

theorem join_cons_cons (separator : Text) (c : Char) (first : Text) (more : List Text) :
    join separator ((c :: first) :: more) = c :: join separator (first :: more) := by
  cases more <;> rfl

/-- A first line is put in front of further ones. -/
theorem unlines_cons {first : Text} {more : List Text} (nonempty : more ≠ []) :
    unlines (first :: more) = first ++ '\n' :: unlines more := by
  rw [unlines, join_cons nonempty, List.append_assoc]
  rfl

/-- Lines without line feeds are the lines of the text that they make. -/
theorem lines_unlines {texts : List Text} (nonempty : texts ≠ []) (single : ∀ text ∈ texts, '\n' ∉ text) :
    lines (unlines texts) = texts := by
  induction texts with
  | nil => exact absurd rfl nonempty
  | cons first more ih =>
    have here := single first List.mem_cons_self
    by_cases last : more = []
    · subst last
      exact lines_of_not_mem here
    · rw [unlines_cons last, lines_append_newline here,
        ih last fun text member => single text (List.mem_cons_of_mem _ member)]

/-- The lines of a text put together give it back. -/
theorem unlines_lines (text : Text) : unlines (lines text) = text := by
  induction text with
  | nil => rfl
  | cons c rest ih =>
    by_cases feed : c = '\n'
    · simp only [lines, if_pos feed]
      rw [unlines_cons (lines_ne_nil rest), ih, feed]
      rfl
    · obtain ⟨first, more, split⟩ := List.exists_cons_of_ne_nil (lines_ne_nil rest)
      rw [lines_cons_of_ne feed split, ← ih, split]
      by_cases last : more = []
      · subst last
        rfl
      · rw [unlines_cons last, unlines_cons last]
        rfl

/-- A text is one line, or a line in front of another text. -/
theorem induction_on_lines {motive : Text → Prop} (single : ∀ line, '\n' ∉ line → motive line)
    (more : ∀ line rest, '\n' ∉ line → motive rest → motive (line ++ '\n' :: rest)) (text : Text) : motive text := by
  have all : ∀ texts, texts ≠ [] → (∀ line ∈ texts, '\n' ∉ line) → motive (unlines texts) := by
    intro texts nonempty free
    induction texts with
    | nil => exact absurd rfl nonempty
    | cons first others ih =>
      obtain ⟨here, further⟩ := List.forall_mem_cons.mp free
      by_cases last : others = []
      · subst last
        exact single first here
      · rw [unlines_cons last]
        exact more first _ here (ih last further)
  rw [← unlines_lines text]
  exact all _ (lines_ne_nil text) fun line => not_mem_of_mem_lines

/-- Two lists of lines are put together at a line feed. -/
theorem unlines_append {first second : List Text} (nonempty : first ≠ []) (more : second ≠ []) :
    unlines (first ++ second) = unlines first ++ '\n' :: unlines second := by
  induction first with
  | nil => exact absurd rfl nonempty
  | cons line first ih =>
    rw [List.cons_append, unlines_cons (by simp [more])]
    by_cases only : first = []
    · subst only
      rfl
    · rw [ih only, unlines_cons only, List.append_assoc]
      rfl

theorem unlines_append_singleton {texts : List Text} (nonempty : texts ≠ []) (last : Text) :
    unlines (texts ++ [last]) = unlines texts ++ '\n' :: last :=
  unlines_append nonempty (List.cons_ne_nil last [])

/-- A text is put together from a line, the lines in front of it with their line feeds, and those behind it. -/
theorem unlines_append_cons (front : List Text) (line : Text) (back : List Text) :
    unlines (front ++ line :: back) = front.flatMap (· ++ ['\n']) ++ line ++ back.flatMap ('\n' :: ·) := by
  induction front with
  | nil =>
    induction back generalizing line with
    | nil => simp [unlines, join]
    | cons next back ih =>
      have further := ih next
      rw [List.nil_append] at further ⊢
      rw [unlines_cons (List.cons_ne_nil next back), further]
      simp
  | cons first front ih =>
    rw [List.cons_append, unlines_cons (by simp), ih]
    simp

end JasmineConversion.Text
