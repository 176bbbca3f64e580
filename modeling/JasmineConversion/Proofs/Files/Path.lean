import JasmineConversion.Files.Path

/-! # Paths and their strings

The parts of a path that was read are neither empty nor dots and hold no slash. Such a path can be
told by its string, which is read as the same path again.
-/

namespace JasmineConversion

namespace Path

/-- A part of a path that its string shows. -/
structure IsPart (part : Codes) : Prop where
  nonempty : part ≠ []
  noDot : part ≠ dot
  noSlash : slash ∉ part

/-- A path that its string shows. -/
structure Proper (path : Path) : Prop where
  slashes : path.slashes ≤ 2
  parts : ∀ part ∈ path.parts, IsPart part

/-! ## Pieces between slashes -/

/-- The pieces between slashes are those that splitting at the slash gives. -/
theorem pieces_eq_splitOn (codes : Codes) : pieces codes = codes.splitOn slash := by
  induction codes with
  | nil => rfl
  | cons c rest ih =>
    rw [pieces, ih, List.splitOn_cons_eq_if_modifyHead]
    obtain ⟨first, more, split⟩ := List.exists_cons_of_ne_nil (List.splitOn_ne_nil slash rest)
    simp [split]

/-- Parts without slashes that are put together are the pieces again. -/
theorem pieces_intercalate {parts : List Codes} (nonempty : parts ≠ [])
    (noSlash : ∀ part ∈ parts, slash ∉ part) : pieces ([slash].intercalate parts) = parts := by
  rw [pieces_eq_splitOn]
  exact List.splitOn_intercalate slash noSlash nonempty

/-- Leading slashes have empty pieces in front of them. -/
theorem pieces_replicate_append (count : Nat) (codes : Codes) :
    pieces (List.replicate count slash ++ codes) = List.replicate count [] ++ pieces codes := by
  induction count with
  | zero => rfl
  | succ count ih =>
    rw [List.replicate_succ, List.cons_append, pieces, if_pos rfl, ih]
    rfl

/-- No piece holds a slash. -/
theorem not_mem_of_mem_pieces {codes piece : Codes} (member : piece ∈ pieces codes) :
    slash ∉ piece := by
  induction codes generalizing piece with
  | nil =>
    obtain rfl := List.mem_singleton.mp member
    exact List.not_mem_nil
  | cons c rest ih =>
    rw [pieces_eq_splitOn, List.splitOn_cons_eq_if_modifyHead, ← pieces_eq_splitOn] at member
    split at member
    · rcases List.mem_cons.mp member with rfl | member
      · exact List.not_mem_nil
      · exact ih member
    · next other =>
      cases split : pieces rest with
      | nil => simp [split] at member
      | cons first more =>
        rw [split] at member ih
        rcases List.mem_cons.mp member with rfl | member
        · rw [List.mem_cons, not_or]
          exact ⟨fun same => other (beq_iff_eq.mpr same.symm), ih List.mem_cons_self⟩
        · exact ih (List.mem_cons_of_mem _ member)

/-- What a piece holds is in the string. -/
theorem mem_of_mem_pieces {codes piece : Codes} {code : Nat} (isPiece : piece ∈ pieces codes)
    (member : code ∈ piece) : code ∈ codes := by
  induction codes generalizing piece with
  | nil =>
    obtain rfl := List.mem_singleton.mp isPiece
    exact member
  | cons c rest ih =>
    unfold pieces at isPiece
    split at isPiece
    · rcases List.mem_cons.mp isPiece with rfl | isPiece
      · cases member
      · exact List.mem_cons_of_mem _ (ih isPiece member)
    · split at isPiece
      · obtain rfl := List.mem_singleton.mp isPiece
        exact List.mem_cons.mpr (.inl (List.mem_singleton.mp member))
      · next first more split =>
        rw [split] at ih
        rcases List.mem_cons.mp isPiece with rfl | isPiece
        · rcases List.mem_cons.mp member with rfl | member
          · exact List.mem_cons_self
          · exact List.mem_cons_of_mem _ (ih List.mem_cons_self member)
        · exact List.mem_cons_of_mem _ (ih (List.mem_cons_of_mem _ isPiece) member)

/-! ## Reading a path -/

/-- A path that was read can be told by its string. -/
theorem proper_parse (codes : Codes) : (parse codes).Proper where
  slashes := by
    unfold parse
    dsimp only
    split <;> omega
  parts part member := by
    obtain ⟨isPiece, shown⟩ := List.mem_filter.mp member
    simp only [Bool.and_eq_true, Bool.not_eq_true', bne_iff_ne, ne_eq] at shown
    exact ⟨fun empty => by simp [empty] at shown, shown.2, not_mem_of_mem_pieces isPiece⟩

/-- All parts that a string shows count. -/
theorem filter_parts {parts : List Codes} (proper : ∀ part ∈ parts, IsPart part) :
    parts.filter (fun piece => !piece.isEmpty && piece != dot) = parts := by
  refine List.filter_eq_self.mpr fun part member => ?_
  have isPart := proper part member
  simp [isPart.nonempty, isPart.noDot]

/-- The slashes at the front of a path's string are its leading ones: what follows them begins with a
part, or is empty. -/
theorem takeWhile_intercalate {parts : List Codes} (proper : ∀ part ∈ parts, IsPart part) :
    ([slash].intercalate parts).takeWhile (· == slash) = [] := by
  cases parts with
  | nil => rfl
  | cons first rest =>
    have isPart := proper first List.mem_cons_self
    obtain ⟨c, more, rfl⟩ := List.exists_cons_of_ne_nil isPart.nonempty
    have other : ¬ (c == slash) = true := fun same =>
      isPart.noSlash (beq_iff_eq.mp same ▸ List.mem_cons_self)
    cases rest with
    | nil =>
      rw [List.intercalate_singleton]
      exact List.takeWhile_cons_of_neg other
    | cons second rest =>
      rw [List.intercalate_cons_cons]
      exact List.takeWhile_cons_of_neg other

/-- The string of a path is read as this path. -/
theorem parse_codes {path : Path} (proper : path.Proper) : parse path.codes = path := by
  obtain ⟨slashes, parts⟩ := path
  obtain ⟨few, proper⟩ := proper
  dsimp only at few proper
  by_cases bare : slashes = 0 ∧ parts = []
  · obtain ⟨rfl, rfl⟩ := bare
    rfl
  have written : codes ⟨slashes, parts⟩ = List.replicate slashes slash ++ [slash].intercalate parts := by
    rw [codes, if_neg (by simpa using bare)]
  have leading : (codes ⟨slashes, parts⟩).takeWhile (· == slash) = List.replicate slashes slash := by
    rw [written]
    rw [List.takeWhile_append_of_pos fun c member => beq_iff_eq.mpr (List.eq_of_mem_replicate member),
      takeWhile_intercalate proper, List.append_nil]
  have shown : (pieces ([slash].intercalate parts)).filter
      (fun piece => !piece.isEmpty && piece != dot) = parts := by
    by_cases none : parts = []
    · subst none
      rfl
    · rw [pieces_intercalate none fun part member => (proper part member).noSlash,
        filter_parts proper]
  rw [parse, leading, List.length_replicate, if_pos few, written, pieces_replicate_append,
    List.filter_append, shown, List.filter_replicate]
  rfl

/-- Paths with the same string are the same. -/
theorem eq_of_codes_eq {path other : Path} (proper : path.Proper) (proper' : other.Proper)
    (same : path.codes = other.codes) : path = other := by
  rw [← parse_codes proper, ← parse_codes proper', same]

/-- A path taken from another one can be told by its string if both can. -/
theorem Proper.append {base path : Path} (proper : base.Proper) (proper' : path.Proper) :
    (base.append path).Proper := by
  unfold Path.append
  split
  · refine ⟨proper.slashes, fun part member => ?_⟩
    exact (List.mem_append.mp member).elim (proper.parts part) (proper'.parts part)
  · exact proper'

/-- Names are put behind those of the path that they are taken from. -/
theorem append_relative (base : Path) (names : List Codes) :
    base.append ⟨0, names⟩ = { base with parts := base.parts ++ names } :=
  rfl

/-- Names are taken from a path one after the other or at once. -/
theorem append_append (base : Path) (names more : List Codes) :
    (base.append ⟨0, names⟩).append ⟨0, more⟩ = base.append ⟨0, names ++ more⟩ := by
  simp [append_relative]

/-- The parts that a string without slashes gives: none if it is empty or a dot. -/
def partsOf (codes : Codes) : List Codes :=
  if codes = [] ∨ codes = dot then [] else [codes]

/-- A string without slashes is read as a path of one part or none. -/
theorem parse_of_not_mem {codes : Codes} (noSlash : slash ∉ codes) :
    parse codes = ⟨0, partsOf codes⟩ := by
  have single : pieces codes = [codes] := by
    rw [pieces_eq_splitOn, List.splitOn_eq_singleton noSlash]
  have leading : codes.takeWhile (· == slash) = [] := by
    cases codes with
    | nil => rfl
    | cons c rest =>
      rw [List.mem_cons, not_or] at noSlash
      exact List.takeWhile_cons_of_neg (by simpa using Ne.symm noSlash.1)
  rw [parse, leading, single, partsOf]
  by_cases hidden : codes = [] ∨ codes = dot
  · rcases hidden with rfl | rfl <;> rfl
  · rw [if_neg hidden]
    rw [not_or] at hidden
    simp [hidden.1, hidden.2]

/-- The name of a path is the last of the names put behind another one. -/
theorem name_append (base : Path) (names : List Codes) (last : Codes) :
    (base.append ⟨0, names ++ [last]⟩).name = last := by
  rw [append_relative, name, ← List.append_assoc, List.getLastD_concat]

/-- Without its last name, a path is the other one with the names before it. -/
theorem parent_append (base : Path) (names : List Codes) (last : Codes) :
    (base.append ⟨0, names ++ [last]⟩).parent = base.append ⟨0, names⟩ := by
  rw [append_relative, append_relative, parent, ← List.append_assoc, List.dropLast_concat]

/-- Different names put behind one path give different paths. -/
theorem append_injective (base : Path) {names names' : List Codes}
    (same : base.append ⟨0, names⟩ = base.append ⟨0, names'⟩) : names = names' :=
  List.append_cancel_left (congrArg Path.parts same)

/-! ## What the string of a path holds -/

/-- Parts that are put together hold what each of them holds, and slashes between two of them. -/
theorem mem_intercalate_iff {parts : List Codes} {code : Nat} :
    code ∈ [slash].intercalate parts ↔
      (code = slash ∧ 2 ≤ parts.length) ∨ ∃ part ∈ parts, code ∈ part := by
  induction parts with
  | nil => simp
  | cons first rest ih =>
    cases rest with
    | nil => simp
    | cons second rest =>
      rw [List.intercalate_cons_cons, List.mem_append, List.mem_append, ih, List.mem_singleton]
      constructor
      · rintro ((here | isSlash) | ⟨isSlash, -⟩ | ⟨part, isPart, here⟩)
        · exact .inr ⟨first, List.mem_cons_self, here⟩
        · exact .inl ⟨isSlash, by simp⟩
        · exact .inl ⟨isSlash, by simp⟩
        · exact .inr ⟨part, List.mem_cons_of_mem _ isPart, here⟩
      · rintro (⟨isSlash, -⟩ | ⟨part, isPart, here⟩)
        · exact .inl (.inr isSlash)
        · rcases List.mem_cons.mp isPart with rfl | isPart
          · exact .inl (.inl here)
          · exact .inr (.inr ⟨part, isPart, here⟩)

/-- The string of a path holds slashes, what its parts hold, or the dot of an empty path. -/
theorem mem_codes {path : Path} {code : Nat} (member : code ∈ path.codes) :
    code = slash ∨ code ∈ dot ∨ ∃ part ∈ path.parts, code ∈ part := by
  unfold codes at member
  split at member
  · exact .inr (.inl member)
  · rcases List.mem_append.mp member with member | member
    · exact .inl (List.eq_of_mem_replicate member)
    · rcases mem_intercalate_iff.mp member with ⟨isSlash, -⟩ | found
      · exact .inl isSlash
      · exact .inr (.inr found)

/-- The string of a path holds what its parts hold. -/
theorem mem_codes_of_mem {path : Path} {part : Codes} {code : Nat} (isPart : part ∈ path.parts)
    (member : code ∈ part) : code ∈ path.codes := by
  have shown : ¬ (path.slashes = 0 && path.parts.isEmpty) = true := by
    rw [Bool.and_eq_true, List.isEmpty_iff]
    exact fun bare => List.not_mem_nil (bare.2 ▸ isPart)
  rw [codes, if_neg shown]
  exact List.mem_append_right _ (mem_intercalate_iff.mpr (.inr ⟨part, isPart, member⟩))

/-- What a part of a path holds is in the string that the path was read from. -/
theorem mem_of_mem_parse {codes part : Codes} {code : Nat} (isPart : part ∈ (parse codes).parts)
    (member : code ∈ part) : code ∈ codes :=
  mem_of_mem_pieces (List.mem_filter.mp isPart).1 member

end Path

end JasmineConversion
