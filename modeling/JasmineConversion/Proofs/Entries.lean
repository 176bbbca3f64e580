import Mathlib.Data.List.Induction
import Mathlib.Data.List.Nodup
import JasmineConversion.Entries

/-! # Values under keys

A value that is put stands under its key, and all other keys keep their values and their places.
-/

namespace JasmineConversion

namespace Entries

variable {κ α : Type} [DecidableEq κ] {key : κ} {value : α} {entries : Entries κ α}

theorem get?_cons (other key : κ) (value : α) (entries : Entries κ α) :
    get? other ((key, value) :: entries) = if key = other then some value else get? other entries := by
  by_cases same : key = other <;> simp [get?, same]

/-- What is put under a key is found there, and nothing else is changed. -/
theorem get?_put (other key : κ) (value : α) (entries : Entries κ α) :
    get? other (put key value entries) = if key = other then some value else get? other entries := by
  induction entries with
  | nil => exact get?_cons other key value []
  | cons entry entries ih =>
    obtain ⟨first, old⟩ := entry
    by_cases there : first = key
    · subst there
      rw [put, if_pos rfl, get?_cons, get?_cons]
      split <;> rfl
    · rw [put, if_neg there, get?_cons, get?_cons, ih]
      by_cases same : first = other
      · subst same
        rw [if_pos rfl, if_neg (Ne.symm there), if_pos rfl]
      · rw [if_neg same, if_neg same]

/-- An entry is the one that was put or was there before. -/
theorem mem_of_mem_put {entry : κ × α} (member : entry ∈ put key value entries) :
    entry = (key, value) ∨ entry ∈ entries := by
  induction entries with
  | nil => exact .inl (List.mem_singleton.mp member)
  | cons first entries ih =>
    rw [put] at member
    split at member
    · exact (List.mem_cons.mp member).imp_right (List.mem_cons_of_mem _)
    · rcases List.mem_cons.mp member with rfl | member
      · exact .inr List.mem_cons_self
      · exact (ih member).imp_right (List.mem_cons_of_mem _)

/-- What is put under a new key comes last. -/
theorem put_of_fresh (fresh : key ∉ entries.map Prod.fst) :
    put key value entries = entries ++ [(key, value)] := by
  induction entries with
  | nil => rfl
  | cons entry entries ih =>
    simp only [List.map_cons, List.mem_cons, not_or] at fresh
    rw [put, if_neg (Ne.symm fresh.1), ih fresh.2]
    rfl

/-- What is put is there. -/
theorem mem_put : (key, value) ∈ put key value entries := by
  induction entries with
  | nil => exact List.mem_singleton_self _
  | cons entry entries ih =>
    rw [put]
    split
    · exact List.mem_cons_self
    · exact List.mem_cons_of_mem _ ih

/-- The entries under other keys stay. -/
theorem mem_put_of_ne {entry : κ × α} (member : entry ∈ entries) (other : entry.1 ≠ key) :
    entry ∈ put key value entries := by
  induction entries with
  | nil => cases member
  | cons first entries ih =>
    rw [put]
    rcases List.mem_cons.mp member with rfl | member
    · rw [if_neg other]
      exact List.mem_cons_self
    · split
      · exact List.mem_cons_of_mem _ member
      · exact List.mem_cons_of_mem _ (ih member)

/-- Among distinct keys, an entry is the one that was put or is under another key. -/
theorem mem_of_mem_put_of_nodup {entry : κ × α} (distinct : (entries.map Prod.fst).Nodup)
    (member : entry ∈ put key value entries) :
    entry = (key, value) ∨ entry ∈ entries ∧ entry.1 ≠ key := by
  induction entries with
  | nil => exact .inl (List.mem_singleton.mp member)
  | cons first entries ih =>
    rw [List.map_cons, List.nodup_cons] at distinct
    rw [put] at member
    split at member
    · next same =>
      refine (List.mem_cons.mp member).imp_right fun member => ⟨List.mem_cons_of_mem _ member, ?_⟩
      intro isKey
      exact distinct.1 (List.mem_map.mpr ⟨entry, member, isKey.trans same.symm⟩)
    · next other =>
      rcases List.mem_cons.mp member with rfl | member
      · exact .inr ⟨List.mem_cons_self, other⟩
      · exact (ih distinct.2 member).imp_right (And.imp_left (List.mem_cons_of_mem _))

/-- A value that is put keeps every key in its place. -/
theorem nodup_put (distinct : (entries.map Prod.fst).Nodup) :
    ((put key value entries).map Prod.fst).Nodup := by
  induction entries with
  | nil => simp [put]
  | cons entry entries ih =>
    rw [List.map_cons, List.nodup_cons] at distinct
    rw [put]
    split
    · next same =>
      rw [List.map_cons, List.nodup_cons, ← same]
      exact distinct
    · next other =>
      rw [List.map_cons, List.nodup_cons]
      refine ⟨fun member => ?_, ih distinct.2⟩
      obtain ⟨found, isFound, same⟩ := List.mem_map.mp member
      rcases mem_of_mem_put isFound with rfl | isFound
      · exact other same.symm
      · exact distinct.1 (same ▸ List.mem_map_of_mem isFound)

/-! ## Entries that are put one after the other -/

variable {written before other : Entries κ α}

/-- Entries put one after the other. -/
def putAll (written before : Entries κ α) : Entries κ α :=
  written.foldl (fun made entry => put entry.1 entry.2 made) before

@[simp] theorem putAll_cons (entry : κ × α) (written before : Entries κ α) :
    putAll (entry :: written) before = putAll written (put entry.1 entry.2 before) := rfl

/-- The last entry is put last. -/
theorem putAll_concat (written : Entries κ α) (entry : κ × α) (before : Entries κ α) :
    putAll (written ++ [entry]) before = put entry.1 entry.2 (putAll written before) := by
  rw [putAll, List.foldl_append]
  rfl

/-- Entries under different keys stay as they are. -/
theorem putAll_of_nodup (distinct : ((before ++ written).map Prod.fst).Nodup) :
    putAll written before = before ++ written := by
  induction written generalizing before with
  | nil => exact (List.append_nil before).symm
  | cons entry written ih =>
    have fresh : entry.1 ∉ before.map Prod.fst := by
      rw [List.map_append, List.map_cons] at distinct
      exact fun member => List.disjoint_of_nodup_append distinct member List.mem_cons_self
    have regroup : before ++ entry :: written = before ++ [(entry.1, entry.2)] ++ written := by simp
    rw [putAll_cons, put_of_fresh fresh, regroup]
    exact ih (regroup ▸ distinct)

/-- Putting keeps the order of the keys, with a new one at the end. -/
theorem keys_put : (put key value entries).map Prod.fst =
    if key ∈ entries.map Prod.fst then entries.map Prod.fst else entries.map Prod.fst ++ [key] := by
  by_cases there : key ∈ entries.map Prod.fst
  · rw [if_pos there]
    induction entries with
    | nil => cases there
    | cons entry entries ih =>
      rw [put]
      split
      · next same => rw [List.map_cons, List.map_cons, same]
      · next other =>
        rw [List.map_cons, List.map_cons, ih ((List.mem_cons.mp there).resolve_left (Ne.symm other))]
  · rw [if_neg there, put_of_fresh there, List.map_append]
    rfl

theorem get?_of_not_mem (absent : key ∉ entries.map Prod.fst) : get? key entries = none := by
  rw [get?, Option.map_eq_none_iff, List.find?_eq_none]
  intro entry member same
  exact absent (List.mem_map.mpr ⟨entry, member, of_decide_eq_true same⟩)

/-- Entries are told by their keys in order and the values under them. -/
theorem ext (keys : entries.map Prod.fst = other.map Prod.fst) (distinct : (entries.map Prod.fst).Nodup)
    (values : ∀ key, get? key entries = get? key other) : entries = other := by
  induction entries generalizing other with
  | nil => exact (List.map_eq_nil_iff.mp keys.symm).symm
  | cons entry entries ih =>
    cases other with
    | nil => cases keys
    | cons entry' other =>
      obtain ⟨key, value⟩ := entry
      obtain ⟨key', value'⟩ := entry'
      obtain ⟨rfl, others⟩ := List.cons.inj keys
      have here := values key
      rw [get?_cons, get?_cons, if_pos rfl, if_pos rfl] at here
      obtain ⟨absent, distinct⟩ := List.nodup_cons.mp distinct
      rw [Option.some.inj here, ih others distinct fun found => ?_]
      by_cases same : key = found
      · subst same
        rw [get?_of_not_mem absent, get?_of_not_mem (others ▸ absent)]
      · have further := values found
        rwa [get?_cons, get?_cons, if_neg same, if_neg same] at further

/-- What is left of entries of which later ones override earlier ones under the same key: each key where it came
first, with the value that came last. -/
structure Overrides (written found : Entries κ α) : Prop where
  keys : found.map Prod.fst = (written.map Prod.fst).eraseDups
  values : ∀ key, get? key found = get? key written.reverse

/-- Entries that were put have distinct keys. -/
theorem nodup_putAll (written : Entries κ α) : ((putAll written []).map Prod.fst).Nodup := by
  induction written using List.reverseRecOn with
  | nil => exact List.nodup_nil
  | append_singleton written entry ih =>
    rw [putAll_concat]
    exact nodup_put ih

/-- Entries that were put one after the other override each other. -/
theorem overrides_putAll (written : Entries κ α) : Overrides written (putAll written []) := by
  induction written using List.reverseRecOn with
  | nil => exact ⟨rfl, fun _ => rfl⟩
  | append_singleton written entry ih =>
    rw [putAll_concat]
    constructor
    · rw [keys_put, ih.keys, List.map_append, List.eraseDups_append, List.map_singleton]
      by_cases there : entry.1 ∈ written.map Prod.fst
      · simp [List.removeAll, there]
      · simp [List.removeAll, there, List.eraseDups_cons]
    · intro key
      rw [get?_put, ih.values, List.reverse_append, List.reverse_singleton, List.singleton_append, get?_cons]

theorem Overrides.eq_putAll (overrides : Overrides written entries) : entries = putAll written [] := by
  have other := overrides_putAll written
  have keys := overrides.keys.trans other.keys.symm
  exact ext keys (keys ▸ nodup_putAll written) fun key => (overrides.values key).trans (other.values key).symm

end Entries

end JasmineConversion
