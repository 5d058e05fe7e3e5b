import Mathlib.Algebra.GroupWithZero.Nat
import Mathlib.Data.List.Basic

/-! Argz vectors: the entries of a string between separators.

The entries are kept without those that are empty, but an empty one behind a separator at the
end stays. So no entry has another one behind it and is empty (`Packed`), which stays so when
entries are deleted, and the entries that are not empty are those of the string
(`nonempty_createSep`). -/
namespace Library.Argz
variable {α : Type}

section Definitions
variable (sep : α)

/-- The loop of `createSep`, with the entry that has begun. -/
def createFrom [DecidableEq α] (entry : List α) : List α → List (List α)
  | [] => [entry]
  | c :: rest =>
    if c = sep then
      if entry = [] then createFrom [] rest else entry :: createFrom [] rest
    else createFrom (entry ++ [c]) rest

/-- The entries of a string, which has none if it is empty. -/
def createSep [DecidableEq α] (string : List α) : List (List α) :=
  match string with
  | [] => []
  | c :: rest => createFrom sep [] (c :: rest)

/-- The entries as a string again. -/
def stringify (argz : List (List α)) : List α := [sep].intercalate argz

/-- The length of a vector, with an end of each entry. -/
def len (argz : List (List α)) : Nat := (argz.map fun entry => entry.length + 1).sum

/-- An entry that has another one behind it is not empty. -/
def Packed (argz : List (List α)) : Prop := argz.Pairwise fun entry _ => entry ≠ []

/-- The pieces that are not empty. -/
def nonempty (pieces : List (List α)) : List (List α) := pieces.filter fun piece => !piece.isEmpty

end Definitions

variable {sep : α}

theorem nonempty_cons_nil (rest : List (List α)) : nonempty ([] :: rest) = nonempty rest := rfl

theorem nonempty_cons_of_ne_nil {piece : List α} (h : piece ≠ []) (rest : List (List α)) :
    nonempty (piece :: rest) = piece :: nonempty rest := List.filter_cons_of_pos (by simpa using h)

/-! ### Creation -/

theorem notMem_entry_append {entry : List α} (h : sep ∉ entry) {c : α} (hc : ¬ c = sep) : sep ∉ entry ++ [c] := by
  intro hmem
  rcases List.mem_append.mp hmem with hmem | hmem
  · exact h hmem
  · exact hc (List.mem_singleton.mp hmem).symm

section Creation
variable [DecidableEq α] {entry s : List α}

theorem sep_notMem_createFrom (h : sep ∉ entry) : ∀ e ∈ createFrom sep entry s, sep ∉ e := by
  induction s generalizing entry with
  | nil =>
    rw [createFrom]
    exact List.forall_mem_singleton.mpr h
  | cons c s ih =>
    rw [createFrom]
    by_cases hc : c = sep
    · rw [if_pos hc]
      split
      · exact ih List.not_mem_nil
      · exact List.forall_mem_cons.mpr ⟨h, ih List.not_mem_nil⟩
    · rw [if_neg hc]
      exact ih (notMem_entry_append h hc)

theorem sep_notMem_createSep : ∀ e ∈ createSep sep s, sep ∉ e := by
  cases s with
  | nil => exact nofun
  | cons c s => exact sep_notMem_createFrom List.not_mem_nil

theorem packed_createFrom : Packed (createFrom sep entry s) := by
  induction s generalizing entry with
  | nil => exact List.pairwise_singleton _ _
  | cons c s ih =>
    rw [createFrom]
    split
    · split
      · exact ih
      · exact List.pairwise_cons.mpr ⟨fun _ _ => ‹_›, ih⟩
    · exact ih

theorem packed_createSep : Packed (createSep sep s) := by
  cases s with
  | nil => exact List.Pairwise.nil
  | cons c s => exact packed_createFrom

/-- The pieces of a string are those of the rest behind an entry that has begun. -/
theorem splitOn_entry_cons (h : sep ∉ entry) (c : α) : (entry ++ c :: s).splitOn sep =
    if c = sep then entry :: s.splitOn sep else ((entry ++ [c]) ++ s).splitOn sep := by
  split
  · rw [‹c = sep›]
    exact List.splitOn_append_cons_self_of_not_mem h s
  · rw [List.append_assoc]
    rfl

/-- The entries are pieces of the string, in their order. -/
theorem createFrom_sublist (h : sep ∉ entry) :
    (createFrom sep entry s).Sublist ((entry ++ s).splitOn sep) := by
  induction s generalizing entry with
  | nil =>
    rw [createFrom, List.append_nil, List.splitOn_eq_singleton h]
  | cons c s ih =>
    rw [createFrom, splitOn_entry_cons h]
    by_cases hc : c = sep
    · rw [if_pos hc, if_pos hc]
      split
      · exact (ih List.not_mem_nil).cons entry
      · exact (ih List.not_mem_nil).cons_cons entry
    · rw [if_neg hc, if_neg hc]
      exact ih (notMem_entry_append h hc)

theorem createSep_sublist : (createSep sep s).Sublist (s.splitOn sep) := by
  cases s with
  | nil => exact List.nil_sublist _
  | cons c s => exact createFrom_sublist List.not_mem_nil

theorem nonempty_createFrom (h : sep ∉ entry) :
    nonempty (createFrom sep entry s) = nonempty ((entry ++ s).splitOn sep) := by
  induction s generalizing entry with
  | nil => rw [createFrom, List.append_nil, List.splitOn_eq_singleton h]
  | cons c s ih =>
    rw [createFrom, splitOn_entry_cons h]
    by_cases hc : c = sep
    · rw [if_pos hc, if_pos hc]
      have hrest : nonempty (createFrom sep [] s) = nonempty (s.splitOn sep) := ih List.not_mem_nil
      by_cases he : entry = []
      · rw [if_pos he, hrest, he, nonempty_cons_nil]
      · rw [if_neg he, nonempty_cons_of_ne_nil he, nonempty_cons_of_ne_nil he, hrest]
    · rw [if_neg hc, if_neg hc]
      exact ih (notMem_entry_append h hc)

theorem nonempty_createSep (s : List α) : nonempty (createSep sep s) = nonempty (s.splitOn sep) := by
  cases s with
  | nil => rfl
  | cons c s => exact nonempty_createFrom List.not_mem_nil

theorem len_createFrom_le : len (createFrom sep entry s) ≤ entry.length + s.length + 1 := by
  induction s generalizing entry with
  | nil => simp [createFrom, len]
  | cons c s ih =>
    rw [createFrom]
    split
    · have hrest : len (createFrom sep [] s) ≤ ([] : List α).length + s.length + 1 := ih
      split
      · refine Nat.le_trans hrest ?_
        simp only [List.length_cons, List.length_nil]
        omega
      · simp only [len, List.map_cons, List.sum_cons, List.length_cons, List.length_nil] at hrest ⊢
        omega
    · refine Nat.le_trans ih ?_
      simp only [List.length_append, List.length_cons, List.length_nil]
      omega

theorem len_createSep_le (s : List α) : len (createSep sep s) ≤ s.length + 1 := by
  cases s with
  | nil => exact Nat.zero_le _
  | cons c s =>
    have hle : len (createFrom sep [] (c :: s)) ≤ ([] : List α).length + (c :: s).length + 1 := len_createFrom_le
    rwa [List.length_nil, Nat.zero_add] at hle

end Creation

/-! ### Deletion -/

section Deletion
variable {argz : List (List α)}

theorem Packed.erase [DecidableEq α] (h : Packed argz) (entry : List α) : Packed (argz.erase entry) :=
  h.sublist List.erase_sublist

/-- An entry that a test refuses is as good as deleted for it. -/
theorem filter_erase_of_neg [DecidableEq α] {p : List α → Bool} {entry : List α} (h : p entry = false)
    (argz : List (List α)) : (argz.erase entry).filter p = argz.filter p := by
  rw [← List.erase_filter, List.erase_of_not_mem]
  intro hmem
  rw [(List.mem_filter.mp hmem).2] at h
  cases h

theorem len_erase [DecidableEq α] {entry : List α} (h : entry ∈ argz) :
    len (argz.erase entry) + (entry.length + 1) = len argz := by
  have hperm := (List.perm_cons_erase h).map fun e => e.length + 1
  rw [len, len, hperm.sum_nat, List.map_cons, List.sum_cons, Nat.add_comm]

/-- Of a packed vector the first entry says whether there is one that is not empty. -/
theorem Packed.head?_iff (h : Packed argz) :
    (argz.head?.any fun entry => !entry.isEmpty) = true ↔ nonempty argz ≠ [] := by
  cases argz with
  | nil => exact iff_of_false nofun fun hne => hne rfl
  | cons entry rest =>
    by_cases he : entry = []
    · have hrest : rest = [] := by
        refine List.eq_nil_iff_forall_not_mem.mpr fun e hmem => ?_
        exact (List.pairwise_cons.mp h).1 e hmem he
      subst he hrest
      exact iff_of_false nofun fun hne => hne rfl
    · refine iff_of_true (by simpa using he) ?_
      rw [nonempty_cons_of_ne_nil he]
      exact List.cons_ne_nil _ _

end Deletion

/-! ### Strings -/

theorem splitOn_stringify [DecidableEq α] {argz : List (List α)} (hsep : ∀ e ∈ argz, sep ∉ e) (hne : argz ≠ []) :
    (stringify sep argz).splitOn sep = argz := List.splitOn_intercalate sep hsep hne

theorem length_stringify {argz : List (List α)} (hne : argz ≠ []) : (stringify sep argz).length + 1 = len argz := by
  induction argz with
  | nil => exact absurd rfl hne
  | cons entry rest ih =>
    cases rest with
    | nil => simp [stringify, len]
    | cons next rest =>
      have hrest := ih (List.cons_ne_nil _ _)
      unfold stringify len at hrest ⊢
      rw [List.intercalate_cons_cons, List.map_cons, List.sum_cons, ← hrest]
      simp only [List.length_append, List.length_cons, List.length_nil]
      omega

theorem len_createSep_stringify_le [DecidableEq α] {argz : List (List α)} (hne : argz ≠ []) :
    len (createSep sep (stringify sep argz)) ≤ len argz := by
  rw [← length_stringify hne]
  exact len_createSep_le (stringify sep argz)

end Library.Argz
