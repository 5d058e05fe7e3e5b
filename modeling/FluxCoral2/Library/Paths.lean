import Mathlib

/-! Paths of names, and numbered names.

A path is its names, each behind a slash; where no name below the root has a slash of its
own the path determines them (`joinPath_cons_inj`). A name that ends in a number determines
the number. -/
namespace Library

/-- The names, each behind a slash. -/
def joinPath (parts : List String) : String := parts.foldl (fun path part => path ++ "/" ++ part) ""

def Plain (name : String) : Prop := '/' ∉ name.toList

theorem toList_joinPath (parts : List String) :
    (joinPath parts).toList = parts.flatMap fun part => '/' :: part.toList := by
  have hfold (path : String) (parts : List String) :
      (parts.foldl (fun path part => path ++ "/" ++ part) path).toList =
        path.toList ++ parts.flatMap fun part => '/' :: part.toList := by
    induction parts generalizing path with
    | nil => simp
    | cons part rest ih => simp [ih]
  exact hfold "" parts

/-- What is up to the first slash. -/
theorem append_slash_inj {xs ys xs' ys' : List Char} (hxs : '/' ∉ xs) (hys : '/' ∉ ys)
    (hxs' : xs' = [] ∨ ∃ t, xs' = '/' :: t) (hys' : ys' = [] ∨ ∃ t, ys' = '/' :: t)
    (h : xs ++ xs' = ys ++ ys') : xs = ys ∧ xs' = ys' := by
  induction xs generalizing ys with
  | nil =>
    cases ys with
    | nil => exact ⟨rfl, h⟩
    | cons y ys =>
      rw [List.nil_append, List.cons_append] at h
      rcases hxs' with rfl | ⟨t, rfl⟩
      · cases h
      · exact absurd ((List.cons.inj h).1 ▸ List.mem_cons_self) hys
  | cons x xs ih =>
    cases ys with
    | nil =>
      rw [List.nil_append, List.cons_append] at h
      rcases hys' with rfl | ⟨t, rfl⟩
      · cases h
      · exact absurd ((List.cons.inj h).1 ▸ List.mem_cons_self) hxs
    | cons y ys =>
      obtain ⟨hhead, htail⟩ := List.cons.inj h
      obtain ⟨hrest, hafter⟩ := ih (fun hmem => hxs (List.mem_cons_of_mem _ hmem))
        (fun hmem => hys (List.mem_cons_of_mem _ hmem)) htail
      exact ⟨by rw [hhead, hrest], hafter⟩

theorem flatMap_slash (parts : List String) :
    (parts.flatMap fun part => '/' :: part.toList) = [] ∨
      ∃ t, (parts.flatMap fun part => '/' :: part.toList) = '/' :: t := by
  cases parts with
  | nil => exact .inl rfl
  | cons part rest => exact .inr ⟨_, rfl⟩

theorem flatMap_slash_inj {parts parts' : List String} (h : ∀ p ∈ parts, Plain p) (h' : ∀ p ∈ parts', Plain p)
    (heq : (parts.flatMap fun part => '/' :: part.toList) = parts'.flatMap fun part => '/' :: part.toList) :
    parts = parts' := by
  induction parts generalizing parts' with
  | nil =>
    cases parts' with
    | nil => rfl
    | cons part rest => cases heq
  | cons part rest ih =>
    cases parts' with
    | nil => cases heq
    | cons part' rest' =>
      obtain ⟨hpart, hrest⟩ := List.forall_mem_cons.mp h
      obtain ⟨hpart', hrest'⟩ := List.forall_mem_cons.mp h'
      rw [List.flatMap_cons, List.flatMap_cons, List.cons_append, List.cons_append] at heq
      obtain ⟨hname, heq⟩ :=
        append_slash_inj hpart hpart' (flatMap_slash rest) (flatMap_slash rest') (List.cons.inj heq).2
      rw [String.toList_inj.mp hname, ih hrest hrest' heq]

/-- A path says its names, but for the slashes of the root's name. -/
theorem joinPath_cons_inj {root : String} {parts parts' : List String} (h : ∀ p ∈ parts, Plain p)
    (h' : ∀ p ∈ parts', Plain p) (heq : joinPath (root :: parts) = joinPath (root :: parts')) : parts = parts' := by
  have hlist := congrArg String.toList heq
  rw [toList_joinPath, toList_joinPath, List.flatMap_cons, List.flatMap_cons] at hlist
  exact flatMap_slash_inj h h' (List.append_cancel_left hlist)

/-! ### Numbered names -/

/-- The name after the last slash. -/
theorem plain_inj {above above' name name' : String} (h : Plain name) (h' : Plain name')
    (heq : above ++ "/" ++ name = above' ++ "/" ++ name') : name = name' := by
  have hchars := congrArg (fun path => path.toList.reverse) heq
  simp only [String.toList_append, List.reverse_append, List.append_assoc] at hchars
  have hslash (path : List Char) : ∃ t, ("/".toList.reverse ++ path) = '/' :: t := ⟨path, rfl⟩
  have hname := (append_slash_inj (by simpa [Plain] using h) (by simpa [Plain] using h')
    (.inr (hslash _)) (.inr (hslash _)) hchars).1
  exact String.toList_inj.mp (List.reverse_inj.mp hname)

theorem append_toString_inj (name : String) {m n : Nat} : name ++ toString m = name ++ toString n ↔ m = n := by
  rw [String.append_right_inj]
  exact Nat.repr_inj

theorem plain_append_toString {name : String} (h : Plain name) (n : Nat) : Plain (name ++ toString n) := by
  unfold Plain
  rw [String.toList_append, List.mem_append]
  rintro (hmem | hmem)
  · exact h hmem
  · have hdigits : '/' ∈ Nat.toDigits 10 n := by
      simpa [toString, Nat.repr] using hmem
    have hdigit := Nat.isDigit_of_mem_toDigits (by decide) (by decide) hdigits
    cases hdigit

end Library
