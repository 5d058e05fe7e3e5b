import FluxCoral2.Library.Argz

/-! The library path of a task (`remove_path_from_cmd_env`, `libpals_task_init`).

A task is not to find the PMI library of Flux, so its directory is taken out of
LD_LIBRARY_PATH. A call splits the value, takes out the first entry that is the directory, and
joins the others; it is called until it finds none. `libraryPath_edited`: this ends, and takes
out the directory wherever it is, and nothing else but colons. -/
namespace FluxCoral2.CrayPals
open Library

abbrev Text := List Char

/-- What one call makes of the variable, if it finds the path in it. -/
def removePathFromCmdEnv (path : Text) : Option Text → Option (Option Text)
  | none => none
  | some searchpath =>
    let argz := Argz.createSep ':' searchpath
    if argz.contains path then
      let argz := argz.erase path
      -- only the first of the entries that are left is looked at
      if argz.head?.any fun entry => !entry.isEmpty then some (some (Argz.stringify ':' argz)) else some none
    else none

/-- What is in the variable, which has nothing if it is unset. -/
def allComponents : Option Text → List Text
  | none => []
  | some searchpath => searchpath.splitOn ':'

def components (searchpath : Option Text) : List Text := Argz.nonempty (allComponents searchpath)

/-! ### One call -/

section Call
variable {path : Text} {env env' : Option Text}

/-- The entries of the variable. -/
def entries : Option Text → List Text
  | none => []
  | some searchpath => Argz.createSep ':' searchpath

theorem nonempty_entries (env : Option Text) : Argz.nonempty (entries env) = components env := by
  cases env with
  | none => rfl
  | some searchpath => exact Argz.nonempty_createSep searchpath

theorem mem_entries_components {entry : Text} (h : entry ∈ entries env) : entry ∈ allComponents env := by
  cases env with
  | none => cases h
  | some searchpath => exact Argz.createSep_sublist.subset h

theorem removePathFromCmdEnv_eq_none : removePathFromCmdEnv path env = none ↔ path ∉ entries env := by
  cases env with
  | none => exact iff_of_true rfl List.not_mem_nil
  | some searchpath =>
    unfold removePathFromCmdEnv entries
    dsimp only
    by_cases hmem : path ∈ Argz.createSep ':' searchpath
    · rw [if_pos (List.contains_iff_mem.mpr hmem)]
      refine iff_of_false ?_ fun h => h hmem
      split <;> exact nofun
    · rw [if_neg (mt List.contains_iff_mem.mp hmem)]
      exact iff_of_true rfl hmem

/-- What is left of the variable has the entries without one that is the path. -/
structure Removed (path : Text) (env env' : Option Text) : Prop where
  mem : path ∈ entries env
  rest : components env' = Argz.nonempty ((entries env).erase path)
  unset : env' = none ↔ components env' = []
  shorter : Argz.len (entries env') < Argz.len (entries env)

theorem removed (h : removePathFromCmdEnv path env = some env') : Removed path env env' := by
  cases env with
  | none => cases h
  | some searchpath =>
    unfold removePathFromCmdEnv at h
    dsimp only at h
    by_cases hmem : path ∈ Argz.createSep ':' searchpath
    · rw [if_pos (List.contains_iff_mem.mpr hmem)] at h
      have hpacked : Argz.Packed ((Argz.createSep ':' searchpath).erase path) := Argz.packed_createSep.erase path
      have hlen := Argz.len_erase hmem
      by_cases hhead : (((Argz.createSep ':' searchpath).erase path).head?.any fun entry => !entry.isEmpty) = true
      · rw [if_pos hhead] at h
        obtain rfl := Option.some.inj h
        have hsome := hpacked.head?_iff.mp hhead
        have hne : (Argz.createSep ':' searchpath).erase path ≠ [] := fun hnil => hsome (by rw [hnil]; rfl)
        have hsep : ∀ e ∈ (Argz.createSep ':' searchpath).erase path, ':' ∉ e := fun e he =>
          Argz.sep_notMem_createSep e (List.mem_of_mem_erase he)
        have hleft : components (some (Argz.stringify ':' ((Argz.createSep ':' searchpath).erase path))) =
            Argz.nonempty ((Argz.createSep ':' searchpath).erase path) :=
          congrArg Argz.nonempty (Argz.splitOn_stringify hsep hne)
        refine ⟨hmem, hleft, iff_of_false nofun (hleft ▸ hsome), ?_⟩
        refine Nat.lt_of_le_of_lt (Argz.len_createSep_stringify_le hne) ?_
        show Argz.len _ < Argz.len (Argz.createSep _ _)
        omega
      · rw [if_neg hhead] at h
        obtain rfl := Option.some.inj h
        have hnone : Argz.nonempty ((Argz.createSep ':' searchpath).erase path) = [] :=
          Decidable.not_not.mp fun hne => hhead (hpacked.head?_iff.mpr hne)
        refine ⟨hmem, hnone.symm, iff_of_true rfl rfl, ?_⟩
        show 0 < Argz.len (Argz.createSep _ _)
        omega
    · rw [if_neg (mt List.contains_iff_mem.mp hmem)] at h
      cases h

end Call

/-- The loop of `libpals_task_init`, with the number of times that the path is removed. -/
def editLibraryPath (path : Text) (env : Option Text) : Option Text × Nat :=
  match h : removePathFromCmdEnv path env with
  | none => (env, 0)
  | some env' =>
    have := (removed h).shorter
    let (edited, removals) := editLibraryPath path env'
    (edited, removals + 1)
termination_by Argz.len (entries env)

/-- The path is taken out of what is in the variable, once for each time it is there. The
variable is unset by nothing but that, and stays as it is if the path is not there. -/
structure Edited (path : Text) (before after : Option Text) (removals : Nat) : Prop where
  rest : components after = (components before).filter fun component => component ≠ path
  unset : after = none ↔ before = none ∨ 0 < removals ∧ components after = []
  unchanged : path ∉ allComponents before → after = before
  count : path ≠ [] → removals = (allComponents before).count path

/-! ### The loop -/

/-- What holds of a last call, and before a call if it does behind it, holds of the loop. -/
theorem editLibraryPath_rule {path : Text} {P : Option Text → Option Text → Nat → Prop}
    (hdone : ∀ env, removePathFromCmdEnv path env = none → P env env 0)
    (hagain : ∀ env env' after removals, removePathFromCmdEnv path env = some env' → P env' after removals →
      P env after (removals + 1)) (env : Option Text) :
    P env (editLibraryPath path env).1 (editLibraryPath path env).2 := by
  fun_induction editLibraryPath path env with
  | case1 env h => exact hdone env h
  | case2 env env' h _ after removals hrest ih =>
    rw [hrest] at ih
    exact hagain env env' after removals h ih

section Loop
variable {path : Text} {env env' after : Option Text} {removals : Nat}

theorem mem_components {component : Text} :
    component ∈ components env ↔ component ∈ allComponents env ∧ component ≠ [] := by
  simp [components, Argz.nonempty]

theorem count_components (h : path ≠ []) : (components env).count path = (allComponents env).count path :=
  List.count_filter (by simpa using h)

theorem Edited.done (h : removePathFromCmdEnv path env = none) : Edited path env env 0 := by
  have hnone : path ∉ components env := by
    rw [← nonempty_entries]
    exact fun hmem => removePathFromCmdEnv_eq_none.mp h (List.mem_filter.mp hmem).1
  refine ⟨?_, by simp, fun _ => rfl, fun hpath => ?_⟩
  · refine (List.filter_eq_self.mpr fun component hmem => ?_).symm
    simpa using fun heq : component = path => hnone (heq ▸ hmem)
  · rw [← count_components hpath]
    exact (List.count_eq_zero.mpr hnone).symm

/-- A call takes out one of the components that are the path, and leaves the others. -/
theorem Edited.again (h : Removed path env env') (hafter : Edited path env' after removals)
    (hunset : after = none ↔ components after = []) : Edited path env after (removals + 1) := by
  refine ⟨?_, ?_, fun hnot => absurd (mem_entries_components h.mem) hnot, fun hpath => ?_⟩
  · rw [hafter.rest, h.rest, ← nonempty_entries]
    unfold Argz.nonempty
    rw [List.filter_filter, List.filter_filter]
    exact Argz.filter_erase_of_neg (by simp) _
  · have hset : env ≠ none := by
      rintro rfl
      exact absurd h.mem List.not_mem_nil
    rw [or_iff_right hset, and_iff_right (Nat.succ_pos removals)]
    exact hunset
  · have hcount : (components env').count path = (components env).count path - 1 := by
      rw [h.rest, ← nonempty_entries]
      unfold Argz.nonempty
      rw [List.count_filter (by simpa using hpath), List.count_filter (by simpa using hpath), List.count_erase_self]
    have hpos : 0 < (components env).count path := by
      refine List.count_pos_iff.mpr (mem_components.mpr ⟨mem_entries_components h.mem, hpath⟩)
    rw [hafter.count hpath, ← count_components hpath, ← count_components hpath, hcount]
    omega

end Loop

/-- **The library path is edited**: the loop ends, and takes the directory out of any value. -/
theorem libraryPath_edited (dir : Text) (searchpath : Option Text) :
    Edited dir searchpath (editLibraryPath dir searchpath).1 (editLibraryPath dir searchpath).2 := by
  refine (editLibraryPath_rule (P := fun before after removals => Edited dir before after removals ∧
    ((before = none ↔ components before = []) → (after = none ↔ components after = []))) ?_ ?_ searchpath).1
  · exact fun env h => ⟨.done h, fun hunset => hunset⟩
  · intro env env' after removals h hafter
    have hremoved := removed h
    have hunset := hafter.2 hremoved.unset
    exact ⟨.again hremoved hafter.1 hunset, fun _ => hunset⟩

end FluxCoral2.CrayPals
