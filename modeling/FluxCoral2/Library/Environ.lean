import FluxCoral2.Library.Dict

/-! An environment of variables, set one after the other.

Which variables cannot be set is an argument. What is read of a variable behind some calls is
read off the list of what they set (`get?_setenvs`). -/
namespace Library.Environ
variable {κ ν : Type} [DecidableEq κ]

/-- Setting a variable replaces its value. -/
def setenv (ok : κ → Bool) (env : Dict κ ν) (name : κ) (value : ν) : Option (Dict κ ν) :=
  if ok name then some (env.set name value) else none

def unsetenv (env : Dict κ ν) (name : κ) : Dict κ ν := env.del name

/-- Whether all are set; those before the one that fails are set. -/
def setenvs (ok : κ → Bool) : List (κ × ν) → Dict κ ν → Bool × Dict κ ν
  | [], env => (true, env)
  | (name, value) :: rest, env =>
    match setenv ok env name value with
    | none => (false, env)
    | some env => setenvs ok rest env

/-- The value that is set for a name. -/
def valueOf (vars : List (κ × ν)) (name : κ) : Option ν := (vars.find? fun var => var.1 = name).map Prod.snd

section
variable {ok : κ → Bool} {env env' : Dict κ ν} {vars : List (κ × ν)} {name : κ} {value : ν}

theorem setenv_some (h : setenv ok env name value = some env') : env' = env.set name value := by
  unfold setenv at h
  split at h
  · exact (Option.some.inj h).symm
  · cases h

/-- Whatever comes of it, no other variable is touched. -/
theorem get?_setenvs_other (h : name ∉ vars.map Prod.fst) (env : Dict κ ν) :
    (setenvs ok vars env).2.get? name = env.get? name := by
  induction vars generalizing env with
  | nil => rfl
  | cons var rest ih =>
    rw [List.map_cons, List.mem_cons, not_or] at h
    rw [setenvs]
    cases hset : setenv ok env var.1 var.2 with
    | none => rfl
    | some env' =>
      refine (ih h.2 env').trans ?_
      rw [setenv_some hset, Dict.get?_set_ne _ _ h.1]

theorem setenvs_success (h : setenvs ok vars env = (true, env')) :
    env' = vars.foldl (fun env var => env.set var.1 var.2) env := by
  induction vars generalizing env with
  | nil => exact (Prod.mk.inj h).2.symm
  | cons var rest ih =>
    rw [setenvs] at h
    cases hset : setenv ok env var.1 var.2 with
    | none => simp [hset] at h
    | some mid =>
      rw [hset] at h
      rw [ih h, setenv_some hset]
      rfl

theorem get?_setenvs (hn : (vars.map Prod.fst).Nodup) (h : setenvs ok vars env = (true, env')) (name : κ) :
    env'.get? name = (valueOf vars name).or (env.get? name) := by
  rw [setenvs_success h]
  exact Dict.get?_foldl_set vars hn env name

theorem get?_unset_of_notMem {names : List κ} (h : name ∉ names) (env : Dict κ ν) :
    (names.foldl unsetenv env).get? name = env.get? name := by
  induction names generalizing env with
  | nil => rfl
  | cons first rest ih =>
    rw [List.mem_cons, not_or] at h
    rw [List.foldl_cons, ih h.2, unsetenv, Dict.get?_del, if_neg h.1]

theorem get?_unset_of_mem {names : List κ} (h : name ∈ names) (env : Dict κ ν) :
    (names.foldl unsetenv env).get? name = none := by
  induction names generalizing env with
  | nil => cases h
  | cons first rest ih =>
    rw [List.foldl_cons]
    by_cases hrest : name ∈ rest
    · exact ih hrest _
    · rw [get?_unset_of_notMem hrest, unsetenv, Dict.get?_del, if_pos ((List.mem_cons.mp h).resolve_right hrest)]

theorem valueOf_eq_some (hn : (vars.map Prod.fst).Nodup) : valueOf vars name = some value ↔ (name, value) ∈ vars := by
  constructor
  · intro h
    obtain ⟨var, hvar, rfl⟩ := Option.map_eq_some_iff.mp h
    have hname : var.1 = name := by simpa using List.find?_some hvar
    exact hname ▸ List.mem_of_find?_eq_some hvar
  · intro h
    exact (Dict.get?_eq_some ⟨vars, hn⟩ name value).mpr h

theorem valueOf_eq_none (h : name ∉ vars.map Prod.fst) : valueOf vars name = none := by
  refine Option.map_eq_none_iff.mpr (List.find?_eq_none.mpr fun var hvar hname => h ?_)
  exact decide_eq_true_iff.mp hname ▸ List.mem_map_of_mem hvar

end

end Library.Environ
