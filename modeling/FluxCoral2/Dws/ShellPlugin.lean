import FluxCoral2.Eventlog.WaitFor
import FluxCoral2.Library.Environ

/-! The variables of a rabbit job (`fetch_job_environment` of `coral2_dws.py`, `dws_environment.c`).

The workflow of a job has variables for it, to which the service adds a token that is kept
secret. Each shell of the job sets those that the job's eventlog has. A shell that goes on has
set all of them (`init_done`), and one whose calls do not fail goes on if they are strings
(`init_strings`).

The API server, the decoder of its secrets and the calls that fail are arguments. -/
namespace FluxCoral2.Dws.JobEnvironment
open Library Eventlog Library.Environ

abbrev Variables := Dict Text Json

/-! ### What the service fetches -/

/-- Where the token of a workflow is kept. -/
structure WorkflowToken where
  secretName : Option Text
  secretNamespace : Option Text

/-- `status` of a workflow. -/
structure WorkflowStatus where
  env : Option Variables
  workflowToken : Option WorkflowToken

def dwWorkflowToken : Text := "DW_WORKFLOW_TOKEN".toList

def keyToken : Text := "token".toList

/-- What the API server has for a secret, by its name and its namespace. -/
abbrev SecretsApi := Text → Text → Option (Dict Text Text)

/-- The token is decoded from base64 and UTF-8. Whatever is missing is an error. -/
def fetchJobEnvironment (b64decode : Text → Option Text) (secretsApi : SecretsApi) (status : WorkflowStatus) :
    Option Variables :=
  let vars := status.env.getD Dict.empty
  match status.workflowToken with
  | none => some vars
  | some token => do
    let name ← token.secretName
    let secretNamespace ← token.secretNamespace
    let data ← secretsApi name secretNamespace
    let encoded ← data.get? keyToken
    let decoded ← b64decode encoded
    some (vars.set dwWorkflowToken (.string decoded))

/-! ### What a shell sets -/

abbrev Environment := Dict Text Text

/-- Which calls of the plugin fail. -/
structure Calls where
  eventWatch : Bool := true
  setenv : Text → Bool := fun _ => true

def dwsEnvironment : Text := "dws_environment".toList

def keyVariables : Text := "variables".toList

/-- The loop of `set_environment`. Variables before one that is not set are set. -/
def setMembers (ok : Text → Bool) : List (Text × Json) → Environment → Bool × Environment
  | [], env => (true, env)
  | (key, .string value) :: rest, env =>
    match setenv ok env key (cString value) with
    | none => (false, env)
    | some env => setMembers ok rest env
  | _ :: _, env => (false, env)

/-- A value that is no object has no members. -/
def setEnvironment (ok : Text → Bool) (envObject : Json) (env : Environment) : Bool × Environment :=
  match envObject with
  | .object members => setMembers ok members env
  | _ => (true, env)

inductive Result
  | waiting
  | failed
  | done (env : Environment)

def readFuture (c : Calls) (outcome : Outcome) (env : Environment) : Result :=
  match outcome with
  | .waiting => .waiting
  | .failed _ => .failed
  | .returned none => .failed
  | .returned (some context) =>
    match context.get? keyVariables with
    | none => .failed
    | some envObject =>
      match setEnvironment c.setenv envObject env with
      | (true, env) => .done env
      | (false, _) => .failed

/-- `dw` is the attribute of the jobspec, if the jobspec can be read. -/
def dwsEnvironmentInit (c : Calls) (dw : Option (Option Json)) (outcome : Outcome) (env : Environment) : Result :=
  match dw with
  | none => .failed
  | some none => .done env
  | some (some _) => if !c.eventWatch then .failed else readFuture c outcome env

/-! ### Strings -/

/-- The members of an object of strings. -/
def asJson (strings : List (Text × Text)) : List (Text × Json) := strings.map fun var => (var.1, .string var.2)

/-- What is set for strings. -/
def asVars (strings : List (Text × Text)) : List (Text × Text) := strings.map fun var => (var.1, cString var.2)

theorem asJson_names (strings : List (Text × Text)) : (asJson strings).map Prod.fst = strings.map Prod.fst := by
  rw [asJson, List.map_map]
  rfl

theorem asVars_names (strings : List (Text × Text)) : (asVars strings).map Prod.fst = strings.map Prod.fst := by
  rw [asVars, List.map_map]
  rfl

section
variable {ok : Text → Bool} {env env' : Environment}

theorem setMembers_asJson (strings : List (Text × Text)) (env : Environment) :
    setMembers ok (asJson strings) env = setenvs ok (asVars strings) env := by
  induction strings generalizing env with
  | nil => rfl
  | cons var rest ih =>
    show setMembers ok ((var.1, .string var.2) :: asJson rest) env =
      setenvs ok ((var.1, cString var.2) :: asVars rest) env
    rw [setMembers, setenvs]
    cases setenv ok env var.1 (cString var.2) with
    | none => rfl
    | some env => exact ih env

/-- Only strings are set. -/
theorem setMembers_success {members : List (Text × Json)} (h : setMembers ok members env = (true, env')) :
    ∃ strings, members = asJson strings := by
  induction members generalizing env with
  | nil => exact ⟨[], rfl⟩
  | cons member rest ih =>
    obtain ⟨key, value⟩ := member
    cases value with
    | string text =>
      rw [setMembers] at h
      split at h
      · cases h
      · obtain ⟨strings, rfl⟩ := ih h
        exact ⟨(key, text) :: strings, rfl⟩
    | _ => cases h

/-- If all calls succeed, all is set. -/
theorem setenvs_of_ok (hok : ∀ name, ok name = true) (vars : List (Text × Text)) (env : Environment) :
    ∃ env', setenvs ok vars env = (true, env') := by
  induction vars generalizing env with
  | nil => exact ⟨env, rfl⟩
  | cons var rest ih =>
    obtain ⟨env', hrest⟩ := ih (env.set var.1 var.2)
    refine ⟨env', ?_⟩
    rw [setenvs, setenv, if_pos (hok var.1)]
    exact hrest

end

section
variable {c : Calls} {outcome : Outcome} {env env' : Environment}

/-- A shell that goes on has set what the event has. -/
theorem init_done {dw : Json} (h : dwsEnvironmentInit c (some (some dw)) outcome env = .done env') :
    ∃ context envObject, outcome = .returned (some context) ∧ context.get? keyVariables = some envObject ∧
      setEnvironment c.setenv envObject env = (true, env') := by
  unfold dwsEnvironmentInit readFuture at h
  dsimp only at h
  split at h
  · cases h
  cases outcome with
  | waiting => cases h
  | failed error => cases h
  | returned obj =>
    cases obj with
    | none => cases h
    | some context =>
      dsimp only at h
      cases hvars : context.get? keyVariables with
      | none =>
        rw [hvars] at h
        cases h
      | some envObject =>
        rw [hvars] at h
        dsimp only at h
        split at h
        · rename_i env'' hset
          cases h
          exact ⟨context, envObject, rfl, hvars, hset⟩
        · cases h

/-- With strings, and calls that succeed, it goes on. -/
theorem init_strings (dw : Json) {context : Json} {strings : List (Text × Text)} (hwatch : c.eventWatch = true)
    (hok : ∀ name, c.setenv name = true) (hcontext : context.get? keyVariables = some (.object (asJson strings)))
    (env : Environment) :
    ∃ env', dwsEnvironmentInit c (some (some dw)) (.returned (some context)) env = .done env' := by
  obtain ⟨env', hset⟩ := setenvs_of_ok hok (asVars strings) env
  refine ⟨env', ?_⟩
  unfold dwsEnvironmentInit readFuture
  dsimp only
  rw [hwatch, hcontext, if_neg (by decide)]
  dsimp only [setEnvironment]
  rw [setMembers_asJson, hset]

theorem init_waiting {dw : Json} (h : dwsEnvironmentInit c (some (some dw)) outcome env = .waiting) :
    outcome = .waiting := by
  unfold dwsEnvironmentInit readFuture at h
  dsimp only at h
  split at h
  · cases h
  cases outcome with
  | waiting => rfl
  | failed error => cases h
  | returned obj =>
    cases obj with
    | none => cases h
    | some context =>
      dsimp only at h
      split at h
      · cases h
      · split at h <;> cases h

end

end FluxCoral2.Dws.JobEnvironment
