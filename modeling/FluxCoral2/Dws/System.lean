import FluxCoral2.Library.Machine
import FluxCoral2.Dws.Epilog
import FluxCoral2.Dws.Service

/-! The plugin, the service and the workflow object of one job.

The plugin's requests, the service's responses and its requests to remove the prolog or
the epilog are delivered once each, in any order. The API server keeps the versions of
the workflow object; the watch gives them to the service in order, but late and any
number of times. A requested Teardown or deletion is tried until it is done. Nothing
restarts. -/
namespace FluxCoral2.Dws
open Library Jobtap

/-! ### States -/

/-- The response to a request: whether the service's callback returned. -/
structure Reply where
  rpc : Rpc
  success : Bool
  deriving DecidableEq

def Reply.event (m : Reply) : Option Event :=
  let r := if m.success then Response.success else .failure
  match m.rpc with
  | .create _ => some (.createResponse r)
  | .setup _ => some (.setupResponse r)
  | .postRun _ => some (.postRunResponse r)
  | _ => none

/-- What the service asks the plugin to remove. -/
inductive Remove | prolog | epilog
  deriving DecidableEq

def Remove.event : Remove → Event
  | .prolog => .prologRemove false
  | .epilog => .epilogRemove false

/-- `rpcs`, `replies` and `removes` are in flight. `versions` are those of the workflow
object, from the last one the watch has given to the service. `answered` and `log` record
what the service answered and did. -/
structure System where
  job : Job := {}
  service : Service := {}
  looked : Bool := false
  rpcs : List Rpc := []
  replies : List Reply := []
  removes : List Remove := []
  versions : List Snapshot := []
  answered : List Reply := []
  log : List Out := []

/-- The workflow object as it is now. -/
def currentWorkflow (versions : List Snapshot) : Option Workflow :=
  match versions.getLast? with
  | some (.workflow workflow) => some workflow
  | _ => none

/-- What an action of the service makes of the workflow object. -/
def Out.version (versions : List Snapshot) : Out → List Snapshot
  | .created => versions ++ [.workflow {desiredState := .proposal, state := none, ready := false}]
  | .patchDesired desiredState true =>
    match currentWorkflow versions with
    | some workflow => versions ++ [.workflow {workflow with desiredState := desiredState}]
    | none => versions
  | _ => versions

def Out.remove? : Out → Option Remove
  | .prologRemove => some .prolog
  | .epilogRemove => some .epilog
  | _ => none

/-! ### Steps -/

/-- Run a callback of the service. -/
def System.run (s : System) (callback : Cb Unit) : Bool × System :=
  let (success, service) := respond callback {s.service with out := []}
  (success, {s with
    service := service
    removes := s.removes ++ service.out.filterMap Out.remove?
    versions := service.out.foldl Out.version s.versions
    log := s.log ++ service.out})

/-- An event of the job; new requests of the plugin are in flight. -/
def System.event (timeout : Bool) (s : System) (e : Event) : System :=
  let job := e.apply timeout s.job
  {s with job := job, rpcs := s.rpcs ++ job.rpcs.drop s.job.rpcs.length}

inductive Action
  | job (e : Event)
  | lookup (R : Option (List String)) (calloc : Bool) (setup : Sent)
  | reply (m : Reply)
  | remove (r : Remove)
  | serve (r : Rpc) (o : Outcomes)
  | watch (n : Nat) (o : Outcomes)
  | timer (i : Nat) (o : Outcomes)
  | killInTc (tcTimeout : Int) (o : Outcomes)
  | status (workflow : Workflow)
  | teardown
  | vanish

/-- The outcomes are those of a service that sees the workflow object as it is. -/
structure Outcomes.Fits (o : Outcomes) (s : System) : Prop where
  found : o.found = (currentWorkflow s.versions).isSome
  sound : o.raises .getWorkflow ≠ some (.apiException 404)

/-- When an action is possible. The status of the workflow changes under the desired
state it has; Teardown and deletion are made when they have been requested. -/
def Action.Enabled (s : System) : Action → Prop
  | .job e => e.isMessage = false ∧ e.Enabled s.job
  | .lookup _ _ _ => s.looked = false ∧ .lookupR ∈ s.job.calls
  | .reply m => m ∈ s.replies
  | .remove r => r ∈ s.removes
  | .serve r o => r ∈ s.rpcs ∧ o.Fits s
  | .watch n o => n < s.versions.length ∧ o.Fits s
  | .timer i o => (∃ t, s.service.timers[i]? = some t ∧ t.running = true) ∧ o.Fits s
  | .killInTc _ o => o.Fits s
  | .status workflow => ∃ w, currentWorkflow s.versions = some w ∧ workflow.desiredState = w.desiredState
  | .teardown => .teardownWorkflow ∈ s.log ∧ (currentWorkflow s.versions).isSome = true
  | .vanish => .deleteWorkflow ∈ s.log ∧ (currentWorkflow s.versions).isSome = true

def Action.next (cfg : Config) (timeout : Bool) (s : System) : Action → System
  | .job e => s.event timeout e
  | .lookup R calloc setup => {s with looked := true}.event timeout (.fetchR R calloc setup)
  | .reply m =>
    let s := {s with replies := s.replies.erase m}
    match m.event with
    | some e => s.event timeout e
    | none => s
  | .remove r => {s with removes := s.removes.erase r}.event timeout r.event
  | .serve r o =>
    let (success, s) := {s with rpcs := s.rpcs.erase r}.run (requestCb cfg o r)
    {s with replies := s.replies ++ [⟨r, success⟩], answered := s.answered ++ [⟨r, success⟩]}
  | .watch n o =>
    match s.versions[n]? with
    | some event => ({s with versions := s.versions.drop n}.run (workflowStateChangeCb cfg o event)).2
    | none => s
  | .timer i o =>
    match s.service.timers[i]? with
    | some t => (s.run (timerCallback i (t.callback cfg o))).2
    | none => s
  | .killInTc tcTimeout o => (s.run (do let _ ← killWorkflowInTc cfg o tcTimeout)).2
  | .status workflow => {s with versions := s.versions ++ [.workflow workflow]}
  | .teardown =>
    match currentWorkflow s.versions with
    | some workflow => {s with versions := s.versions ++ [.workflow {workflow with desiredState := .teardown}]}
    | none => s
  | .vanish => {s with versions := s.versions ++ [.deleted]}

/-- The system under a configuration; `timeout` says that `epilog-timeout` is configured. -/
def systemMachine (cfg : Config) (timeout : Bool) : Machine System Action :=
  ⟨{}, Action.Enabled, Action.next cfg timeout⟩

/-! ### Runs -/

instance (o : Outcomes) (s : System) : Decidable (o.Fits s) :=
  decidable_of_iff (o.found = (currentWorkflow s.versions).isSome ∧
    o.raises .getWorkflow ≠ some (.apiException 404)) ⟨fun h => ⟨h.1, h.2⟩, fun h => ⟨h.found, h.sound⟩⟩

instance (s : System) (a : Action) : Decidable (a.Enabled s) := by
  cases a with
  | timer i o =>
    unfold Action.Enabled
    cases s.service.timers[i]? <;> infer_instance
  | status workflow =>
    unfold Action.Enabled
    cases currentWorkflow s.versions <;> infer_instance
  | _ =>
    unfold Action.Enabled
    infer_instance

instance (cfg : Config) (timeout : Bool) (s : System) (a : Action) :
    Decidable ((systemMachine cfg timeout).enabled s a) :=
  inferInstanceAs (Decidable (a.Enabled s))

def nodeConfig : Config where
  lib := Rabbit.namedHosts
  layout := Rabbit.oneRabbit

def complete (state : WorkflowState) : Workflow := {desiredState := state, state := some state, ready := true}

/-- A job on one node up to the start of its tasks. -/
def running : List Action :=
  [.job (.depend 0 .ok), .serve (.create 0) {found := false}, .reply ⟨.create 0, true⟩,
    .status (complete .proposal), .watch 1 {}, .job (.run {}), .lookup (some ["node1"]) true .ok,
    .serve (.setup ["node1"]) {}, .reply ⟨.setup ["node1"], true⟩, .status (complete .setup), .watch 2 {},
    .status (complete .dataIn), .watch 2 {}, .status (complete .preRun), .watch 2 {}, .remove .prolog,
    .job .startRequest, .job .start]

/-- The job runs to its end, and its workflow is torn down after it. -/
def completed : List Action := running ++
  [.job .finish, .job (.finishCb {}), .job (.cleanupCb {}), .serve (.postRun true) {},
    .reply ⟨.postRun true, true⟩, .status (complete .postRun), .watch 2 {}, .status (complete .dataOut), .watch 2 {},
    .teardown, .status (complete .teardown), .watch 2 {}, .remove .epilog]

end FluxCoral2.Dws
