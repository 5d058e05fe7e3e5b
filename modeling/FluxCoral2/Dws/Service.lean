import Mathlib.Logic.Function.Basic
import FluxCoral2.Dws.Jobtap
import FluxCoral2.Dws.Mounts
import FluxCoral2.Rabbit.Storage

/-! The coral2_dws service (`coral2_dws.py`, `workflow.py`), for one job.

Handlers are programs that may raise; what they read from outside, and which of their
steps fail and how, is in `Outcomes`. The service keeps the WorkflowInfo objects of the
job by reference, since timers and the cache share them, and logs what it sends.

Writes to the KVS, log messages, memos and the properties of nodes are left out: their
errors are caught, and nothing reads them back. -/
namespace FluxCoral2.Dws
open Library

/-! ### Workflows -/

inductive WorkflowState
  | proposal | setup | dataIn | preRun | postRun | dataOut | teardown
  deriving DecidableEq

def WorkflowState.rank : WorkflowState → Nat
  | .proposal => 0
  | .setup => 1
  | .dataIn => 2
  | .preRun => 3
  | .postRun => 4
  | .dataOut => 5
  | .teardown => 6

/-- `status.status` of a workflow. -/
inductive Status | error | transientCondition | other
  deriving DecidableEq

/-- A workflow object, as far as the service reads it. -/
structure Workflow where
  desiredState : WorkflowState
  state : Option WorkflowState
  ready : Bool
  status : Status := .other
  message : String := ""
  deriving DecidableEq

def stateActive (workflow : Workflow) (state : WorkflowState) : Bool :=
  workflow.desiredState = state && workflow.state = some state

def stateComplete (workflow : Workflow) (state : WorkflowState) : Bool :=
  stateActive workflow state && workflow.ready

structure TransientConditionInfo where
  lastTime : Int
  lastMessage : String
  prerun : Bool
  deriving DecidableEq

/-- `stateTimer` is an index into the timers of the service. -/
structure WorkflowInfo where
  failureTolerance : Int := -1
  toredown : Bool := false
  deleted : Bool := false
  epilogRemoved : Bool := false
  stateTimer : Option Nat := none
  failures : List String := []
  hlist : Option (List String) := none

/-! ### The service -/

/-- What a timer guards, with what else its callback is given. -/
inductive TimerKind
  | setup (computeNodes : List String) (lustre : Bool)
  | preRun
  | postRun
  | teardownAfter

/-- `winfo` is the WorkflowInfo the callback is given, by reference. -/
structure Timer where
  kind : TimerKind
  winfo : Nat
  running : Bool

/-- What the service does to the outside. -/
inductive Out
  | created
  | patchDesired (desiredState : WorkflowState) (applied : Bool)
  | teardownWorkflow
  | deleteWorkflow
  | notify (nodes : List String)
  | forceReady (nodes : List String) (applied : Bool)
  | patchComputes (hosts : List String)
  | prologRemove
  | epilogRemove
  | resourceUpdate (refused : Bool)
  | jobRaise (type : String) (severity : Nat)
  deriving DecidableEq

/-- `cache` is the WorkflowInfo that `_WORKFLOWINFO_CACHE` has for the job, and `made` the
number of objects made; `inTc` is the job's entry in WORKFLOWS_IN_TC. -/
structure Service where
  winfos : Nat → WorkflowInfo := fun _ => {}
  made : Nat := 0
  cache : Option Nat := none
  timers : List Timer := []
  inTc : Option TransientConditionInfo := none
  out : List Out := []

/-- The configuration, and what does not change while the service runs. Each timeout says
whether it is positive. -/
structure Config where
  lib : Rabbit.HostlistPackage
  layout : Rabbit.Layout
  setupTimeout : Bool := false
  prerunTimeout : Bool := false
  postrunTimeout : Bool := false
  teardownAfter : Bool := false
  disableFluxion : Bool := false

inductive Exn
  | apiException (status : Nat)
  | valueError
  | keyError
  | userError
  | other
  deriving DecidableEq

/-- The steps of the handlers that may fail. -/
inductive Site
  | validate | createObject | getWorkflow | servers | patchWorkflow | readEvent | removeFinalizer
  | resources | jobEnvironment | markRabbitsFree | lookupR | patchComputes | disableNodes
  | disableRabbits
  deriving DecidableEq

/-- What `apply_breakdowns` makes of a job's resources. -/
inductive Breakdowns | applied | refused | unchanged
  deriving DecidableEq

/-- What a handler finds: whether the workflow object exists, which steps fail, and what
the other things it reads are. A breakdown without storage has no labels. -/
structure Outcomes where
  found : Bool := true
  raises : Site → Option Exn := fun _ => none
  clientMounts : Option (List ClientMount) := some []
  servers : Option (List Servers) := some []
  breakdowns : List (Option (List String)) := []
  applyBreakdowns : Breakdowns := .applied
  nodelist : List String := []
  now : Int := 0

abbrev Cb := Prog Exn Service

def attempt (o : Outcomes) (site : Site) : Cb Unit :=
  match o.raises site with
  | some e => throw e
  | none => pure ()

def emit (x : Out) : Cb Unit := modify fun s => {s with out := s.out ++ [x]}

def modifyWinfo (ref : Nat) (f : WorkflowInfo → WorkflowInfo) : Cb Unit :=
  modify fun s => {s with winfos := Function.update s.winfos ref (f (s.winfos ref))}

def readWinfo (ref : Nat) : Cb WorkflowInfo := do return (← get).winfos ref

/-! ### `WorkflowInfo` -/

/-- Make a WorkflowInfo and put it in the cache. -/
def WorkflowInfo.add (failureTolerance : Int) : Cb Nat := do
  let s ← get
  set {s with
    winfos := Function.update s.winfos s.made {failureTolerance := failureTolerance}
    made := s.made + 1
    cache := some s.made}
  pure s.made

def WorkflowInfo.get : Cb Nat := do
  match (← MonadState.get).cache with
  | some ref => pure ref
  | none => WorkflowInfo.add (-1)

def WorkflowInfo.remove : Cb Unit := do
  match (← MonadState.get).cache with
  | some _ => modify fun s => {s with cache := none}
  | none => throw .keyError

def stopTimer (timer : Nat) : Cb Unit :=
  modify fun s => {s with timers := s.timers.modify timer fun t => {t with running := false}}

/-- `timer_watcher_create(...).start()`. -/
def startTimer (kind : TimerKind) (ref : Nat) : Cb Nat := do
  let s ← get
  set {s with timers := s.timers ++ [Timer.mk kind ref true]}
  pure s.timers.length

/-- Stop the timer of the current state, if there is one. -/
def stopStateTimer (ref : Nat) : Cb Unit := do
  match (← readWinfo ref).stateTimer with
  | some timer => stopTimer timer
  | none => pure ()

def startStateTimer (kind : TimerKind) (ref : Nat) : Cb Unit := do
  let timer ← startTimer kind ref
  modifyWinfo ref fun w => {w with stateTimer := some timer}

def getWorkflow (o : Outcomes) : Cb Unit :=
  if !o.found then throw (.apiException 404) else attempt o .getWorkflow

/-- The patch of the workflow object, logged as `x` with whether it took effect. -/
def patchWorkflow (o : Outcomes) (x : Bool → Out) : Cb Unit := do
  emit (x (o.found && (o.raises .patchWorkflow).isNone))
  if !o.found then throw (.apiException 404) else attempt o .patchWorkflow

/-- `fetch` says that the workflow is not given. -/
def moveToTeardown (o : Outcomes) (ref : Nat) (fetch : Bool) : Cb Unit := do
  if fetch then getWorkflow o
  stopStateTimer ref
  emit .teardownWorkflow
  modifyWinfo ref fun w => {w with toredown := true}

def moveDesiredstate (o : Outcomes) (ref : Nat) (desiredState : WorkflowState) : Cb Unit := do
  stopStateTimer ref
  patchWorkflow o (.patchDesired desiredState)

def notifyOfNodeFailure (cfg : Config) (o : Outcomes) (ref : Nat) (nodes : List String) : Cb Unit := do
  match Rabbit.hostlist cfg.lib nodes with
  | none => throw .valueError
  | some hosts =>
    emit (.notify hosts)
    let hlist := cfg.lib.uniq hosts
    modifyWinfo ref fun w => {w with failures := cfg.lib.uniq (w.failures ++ hlist)}
    let w ← readWinfo ref
    if w.failures.length ≤ w.failureTolerance then
      emit (.jobRaise "dws-node-failure" 1)
      patchWorkflow o (.forceReady hosts)
    else throw .valueError

def patchComputesObject (cfg : Config) (o : Outcomes) (ref : Nat) : Cb Unit := do
  if (← readWinfo ref).hlist.isNone then
    attempt o .lookupR
    match Rabbit.hostlist cfg.lib o.nodelist with
    | none => throw .valueError
    | some hosts => modifyWinfo ref fun w => {w with hlist := some (cfg.lib.uniq hosts)}
  modifyWinfo ref fun w => {w with hlist := w.hlist.map fun hosts => hosts.filter (· ∉ w.failures)}
  let w ← readWinfo ref
  attempt o .patchComputes
  emit (.patchComputes ((w.hlist.getD []).filter fun h => !cfg.layout.rabbitsToHostlists.contains h))

/-! ### Timers -/

/-- `timer_callback_wrapper`: errors become job exceptions, and the timer is stopped. -/
def timerCallback (timer : Nat) (callback : Cb Unit) : Cb Unit := do
  tryCatch callback fun _ => emit (.jobRaise "dws-timer-error" 0)
  stopTimer timer

/-- `set_property`: the names of the nodes are encoded for the log. -/
def setProperty (cfg : Config) (downNodes : List String) : Cb Unit :=
  if (Rabbit.hostlist cfg.lib downNodes).isNone then throw .valueError else pure ()

def prerunTimeoutCb (cfg : Config) (o : Outcomes) (ref : Nat) : Cb Unit := do
  if (← readWinfo ref).failureTolerance ≤ 0 then emit (.jobRaise "dws-timeout" 0)
  else
    let notMounted := getClientmountsNotInState "mounted" o.clientMounts
    setProperty cfg notMounted
    tryCatch (notifyOfNodeFailure cfg o ref notMounted) fun e =>
      if e = .valueError then emit (.jobRaise "dws-timeout" 0) else throw e

/-- The loop of `setup_timeout_cb`: the hosts of the job whose rabbit is not ready. -/
def nodeFailures (layout : Rabbit.Layout) (notReady : List String) : List String → Option (List String)
  | [] => some []
  | hostname :: rest => do
    let rabbit ← layout.hostnamesToRabbits.get? hostname
    let failures ← nodeFailures layout notReady rest
    pure (if rabbit ∈ notReady then hostname :: failures else failures)

def setupTimeoutCb (cfg : Config) (o : Outcomes) (ref : Nat) (computeNodes : List String) (lustre : Bool) :
    Cb Unit := do
  if (← readWinfo ref).failureTolerance ≤ 0 || lustre then emit (.jobRaise "dws-timeout" 0)
  else
    match nodeFailures cfg.layout (getServersWithCondition notReady o.servers) computeNodes with
    | none => throw .keyError
    | some failures =>
      tryCatch (notifyOfNodeFailure cfg o ref failures) fun e =>
        if e = .valueError then emit (.jobRaise "dws-timeout" 0) else throw e

def checkExistenceAndMoveToTeardown (o : Outcomes) (ref : Nat) : Cb Unit := do
  let found ← tryCatch (do getWorkflow o; pure true) fun e =>
    if e = .apiException 404 then pure false else throw e
  if found then moveToTeardown o ref false
  else
    WorkflowInfo.remove
    emit .epilogRemove

def teardownAfterTimerCb (o : Outcomes) (ref : Nat) : Cb Unit := do
  tryCatch (checkExistenceAndMoveToTeardown o ref) fun _ => pure ()
  emit (.jobRaise "teardown-timeout" 1)

/-- Draining the nodes raises nothing; disabling them may. -/
def postrunTimeoutCb (o : Outcomes) (ref : Nat) : Cb Unit := do
  tryCatch (checkExistenceAndMoveToTeardown o ref) fun _ => pure ()
  emit (.jobRaise "rabbit-timeout" 0)
  attempt o .disableNodes

/-- The callback of a timer. -/
def Timer.callback (cfg : Config) (o : Outcomes) (t : Timer) : Cb Unit :=
  match t.kind with
  | .setup computeNodes lustre => setupTimeoutCb cfg o t.winfo computeNodes lustre
  | .preRun => prerunTimeoutCb cfg o t.winfo
  | .postRun => postrunTimeoutCb o t.winfo
  | .teardownAfter => teardownAfterTimerCb o t.winfo

/-- `kill_workflows_in_tc`, for the job's entry of WORKFLOWS_IN_TC; the result says that
the loop over the entries ends here. -/
def killWorkflowInTc (cfg : Config) (o : Outcomes) (tcTimeout : Int) : Cb Bool := do
  match (← get).inTc with
  | none => pure false
  | some transCond =>
    if o.now - transCond.lastTime ≤ tcTimeout then pure false
    else if ← notifyInTc transCond then
      modify fun s => {s with inTc := none}
      pure true
    else
      emit (.jobRaise "exception" 0)
      modify fun s => {s with inTc := none}
      pure false
where
  /-- A job in PreRun may go on without the nodes that are not mounted. -/
  notifyInTc (transCond : TransientConditionInfo) : Cb Bool := do
    if transCond.prerun then
      let notMounted := getClientmountsNotInState "mounted" o.clientMounts
      setProperty cfg notMounted
      let ref ← WorkflowInfo.get
      tryCatch (do notifyOfNodeFailure cfg o ref notMounted; pure true) fun e =>
        if e = .valueError then pure false else throw e
    else pure false

/-! ### Requests of the plugin -/

/-- `create_cb`. An object of that name is a conflict. -/
def createCb (o : Outcomes) (failureTolerance : Int) : Cb Unit := do
  attempt o .validate
  if o.found then throw (.apiException 409)
  attempt o .createObject
  emit .created
  if failureTolerance < 0 then throw .userError
  let _ ← WorkflowInfo.add failureTolerance

def lustreTypes : List String := ["ost", "mdt", "mgt", "mgtmdt"]

def checkIsLustre (labels : List String) : Bool := labels.any (· ∈ lustreTypes)

/-- The flag after the loop of `setup_cb`: that of the last breakdown with storage. -/
def lustreOfBreakdowns (breakdowns : List (Option (List String))) : Bool :=
  breakdowns.foldl (fun lustre b => (b.map checkIsLustre).getD lustre) false

def setupCb (cfg : Config) (o : Outcomes) (nodelist : List String) : Cb Unit := do
  match Rabbit.hostlist cfg.lib nodelist with
  | none => throw .valueError
  | some hosts => do
    let hlist := cfg.lib.uniq hosts
    getWorkflow o
    match Rabbit.nodesPerNnf cfg.layout hlist (.empty, 0) with
    | none => throw .keyError
    | some _ => do
      -- the rabbits are marked, which raises nothing for rabbits of the layout
      attempt o .servers
      let ref ← WorkflowInfo.get
      modifyWinfo ref fun w => {w with hlist := some hlist}
      moveDesiredstate o ref .setup
      if cfg.setupTimeout then
        startStateTimer (.setup hlist (lustreOfBreakdowns o.breakdowns)) ref

def postRunCb (cfg : Config) (o : Outcomes) (runStarted : Bool) : Cb Unit := do
  let ref ← WorkflowInfo.get
  if (← readWinfo ref).toredown then pure ()
  else if !runStarted then checkExistenceAndMoveToTeardown o ref
  else
    moveDesiredstate o ref .postRun
    if cfg.teardownAfter then
      let _ ← startTimer .teardownAfter ref
    if cfg.postrunTimeout then startStateTimer .postRun ref

def teardownCb (o : Outcomes) : Cb Unit := do
  let ref ← WorkflowInfo.get
  if !(← readWinfo ref).toredown then checkExistenceAndMoveToTeardown o ref

def abortCb (o : Outcomes) : Cb Unit := do
  let ref ← WorkflowInfo.get
  modifyWinfo ref fun w => {w with epilogRemoved := true}
  if !(← readWinfo ref).toredown then checkExistenceAndMoveToTeardown o ref
  attempt o .disableNodes
  attempt o .disableRabbits

def requestCb (cfg : Config) (o : Outcomes) : Jobtap.Rpc → Cb Unit
  | .create failureTolerance => createCb o failureTolerance
  | .setup nodelist => setupCb cfg o nodelist
  | .postRun runStarted => postRunCb cfg o runStarted
  | .teardown => teardownCb o
  | .abort => abortCb o

/-- `message_callback_wrapper`: the response says whether the callback raised. -/
def respond (callback : Cb Unit) (s : Service) : Bool × Service :=
  match Prog.exec callback s with
  | (.ok _, s) => (true, s)
  | (.error _, s) => (false, s)

/-! ### Workflow events -/

/-- `handle_proposal_state`. A ValueError of `apply_breakdowns` is passed on to the
plugin; resources that have been updated already are not sent again. -/
def handleProposalState (cfg : Config) (o : Outcomes) : Cb Unit := do
  attempt o .resources
  if cfg.disableFluxion then emit (.resourceUpdate false)
  else
    match o.applyBreakdowns with
    | .applied => emit (.resourceUpdate false)
    | .refused => emit (.resourceUpdate true)
    | .unchanged => pure ()

def handleWorkflowErrors (o : Outcomes) (workflow : Workflow) : Cb Unit :=
  match workflow.status with
  | .error => emit (.jobRaise "exception" 0)
  | .transientCondition => modify fun s => {s with
      inTc := some
        { lastTime := (s.inTc.map TransientConditionInfo.lastTime).getD o.now
          lastMessage := workflow.message
          prerun := workflow.state = some .preRun }}
  | .other => modify fun s => {s with inTc := none}

/-- `_workflow_state_change_cb_inner` up to the errors of the workflow, for an event whose
workflow has a state and whose job's is not deleted; returns whether it goes on to them. -/
def stateChange (cfg : Config) (o : Outcomes) (ref : Nat) (workflow : Workflow) : Cb Bool := do
  if stateActive workflow .teardown && !stateComplete workflow .teardown then
    attempt o .removeFinalizer
    pure true
  else if stateComplete workflow .teardown then
    if !(← readWinfo ref).epilogRemoved then emit .epilogRemove
    attempt o .markRabbitsFree
    emit .deleteWorkflow
    modifyWinfo ref fun w => {w with deleted := true}
    pure true
  else if (← readWinfo ref).toredown then pure false
  else if stateComplete workflow .proposal then
    handleProposalState cfg o
    pure true
  else if stateComplete workflow .setup then
    moveDesiredstate o ref .dataIn
    patchComputesObject cfg o ref
    pure true
  else if stateComplete workflow .dataIn then
    moveDesiredstate o ref .preRun
    if cfg.prerunTimeout then startStateTimer .preRun ref
    pure true
  else if stateComplete workflow .preRun then
    attempt o .jobEnvironment
    emit .prologRemove
    stopStateTimer ref
    pure true
  else if stateComplete workflow .postRun then
    moveDesiredstate o ref .dataOut
    pure true
  else if stateComplete workflow .dataOut then
    moveToTeardown o ref false
    pure true
  else pure true

def workflowStateChangeCbInner (cfg : Config) (o : Outcomes) (ref : Nat) (workflow : Workflow) : Cb Unit := do
  if workflow.state = none then pure ()
  else if (← readWinfo ref).deleted then pure ()
  else if ← stateChange cfg o ref workflow then handleWorkflowErrors o workflow

/-- An event of the watch: a version of the workflow, or that it was deleted. -/
inductive Snapshot
  | workflow (workflow : Workflow)
  | deleted
  deriving DecidableEq

/-- `workflow_state_change_cb`. -/
def workflowStateChangeCb (cfg : Config) (o : Outcomes) (event : Snapshot) : Cb Unit := do
  if (o.raises .readEvent).isSome then pure ()
  else
    let ref ← WorkflowInfo.get
    match event with
    | .deleted => WorkflowInfo.remove
    | .workflow workflow =>
      tryCatch (workflowStateChangeCbInner cfg o ref workflow) fun _ => do
        tryCatch (do
          moveToTeardown o ref false
          modifyWinfo ref fun w => {w with toredown := true}) fun e =>
          match e with
          | .apiException _ => pure ()
          | e => throw e
        emit (.jobRaise "exception" 0)

end FluxCoral2.Dws
