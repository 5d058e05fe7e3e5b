import Mathlib.Data.List.Basic

/-! The job manager plugin (`dws-jobtap.c`), for one job with a `dw` attribute.

Every callback is a function on what the plugin and the job manager keep of the job:
its state, which events were posted, the two aux items, and a log of the calls made.
`flux_jobtap_*` calls succeed; any other library call of a callback may fail, as an
argument of the callback says. `Event` puts the callbacks together with the job
manager's own events, which only move the job along. -/
namespace FluxCoral2.Dws.Jobtap

def createDepName : String := "dws-create"

def setupPrologName : String := "dws-setup"

def dwsEpilogName : String := "dws-epilog"

def epilogAbortException : String := "dws-epilog-timeout"

/-- Requests to the coral2_dws service. -/
inductive Rpc
  | create (failureTolerance : Int)
  | setup (nodelist : List String)
  | postRun (runStarted : Bool)
  | teardown
  | abort
  deriving DecidableEq

def Rpc.isCreate : Rpc → Bool
  | .create _ => true
  | _ => false

def Rpc.isSetup : Rpc → Bool
  | .setup _ => true
  | _ => false

def Rpc.isPostRun : Rpc → Bool
  | .postRun _ => true
  | _ => false

/-- What the plugin does to the outside. -/
inductive Call
  | dependencyAdd
  | prologStart
  | prologFinish (status : Nat)
  | epilogStart
  | epilogFinish (status : Nat)
  | eventPost (name : String)
  | raiseException (type : String) (severity : Nat)
  | lookupR
  | startTimer
  | rpc (r : Rpc)
  deriving DecidableEq

inductive JobState | new | depend | run | cleanup | inactive
  deriving DecidableEq

/-- `prologActive` and `epilogActive` are the aux items `dws_prolog_active` (with what it
points at) and `dws_epilog_active`. `cleaned` says that the CLEANUP callback was made. -/
structure Job where
  state : JobState := .new
  startRequested : Bool := false
  startPosted : Bool := false
  finishPosted : Bool := false
  cleaned : Bool := false
  prologActive : Option Bool := none
  epilogActive : Bool := false
  calls : List Call := []
  deriving DecidableEq

def Job.call (j : Job) (c : Call) : Job := {j with calls := j.calls ++ [c]}

/-- How a request to the service went: sent, not sent, or sent with the future for its
response lost. -/
inductive Sent | ok | unsent | orphaned
  deriving DecidableEq

/-- Send a request unless that fails. -/
def Job.send (j : Job) (r : Rpc) : Sent → Job
  | .unsent => j
  | _ => j.call (.rpc r)

/-- The response to a request. -/
inductive Response | success | failure | malformed
  deriving DecidableEq

/-! ### Exceptions, prolog and epilog -/

def currentJobException (j : Job) : Job := j.call (.raiseException "dws" 0)

def raiseJobException (j : Job) (type : String) : Job := j.call (.raiseException type 0)

/-- `dws_prolog_finish`. Without the aux item the flag is a local that is set. -/
def dwsPrologFinish (j : Job) (success : Bool) : Job :=
  if j.prologActive.getD true then
    -- on a failure the exception callback finishes the prolog
    if !success then raiseJobException j setupPrologName
    else {j.call (.prologFinish 0) with prologActive := j.prologActive.map fun _ => false}
  else j

def dwsEpilogFinish (j : Job) (success : Bool) : Job :=
  if success then j.call (.epilogFinish 0)
  else (raiseJobException j dwsEpilogName).call (.epilogFinish 1)

/-! ### Before the job runs -/

def dependCb (j : Job) (failureTolerance : Int) (create : Sent) : Job :=
  let j := (j.call .dependencyAdd).send (.create failureTolerance) create
  if create = .ok then j else currentJobException j

def createCb (j : Job) (r : Response) : Job :=
  if r = .success then j else raiseJobException j createDepName

/-- Which calls of `run_cb` succeed. -/
structure RunCalls where
  malloc : Bool := true
  calloc : Bool := true
  lookup : Bool := true

def runCb (j : Job) (c : RunCalls) : Job :=
  if !c.malloc then currentJobException j
  else
    let j := {j with prologActive := some true}.call .prologStart
    if !c.calloc then dwsPrologFinish j false
    else if !c.lookup then dwsPrologFinish j false
    else j.call .lookupR

/-- `fetch_R_callback`, with the nodes of R unless the lookup failed. -/
def fetchRCallback (j : Job) (R : Option (List String)) (calloc : Bool) (setup : Sent) : Job :=
  match R with
  | none => dwsPrologFinish j false
  | some nodelist =>
    if !calloc then dwsPrologFinish j false
    else
      let j := j.send (.setup nodelist) setup
      if setup = .ok then j else dwsPrologFinish j false

def setupRpcCb (j : Job) (r : Response) : Job :=
  if r = .success then j else dwsPrologFinish j false

def prologRemoveMsgCb (j : Job) (malformed : Bool) : Job :=
  if malformed then raiseJobException j "exception"
  else dwsPrologFinish (j.call (.eventPost "dws_environment")) true

/-! ### After the job ran -/

/-- Which calls of `start_dws_epilog_for_job` succeed. -/
structure EpilogCalls where
  reactor : Bool := true
  calloc : Bool := true
  timer : Bool := true
  postRun : Sent := .ok

/-- `timeout` says that `epilog-timeout` is configured. -/
def startDwsEpilogForJob (timeout : Bool) (j : Job) (runStarted : Bool) (c : EpilogCalls) : Job :=
  if !c.reactor then currentJobException j
  else if !c.calloc then currentJobException j
  else
    let j := {j with epilogActive := true}.call .epilogStart
    if timeout && !c.timer then dwsEpilogFinish j false
    else
      let j := (if timeout then j.call .startTimer else j).send (.postRun runStarted) c.postRun
      if c.postRun = .ok then j else dwsEpilogFinish j false

def cleanupCb (timeout : Bool) (j : Job) (c : EpilogCalls) : Job :=
  if !j.startPosted then startDwsEpilogForJob timeout j false c else j

def finishCb (timeout : Bool) (j : Job) (c : EpilogCalls) : Job :=
  if j.epilogActive then j else startDwsEpilogForJob timeout j true c

def postRunRpcCallback (j : Job) (r : Response) : Job :=
  if r = .success then j else dwsEpilogFinish j false

def epilogTimeoutCb (j : Job) : Job :=
  if j.state ≠ .cleanup then j else j.call (.raiseException epilogAbortException 0)

/-- `exception_cb`; `sent` says whether its request to the service can be sent. -/
def exceptionCb (j : Job) (severity : Nat) (type : Option String) (sent : Bool) : Job :=
  if severity ≠ 0 then j
  else if j.prologActive = some true then
    {j.call (.prologFinish 1) with prologActive := some false}
  else if j.epilogActive then
    if type = some epilogAbortException then
      if !sent then j else (j.call (.rpc .abort)).call (.epilogFinish 1)
    else if !sent then j
    else j.call (.rpc .teardown)
  else j

def epilogRemoveMsgCb (j : Job) (malformed : Bool) : Job :=
  if malformed then j
  else if j.state ≠ .cleanup then j
  else dwsEpilogFinish j true

/-! ### Callbacks and job events -/

inductive Event
  | depend (failureTolerance : Int) (create : Sent)
  | createResponse (r : Response)
  | run (c : RunCalls)
  | fetchR (R : Option (List String)) (calloc : Bool) (setup : Sent)
  | setupResponse (r : Response)
  | prologRemove (malformed : Bool)
  | startRequest
  | start
  | finish
  | finishCb (c : EpilogCalls)
  | exception (severity : Nat) (type : Option String) (sent : Bool)
  | cleanupCb (c : EpilogCalls)
  | postRunResponse (r : Response)
  | epilogRemove (malformed : Bool)
  | epilogTimer
  | inactive

/-- A job that has not reached CLEANUP enters it. -/
def Job.cleanup (j : Job) : Job := if j.state = .inactive then j else {j with state := .cleanup}

/-- The callback of an event, after the job manager has updated the job. An exception of
severity 0 takes the job to CLEANUP before its callback, and the finish event does too. -/
def Event.apply (timeout : Bool) (j : Job) : Event → Job
  | .depend failureTolerance create => dependCb {j with state := .depend} failureTolerance create
  | .createResponse r => createCb j r
  | .run c => runCb {j with state := .run} c
  | .fetchR R calloc setup => fetchRCallback j R calloc setup
  | .setupResponse r => setupRpcCb j r
  | .prologRemove malformed => prologRemoveMsgCb j malformed
  | .startRequest => {j with startRequested := true}
  | .start => {j with startPosted := true}
  | .finish => {j with finishPosted := true}.cleanup
  | .finishCb c => Jobtap.finishCb timeout j c
  | .exception severity type sent =>
    exceptionCb (if severity = 0 then j.cleanup else j) severity type sent
  | .cleanupCb c => Jobtap.cleanupCb timeout {j with cleaned := true} c
  | .postRunResponse r => postRunRpcCallback j r
  | .epilogRemove malformed => epilogRemoveMsgCb j malformed
  | .epilogTimer => epilogTimeoutCb j
  | .inactive => {j with state := .inactive}

/-! ### The calls of a job -/

/-- The calls of some kind, in order. -/
def Job.view {β : Type} (f : Call → Option β) (j : Job) : List β := j.calls.filterMap f

/-- The calls that start or finish the epilog. -/
inductive EpilogCall | start | finish
  deriving DecidableEq

def Call.epilog? : Call → Option EpilogCall
  | .epilogStart => some .start
  | .epilogFinish _ => some .finish
  | _ => none

def Call.rpc? : Call → Option Rpc
  | .rpc r => some r
  | _ => none

def Job.epilogCalls (j : Job) : List EpilogCall := j.view Call.epilog?

def Job.rpcs (j : Job) : List Rpc := j.view Call.rpc?

/-- When the job manager can make an event. Depend, run and cleanup come once and in
this order; the start is requested when the prolog is over, and start and finish are
posted once; a job leaves CLEANUP only when its epilog is not active. -/
def Event.Enabled (j : Job) : Event → Prop
  | .depend _ _ => j.state = .new
  | .createResponse _ => .dependencyAdd ∈ j.calls
  | .run _ => j.state = .depend
  | .fetchR _ _ _ => .lookupR ∈ j.calls
  | .setupResponse _ => ∃ r ∈ j.rpcs, r.isSetup
  | .prologRemove _ => True
  | .startRequest => j.state = .run ∧ j.prologActive = some false
  | .start => j.startRequested = true ∧ j.startPosted = false ∧ j.state ≠ .inactive
  | .finish => j.startPosted = true ∧ j.finishPosted = false ∧ j.state ≠ .inactive
  | .finishCb _ => j.finishPosted = true ∧ j.state ≠ .inactive
  | .exception _ _ _ => j.state ≠ .new ∧ j.state ≠ .inactive
  | .cleanupCb _ => j.state = .cleanup ∧ j.cleaned = false
  | .postRunResponse _ => ∃ r ∈ j.rpcs, r.isPostRun
  | .epilogRemove _ => True
  | .epilogTimer => .startTimer ∈ j.calls
  | .inactive => j.state = .cleanup ∧ j.cleaned = true ∧ j.epilogCalls ≠ [.start]

/-- Messages to the plugin; all other events are the job manager's own. -/
def Event.isMessage : Event → Bool
  | .createResponse _ => true
  | .fetchR _ _ _ => true
  | .setupResponse _ => true
  | .prologRemove _ => true
  | .postRunResponse _ => true
  | .epilogRemove _ => true
  | _ => false

/-! ### The calls each callback makes -/

/-- All calls but those that finish the prolog or raise an exception. -/
def Call.isLoud : Call → Bool
  | .prologFinish _ => false
  | .raiseException _ _ => false
  | _ => true

def Job.loud (j : Job) : List Call := j.calls.filter Call.isLoud

section Loud
variable (j : Job)

/-- A view that passes over prologs and exceptions is one of the loud calls. -/
theorem Job.view_eq {β : Type} (f : Call → Option β) (hf : ∀ c, c.isLoud = false → f c = none) :
    j.view f = j.loud.filterMap f := by
  unfold view loud
  rw [List.filterMap_filter]
  refine List.filterMap_congr fun c _ => ?_
  cases h : c.isLoud with
  | true => simp
  | false => simp [hf c h]

theorem Job.epilogCalls_eq : j.epilogCalls = j.loud.filterMap Call.epilog? :=
  j.view_eq Call.epilog? fun c h => by cases c <;> first | rfl | cases h

theorem Job.rpcs_eq : j.rpcs = j.loud.filterMap Call.rpc? :=
  j.view_eq Call.rpc? fun c h => by cases c <;> first | rfl | cases h

theorem Job.loud_call (c : Call) : (j.call c).loud = j.loud ++ if c.isLoud then [c] else [] := by
  unfold loud call
  rw [List.filter_append]
  cases h : c.isLoud <;> simp [h]

theorem Job.loud_send (r : Rpc) (s : Sent) :
    (j.send r s).loud = j.loud ++ if s = .unsent then [] else [.rpc r] := by
  cases s with
  | unsent => exact (List.append_nil _).symm
  | ok => exact j.loud_call (.rpc r)
  | orphaned => exact j.loud_call (.rpc r)

theorem loud_raiseJobException (type : String) : (raiseJobException j type).loud = j.loud :=
  (j.loud_call _).trans (List.append_nil _)

theorem loud_currentJobException : (currentJobException j).loud = j.loud :=
  (j.loud_call _).trans (List.append_nil _)

theorem loud_dwsPrologFinish (success : Bool) : (dwsPrologFinish j success).loud = j.loud := by
  unfold dwsPrologFinish
  split
  · split
    · exact loud_raiseJobException j setupPrologName
    · exact (j.loud_call (.prologFinish 0)).trans (List.append_nil _)
  · rfl

theorem loud_dwsEpilogFinish (success : Bool) :
    (dwsEpilogFinish j success).loud = j.loud ++ [.epilogFinish (if success then 0 else 1)] := by
  cases success with
  | true => exact j.loud_call (.epilogFinish 0)
  | false =>
    refine (Job.loud_call _ (.epilogFinish 1)).trans ?_
    rw [loud_raiseJobException]
    rfl

/-- The calls of starting the epilog, but for the exceptions it may raise. -/
def EpilogCalls.calls (timeout : Bool) (runStarted : Bool) (c : EpilogCalls) : List Call :=
  if c.reactor && c.calloc then
    .epilogStart :: if timeout && !c.timer then [.epilogFinish 1]
      else (if timeout then [.startTimer] else []) ++
        (if c.postRun = .unsent then [] else [.rpc (.postRun runStarted)]) ++
        (if c.postRun = .ok then [] else [.epilogFinish 1])
  else []

theorem loud_startDwsEpilogForJob (timeout runStarted : Bool) (c : EpilogCalls) :
    (startDwsEpilogForJob timeout j runStarted c).loud = j.loud ++ c.calls timeout runStarted := by
  unfold startDwsEpilogForJob EpilogCalls.calls
  cases c.reactor with
  | false => exact (loud_currentJobException j).trans (List.append_nil _).symm
  | true =>
    cases c.calloc with
    | false => exact (loud_currentJobException j).trans (List.append_nil _).symm
    | true =>
      have hstart : ({j with epilogActive := true}.call .epilogStart).loud = j.loud ++ [.epilogStart] :=
        Job.loud_call _ _
      cases timeout <;> cases c.timer <;> cases c.postRun <;>
        simp [loud_dwsEpilogFinish, Job.loud_send, Job.loud_call, hstart, Call.isLoud]

/-- The loud calls of an event. -/
def Event.calls (timeout : Bool) (j : Job) : Event → List Call
  | .depend failureTolerance create =>
    .dependencyAdd :: if create = .unsent then [] else [.rpc (.create failureTolerance)]
  | .run c => if c.malloc then .prologStart :: if c.calloc && c.lookup then [.lookupR] else [] else []
  | .fetchR (some nodelist) true setup => if setup = .unsent then [] else [.rpc (.setup nodelist)]
  | .prologRemove false => [.eventPost "dws_environment"]
  | .finishCb c => if j.epilogActive then [] else c.calls timeout true
  | .exception severity type sent =>
    if severity = 0 ∧ j.prologActive ≠ some true ∧ j.epilogActive = true ∧ sent = true then
      if type = some epilogAbortException then [.rpc .abort, .epilogFinish 1] else [.rpc .teardown]
    else []
  | .cleanupCb c => if j.startPosted then [] else c.calls timeout false
  | .postRunResponse r => if r = .success then [] else [.epilogFinish 1]
  | .epilogRemove malformed => if malformed = false ∧ j.state = .cleanup then [.epilogFinish 0] else []
  | _ => []

theorem loud_dependCb (failureTolerance : Int) (create : Sent) :
    (dependCb j failureTolerance create).loud = j.loud ++
      .dependencyAdd :: if create = .unsent then [] else [.rpc (.create failureTolerance)] := by
  have hsend : ((j.call .dependencyAdd).send (.create failureTolerance) create).loud = j.loud ++
      .dependencyAdd :: if create = .unsent then [] else [.rpc (.create failureTolerance)] := by
    rw [Job.loud_send, Job.loud_call, List.append_assoc]
    rfl
  unfold dependCb
  dsimp only
  split
  · exact hsend
  · exact (loud_currentJobException _).trans hsend

theorem loud_runCb (c : RunCalls) : (runCb j c).loud = j.loud ++
    if c.malloc then .prologStart :: if c.calloc && c.lookup then [.lookupR] else [] else [] := by
  have hstart : ({j with prologActive := some true}.call .prologStart).loud = j.loud ++ [.prologStart] :=
    Job.loud_call _ _
  unfold runCb
  cases c.malloc with
  | false => exact (loud_currentJobException j).trans (List.append_nil _).symm
  | true =>
    cases c.calloc <;> cases c.lookup <;>
      simp [loud_dwsPrologFinish, Job.loud_call, hstart, Call.isLoud]

theorem loud_fetchRCallback (timeout : Bool) (R : Option (List String)) (calloc : Bool) (setup : Sent) :
    (fetchRCallback j R calloc setup).loud = j.loud ++ (Event.fetchR R calloc setup).calls timeout j := by
  unfold fetchRCallback
  cases R with
  | none => exact (loud_dwsPrologFinish j false).trans (List.append_nil _).symm
  | some nodelist =>
    cases calloc with
    | false => exact (loud_dwsPrologFinish j false).trans (List.append_nil _).symm
    | true =>
      cases setup <;> simp [loud_dwsPrologFinish, Job.loud_send, Event.calls]

theorem loud_exceptionCb (severity : Nat) (type : Option String) (sent : Bool) :
    (exceptionCb j severity type sent).loud = j.loud ++
      if severity = 0 ∧ j.prologActive ≠ some true ∧ j.epilogActive = true ∧ sent = true then
        if type = some epilogAbortException then [.rpc .abort, .epilogFinish 1] else [.rpc .teardown]
      else [] := by
  unfold exceptionCb
  by_cases hs : severity = 0
  · by_cases hp : j.prologActive = some true
    · rw [if_neg (not_not_intro hs), if_pos hp, if_neg fun h => h.2.1 hp]
      exact j.loud_call (.prologFinish 1)
    · by_cases ha : j.epilogActive = true
      · cases sent <;> by_cases ht : type = some epilogAbortException <;>
          simp [hs, hp, ha, ht, Job.loud_call, Call.isLoud]
      · simp [hs, hp, ha]
  · simp [hs]

theorem Job.loud_cleanup : j.cleanup.loud = j.loud := by
  unfold Job.cleanup
  split <;> rfl

theorem Job.cleanup_epilogActive : j.cleanup.epilogActive = j.epilogActive := by
  unfold Job.cleanup
  split <;> rfl

theorem Job.cleanup_prologActive : j.cleanup.prologActive = j.prologActive := by
  unfold Job.cleanup
  split <;> rfl

/-- Every event makes its own calls, after those made before. -/
theorem loud_apply (timeout : Bool) (e : Event) :
    (e.apply timeout j).loud = j.loud ++ e.calls timeout j := by
  have hnone : j.loud = j.loud ++ [] := (List.append_nil _).symm
  cases e with
  | depend failureTolerance create => exact loud_dependCb _ failureTolerance create
  | createResponse r =>
    show (createCb j r).loud = _
    unfold createCb
    split
    · exact hnone
    · exact (loud_raiseJobException j createDepName).trans hnone
  | run c => exact loud_runCb _ c
  | fetchR R calloc setup => exact loud_fetchRCallback j timeout R calloc setup
  | setupResponse r =>
    show (setupRpcCb j r).loud = _
    unfold setupRpcCb
    split
    · exact hnone
    · exact (loud_dwsPrologFinish j false).trans hnone
  | prologRemove malformed =>
    cases malformed with
    | true => exact (loud_raiseJobException j "exception").trans hnone
    | false => exact (loud_dwsPrologFinish _ _).trans (j.loud_call _)
  | startRequest => exact hnone
  | start => exact hnone
  | finish => exact (Job.loud_cleanup _).trans hnone
  | finishCb c =>
    show (finishCb timeout j c).loud = j.loud ++ if j.epilogActive then [] else c.calls timeout true
    unfold finishCb
    split
    · exact hnone
    · exact loud_startDwsEpilogForJob j timeout true c
  | exception severity type sent =>
    show (exceptionCb (if severity = 0 then j.cleanup else j) severity type sent).loud = _
    rw [loud_exceptionCb]
    by_cases hs : severity = 0
    · rw [if_pos hs, j.loud_cleanup, j.cleanup_prologActive, j.cleanup_epilogActive]
      rfl
    · rw [if_neg hs]
      rfl
  | cleanupCb c =>
    show (cleanupCb timeout {j with cleaned := true} c).loud =
      j.loud ++ if j.startPosted then [] else c.calls timeout false
    unfold cleanupCb
    cases j.startPosted with
    | true => exact hnone
    | false => exact loud_startDwsEpilogForJob _ timeout false c
  | postRunResponse r =>
    show (postRunRpcCallback j r).loud = j.loud ++ if r = .success then [] else [.epilogFinish 1]
    unfold postRunRpcCallback
    split
    · exact hnone
    · exact loud_dwsEpilogFinish j false
  | epilogRemove malformed =>
    show (epilogRemoveMsgCb j malformed).loud =
      j.loud ++ if malformed = false ∧ j.state = .cleanup then [.epilogFinish 0] else []
    unfold epilogRemoveMsgCb
    cases malformed with
    | true => exact hnone
    | false =>
      by_cases hstate : j.state = .cleanup
      · rw [if_neg Bool.false_ne_true, if_neg (not_not_intro hstate), if_pos (And.intro rfl hstate)]
        exact loud_dwsEpilogFinish j true
      · rw [if_neg Bool.false_ne_true, if_pos hstate, if_neg fun h => hstate h.2]
        exact hnone
  | epilogTimer =>
    show (epilogTimeoutCb j).loud = _
    unfold epilogTimeoutCb
    split
    · exact hnone
    · exact (loud_raiseJobException j epilogAbortException).trans hnone
  | inactive => exact hnone

omit j in
theorem mem_rpcs {r : Rpc} {calls : List Call} : r ∈ calls.filterMap Call.rpc? ↔ .rpc r ∈ calls := by
  rw [List.mem_filterMap]
  refine ⟨fun ⟨c, hc, hr⟩ => ?_, fun h => ⟨.rpc r, h, rfl⟩⟩
  cases c <;> cases hr
  exact hc

omit j in
theorem EpilogCalls.mem_calls_rpc {timeout runStarted : Bool} {c : EpilogCalls} {r : Rpc}
    (h : .rpc r ∈ c.calls timeout runStarted) : r = .postRun runStarted ∧ (c.reactor && c.calloc) = true := by
  unfold calls at h
  cases hc : c.reactor && c.calloc with
  | false => simp [hc] at h
  | true =>
    refine ⟨?_, rfl⟩
    cases timeout <;> cases ht : c.timer <;> cases hp : c.postRun <;> simp [hc, ht, hp] at h <;> exact h

/-- Which event sends a request. -/
def Rpc.SentBy (j : Job) (e : Event) : Rpc → Prop
  | .create failureTolerance => ∃ sent, e = .depend failureTolerance sent
  | .setup nodelist => ∃ calloc sent, e = .fetchR (some nodelist) calloc sent
  | .postRun true => ∃ c, e = .finishCb c ∧ (c.reactor && c.calloc) = true ∧ j.epilogActive = false
  | .postRun false => ∃ c, e = .cleanupCb c ∧ (c.reactor && c.calloc) = true ∧ j.startPosted = false
  | .teardown => ∃ severity type sent, e = .exception severity type sent
  | .abort => ∃ sent, e = .exception 0 (some epilogAbortException) sent ∧ j.prologActive ≠ some true ∧
      j.epilogActive = true ∧ sent = true

theorem Event.sentBy {timeout : Bool} {e : Event} {r : Rpc} (h : .rpc r ∈ e.calls timeout j) :
    r.SentBy j e := by
  cases e with
  | depend failureTolerance create =>
    cases create <;> simp [calls] at h <;> subst h <;> exact ⟨_, rfl⟩
  | run c =>
    cases hm : c.malloc <;> cases hc : c.calloc <;> cases hl : c.lookup <;> simp [calls, hm, hc, hl] at h
  | fetchR R calloc setup =>
    cases R <;> cases calloc <;> cases setup <;> simp [calls] at h <;> subst h <;> exact ⟨_, _, rfl⟩
  | prologRemove malformed => cases malformed <;> simp [calls] at h
  | finishCb c =>
    dsimp only [calls] at h
    cases ha : j.epilogActive with
    | true => simp [ha] at h
    | false =>
      rw [ha, if_neg Bool.false_ne_true] at h
      obtain ⟨rfl, hc⟩ := EpilogCalls.mem_calls_rpc h
      exact ⟨c, rfl, hc, ha⟩
  | cleanupCb c =>
    dsimp only [calls] at h
    cases hs : j.startPosted with
    | true => simp [hs] at h
    | false =>
      rw [hs, if_neg Bool.false_ne_true] at h
      obtain ⟨rfl, hc⟩ := EpilogCalls.mem_calls_rpc h
      exact ⟨c, rfl, hc, hs⟩
  | exception severity type sent =>
    dsimp only [calls] at h
    split at h
    · rename_i hs
      obtain ⟨rfl, hp, ha, hsent⟩ := hs
      split at h
      · rename_i ht
        have hr : r = .abort := by simpa using h
        subst hr ht
        exact ⟨sent, rfl, hp, ha, hsent⟩
      · have hr : r = .teardown := by simpa using h
        subst hr
        exact ⟨0, type, sent, rfl⟩
    · cases h
  | postRunResponse r =>
    dsimp only [calls] at h
    split at h <;> simp at h
  | epilogRemove malformed =>
    dsimp only [calls] at h
    split at h <;> simp at h
  | _ => cases h

end Loud

/-- Two jobs that agree on all but the prolog and the calls. -/
structure Kept (j j' : Job) : Prop where
  state : j'.state = j.state
  startRequested : j'.startRequested = j.startRequested
  startPosted : j'.startPosted = j.startPosted
  finishPosted : j'.finishPosted = j.finishPosted
  cleaned : j'.cleaned = j.cleaned
  epilogActive : j'.epilogActive = j.epilogActive

namespace Kept

theorem refl (j : Job) : Kept j j := ⟨rfl, rfl, rfl, rfl, rfl, rfl⟩

theorem trans {j j' j'' : Job} (h : Kept j j') (h' : Kept j' j'') : Kept j j'' :=
  ⟨h'.state.trans h.state, h'.startRequested.trans h.startRequested,
    h'.startPosted.trans h.startPosted, h'.finishPosted.trans h.finishPosted,
    h'.cleaned.trans h.cleaned, h'.epilogActive.trans h.epilogActive⟩

theorem call (j : Job) (c : Call) : Kept j (j.call c) := ⟨rfl, rfl, rfl, rfl, rfl, rfl⟩

theorem send (j : Job) (r : Rpc) (s : Sent) : Kept j (j.send r s) := by
  cases s <;> exact ⟨rfl, rfl, rfl, rfl, rfl, rfl⟩

theorem dwsPrologFinish (j : Job) (success : Bool) : Kept j (dwsPrologFinish j success) := by
  unfold Jobtap.dwsPrologFinish
  split
  · split
    · exact call j _
    · exact ⟨rfl, rfl, rfl, rfl, rfl, rfl⟩
  · exact refl j

theorem dwsEpilogFinish (j : Job) (success : Bool) : Kept j (dwsEpilogFinish j success) := by
  cases success <;> exact ⟨rfl, rfl, rfl, rfl, rfl, rfl⟩

theorem dependCb (j : Job) (failureTolerance : Int) (create : Sent) :
    Kept j (dependCb j failureTolerance create) := by
  have hsent := (call j .dependencyAdd).trans (send _ (.create failureTolerance) create)
  unfold Jobtap.dependCb
  dsimp only
  split
  · exact hsent
  · exact hsent.trans (call _ _)

theorem createCb (j : Job) (r : Response) : Kept j (createCb j r) := by
  unfold Jobtap.createCb
  split
  · exact refl j
  · exact call j _

theorem runCb (j : Job) (c : RunCalls) : Kept j (runCb j c) := by
  have hstart : Kept j ({j with prologActive := some true}.call .prologStart) :=
    ⟨rfl, rfl, rfl, rfl, rfl, rfl⟩
  unfold Jobtap.runCb
  dsimp only
  split
  · exact call j _
  split
  · exact hstart.trans (dwsPrologFinish _ _)
  split
  · exact hstart.trans (dwsPrologFinish _ _)
  · exact hstart.trans (call _ _)

theorem fetchRCallback (j : Job) (R : Option (List String)) (calloc : Bool) (setup : Sent) :
    Kept j (fetchRCallback j R calloc setup) := by
  unfold Jobtap.fetchRCallback
  split
  · exact dwsPrologFinish j _
  split
  · exact dwsPrologFinish j _
  dsimp only
  split
  · exact send j _ _
  · exact (send j _ _).trans (dwsPrologFinish _ _)

theorem setupRpcCb (j : Job) (r : Response) : Kept j (setupRpcCb j r) := by
  unfold Jobtap.setupRpcCb
  split
  · exact refl j
  · exact dwsPrologFinish j _

theorem prologRemoveMsgCb (j : Job) (malformed : Bool) : Kept j (prologRemoveMsgCb j malformed) := by
  unfold Jobtap.prologRemoveMsgCb
  split
  · exact call j _
  · exact (call j _).trans (dwsPrologFinish _ _)

theorem postRunRpcCallback (j : Job) (r : Response) : Kept j (postRunRpcCallback j r) := by
  unfold Jobtap.postRunRpcCallback
  split
  · exact refl j
  · exact dwsEpilogFinish j _

theorem epilogTimeoutCb (j : Job) : Kept j (epilogTimeoutCb j) := by
  unfold Jobtap.epilogTimeoutCb
  split
  · exact refl j
  · exact call j _

theorem exceptionCb (j : Job) (severity : Nat) (type : Option String) (sent : Bool) :
    Kept j (exceptionCb j severity type sent) := by
  unfold Jobtap.exceptionCb
  split
  · exact refl j
  split
  · exact ⟨rfl, rfl, rfl, rfl, rfl, rfl⟩
  split
  · split
    · split
      · exact refl j
      · exact (call j _).trans (call _ _)
    · split
      · exact refl j
      · exact call j _
  · exact refl j

theorem epilogRemoveMsgCb (j : Job) (malformed : Bool) : Kept j (epilogRemoveMsgCb j malformed) := by
  unfold Jobtap.epilogRemoveMsgCb
  split
  · exact refl j
  split
  · exact refl j
  · exact dwsEpilogFinish j _

/-- Starting the epilog sets the aux item, unless it fails before. -/
theorem startDwsEpilogForJob (timeout : Bool) (j : Job) (runStarted : Bool) (c : EpilogCalls) :
    Kept {j with epilogActive := j.epilogActive || (c.reactor && c.calloc)}
      (startDwsEpilogForJob timeout j runStarted c) := by
  unfold Jobtap.startDwsEpilogForJob
  cases hr : c.reactor with
  | false =>
    rw [Bool.false_and, Bool.or_false]
    exact call j (.raiseException "dws" 0)
  | true =>
    cases hc : c.calloc with
    | false =>
      rw [Bool.and_false, Bool.or_false]
      exact call j (.raiseException "dws" 0)
    | true =>
      rw [Bool.and_true, Bool.or_true]
      have hstart := call {j with epilogActive := true} .epilogStart
      simp only [Bool.not_true, Bool.false_eq_true, if_false]
      split
      · exact hstart.trans (dwsEpilogFinish _ _)
      · have htimer : Kept {j with epilogActive := true}
            (if timeout then ({j with epilogActive := true}.call .epilogStart).call .startTimer
              else {j with epilogActive := true}.call .epilogStart) := by
          cases timeout
          · exact hstart
          · exact hstart.trans (call _ _)
        split
        · exact htimer.trans (send _ _ _)
        · exact (htimer.trans (send _ _ _)).trans (dwsEpilogFinish _ _)

end Kept

end FluxCoral2.Dws.Jobtap
