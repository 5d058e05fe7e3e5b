import FluxCoral2.Dws.NodeFailure
import FluxCoral2.Dws.Roster

/-! Jobs stuck in TransientCondition (`handle_workflow_errors`, `kill_workflows_in_tc`).

WORKFLOWS_IN_TC has for each job since when the events of its workflow say that it is in
TransientCondition, without one that says otherwise; every so often the jobs are acted upon
that have been in it for too long. The table is kept at the end of the handler of events,
behind its early returns and its errors, and an event with the status Error leaves it as it
is; the loop over the table ends with a job that may go on without its lost nodes.
`ticks_exact`: where every event is entered in the table, and the loop gets to every job that
is overdue, it acts on exactly these, once. -/
namespace FluxCoral2.Dws
open Library

/-! ### What keeps the table -/

/-- A step that leaves the table alone. -/
abbrev Unlisted {α : Type} (p : Cb α) : Prop := p.Keeps Service.inTc

theorem framed_inTc (table : Option TransientConditionInfo) : Framed false fun s => s.inTc = table where
  out _ _ _ hs := hs
  winfo _ _ _ _ _ hs := hs
  timers _ _ hs := hs
  get := by
    refine .bind (fun _ hs => hs) fun s => ?_
    split
    · exact .pure _
    · exact fun _ hs => hs
  add _ _ _ hs := hs
  remove _ := by
    refine .bind (fun _ hs => hs) fun s => ?_
    split
    · exact fun _ hs => hs
    · exact .throw _

/-- What keeps all that the roster does not touch keeps the table. -/
theorem unlisted_of_framed {α : Type} {p : Cb α} (h : ∀ I, Framed false I → p.Safe I) : Unlisted p :=
  fun s => h _ (framed_inTc s.inTc) s rfl

section Unlisted
variable (cfg : Config) (o : Outcomes) (ref : Nat)

theorem unlisted_attempt (site : Site) : Unlisted (attempt o site) := unlisted_of_framed fun _ _ => safe_attempt o site

theorem unlisted_emit (x : Out) : Unlisted (emit x) := fun _ => rfl

theorem unlisted_modifyWinfo (f : WorkflowInfo → WorkflowInfo) : Unlisted (modifyWinfo ref f) := fun _ => rfl

theorem unlisted_readWinfo : Unlisted (readWinfo ref) := fun _ => rfl

theorem unlisted_moveToTeardown : Unlisted (moveToTeardown o ref false) :=
  unlisted_of_framed fun _ h => h.moveToTeardown o ref

theorem unlisted_moveDesiredstate (desiredState : WorkflowState) : Unlisted (moveDesiredstate o ref desiredState) :=
  unlisted_of_framed fun _ h => h.moveDesiredstate o ref desiredState

theorem unlisted_notifyOfNodeFailure (nodes : List String) : Unlisted (notifyOfNodeFailure cfg o ref nodes) := by
  rw [notifyOfNodeFailure]
  split
  · exact .throw _
  · refine .bind (unlisted_emit _) fun _ => .bind (unlisted_modifyWinfo ref _) fun _ =>
      .bind (unlisted_readWinfo ref) fun w => .ite ?_ (.throw _)
    exact .bind (unlisted_emit _) fun _ => unlisted_of_framed fun _ h => h.patchWorkflow fun _ => rfl

theorem unlisted_patchComputesObject : Unlisted (patchComputesObject cfg o ref) := by
  have hpatch : Unlisted (do
      modifyWinfo ref fun w => {w with hlist := w.hlist.map fun hosts => hosts.filter (· ∉ w.failures)}
      let w ← readWinfo ref
      attempt o .patchComputes
      emit (.patchComputes ((w.hlist.getD []).filter fun h => !cfg.layout.rabbitsToHostlists.contains h))) :=
    .bind (unlisted_modifyWinfo ref _) fun _ => .bind (unlisted_readWinfo ref) fun _ =>
      .bind (unlisted_attempt o _) fun _ => unlisted_emit _
  refine .bind (unlisted_readWinfo ref) fun w => .ite (.bind (unlisted_attempt o _) fun _ => ?_) hpatch
  split
  · exact .bind (.throw _) fun _ => hpatch
  · exact .bind (unlisted_modifyWinfo ref _) fun _ => hpatch

theorem unlisted_handleProposalState : Unlisted (handleProposalState cfg o) := by
  refine .bind (unlisted_attempt o _) fun _ => .ite (unlisted_emit _) ?_
  split
  · exact unlisted_emit _
  · exact unlisted_emit _
  · exact .pure _

theorem unlisted_notify_timeout (nodes : List String) (x : Out) : Unlisted
    (tryCatch (notifyOfNodeFailure cfg o ref nodes) fun e => if e = .valueError then emit x else throw e) :=
  .tryCatch (unlisted_notifyOfNodeFailure cfg o ref nodes) fun e => .ite (unlisted_emit x) (.throw e)

theorem unlisted_timer (timer : Timer) : Unlisted (timer.callback cfg o) := by
  rw [Timer.callback]
  split
  · refine .bind (unlisted_readWinfo _) fun w => .ite (unlisted_emit _) ?_
    split
    · exact .throw _
    · exact unlisted_notify_timeout cfg o _ _ _
  · exact .bind (unlisted_readWinfo _) fun w => .ite (unlisted_emit _)
      (.bind (unlisted_of_framed fun _ _ => safe_setProperty _) fun _ => unlisted_notify_timeout cfg o _ _ _)
  · exact unlisted_of_framed fun _ h => h.postrunTimeoutCb nofun _
  · exact unlisted_of_framed fun _ h => h.teardownAfterTimerCb nofun _

theorem unlisted_timerCallback (i : Nat) (timer : Timer) : Unlisted (timerCallback i (timer.callback cfg o)) :=
  .bind (.tryCatch (unlisted_timer cfg o timer) fun _ => unlisted_emit _) fun _ =>
    unlisted_of_framed fun _ h => h.stopTimer i

theorem unlisted_setupCb (nodelist : List String) : Unlisted (setupCb cfg o nodelist) := by
  rw [setupCb]
  split
  · exact .throw _
  · refine .bind (unlisted_of_framed fun _ _ => safe_getWorkflow o) fun _ => ?_
    split
    · exact .throw _
    · refine .bind (unlisted_attempt o _) fun _ => .bind (unlisted_of_framed fun _ h => h.get) fun ref =>
        .bind (unlisted_modifyWinfo ref _) fun _ => .bind (unlisted_moveDesiredstate o ref _) fun _ => ?_
      exact .ite (unlisted_of_framed fun _ h => h.startStateTimer _ ref) (.pure _)

theorem unlisted_requestCb (r : Jobtap.Rpc) : Unlisted (requestCb cfg o r) := by
  cases r with
  | create failureTolerance => exact unlisted_of_framed fun _ h => h.createCb nofun failureTolerance
  | setup nodelist => exact unlisted_setupCb cfg o nodelist
  | postRun runStarted => exact unlisted_of_framed fun _ h => h.postRunCb nofun runStarted
  | teardown => exact unlisted_of_framed fun _ h => h.teardownCb nofun
  | abort => exact unlisted_of_framed fun _ h => h.abortCb nofun

end Unlisted

/-! ### What an event enters -/

/-- The entry of a job, behind the handler's early returns. -/
def Workflow.entry (workflow : Workflow) (now : Int) (inTc : Option TransientConditionInfo) :
    Option TransientConditionInfo :=
  match workflow.status with
  | .error => inTc
  | .transientCondition => some
      { lastTime := (inTc.map TransientConditionInfo.lastTime).getD now
        lastMessage := workflow.message
        prerun := workflow.state = some .preRun }
  | .other => none

theorem exec_handleWorkflowErrors (o : Outcomes) (workflow : Workflow) (s : Service) :
    Prog.Ends (handleWorkflowErrors o workflow) s fun _ t => t.inTc = workflow.entry o.now s.inTc := by
  unfold handleWorkflowErrors Workflow.entry
  cases workflow.status <;> rfl

/-- `patch_computes_object` returns. -/
def computesPatched (cfg : Config) (o : Outcomes) (w : WorkflowInfo) : Bool :=
  (w.hlist.isSome || (o.raises .lookupR).isNone && (Rabbit.hostlist cfg.lib o.nodelist).isSome) &&
    (o.raises .patchComputes).isNone

/-- The handler of an event goes on to the errors of the workflow. -/
def goesToErrors (cfg : Config) (o : Outcomes) (w : WorkflowInfo) (workflow : Workflow) : Bool :=
  if stateActive workflow .teardown && !stateComplete workflow .teardown then (o.raises .removeFinalizer).isNone
  else if stateComplete workflow .teardown then (o.raises .markRabbitsFree).isNone
  else if w.toredown then false
  else if stateComplete workflow .proposal then (o.raises .resources).isNone
  else if stateComplete workflow .setup then o.applies && computesPatched cfg o w
  else if stateComplete workflow .dataIn then o.applies
  else if stateComplete workflow .preRun then (o.raises .jobEnvironment).isNone
  else if stateComplete workflow .postRun then o.applies
  else true

/-- How the handler ends before the errors: the table is as it was, and `goes` says whether
it goes on to them. -/
def Before (table : Option TransientConditionInfo) (goes : Bool) (r : Except Exn Bool) (t : Service) : Prop :=
  t.inTc = table ∧ (r = .ok true ↔ goes = true)

section Before
variable {cfg : Config} {o : Outcomes} {s : Service} {table : Option TransientConditionInfo} {next : Cb Bool}
  {goes : Bool}

theorem before_error {e : Exn} (h : s.inTc = table) : Before table false (.error e) s := ⟨h, by simp⟩

theorem before_true (h : s.inTc = table) : Prog.Ends (pure true) s (Before table true) := .pure ⟨h, by simp⟩

theorem before_attempt (site : Site) (h : s.inTc = table) (hnext : Prog.Ends next s (Before table goes)) :
    Prog.Ends (do attempt o site; next) s (Before table ((o.raises site).isNone && goes)) := by
  rw [attempt]
  cases o.raises site with
  | some e => exact .bind_error rfl (before_error h)
  | none => exact .bind_ok (a := ()) rfl hnext

/-- The branches of the handler against those of what is said of it. -/
theorem before_ite {c : Prop} [Decidable c] {p q : Cb Bool} {goes' : Bool}
    (hp : c → Prog.Ends p s (Before table goes)) (hq : ¬ c → Prog.Ends q s (Before table goes')) :
    Prog.Ends (if c then p else q) s (Before table (if c then goes else goes')) := by
  by_cases hc : c
  · rw [if_pos hc, if_pos hc]
    exact hp hc
  · rw [if_neg hc, if_neg hc]
    exact hq hc

/-- An attempt that is the last step to fail. -/
theorem before_last {site : Site} (h : s.inTc = table) (hnext : Prog.Ends next s (Before table true)) :
    Prog.Ends (do attempt o site; next) s (Before table (o.raises site).isNone) := by
  have hlast := before_attempt (o := o) site h hnext
  rwa [Bool.and_true] at hlast

theorem keeps_winfos_moveDesiredstate (ref : Nat) (desiredState : WorkflowState) :
    (moveDesiredstate o ref desiredState).Keeps Service.winfos := by
  have hattempt : (attempt o .patchWorkflow).Keeps Service.winfos := by
    rw [attempt]
    split
    · exact .throw _
    · exact .pure _
  refine .bind (.bind (fun _ => rfl) fun w => ?_) fun _ => .bind (fun _ => rfl) fun _ => .ite (.throw _) hattempt
  cases w.stateTimer with
  | some timer => exact fun _ => rfl
  | none => exact .pure _

theorem before_move {ref : Nat} (desiredState : WorkflowState) (hs : s.inTc = table)
    (hnext : ∀ t : Service, t.inTc = table → t.winfos = s.winfos → Prog.Ends next t (Before table goes)) :
    Prog.Ends (do moveDesiredstate o ref desiredState; next) s (Before table (o.applies && goes)) := by
  have hmove : Prog.Ends (moveDesiredstate o ref desiredState) s fun r t =>
      r.isOk = o.applies ∧ t.inTc = s.inTc ∧ t.winfos = s.winfos :=
    ⟨(ends_moveDesiredstate ref desiredState s).1, unlisted_moveDesiredstate o ref desiredState s,
      keeps_winfos_moveDesiredstate ref desiredState s⟩
  refine .bind hmove (fun _ t h => ?_) fun e t h => ?_
  · rw [show o.applies = true from h.1.symm]
    exact hnext t (h.2.1.trans hs) h.2.2
  · rw [show o.applies = false from h.1.symm]
    exact before_error (h.2.1.trans hs)

theorem before_moved {ref : Nat} (desiredState : WorkflowState) (hs : s.inTc = table)
    (hnext : ∀ t : Service, t.inTc = table → Prog.Ends next t (Before table true)) :
    Prog.Ends (do moveDesiredstate o ref desiredState; next) s (Before table o.applies) := by
  have hmove : Prog.Ends (do moveDesiredstate o ref desiredState; next) s (Before table (o.applies && true)) :=
    before_move desiredState hs fun t h _ => hnext t h
  rwa [Bool.and_true] at hmove

/-- A last step of which it is known when it returns. -/
theorem before_step {p : Cb Unit} (hkeeps : Unlisted p) (hs : s.inTc = table)
    (hreturns : (Prog.exec p s).1.isOk = goes) :
    Prog.Ends (do p; pure true) s (Before table goes) := by
  have hp : Prog.Ends p s fun r t => t.inTc = table ∧ r.isOk = goes := ⟨(hkeeps s).trans hs, hreturns⟩
  refine .bind hp (fun _ t h => ?_) fun e t h => ?_
  · rw [show goes = true from h.2.symm]
    exact before_true h.1
  · rw [show goes = false from h.2.symm]
    exact before_error h.1

theorem returns_handleProposalState (s : Service) :
    (Prog.exec (handleProposalState cfg o) s).1.isOk = (o.raises .resources).isNone := by
  unfold handleProposalState attempt
  cases o.raises .resources with
  | some e => rfl
  | none => cases cfg.disableFluxion <;> cases o.applyBreakdowns <;> rfl

theorem returns_patchComputesObject (ref : Nat) (s : Service) :
    (Prog.exec (patchComputesObject cfg o ref) s).1.isOk = computesPatched cfg o (s.winfos ref) := by
  unfold patchComputesObject computesPatched attempt
  rw [Prog.exec_bind_ok (exec_readWinfo ref s)]
  cases (s.winfos ref).hlist with
  | some hosts => cases o.raises .patchComputes <;> rfl
  | none =>
    cases o.raises .lookupR with
    | some e => rfl
    | none => cases Rabbit.hostlist cfg.lib o.nodelist <;> cases o.raises .patchComputes <;> rfl

/-- The handler gets to the errors of the workflow as `goesToErrors` says. -/
theorem ends_before_errors (ref : Nat) (workflow : Workflow) (s : Service) :
    Prog.Ends (stateChange cfg o ref workflow) s (Before s.inTc (goesToErrors cfg o (s.winfos ref) workflow)) := by
  unfold stateChange goesToErrors
  refine before_ite (fun _ => before_last rfl (before_true rfl)) fun _ => ?_
  refine before_ite (fun _ => .bind_ok (exec_readWinfo ref s) ?_) fun _ => .bind_ok (exec_readWinfo ref s) ?_
  · have hdelete (t : Service) (ht : t.inTc = s.inTc) : Prog.Ends (do
        attempt o .markRabbitsFree
        emit .deleteWorkflow
        modifyWinfo ref fun w => {w with deleted := true}
        pure true) t (Before s.inTc (o.raises .markRabbitsFree).isNone) :=
      before_last ht (.bind_ok rfl (.bind_ok rfl (before_true ht)))
    exact .ite (fun _ => .bind_ok rfl (hdelete _ rfl)) fun _ => hdelete s rfl
  refine before_ite (fun _ => .pure ⟨rfl, by simp⟩) fun _ => ?_
  refine before_ite (fun _ => ?proposal) fun _ => before_ite (fun _ => ?setup) fun _ => ?_
  case proposal =>
    exact before_step (unlisted_handleProposalState cfg o) rfl (returns_handleProposalState s)
  case setup =>
    exact before_move _ rfl fun t h hw => before_step (unlisted_patchComputesObject cfg o ref) h
      (hw ▸ returns_patchComputesObject ref t)
  refine before_ite (fun _ => ?dataIn) fun _ => before_ite (fun _ => ?preRun) fun _ => ?_
  case dataIn =>
    refine before_moved _ rfl fun t h => ?_
    exact .ite (fun _ => .bind_ok rfl (before_true h)) fun _ => before_true h
  case preRun =>
    refine before_last rfl (.bind_ok rfl (before_step (unlisted_of_framed fun _ h => h.stopStateTimer ref) rfl ?_))
    obtain ⟨t, ht, -⟩ := exec_stopStateTimer ref {s with out := s.out ++ [.prologRemove]}
    exact congrArg (fun r => r.1.isOk) ht
  refine before_ite (fun _ => before_moved _ rfl fun t h => before_true h) fun _ => ?_
  refine .ite (fun _ => ?_) fun _ => before_true rfl
  obtain ⟨t, ht, -⟩ := exec_moveToTeardown o ref s
  exact before_step (unlisted_moveToTeardown o ref) rfl (congrArg (fun r => r.1.isOk) ht)

end Before

/-- The WorkflowInfo that a callback gets for the job. -/
def Service.current (s : Service) : WorkflowInfo :=
  match s.cache with
  | some ref => s.winfos ref
  | none => {}

/-- An event is entered in the table. -/
def entered (cfg : Config) (o : Outcomes) (w : WorkflowInfo) (workflow : Workflow) : Bool :=
  workflow.state.isSome && !w.deleted && goesToErrors cfg o w workflow

theorem exec_get_current (s : Service) : ∃ ref t, Prog.exec WorkflowInfo.get s = (.ok ref, t) ∧
    t.winfos ref = s.current ∧ t.inTc = s.inTc ∧ t.out = s.out := by
  unfold Service.current
  cases hc : s.cache with
  | some ref => exact ⟨ref, s, exec_get_cached hc, rfl, rfl, rfl⟩
  | none =>
    have hadd : Prog.exec WorkflowInfo.get s = Prog.exec (WorkflowInfo.add (-1)) s := by
      refine (Prog.exec_bind_ok (Prog.exec_get s) _).trans ?_
      rw [hc]
    exact ⟨s.made, _, hadd, Function.update_self _ _ _, rfl, rfl⟩

section Events
variable {cfg : Config} {o : Outcomes}

theorem ends_inner (ref : Nat) (workflow : Workflow) (s : Service) :
    Prog.Ends (workflowStateChangeCbInner cfg o ref workflow) s fun _ t => t.inTc =
      if entered cfg o (s.winfos ref) workflow then workflow.entry o.now s.inTc else s.inTc := by
  unfold workflowStateChangeCbInner entered
  cases workflow.state with
  | none => exact .pure rfl
  | some state =>
    rw [if_neg nofun]
    refine .bind_ok (exec_readWinfo ref s) ?_
    cases (s.winfos ref).deleted with
    | true => exact .pure rfl
    | false =>
      simp only [Option.isSome_some, Bool.not_false, Bool.true_and, Bool.false_eq_true, if_false]
      refine .bind (ends_before_errors ref workflow s) (fun goes t h => ?_) fun e t h => ?_
      · cases goes with
        | true =>
          rw [if_pos rfl, if_pos (h.2.mp rfl), ← h.1]
          exact exec_handleWorkflowErrors o workflow t
        | false =>
          have hstays : ¬ goesToErrors cfg o (s.winfos ref) workflow = true := fun hg => nomatch h.2.mpr hg
          rw [if_neg Bool.false_ne_true, if_neg hstays]
          exact .pure h.1
      · have hstays : ¬ goesToErrors cfg o (s.winfos ref) workflow = true := fun hg => nomatch h.2.mpr hg
        rw [if_neg hstays]
        exact h.1

/-- The entry of the job after an event of its workflow. -/
theorem inTc_workflowStateChangeCb (event : Snapshot) (s : Service) (hread : o.raises .readEvent = none) :
    (Prog.exec (workflowStateChangeCb cfg o event) s).2.inTc = match event with
      | .deleted => s.inTc
      | .workflow workflow =>
        if entered cfg o s.current workflow then workflow.entry o.now s.inTc else s.inTc := by
  obtain ⟨ref, t, hget, hw, htable, -⟩ := exec_get_current s
  rw [workflowStateChangeCb, hread, if_neg (by simp), Prog.exec_bind_ok hget]
  cases event with
  | deleted => exact (unlisted_of_framed (fun _ h => h.remove rfl) t).trans htable
  | workflow workflow =>
    have hinner : Prog.Ends (workflowStateChangeCbInner cfg o ref workflow) t _ := ends_inner ref workflow t
    rw [hw, htable] at hinner
    refine Prog.Ends.tryCatch (R := fun _ u => u.inTc = _) hinner (fun _ _ h => h) fun _ u h => ?_
    refine ((Prog.Keeps.bind (.tryCatch (.bind (unlisted_moveToTeardown o ref) fun _ =>
      unlisted_modifyWinfo ref _) fun e => ?_) fun _ => unlisted_emit _).ends u).mono fun _ _ hu => hu.trans h
    cases e with
    | apiException status => exact .pure _
    | _ => exact .throw _

end Events

/-! ### What the loop does to a job -/

/-- The job has been in TransientCondition for too long, by the table. -/
def overdue (tcTimeout now : Int) (s : Service) : Bool :=
  s.inTc.any fun transCond => tcTimeout < now - transCond.lastTime

def inPrerun (s : Service) : Bool := s.inTc.any TransientConditionInfo.prerun

/-- The hosts can be lost, with those lost before. -/
def tolerates (cfg : Config) (w : WorkflowInfo) (hosts : List String) : Bool :=
  (cfg.lib.uniq (w.failures ++ cfg.lib.uniq hosts)).length ≤ w.failureTolerance

/-- The job may go on without its nodes that are not mounted. -/
def spared (cfg : Config) (o : Outcomes) (s : Service) : Bool :=
  inPrerun s && (notMounted cfg o).any (tolerates cfg s.current)

/-- The nodes of the job can be named, if they have to be, and its workflow can be told to go
on without them. -/
def Actable (cfg : Config) (o : Outcomes) (s : Service) : Prop :=
  inPrerun s = true → (notMounted cfg o).isSome = true ∧ (spared cfg o s = true → o.applies = true)

def Out.isRaise : Out → Bool
  | .jobRaise _ _ => true
  | _ => false

/-- How often a job exception was raised on the job. -/
def Service.raises (s : Service) : Nat := s.out.countP Out.isRaise

section Loop
variable {cfg : Config} {o : Outcomes} {tcTimeout : Int} {s : Service}

theorem raises_emit (x : Out) (s : Service) :
    Service.raises {s with out := s.out ++ [x]} = s.raises + if x.isRaise then 1 else 0 := by
  simp [Service.raises, List.countP_append, List.countP_singleton]

theorem exec_kill_spare (h : overdue tcTimeout o.now s = false) :
    Prog.exec (killWorkflowInTc cfg o tcTimeout) s = (.ok false, s) := by
  unfold overdue at h
  rw [killWorkflowInTc, Prog.exec_bind_ok (Prog.exec_get s)]
  cases hs : s.inTc with
  | none => rfl
  | some transCond =>
    have hle : o.now - transCond.lastTime ≤ tcTimeout := by
      rw [hs] at h
      simpa using h
    dsimp only
    rw [if_pos hle]
    rfl

/-- The report of the lost nodes of a job: an exception is raised if it may go on. -/
theorem exec_notifyOfNodeFailure {nodes hosts : List String} {ref : Nat}
    (hn : Rabbit.hostlist cfg.lib nodes = some hosts)
    (happlies : tolerates cfg (s.winfos ref) hosts = true → o.applies = true) : ∃ t,
    Prog.exec (notifyOfNodeFailure cfg o ref nodes) s =
      (if tolerates cfg (s.winfos ref) hosts then .ok () else .error .valueError, t) ∧
    t.raises = s.raises + if tolerates cfg (s.winfos ref) hosts then 1 else 0 := by
  obtain ⟨t₂, h₂, hw, hr⟩ : ∃ t₂, Prog.exec (modifyWinfo ref fun w =>
        {w with failures := cfg.lib.uniq (w.failures ++ cfg.lib.uniq hosts)}) {s with out := s.out ++ [.notify hosts]} =
      (.ok (), t₂) ∧
      t₂.winfos ref = {s.winfos ref with failures := cfg.lib.uniq ((s.winfos ref).failures ++ cfg.lib.uniq hosts)} ∧
      t₂.raises = s.raises :=
    ⟨_, rfl, Function.update_self _ _ _, raises_emit (.notify hosts) s⟩
  have hfirst : Prog.exec (emit (.notify hosts)) s = (.ok (), {s with out := s.out ++ [.notify hosts]}) := rfl
  unfold notifyOfNodeFailure
  rw [hn]
  dsimp only
  rw [Prog.exec_bind_ok hfirst, Prog.exec_bind_ok h₂, Prog.exec_bind_ok (exec_readWinfo ref t₂), hw]
  unfold tolerates at happlies ⊢
  simp only [decide_eq_true_eq] at happlies ⊢
  split
  · rename_i hle
    have hboth := happlies hle
    unfold Outcomes.applies at hboth
    rw [Bool.and_eq_true, Option.isNone_iff_eq_none] at hboth
    unfold patchWorkflow attempt
    rw [hboth.1, hboth.2]
    refine ⟨_, rfl, ?_⟩
    exact (raises_emit _ _).trans ((raises_emit (.jobRaise "dws-node-failure" 1) t₂).trans (by rw [hr]; rfl))
  · exact ⟨_, rfl, hr⟩

theorem exec_notifyInTc {transCond : TransientConditionInfo} (hs : s.inTc = some transCond) (hact : Actable cfg o s) :
    ∃ t, Prog.exec (killWorkflowInTc.notifyInTc cfg o transCond) s = (.ok (spared cfg o s), t) ∧
      t.raises = s.raises + if spared cfg o s then 1 else 0 := by
  have hprerun : inPrerun s = transCond.prerun := by
    unfold inPrerun
    rw [hs]
    rfl
  unfold Actable spared at hact
  rw [hprerun] at hact
  unfold killWorkflowInTc.notifyInTc spared
  rw [hprerun]
  cases hp : transCond.prerun with
  | false => exact ⟨s, rfl, rfl⟩
  | true =>
    rw [hp] at hact
    obtain ⟨hnamed, happlies⟩ := hact rfl
    obtain ⟨hosts, hhosts⟩ := Option.isSome_iff_exists.mp hnamed
    obtain ⟨ref, t, hget, hw, -, hout⟩ := exec_get_current s
    have hraises : t.raises = s.raises := congrArg (List.countP Out.isRaise) hout
    rw [hhosts] at happlies ⊢
    simp only [Option.any_some, Bool.true_and, ← hw] at happlies ⊢
    obtain ⟨u, hu, hr⟩ := exec_notifyOfNodeFailure hhosts happlies
    rw [hraises] at hr
    rw [if_pos trivial, Prog.exec_bind_ok (exec_setProperty_some hhosts s), Prog.exec_bind_ok hget,
      Prog.exec_tryCatch]
    cases ht : tolerates cfg (t.winfos ref) hosts with
    | true =>
      rw [ht] at hu hr
      rw [Prog.exec_bind_ok hu]
      exact ⟨u, rfl, hr⟩
    | false =>
      rw [ht] at hu hr
      rw [Prog.exec_bind_error hu]
      exact ⟨u, rfl, hr⟩

/-- A job that is overdue is acted upon, once, and leaves the table; the loop ends if it is spared. -/
theorem exec_kill_overdue (h : overdue tcTimeout o.now s = true) (hact : Actable cfg o s) : ∃ t,
    Prog.exec (killWorkflowInTc cfg o tcTimeout) s = (.ok (spared cfg o s), t) ∧
      t.inTc = none ∧ t.raises = s.raises + 1 := by
  unfold overdue at h
  rw [killWorkflowInTc, Prog.exec_bind_ok (Prog.exec_get s)]
  cases hs : s.inTc with
  | none =>
    rw [hs] at h
    cases h
  | some transCond =>
    have hlt : ¬ o.now - transCond.lastTime ≤ tcTimeout := by
      rw [hs, Option.any_some] at h
      exact Int.not_le.mpr (of_decide_eq_true h)
    obtain ⟨t, ht, hr⟩ := exec_notifyInTc hs hact
    dsimp only
    rw [if_neg hlt, Prog.exec_bind_ok ht]
    cases hsp : spared cfg o s with
    | true =>
      rw [hsp] at hr
      exact ⟨_, rfl, rfl, hr⟩
    | false =>
      rw [hsp] at hr
      refine ⟨_, rfl, rfl, ?_⟩
      exact (raises_emit (.jobRaise "exception" 0) t).trans (congrArg (· + 1) hr)

/-- The loop over the table can act on each job that is overdue, and a job that is spared is
the last of these. -/
structure Served (cfg : Config) (tcTimeout : Int) (os : Nat → Outcomes) (services : Nat → Service)
    (entries : List Nat) : Prop where
  actable : ∀ job ∈ entries, overdue tcTimeout (os job).now (services job) = true →
    Actable cfg (os job) (services job)
  last : entries.Pairwise fun job job' => overdue tcTimeout (os job).now (services job) = true →
    spared cfg (os job) (services job) = true → overdue tcTimeout (os job').now (services job') = false

/-- A job after a tick: acted upon if it was overdue, else as it was. -/
def Ticked (overdue : Bool) (s t : Service) : Prop :=
  if overdue then t.inTc = none ∧ t.raises = s.raises + 1 else t = s

theorem Served.congr {os : Nat → Outcomes} {services services' : Nat → Service} {entries : List Nat}
    (h : Served cfg tcTimeout os services entries) (hsame : ∀ job ∈ entries, services' job = services job) :
    Served cfg tcTimeout os services' entries := by
  refine ⟨fun job hj => ?_, h.last.imp_of_mem fun {j j'} hj hj' hlast => ?_⟩
  · rw [hsame job hj]
    exact h.actable job hj
  · rw [hsame j hj, hsame j' hj']
    exact hlast

theorem ticked_same {s : Service} {b : Bool} (h : b = false) : Ticked b s s := by
  subst h
  rfl

theorem ticked_loop {os : Nat → Outcomes} {entries : List Nat} {services : Nat → Service} (hnodup : entries.Nodup)
    (h : Served cfg tcTimeout os services entries) (job : Nat) :
    Ticked (entries.contains job && overdue tcTimeout (os job).now (services job)) (services job)
      (killWorkflowsInTc cfg tcTimeout os entries services job) := by
  induction entries generalizing services with
  | nil => rfl
  | cons first rest ih =>
    obtain ⟨hfirst, hrest⟩ := List.nodup_cons.mp hnodup
    obtain ⟨hlast, hpairs⟩ := List.pairwise_cons.mp h.last
    have hserved : Served cfg tcTimeout os services rest :=
      ⟨fun job hj => h.actable job (List.mem_cons_of_mem first hj), hpairs⟩
    rw [List.contains_cons, killWorkflowsInTc]
    cases hover : overdue tcTimeout (os first).now (services first) with
    | false =>
      rw [exec_kill_spare hover]
      dsimp only
      rw [Function.update_eq_self]
      have hstep := ih hrest hserved
      by_cases hj : job = first
      · subst hj
        rw [hover, Bool.and_false] at hstep ⊢
        exact hstep
      · rwa [beq_eq_false_iff_ne.mpr hj, Bool.false_or]
    | true =>
      obtain ⟨t, ht, hacted⟩ := exec_kill_overdue hover (h.actable first List.mem_cons_self hover)
      have hothers : ∀ j ∈ rest, Function.update services first t j = services j := fun j hj =>
        Function.update_of_ne (ne_of_mem_of_not_mem hj hfirst) _ _
      rw [ht]
      cases hsp : spared cfg (os first) (services first) with
      | true =>
        dsimp only
        by_cases hj : job = first
        · subst hj
          rw [Function.update_self, hover, beq_self_eq_true, Bool.true_or]
          exact hacted
        · rw [Function.update_of_ne hj, beq_eq_false_iff_ne.mpr hj, Bool.false_or]
          refine ticked_same (Bool.and_eq_false_imp.mpr fun hmem => ?_)
          exact hlast job (List.contains_iff_mem.mp hmem) hover hsp
      | false =>
        have hstep := ih hrest (hserved.congr hothers)
        dsimp only
        by_cases hj : job = first
        · subst hj
          have hnot : rest.contains job = false := by simpa using hfirst
          rw [hnot, Bool.false_and, Function.update_self] at hstep
          rw [show killWorkflowsInTc cfg tcTimeout os rest _ job = t from hstep, hover, beq_self_eq_true, Bool.true_or]
          exact hacted
        · rw [Function.update_of_ne hj] at hstep
          rwa [beq_eq_false_iff_ne.mpr hj, Bool.false_or]

end Loop

/-! ### The service -/

/-- An event of the watch, with the workflow as it is or as it was when it was deleted. -/
structure Delivered where
  deleted : Bool := false
  workflow : Workflow

def Delivered.snapshot (event : Delivered) : Snapshot :=
  if event.deleted then .deleted else .workflow event.workflow

/-- What the service does for a job on a request, on a timer or on an event of the workflow,
or for all jobs in the table. -/
inductive Step
  | request (job : Nat) (r : Jobtap.Rpc) (o : Outcomes)
  | timer (job i : Nat) (o : Outcomes)
  | watch (job : Nat) (event : Delivered) (o : Outcomes)
  | killInTc (entries : List Nat) (now : Int) (o : Nat → Outcomes)

/-- The events are those of which the job can be read, and the loop is over the jobs that are
in the table, in any order. -/
def Step.Enabled (services : Nat → Service) : Step → Prop
  | .watch _ _ o => o.raises .readEvent = none
  | .killInTc entries _ _ => entries.Nodup ∧ ∀ job, job ∈ entries ↔ (services job).inTc.isSome = true
  | _ => True

def Step.next (cfg : Config) (tcTimeout : Int) (services : Nat → Service) : Step → Nat → Service
  | .request job r o => Function.update services job (respond (requestCb cfg o r) (services job)).2
  | .timer job i o =>
    match (services job).timers[i]? with
    | some t => Function.update services job (Prog.exec (timerCallback i (t.callback cfg o)) (services job)).2
    | none => services
  | .watch job event o =>
    Function.update services job (Prog.exec (workflowStateChangeCb cfg o event.snapshot) (services job)).2
  | .killInTc entries now o =>
    killWorkflowsInTc cfg tcTimeout (fun job => {o job with now := now}) entries services

def tcMachine (cfg : Config) (tcTimeout : Int) : Machine (Nat → Service) Step :=
  ⟨fun _ => {}, Step.Enabled, Step.next cfg tcTimeout⟩

/-! ### What the ticks are to do -/

/-- Since when the events of a workflow say without interruption that it is in
TransientCondition. -/
def Status.since (status : Status) (now : Int) (since : Option Int) : Option Int :=
  match status with
  | .transientCondition => some (since.getD now)
  | _ => none

def stuck (tcTimeout now : Int) (since : Option Int) : Bool := since.any fun began => tcTimeout < now - began

/-- A tick raises one exception on every job that is stuck, which is out of the table then,
and none on any other. -/
def TickExact (tcTimeout now : Int) (since : Nat → Option Int) (s t : Nat → Service) : Prop :=
  ∀ job, ((t job).raises = (s job).raises + if stuck tcTimeout now (since job) then 1 else 0) ∧
    (stuck tcTimeout now (since job) = true → (t job).inTc = none)

/-- Since when each job is stuck, counted from the last tick that acted on it, and whether
each tick was exact. -/
structure Book where
  since : Nat → Option Int
  allExact : Prop

def Book.see (tcTimeout : Int) (b : Book) (s : Nat → Service) (step : Step) (t : Nat → Service) : Book :=
  match step with
  | .watch job event o =>
    {b with since := Function.update b.since job (event.workflow.status.since o.now (b.since job))}
  | .killInTc _ now _ => {
      since := fun job => if (s job).raises < (t job).raises then none else b.since job
      allExact := b.allExact ∧ TickExact tcTimeout now b.since s t }
  | _ => b

def bookMachine (cfg : Config) (tcTimeout : Int) : Machine ((Nat → Service) × Book) Step :=
  (tcMachine cfg tcTimeout).observed ⟨fun _ => none, True⟩ (Book.see tcTimeout)

/-- Each event is entered in the table, and not as an error of a job that is in it; one that is
not entered finds the job in the table as it should be. The loop gets to the jobs it is to act on. -/
def Heeded (cfg : Config) (tcTimeout : Int) (services : Nat → Service) : Step → Prop
  | .watch job event o =>
    if !event.deleted && entered cfg o (services job).current event.workflow then
      event.workflow.status = .error → (services job).inTc = none
    else event.workflow.status = .transientCondition ↔ (services job).inTc.isSome = true
  | .killInTc entries now o => Served cfg tcTimeout (fun job => {o job with now := now}) services entries
  | _ => True

/-- The table has the jobs of the book. -/
def Tracks (s : (Nat → Service) × Book) : Prop :=
  s.2.allExact ∧ ∀ job, (s.1 job).inTc.map TransientConditionInfo.lastTime = s.2.since job

section Runs
variable {cfg : Config} {tcTimeout : Int} {services : Nat → Service} {b : Book}

theorem overdue_eq_stuck (now : Int) (s : Service) :
    overdue tcTimeout now s = stuck tcTimeout now (s.inTc.map TransientConditionInfo.lastTime) := by
  unfold overdue stuck
  cases s.inTc <;> rfl

/-- A callback that leaves the table alone. -/
theorem tracks_unlisted {p : Cb Unit} (hp : Unlisted p) (job : Nat) (h : Tracks (services, b)) :
    Tracks (Function.update services job (Prog.exec p (services job)).2, b) := by
  refine ⟨h.1, fun j => ?_⟩
  by_cases hj : j = job
  · subst hj
    show Option.map _ (Function.update services j _ j).inTc = _
    rw [Function.update_self, hp]
    exact h.2 j
  · show Option.map _ (Function.update services job _ j).inTc = _
    rw [Function.update_of_ne hj]
    exact h.2 j

/-- An event that is entered counts from when the job was entered first. -/
theorem entry_since (workflow : Workflow) (now : Int) {table : Option TransientConditionInfo}
    (h : workflow.status = .error → table = none) :
    (workflow.entry now table).map TransientConditionInfo.lastTime =
      workflow.status.since now (table.map TransientConditionInfo.lastTime) := by
  unfold Workflow.entry Status.since
  cases hs : workflow.status with
  | error =>
    rw [h hs]
    rfl
  | transientCondition => rfl
  | other => rfl

theorem stays_since (workflow : Workflow) (now : Int) {table : Option TransientConditionInfo}
    (h : workflow.status = .transientCondition ↔ table.isSome = true) :
    table.map TransientConditionInfo.lastTime =
      workflow.status.since now (table.map TransientConditionInfo.lastTime) := by
  unfold Status.since
  cases table with
  | none =>
    have hno : workflow.status ≠ .transientCondition := fun hs => nomatch h.mp hs
    split
    · exact absurd ‹_› hno
    · rfl
  | some transCond =>
    rw [h.mpr rfl]
    rfl

theorem tracks_watch {job : Nat} {event : Delivered} {o : Outcomes} (h : Tracks (services, b))
    (hread : o.raises .readEvent = none) (hheeded : Heeded cfg tcTimeout services (.watch job event o)) :
    Tracks ((Step.watch job event o).next cfg tcTimeout services,
      b.see tcTimeout services (.watch job event o) ((Step.watch job event o).next cfg tcTimeout services)) := by
  refine ⟨h.1, fun j => ?_⟩
  show Option.map _ (Function.update services job _ j).inTc = Function.update b.since job _ j
  by_cases hj : j = job
  · subst hj
    rw [Function.update_self, Function.update_self, inTc_workflowStateChangeCb _ _ hread, ← h.2 j]
    have hheeded : if !event.deleted && entered cfg o (services j).current event.workflow then
        event.workflow.status = .error → (services j).inTc = none
      else event.workflow.status = .transientCondition ↔ (services j).inTc.isSome = true := hheeded
    unfold Delivered.snapshot
    cases hd : event.deleted with
    | true =>
      rw [hd] at hheeded
      exact stays_since event.workflow o.now hheeded
    | false =>
      rw [hd, Bool.not_false, Bool.true_and] at hheeded
      rw [if_neg Bool.false_ne_true]
      dsimp only
      split at hheeded
      · rw [if_pos ‹_›]
        exact entry_since event.workflow o.now hheeded
      · rw [if_neg ‹_›]
        exact stays_since event.workflow o.now hheeded
  · rw [Function.update_of_ne hj, Function.update_of_ne hj]
    exact h.2 j

theorem tracks_tick {entries : List Nat} {now : Int} {o : Nat → Outcomes} (h : Tracks (services, b))
    (he : (Step.killInTc entries now o).Enabled services)
    (hserved : Heeded cfg tcTimeout services (.killInTc entries now o)) :
    Tracks ((Step.killInTc entries now o).next cfg tcTimeout services, b.see tcTimeout services
      (.killInTc entries now o) ((Step.killInTc entries now o).next cfg tcTimeout services)) := by
  have hticked (job : Nat) : Ticked (stuck tcTimeout now (b.since job)) (services job)
      ((Step.killInTc entries now o).next cfg tcTimeout services job) := by
    have hloop := ticked_loop he.1 hserved job
    have hlisted : (entries.contains job && overdue tcTimeout now (services job)) =
        overdue tcTimeout now (services job) := by
      rw [Bool.and_eq_right_iff_imp]
      intro hover
      rw [List.contains_iff_mem, he.2 job]
      unfold overdue at hover
      cases hs : (services job).inTc with
      | none => simp [hs] at hover
      | some transCond => rfl
    rw [← h.2 job, ← overdue_eq_stuck, ← hlisted]
    exact hloop
  refine ⟨⟨h.1, fun job => ?_⟩, fun job => ?_⟩
  · have hjob := hticked job
    unfold Ticked at hjob
    cases hstuck : stuck tcTimeout now (b.since job) with
    | true =>
      rw [hstuck] at hjob
      exact ⟨hjob.2, fun _ => hjob.1⟩
    | false =>
      rw [hstuck] at hjob
      exact ⟨congrArg Service.raises hjob, nofun⟩
  · have hjob := hticked job
    unfold Ticked at hjob
    show Option.map _ ((Step.killInTc entries now o).next cfg tcTimeout services job).inTc =
      if (services job).raises < ((Step.killInTc entries now o).next cfg tcTimeout services job).raises then none
      else b.since job
    split at hjob
    · rw [hjob.1, hjob.2, if_pos (Nat.lt_succ_self _)]
      rfl
    · rw [hjob, if_neg (Nat.lt_irrefl _)]
      exact h.2 job

theorem tracks_step {step : Step} (h : Tracks (services, b)) (he : step.Enabled services)
    (hheeded : Heeded cfg tcTimeout services step) :
    Tracks (step.next cfg tcTimeout services, b.see tcTimeout services step (step.next cfg tcTimeout services)) := by
  cases step with
  | request job r o =>
    have hrespond : respond (requestCb cfg o r) (services job) =
        ((respond (requestCb cfg o r) (services job)).1, (Prog.exec (requestCb cfg o r) (services job)).2) := by
      unfold respond
      cases Prog.exec (requestCb cfg o r) (services job) with
      | mk r s => cases r <;> rfl
    show Tracks (Function.update services job (respond (requestCb cfg o r) (services job)).2, b)
    rw [hrespond]
    exact tracks_unlisted (unlisted_requestCb cfg o r) job h
  | timer job i o =>
    show Tracks ((Step.timer job i o).next cfg tcTimeout services, b)
    unfold Step.next
    dsimp only
    cases (services job).timers[i]? with
    | none => exact h
    | some t => exact tracks_unlisted (unlisted_timerCallback cfg o i t) job h
  | watch job event o => exact tracks_watch h he hheeded
  | killInTc entries now o => exact tracks_tick h he hheeded

end Runs

/-- **Ticks act on exactly the stuck jobs**, in every run in which the events are heeded. -/
theorem ticks_exact (cfg : Config) (tcTimeout : Int) (steps : List Step)
    (h : (tcMachine cfg tcTimeout).Legal (Heeded cfg tcTimeout) (tcMachine cfg tcTimeout).init steps) :
    (bookMachine cfg tcTimeout).Always (fun s => s.2.allExact) (bookMachine cfg tcTimeout).init steps := by
  have hlegal : (bookMachine cfg tcTimeout).Legal (fun s step => Heeded cfg tcTimeout s.1 step)
      (bookMachine cfg tcTimeout).init steps := (Machine.legal_observed _ _ steps).mpr h
  refine Machine.always_from Tracks (fun _ h => h.1) (fun s step h he hheeded => ?_) ⟨trivial, fun _ => rfl⟩ hlegal
  exact tracks_step h he hheeded

/-! ### Runs -/

/-- An event of a workflow in DataIn. -/
def dataInEvent (status : Status) (deleted : Bool) (now : Int) : Step :=
  .watch 0
    { deleted := deleted
      workflow := {desiredState := .dataIn, state := some .dataIn, ready := false, status := status} }
    {now := now}

/-- The service has had events of the job 0 only. -/
def OnlyFirst (services : Nat → Service) : Prop := ∀ job, job ≠ 0 → services job = {}

theorem onlyFirst_update {services : Nat → Service} (h : OnlyFirst services) (s : Service) :
    OnlyFirst (Function.update services 0 s) := fun job hj => (Function.update_of_ne hj _ _).trans (h job hj)

theorem enabled_tick {services : Nat → Service} (now : Int) (o : Nat → Outcomes) (h : OnlyFirst services)
    (hlisted : (services 0).inTc.isSome = true) : (Step.killInTc [0] now o).Enabled services := by
  refine ⟨List.nodup_singleton 0, fun job => ?_⟩
  by_cases hj : job = 0
  · subst hj
    exact iff_of_true (List.mem_singleton_self 0) hlisted
  · rw [h job hj]
    exact iff_of_false (fun hmem => hj (List.mem_singleton.mp hmem)) nofun

def stuckOnce : List Step := [dataInEvent .transientCondition false 0, .killInTc [0] 20 fun _ => {}]

theorem stuckOnce_exact : (bookMachine nodeConfig 10).Always (fun s => s.2.allExact)
    (bookMachine nodeConfig 10).init stuckOnce := by
  have hfirst : OnlyFirst ((dataInEvent .transientCondition false 0).next nodeConfig 10 fun _ => {}) :=
    onlyFirst_update (fun _ _ => rfl) _
  refine ticks_exact nodeConfig 10 stuckOnce ⟨rfl, nofun, enabled_tick 20 (fun _ => {}) hfirst rfl,
    ⟨fun job hj _ => ?_, List.pairwise_singleton _ _⟩, trivial⟩
  rw [List.mem_singleton.mp hj]
  exact fun h => nomatch h

/-- The workflow of a job in TransientCondition is deleted, after which a tick comes. -/
def stuckAfterDeletion : List Step :=
  [dataInEvent .transientCondition false 0, dataInEvent .other true 1, .killInTc [0] 20 fun _ => {}]

theorem stuckAfterDeletion_acted :
    (tcMachine nodeConfig 10).Possible (tcMachine nodeConfig 10).init stuckAfterDeletion ∧
      ¬ (bookMachine nodeConfig 10).Always (fun s => s.2.allExact) (bookMachine nodeConfig 10).init
        stuckAfterDeletion := by
  have hfirst : OnlyFirst ((dataInEvent .other true 1).next nodeConfig 10
      ((dataInEvent .transientCondition false 0).next nodeConfig 10 fun _ => {})) :=
    onlyFirst_update (onlyFirst_update (fun _ _ => rfl) _) _
  refine ⟨⟨rfl, trivial, rfl, trivial, enabled_tick 20 (fun _ => {}) hfirst rfl, trivial, trivial⟩, fun h => ?_⟩
  exact absurd (h.last.2 0).1 (by decide)

end FluxCoral2.Dws
