import Mathlib.Data.List.Dedup
import FluxCoral2.Library.Machine
import FluxCoral2.Dws.Handlers
import FluxCoral2.Dws.System

/-! The nodes a job may lose (`setup_timeout_cb`, `prerun_timeout_cb`, `kill_workflows_in_tc`).

A firing of these callbacks reports the nodes of a job that have failed; while the nodes
reported are within the job's tolerance, the workflow is made to go on without them, by
`forceReady`. A report may name no node: a listing that failed counts as empty, and then
nothing is known of the nodes. `earned_iff_backed`: that is all that can go wrong. -/
namespace FluxCoral2.Dws
open Library

/-! ### Reports in the log -/

/-- Every `forceReady` of the log comes of a report that names a node, while the nodes
reported, with those of `notified`, are within the tolerance. -/
def Earned (tolerance : Int) (notified : List String) : List Out → Prop
  | [] => True
  | .notify hosts :: rest => Earned tolerance (notified ++ hosts) rest
  | .forceReady hosts _ :: rest =>
    (hosts ≠ [] ∧ notified.dedup.length ≤ tolerance) ∧ Earned tolerance notified rest
  | _ :: rest => Earned tolerance notified rest

def Out.notified : Out → List String
  | .notify hosts => hosts
  | _ => []

def Out.isNotice : Out → Bool
  | .notify _ => true
  | .forceReady _ _ => true
  | _ => false

theorem earned_append (tolerance : Int) (notified : List String) (log more : List Out) :
    Earned tolerance notified (log ++ more) ↔
      Earned tolerance notified log ∧ Earned tolerance (notified ++ log.flatMap Out.notified) more := by
  induction log generalizing notified with
  | nil => simp [Earned]
  | cons x rest ih =>
    cases x <;> simp [Earned, Out.notified, ih, and_assoc]

/-- Only the reports and what comes of them count. -/
theorem earned_filter (tolerance : Int) (notified : List String) (log : List Out) :
    Earned tolerance notified (log.filter Out.isNotice) ↔ Earned tolerance notified log := by
  induction log generalizing notified with
  | nil => rfl
  | cons x rest ih =>
    cases x with
    | forceReady hosts applied => exact and_congr_right fun _ => ih notified
    | _ => exact ih _

/-! ### The account of a job -/

/-- What a service knows of the failed nodes of its job, and what it did about them. -/
structure Account where
  cache : Option Nat
  tolerance : Int
  failures : List String
  notices : List Out

/-- The account in the WorkflowInfo that was made first. -/
def Service.account (s : Service) : Account where
  cache := s.cache
  tolerance := (s.winfos 0).failureTolerance
  failures := (s.winfos 0).failures
  notices := s.out.filter Out.isNotice

namespace Account
variable (lib : Rabbit.HostlistPackage)

/-- The failures after a report. -/
def reported (a : Account) (hosts : List String) : List String := lib.uniq (a.failures ++ lib.uniq hosts)

def tolerates (a : Account) (hosts : List String) : Bool := (a.reported lib hosts).length ≤ a.tolerance

def notify (a : Account) (hosts : List String) (applied : Bool) : Account := {a with
  failures := a.reported lib hosts
  notices := a.notices ++ .notify hosts :: if a.tolerates lib hosts then [.forceReady hosts applied] else []}

/-- The account of a job with this tolerance: its failures are the nodes reported. -/
structure Counted (tolerance : Int) (a : Account) : Prop where
  cache : a.cache = some 0
  tolerance_eq : a.tolerance = tolerance
  nodup : a.failures.Nodup
  reported : ∀ h, h ∈ a.failures ↔ h ∈ a.notices.flatMap Out.notified

/-- The report, if one is made, names a node, or else the tolerance is exceeded already. -/
def Backs (a : Account) (report : Option (List String)) : Prop :=
  report = some [] → a.tolerance < a.failures.length

variable {lib} {tolerance : Int} {a : Account}

theorem mem_reported (hosts : List String) (h : String) :
    h ∈ a.reported lib hosts ↔ h ∈ a.failures ∨ h ∈ hosts := by
  unfold reported
  rw [lib.mem_uniq, List.mem_append, lib.mem_uniq]

theorem notices_notify (hosts : List String) (applied : Bool) :
    (a.notify lib hosts applied).notices.flatMap Out.notified = a.notices.flatMap Out.notified ++ hosts := by
  unfold notify
  dsimp only
  split <;> simp [Out.notified]

theorem Counted.notify (h : a.Counted tolerance) (hosts : List String) (applied : Bool) :
    (a.notify lib hosts applied).Counted tolerance := by
  refine ⟨h.cache, h.tolerance_eq, lib.nodup_uniq _, fun x => ?_⟩
  rw [notices_notify, List.mem_append, ← h.reported]
  exact mem_reported hosts x

theorem length_eq_of_mem_iff {l l' : List String} (hl : l.Nodup) (hl' : l'.Nodup) (h : ∀ x, x ∈ l ↔ x ∈ l') :
    l.length = l'.length := ((List.perm_ext_iff_of_nodup hl hl').mpr fun {x} => h x).length_eq

/-- The failures after a report are the nodes reported, each once. -/
theorem Counted.length_reported (lib : Rabbit.HostlistPackage) (h : a.Counted tolerance) (hosts : List String) :
    (a.reported lib hosts).length = (a.notices.flatMap Out.notified ++ hosts).dedup.length := by
  refine length_eq_of_mem_iff (lib.nodup_uniq _) (List.nodup_dedup _) fun x => ?_
  rw [mem_reported, List.mem_dedup, List.mem_append, h.reported]

theorem Counted.reported_nil (lib : Rabbit.HostlistPackage) (h : a.Counted tolerance) :
    (a.reported lib []).length = a.failures.length :=
  length_eq_of_mem_iff (lib.nodup_uniq _) h.nodup fun x => by simp [mem_reported]

/-- What comes of a report is earned exactly when the report is backed. -/
theorem earned_notify (h : a.Counted tolerance) (hosts : List String) (applied : Bool)
    (he : Earned tolerance [] a.notices) :
    Earned tolerance [] (a.notify lib hosts applied).notices ↔ a.Backs (some hosts) := by
  unfold notify Backs
  dsimp only
  rw [earned_append, List.nil_append, h.tolerance_eq]
  have hlength := h.length_reported lib hosts
  have hnil := h.reported_nil lib
  cases ht : a.tolerates lib hosts with
  | false =>
    unfold tolerates at ht
    rw [h.tolerance_eq, decide_eq_false_iff_not] at ht
    refine ⟨fun _ hempty => ?_, fun _ => ⟨he, trivial⟩⟩
    rw [Option.some.inj hempty] at ht
    omega
  | true =>
    unfold tolerates at ht
    rw [h.tolerance_eq, decide_eq_true_eq] at ht
    constructor
    · intro hearned hempty
      exact absurd (Option.some.inj hempty) hearned.2.1.1
    · refine fun hback => ⟨he, ⟨fun hempty => ?_, ?_⟩, trivial⟩
      · subst hempty
        have hexceeded := hback rfl
        omega
      · rw [← hlength]
        exact ht

end Account

/-! ### What a callback reports -/

section Callbacks
variable {cfg : Config} {o : Outcomes} {s : Service}

/-- The account after a report, if one was made. -/
def Account.report (cfg : Config) (o : Outcomes) (a : Account) : Option (List String) → Account
  | none => a
  | some hosts => a.notify cfg.lib hosts o.applies

/-- The hosts that are not mounted. -/
def notMounted (cfg : Config) (o : Outcomes) : Option (List String) :=
  Rabbit.hostlist cfg.lib (getClientmountsNotInState "mounted" o.clientMounts)

def prerunReports (cfg : Config) (o : Outcomes) (s : Service) : Option (List String) :=
  if (s.winfos 0).failureTolerance ≤ 0 then none else notMounted cfg o

def setupReports (cfg : Config) (o : Outcomes) (s : Service) (computeNodes : List String) (lustre : Bool) :
    Option (List String) :=
  if (s.winfos 0).failureTolerance ≤ 0 || lustre then none
  else (nodeFailures cfg.layout (getServersWithCondition notReady o.servers) computeNodes).bind
    (Rabbit.hostlist cfg.lib)

/-- The job has been in TransientCondition for too long, in PreRun. -/
def overdueInPrerun (o : Outcomes) (tcTimeout : Int) (s : Service) : Bool :=
  match s.inTc with
  | none => false
  | some transCond => tcTimeout < o.now - transCond.lastTime && transCond.prerun

def tcReports (cfg : Config) (o : Outcomes) (tcTimeout : Int) (s : Service) : Option (List String) :=
  if overdueInPrerun o tcTimeout s then notMounted cfg o else none

/-- `notify_of_node_failure` raises what is read as that too many nodes are lost. -/
def Outcomes.tooMany (cfg : Config) (o : Outcomes) (s : Service) (hosts : List String) : Bool :=
  !s.account.tolerates cfg.lib hosts || o.found && o.raises .patchWorkflow = some .valueError

/-- The loop of `kill_workflows_in_tc` goes on after the job. -/
def goesOn (cfg : Config) (o : Outcomes) (tcTimeout : Int) (s : Service) : Bool :=
  !overdueInPrerun o tcTimeout s || (notMounted cfg o).any (o.tooMany cfg s)

/-- A step that reports nothing. -/
abbrev Unreported {α : Type} (p : Cb α) : Prop := p.Keeps Service.account

theorem unreported_emit {x : Out} (h : x.isNotice = false) : Unreported (emit x) := by
  intro s
  show Service.account {s with out := s.out ++ [x]} = _
  unfold Service.account
  simp [h]

theorem unreported_stopTimer (timer : Nat) : Unreported (stopTimer timer) := fun _ => rfl

theorem exec_emit_notice {x : Out} (hx : x.isNotice = true) (s : Service) : ∃ t,
    Prog.exec (emit x) s = (.ok (), t) ∧
      t.account = {s.account with notices := s.account.notices ++ [x]} := by
  refine ⟨_, rfl, ?_⟩
  unfold Service.account
  simp [hx]

theorem exec_modifyFailures (f : List String → List String) (s : Service) : ∃ t,
    Prog.exec (modifyWinfo 0 fun w => {w with failures := f w.failures}) s = (.ok (), t) ∧
      t.account = {s.account with failures := f s.account.failures} := by
  refine ⟨_, rfl, ?_⟩
  unfold Service.account
  dsimp only
  rw [Function.update_self]

/-- The patch of the workflow that comes of a report. -/
theorem ends_patchForceReady (hosts : List String) (s : Service) :
    Prog.Ends (patchWorkflow o (.forceReady hosts)) s fun r t =>
      t.account = {s.account with notices := s.account.notices ++ [.forceReady hosts o.applies]} ∧
        (r = .error .valueError ↔ (o.found && o.raises .patchWorkflow = some .valueError) = true) := by
  obtain ⟨t, ht, ha⟩ := exec_emit_notice (x := .forceReady hosts o.applies) rfl s
  refine .bind_ok ht ?_
  rw [← ha]
  unfold attempt
  cases o.found with
  | false => exact .throw ⟨rfl, by simp⟩
  | true =>
    cases o.raises .patchWorkflow with
    | some e => exact .throw ⟨rfl, by simp⟩
    | none => exact .pure ⟨rfl, by simp⟩

theorem ends_notifyOfNodeFailure {nodes hosts : List String} (hn : Rabbit.hostlist cfg.lib nodes = some hosts)
    (s : Service) : Prog.Ends (notifyOfNodeFailure cfg o 0 nodes) s fun r t =>
      t.account = s.account.notify cfg.lib hosts o.applies ∧
        (r = .error .valueError ↔ o.tooMany cfg s hosts = true) := by
  obtain ⟨t₁, h₁, ha₁⟩ := exec_emit_notice (x := .notify hosts) rfl s
  obtain ⟨t₂, h₂, ha₂⟩ := exec_modifyFailures (fun failures => cfg.lib.uniq (failures ++ cfg.lib.uniq hosts)) t₁
  rw [ha₁] at ha₂
  unfold notifyOfNodeFailure
  rw [hn]
  refine .bind_ok h₁ (.bind_ok h₂ (.bind_ok (exec_readWinfo 0 t₂) ?_))
  have htolerates : ((t₂.winfos 0).failures.length : Int) ≤ (t₂.winfos 0).failureTolerance ↔
      s.account.tolerates cfg.lib hosts = true := by
    show (t₂.account.failures.length : Int) ≤ t₂.account.tolerance ↔ _
    rw [ha₂]
    exact (decide_eq_true_iff).symm
  unfold Account.notify Outcomes.tooMany
  cases ht : s.account.tolerates cfg.lib hosts with
  | true =>
    obtain ⟨t₃, h₃, ha₃⟩ : ∃ t₃, Prog.exec (emit (.jobRaise "dws-node-failure" 1)) t₂ = (.ok (), t₃) ∧
        t₃.account = t₂.account := ⟨_, rfl, unreported_emit rfl t₂⟩
    rw [if_pos (htolerates.mpr ht)]
    refine .bind_ok h₃ ((ends_patchForceReady hosts t₃).mono fun r t h => ⟨?_, h.2⟩)
    rw [h.1, ha₃, ha₂]
    show Account.mk _ _ _ ((_ ++ [_]) ++ [_]) = _
    rw [List.append_assoc]
    rfl
  | false =>
    rw [if_neg fun h => absurd ((htolerates.mp h).symm.trans ht) (by decide)]
    exact .throw ⟨ha₂, ⟨fun _ => rfl, fun _ => rfl⟩⟩

/-- A timeout that makes a report, and raises a job exception when too many nodes are lost. -/
theorem account_notify_timeout (cfg : Config) (o : Outcomes) (nodes : List String) {x : Out}
    (hx : x.isNotice = false) (s : Service) :
    Prog.Ends (tryCatch (notifyOfNodeFailure cfg o 0 nodes) fun e => if e = .valueError then emit x else throw e) s
      fun _ t => t.account = s.account.report cfg o (Rabbit.hostlist cfg.lib nodes) := by
  refine .tryCatch (Q := fun _ t => t.account = s.account.report cfg o (Rabbit.hostlist cfg.lib nodes)) ?_
    (fun _ _ h => h) fun e t h => ?_
  · cases hn : Rabbit.hostlist cfg.lib nodes with
    | none =>
      unfold notifyOfNodeFailure
      rw [hn]
      exact .throw rfl
    | some hosts => exact (ends_notifyOfNodeFailure hn s).mono fun _ _ h => h.1
  · have hquiet : Unreported (if e = .valueError then emit x else throw e : Cb Unit) :=
      .ite (unreported_emit hx) (.throw e)
    exact (hquiet.ends t).mono fun _ _ hu => hu.trans h

/-- The wrapper of the timers reports nothing itself. -/
theorem account_timerCallback (timer : Nat) {callback : Cb Unit} {s : Service} {a : Account}
    (h : Prog.Ends callback s fun _ t => t.account = a) :
    Prog.Ends (timerCallback timer callback) s fun _ t => t.account = a := by
  refine .bind (Q := fun _ t => t.account = a) (.tryCatch h (fun _ _ h => h) fun e t h => ?_)
    (fun _ t h => ((unreported_stopTimer timer).ends t).mono fun _ _ hu => hu.trans h) fun _ _ h => h
  have hraise : Unreported (emit (.jobRaise "dws-timer-error" 0)) := unreported_emit rfl
  exact (hraise.ends t).mono fun _ _ hu => hu.trans h

theorem exec_setProperty_none {nodes : List String} (h : Rabbit.hostlist cfg.lib nodes = none) (s : Service) :
    Prog.exec (setProperty cfg nodes) s = (.error .valueError, s) := by
  unfold setProperty
  rw [h]
  rfl

theorem exec_setProperty_some {nodes hosts : List String} (h : Rabbit.hostlist cfg.lib nodes = some hosts)
    (s : Service) : Prog.exec (setProperty cfg nodes) s = (.ok (), s) := by
  unfold setProperty
  rw [h]
  rfl

theorem account_prerunTimeoutCb (cfg : Config) (o : Outcomes) (s : Service) :
    Prog.Ends (prerunTimeoutCb cfg o 0) s fun _ t =>
      t.account = s.account.report cfg o (prerunReports cfg o s) := by
  refine .bind_ok (exec_readWinfo 0 s) ?_
  unfold prerunReports notMounted
  split
  · exact (unreported_emit rfl).ends s
  · have hnotify := account_notify_timeout cfg o (getClientmountsNotInState "mounted" o.clientMounts)
      (x := .jobRaise "dws-timeout" 0) rfl s
    cases hn : Rabbit.hostlist cfg.lib (getClientmountsNotInState "mounted" o.clientMounts) with
    | none => exact .bind_error (exec_setProperty_none hn s) rfl
    | some hosts => exact .bind_ok (exec_setProperty_some hn s) (hn ▸ hnotify)

theorem account_setupTimeoutCb (cfg : Config) (o : Outcomes) (computeNodes : List String) (lustre : Bool)
    (s : Service) :
    Prog.Ends (setupTimeoutCb cfg o 0 computeNodes lustre) s fun _ t =>
      t.account = s.account.report cfg o (setupReports cfg o s computeNodes lustre) := by
  refine .bind_ok (exec_readWinfo 0 s) ?_
  unfold setupReports
  simp only [Bool.or_eq_true, decide_eq_true_eq]
  split
  · exact (unreported_emit rfl).ends s
  · cases nodeFailures cfg.layout (getServersWithCondition notReady o.servers) computeNodes with
    | none => exact .throw rfl
    | some failures => exact account_notify_timeout cfg o failures rfl s

/-- The report for a job in PreRun; `false` says that the job is to be killed. -/
theorem account_notifyInTc (transCond : TransientConditionInfo) {s : Service} (hc : s.cache = some 0) :
    Prog.Ends (killWorkflowInTc.notifyInTc cfg o transCond) s fun r t =>
      t.account = s.account.report cfg o (if transCond.prerun then notMounted cfg o else none) ∧
        (r = .ok false ↔ (!transCond.prerun || (notMounted cfg o).any (o.tooMany cfg s)) = true) := by
  unfold killWorkflowInTc.notifyInTc
  cases transCond.prerun with
  | false => exact .pure ⟨rfl, by simp⟩
  | true =>
    unfold notMounted
    cases hn : Rabbit.hostlist cfg.lib (getClientmountsNotInState "mounted" o.clientMounts) with
    | none => exact .bind_error (exec_setProperty_none hn s) ⟨rfl, by simp⟩
    | some hosts =>
      refine .bind_ok (exec_setProperty_some hn s) (.bind_ok (exec_get_cached hc) ?_)
      refine .tryCatch (Q := fun r t => t.account = s.account.notify cfg.lib hosts o.applies ∧
        (r = .ok true ∨ r.isOk = false) ∧ (r = .error .valueError ↔ o.tooMany cfg s hosts = true)) ?_ ?_ ?_
      · refine .bind (ends_notifyOfNodeFailure hn s) (fun _ t h => .pure ?_) fun e t h => ?_
        · exact ⟨h.1, .inl rfl, ⟨nofun, fun hm => nomatch h.2.mpr hm⟩⟩
        · refine ⟨h.1, .inr rfl, ?_⟩
          rw [← h.2]
          simp
      · rintro b t ⟨ha, hb, hraised⟩
        have htrue : b = true := hb.elim (fun h => Except.ok.inj h) nofun
        subst htrue
        exact ⟨ha, ⟨nofun, fun hm => nomatch hraised.mpr hm⟩⟩
      · rintro e t ⟨ha, -, hraised⟩
        by_cases he : e = .valueError
        · rw [if_pos he]
          exact .pure ⟨ha, ⟨fun _ => hraised.mp (congrArg Except.error he), fun _ => rfl⟩⟩
        · rw [if_neg he]
          exact .throw ⟨ha, ⟨nofun, fun hm => absurd (Except.error.inj (hraised.mpr hm)) he⟩⟩

theorem account_killWorkflowInTc (cfg : Config) (o : Outcomes) (tcTimeout : Int) {s : Service} (hc : s.cache = some 0) :
    Prog.Ends (killWorkflowInTc cfg o tcTimeout) s fun r t =>
      t.account = s.account.report cfg o (tcReports cfg o tcTimeout s) ∧
        (r = .ok false ↔ goesOn cfg o tcTimeout s = true) := by
  have hspared (t : Service) : ∃ u, Prog.exec (do modify fun s => {s with inTc := none}; pure true : Cb Bool) t =
      (.ok true, u) ∧ u.account = t.account := ⟨_, rfl, rfl⟩
  have hkilled (t : Service) : ∃ u, Prog.exec (do
        emit (.jobRaise "exception" 0)
        modify fun s => {s with inTc := none}
        pure false : Cb Bool) t = (.ok false, u) ∧ u.account = t.account :=
    ⟨_, rfl, unreported_emit (x := .jobRaise "exception" 0) rfl t⟩
  refine .bind_ok (Prog.exec_get s) ?_
  cases hs : s.inTc with
  | none =>
    have hoverdue : overdueInPrerun o tcTimeout s = false := by
      unfold overdueInPrerun
      rw [hs]
    rw [tcReports, goesOn, hoverdue]
    exact .pure ⟨rfl, by simp⟩
  | some transCond =>
    dsimp only
    split
    · rename_i hle
      have hoverdue : overdueInPrerun o tcTimeout s = false := by
        unfold overdueInPrerun
        rw [hs]
        simp [Int.not_lt.mpr hle]
      rw [tcReports, goesOn, hoverdue]
      exact .pure ⟨rfl, by simp⟩
    · rename_i hle
      have hoverdue : overdueInPrerun o tcTimeout s = transCond.prerun := by
        unfold overdueInPrerun
        rw [hs]
        simp [Int.not_le.mp hle]
      rw [tcReports, goesOn, hoverdue]
      refine .bind (account_notifyInTc transCond hc) (fun notified t h => ?_) fun e t h => ⟨h.1, ?_⟩
      · cases notified with
        | true =>
          obtain ⟨u, hu, ha⟩ := hspared t
          exact .of_exec hu ⟨ha.trans h.1, ⟨nofun, fun hg => nomatch h.2.mpr hg⟩⟩
        | false =>
          obtain ⟨u, hu, ha⟩ := hkilled t
          exact .of_exec hu ⟨ha.trans h.1, ⟨fun _ => h.2.mp rfl, fun _ => rfl⟩⟩
      · exact ⟨nofun, fun hg => nomatch h.2.mpr hg⟩

end Callbacks

/-! ### Firings -/

/-- A firing of one of the callbacks, or an event of a workflow that has an error or not;
each job has its own service state. -/
inductive Firing
  | setupTimeout (job timer : Nat) (computeNodes : List String) (lustre : Bool) (o : Outcomes)
  | prerunTimeout (job timer : Nat) (o : Outcomes)
  | workflowErrors (job : Nat) (workflow : Workflow) (o : Outcomes)
  | killInTc (entries : List Nat) (tcTimeout now : Int) (o : Nat → Outcomes)

/-- `kill_workflows_in_tc`: the loop over the entries of WORKFLOWS_IN_TC, which ends with a
job that may go on without its lost nodes, and with an error. -/
def killWorkflowsInTc (cfg : Config) (tcTimeout : Int) (o : Nat → Outcomes) :
    List Nat → (Nat → Service) → Nat → Service
  | [], services => services
  | job :: rest, services =>
    match Prog.exec (killWorkflowInTc cfg (o job) tcTimeout) (services job) with
    | (.ok false, s) => killWorkflowsInTc cfg tcTimeout o rest (Function.update services job s)
    | (_, s) => Function.update services job s

/-- The entries of WORKFLOWS_IN_TC are of different jobs, in any order. -/
def Firing.Enabled (services : Nat → Service) : Firing → Prop
  | .killInTc entries _ _ _ => entries.Nodup ∧ ∀ job ∈ entries, (services job).inTc.isSome = true
  | _ => True

def Firing.next (cfg : Config) (services : Nat → Service) : Firing → Nat → Service
  | .setupTimeout job timer computeNodes lustre o => Function.update services job
      (Prog.exec (timerCallback timer (setupTimeoutCb cfg o 0 computeNodes lustre)) (services job)).2
  | .prerunTimeout job timer o => Function.update services job
      (Prog.exec (timerCallback timer (prerunTimeoutCb cfg o 0)) (services job)).2
  | .workflowErrors job workflow o => Function.update services job
      (Prog.exec (handleWorkflowErrors o workflow) (services job)).2
  | .killInTc entries tcTimeout now o =>
    killWorkflowsInTc cfg tcTimeout (fun job => {o job with now := now}) entries services

/-- The jobs of the service, each with its tolerance, after their workflows were made. -/
def firingMachine (cfg : Config) (tolerance : Nat → Int) : Machine (Nat → Service) Firing :=
  ⟨fun job => (Prog.exec (WorkflowInfo.add (tolerance job)) {}).2, Firing.Enabled, Firing.next cfg⟩

/-- The reports that the loop of `kill_workflows_in_tc` gets to make are backed. -/
def KillBacked (cfg : Config) (tcTimeout : Int) (o : Nat → Outcomes) (services : Nat → Service) : List Nat → Prop
  | [] => True
  | job :: rest =>
    (services job).account.Backs (tcReports cfg (o job) tcTimeout (services job)) ∧
      (goesOn cfg (o job) tcTimeout (services job) = true → KillBacked cfg tcTimeout o services rest)

/-- Every report of the firing names a node, or is of a job that has lost too many already. -/
def Firing.Backed (cfg : Config) (services : Nat → Service) : Firing → Prop
  | .setupTimeout job _ computeNodes lustre o =>
    (services job).account.Backs (setupReports cfg o (services job) computeNodes lustre)
  | .prerunTimeout job _ o => (services job).account.Backs (prerunReports cfg o (services job))
  | .workflowErrors _ _ _ => True
  | .killInTc entries tcTimeout now o =>
    KillBacked cfg tcTimeout (fun job => {o job with now := now}) services entries

/-- What was made of the reports is earned, for every job. -/
def EarnedAll (tolerance : Nat → Int) (services : Nat → Service) : Prop :=
  ∀ job, Earned (tolerance job) [] (services job).out

def CountedAll (tolerance : Nat → Int) (services : Nat → Service) : Prop :=
  ∀ job, (services job).account.Counted (tolerance job)

section Firings
variable {cfg : Config} {tolerance : Nat → Int} {services : Nat → Service} {job : Nat} {t : Service} {o : Outcomes}
  {report : Option (List String)}

theorem countedAll_update (h : CountedAll tolerance services)
    (ht : t.account = (services job).account.report cfg o report) :
    CountedAll tolerance (Function.update services job t) := by
  intro j
  by_cases hj : j = job
  · subst hj
    rw [Function.update_self, ht]
    cases report with
    | none => exact h j
    | some hosts => exact (h j).notify hosts o.applies
  · rw [Function.update_of_ne hj]
    exact h j

/-- A firing for one job keeps what was earned exactly when its report is backed. -/
theorem earnedAll_update (h : CountedAll tolerance services) (he : EarnedAll tolerance services)
    (ht : t.account = (services job).account.report cfg o report) :
    EarnedAll tolerance (Function.update services job t) ↔ (services job).account.Backs report := by
  have hold : Earned (tolerance job) [] (services job).account.notices :=
    (earned_filter _ _ _).mpr (he job)
  have hjob : Earned (tolerance job) [] t.out ↔ (services job).account.Backs report := by
    rw [← earned_filter]
    show Earned (tolerance job) [] t.account.notices ↔ _
    rw [ht]
    cases report with
    | none => exact ⟨fun _ => nofun, fun _ => hold⟩
    | some hosts => exact Account.earned_notify (h job) hosts o.applies hold
  rw [← hjob]
  constructor
  · intro hall
    have htall := hall job
    rw [Function.update_self] at htall
    exact htall
  · intro htjob j
    by_cases hj : j = job
    · subst hj
      rw [Function.update_self]
      exact htjob
    · rw [Function.update_of_ne hj]
      exact he j

/-! ### The loop over the entries -/

variable {tcTimeout : Int} {os : Nat → Outcomes} {entries : List Nat}

/-- One round of the loop: the job is killed and the loop goes on, or it ends here. -/
theorem kill_cases (rest : List Nat) (hc : (services job).cache = some 0) : ∃ t : Service,
    t.account = (services job).account.report cfg (os job) (tcReports cfg (os job) tcTimeout (services job)) ∧
      (goesOn cfg (os job) tcTimeout (services job) = true ∧
          killWorkflowsInTc cfg tcTimeout os (job :: rest) services =
            killWorkflowsInTc cfg tcTimeout os rest (Function.update services job t) ∨
        goesOn cfg (os job) tcTimeout (services job) = false ∧
          killWorkflowsInTc cfg tcTimeout os (job :: rest) services = Function.update services job t) := by
  have hends := account_killWorkflowInTc cfg (os job) tcTimeout hc
  unfold Prog.Ends at hends
  rw [killWorkflowsInTc]
  cases hexec : Prog.exec (killWorkflowInTc cfg (os job) tcTimeout) (services job) with
  | mk r t =>
    rw [hexec] at hends
    obtain ⟨haccount, hgoes⟩ := hends
    refine ⟨t, haccount, ?_⟩
    match r, hgoes with
    | .ok false, hgoes => exact .inl ⟨hgoes.mp rfl, rfl⟩
    | .ok true, hgoes => exact .inr ⟨Bool.eq_false_iff.mpr (fun hg => nomatch hgoes.mpr hg), rfl⟩
    | .error e, hgoes => exact .inr ⟨Bool.eq_false_iff.mpr (fun hg => nomatch hgoes.mpr hg), rfl⟩

theorem countedAll_kill (h : CountedAll tolerance services) :
    CountedAll tolerance (killWorkflowsInTc cfg tcTimeout os entries services) := by
  induction entries generalizing services with
  | nil => exact h
  | cons job rest ih =>
    obtain ⟨t, ht, ⟨-, hrun⟩ | ⟨-, hrun⟩⟩ := kill_cases rest (h job).cache <;> rw [hrun]
    · exact ih (countedAll_update h ht)
    · exact countedAll_update h ht

/-- The loop does nothing to the jobs that are no entries. -/
theorem kill_of_not_mem (h : CountedAll tolerance services) (hj : job ∉ entries) :
    killWorkflowsInTc cfg tcTimeout os entries services job = services job := by
  induction entries generalizing services with
  | nil => rfl
  | cons x rest ih =>
    have hne : job ≠ x := fun heq => hj (heq ▸ List.mem_cons_self)
    obtain ⟨t, ht, ⟨-, hrun⟩ | ⟨-, hrun⟩⟩ := kill_cases rest (h x).cache <;> rw [hrun]
    · rw [ih (countedAll_update h ht) fun hmem => hj (List.mem_cons_of_mem x hmem), Function.update_of_ne hne]
    · exact Function.update_of_ne hne _ _

/-- Whether the reports are backed depends on the jobs of the entries only. -/
theorem killBacked_update (hj : job ∉ entries) (t : Service) :
    KillBacked cfg tcTimeout os (Function.update services job t) entries ↔
      KillBacked cfg tcTimeout os services entries := by
  induction entries with
  | nil => exact Iff.rfl
  | cons x rest ih =>
    have hne : x ≠ job := fun heq => hj (heq ▸ List.mem_cons_self)
    unfold KillBacked
    rw [Function.update_of_ne hne, ih fun hmem => hj (List.mem_cons_of_mem x hmem)]

/-- A tick keeps what was earned exactly when the reports it gets to make are backed. -/
theorem earnedAll_kill (hn : entries.Nodup) (h : CountedAll tolerance services)
    (he : EarnedAll tolerance services) :
    EarnedAll tolerance (killWorkflowsInTc cfg tcTimeout os entries services) ↔
      KillBacked cfg tcTimeout os services entries := by
  induction entries generalizing services with
  | nil => exact ⟨fun _ => trivial, fun _ => he⟩
  | cons job rest ih =>
    obtain ⟨hjob, hrest⟩ := List.nodup_cons.mp hn
    obtain ⟨t, ht, ⟨hgoes, hrun⟩ | ⟨hstops, hrun⟩⟩ := kill_cases rest (h job).cache <;> rw [hrun, KillBacked]
    · have hcounted := countedAll_update h ht
      have hupdate := earnedAll_update h he ht
      constructor
      · intro hall
        -- what the job did is not undone by the jobs after it
        have hearned : EarnedAll tolerance (Function.update services job t) := by
          intro j
          by_cases hj : j = job
          · rw [hj, ← kill_of_not_mem hcounted hjob]
            exact hall job
          · rw [Function.update_of_ne hj]
            exact he j
        exact ⟨hupdate.mp hearned, fun _ => (killBacked_update hjob t).mp ((ih hrest hcounted hearned).mp hall)⟩
      · rintro ⟨hbacked, hlater⟩
        exact (ih hrest hcounted (hupdate.mpr hbacked)).mpr ((killBacked_update hjob t).mpr (hlater hgoes))
    · rw [earnedAll_update h he ht]
      exact ⟨fun hbacked => ⟨hbacked, fun hgoes => absurd (hstops.symm.trans hgoes) (by decide)⟩, And.left⟩

end Firings

/-! ### The result -/

theorem account_add (tolerance : Int) :
    (Prog.exec (WorkflowInfo.add tolerance) {}).2.account = ⟨some 0, tolerance, [], []⟩ := rfl

theorem countedAll_init (cfg : Config) (tolerance : Nat → Int) :
    CountedAll tolerance (firingMachine cfg tolerance).init := by
  intro job
  show Account.Counted _ (Prog.exec (WorkflowInfo.add (tolerance job)) {}).2.account
  rw [account_add]
  exact ⟨rfl, rfl, .nil, fun h => Iff.rfl⟩

theorem account_handleWorkflowErrors (cfg : Config) (o : Outcomes) (workflow : Workflow) (s : Service) :
    (Prog.exec (handleWorkflowErrors o workflow) s).2.account = s.account.report cfg o none := by
  unfold handleWorkflowErrors
  split
  · exact unreported_emit rfl s
  · rfl
  · rfl

/-- A firing keeps the counts; it keeps what was earned exactly when it is backed. -/
theorem firing_spec (cfg : Config) {tolerance : Nat → Int} {services : Nat → Service} {a : Firing}
    (ha : a.Enabled services) (h : CountedAll tolerance services) :
    CountedAll tolerance (a.next cfg services) ∧
      (EarnedAll tolerance services → (EarnedAll tolerance (a.next cfg services) ↔ a.Backed cfg services)) := by
  cases a with
  | setupTimeout job timer computeNodes lustre o =>
    have ht := account_timerCallback timer
      (account_setupTimeoutCb cfg o computeNodes lustre (services job))
    exact ⟨countedAll_update h ht, fun he => earnedAll_update h he ht⟩
  | prerunTimeout job timer o =>
    have ht := account_timerCallback timer (account_prerunTimeoutCb cfg o (services job))
    exact ⟨countedAll_update h ht, fun he => earnedAll_update h he ht⟩
  | workflowErrors job workflow o =>
    have ht := account_handleWorkflowErrors cfg o workflow (services job)
    exact ⟨countedAll_update h ht, fun he => (earnedAll_update h he ht).trans ⟨fun _ => trivial, fun _ => nofun⟩⟩
  | killInTc entries tcTimeout now o => exact ⟨countedAll_kill h, earnedAll_kill ha.1 h⟩

/-- **`forceReady` is earned** in a run of firings exactly when every report that is made
names a node, or is of a job that has lost too many nodes already. -/
theorem earned_iff_backed (cfg : Config) (tolerance : Nat → Int) {firings : List Firing}
    (h : (firingMachine cfg tolerance).Possible (firingMachine cfg tolerance).init firings) :
    (firingMachine cfg tolerance).Always (EarnedAll tolerance) (firingMachine cfg tolerance).init firings ↔
      (firingMachine cfg tolerance).Legal (Firing.Backed cfg) (firingMachine cfg tolerance).init firings :=
  Machine.always_iff_legal (CountedAll tolerance) (fun _ _ hs ha _ => (firing_spec cfg ha hs).1)
    (fun _ _ hs he ha => (firing_spec cfg ha hs).2 he) (countedAll_init cfg tolerance) (fun _ => trivial) h

/-! ### Runs -/

instance decidableEarned (tolerance : Int) :
    (notified : List String) → (log : List Out) → Decidable (Earned tolerance notified log)
  | _, [] => .isTrue trivial
  | notified, x :: rest =>
    have := fun notified => decidableEarned tolerance notified rest
    by cases x <;> (unfold Earned; infer_instance)

instance (a : Account) (report : Option (List String)) : Decidable (a.Backs report) :=
  inferInstanceAs (Decidable (_ → _))

instance decidableKillBacked (cfg : Config) (tcTimeout : Int) (o : Nat → Outcomes) (services : Nat → Service) :
    (entries : List Nat) → Decidable (KillBacked cfg tcTimeout o services entries)
  | [] => .isTrue trivial
  | job :: rest =>
    have := decidableKillBacked cfg tcTimeout o services rest
    inferInstanceAs (Decidable ((services job).account.Backs (tcReports cfg (o job) tcTimeout (services job)) ∧
      (goesOn cfg (o job) tcTimeout (services job) = true → KillBacked cfg tcTimeout o services rest)))

instance (cfg : Config) (services : Nat → Service) (a : Firing) : Decidable (a.Backed cfg services) := by
  cases a <;> unfold Firing.Backed <;> infer_instance

instance (cfg : Config) (tolerance : Nat → Int) (services : Nat → Service) (a : Firing) :
    Decidable ((firingMachine cfg tolerance).enabled services a) := by
  show Decidable (a.Enabled services)
  cases a <;> unfold Firing.Enabled <;> infer_instance

/-- A job without tolerance is in TransientCondition for too long, and its ClientMounts
cannot be listed. -/
def unlisted : List Firing :=
  [.workflowErrors 1
      {desiredState := .preRun, state := some .preRun, ready := false, status := .transientCondition} {},
    .killInTc [1] 10 11 fun _ => {clientMounts := none}]

theorem unlisted_unearned :
    (firingMachine nodeConfig fun _ => 0).Possible (firingMachine nodeConfig fun _ => 0).init unlisted ∧
      ¬ (firingMachine nodeConfig fun _ => 0).Always (EarnedAll fun _ => 0)
        (firingMachine nodeConfig fun _ => 0).init unlisted := by
  refine ⟨by decide, fun h => absurd (h.last 1) (by decide)⟩

/-- One node is lost, which the job tolerates, and then another. -/
def lostOneByOne : List Firing :=
  [.prerunTimeout 1 0 {clientMounts := some [⟨some "node1", some "fs-computes", .missing⟩]},
    .prerunTimeout 1 0 {clientMounts := some [⟨some "node2", some "fs-computes", .missing⟩]}]

theorem lostOneByOne_earned : (firingMachine nodeConfig fun _ => 1).Always (EarnedAll fun _ => 1)
    (firingMachine nodeConfig fun _ => 1).init lostOneByOne :=
  (earned_iff_backed nodeConfig (fun _ => 1) (by decide)).mpr (by decide)

end FluxCoral2.Dws
