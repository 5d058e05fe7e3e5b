import FluxCoral2.Dws.NodeFailure
import FluxCoral2.Dws.Roster
import FluxCoral2.Dws.Timers

/-! The hosts that are told to mount the file systems (`patch_computes_object`).

The hosts of R are read once, from the request to set the workflow up or else from the
KVS, and each patch of the Computes resource leaves out those that have been reported as
failed, whichever timer reported them and however often the event of Setup comes.
`computes_patched`: in every run each patch names exactly the hosts of R that were not
reported before it, but for rabbits. -/
namespace FluxCoral2.Dws
open Library

/-! ### Patches in the log -/

/-- The hosts that the log has no report of. -/
def remaining (log : List Out) (hosts : List String) : List String :=
  hosts.filter fun h => decide (h ∉ log.flatMap Out.notified)

/-- The hosts of R, each once. -/
def jobHosts (cfg : Config) (R : List String) : Option (List String) :=
  (Rabbit.hostlist cfg.lib R).map cfg.lib.uniq

/-- What a patch of the Computes resource is to name. -/
def computes (cfg : Config) (R : List String) (log : List Out) : Option (List String) :=
  (jobHosts cfg R).map fun hosts => (remaining log hosts).filter fun h => !cfg.layout.rabbitsToHostlists.contains h

/-- Every patch of the log names the hosts of R without those reported before it. -/
def Patched (cfg : Config) (R : List String) (log : List Out) : Prop :=
  ∀ before names after, log = before ++ .patchComputes names :: after → computes cfg R before = some names

theorem notified_append_of_not_isRoster {x : Out} (hx : x.isRoster = false) (log : List Out) :
    (log ++ [x]).flatMap Out.notified = log.flatMap Out.notified := by
  rw [List.flatMap_append]
  cases x <;> first | exact List.append_nil _ | cases hx

theorem remaining_remaining (log more : List Out) (hosts : List String) :
    remaining (log ++ more) (remaining log hosts) = remaining (log ++ more) hosts := by
  unfold remaining
  rw [List.filter_filter, List.flatMap_append]
  refine List.filter_congr fun h _ => ?_
  simp only [List.mem_append, not_or]
  by_cases hlog : h ∈ log.flatMap Out.notified <;> simp [hlog]

theorem remaining_idem (log : List Out) (hosts : List String) :
    remaining log (remaining log hosts) = remaining log hosts := by
  unfold remaining
  rw [List.filter_filter]
  simp

namespace Patched
variable {cfg : Config} {R : List String} {log : List Out}

/-- An entry at the end of the log, that is a right one if it is a patch. -/
theorem concat (h : Patched cfg R log) {x : Out}
    (hx : ∀ names, x = .patchComputes names → computes cfg R log = some names) : Patched cfg R (log ++ [x]) := by
  intro before names after heq
  rcases List.eq_nil_or_concat after with rfl | ⟨rest, y, rfl⟩
  · obtain ⟨rfl, hlast⟩ := List.append_inj' heq rfl
    exact hx names (List.singleton_inj.mp hlast)
  · rw [List.concat_eq_append, ← List.cons_append, ← List.append_assoc] at heq
    exact h before names rest (List.append_inj' heq rfl).1

theorem other (h : Patched cfg R log) {x : Out} (hx : ∀ names, x ≠ .patchComputes names) : Patched cfg R (log ++ [x]) :=
  h.concat fun names heq => absurd heq (hx names)

theorem of_quiet (h : ∀ x ∈ log, x.isRoster = false) : Patched cfg R log := by
  rintro before names after rfl
  exact absurd (h (.patchComputes names) (by simp)) nofun

end Patched

/-! ### What the service keeps of the hosts -/

/-- The failures of a WorkflowInfo are the hosts reported, and its hosts are those of R, but
for some of these. -/
structure Recorded (cfg : Config) (R : List String) (log : List Out) (w : WorkflowInfo) : Prop where
  failures : ∀ h, h ∈ w.failures ↔ h ∈ log.flatMap Out.notified
  hlist : ∀ hosts, w.hlist = some hosts → (jobHosts cfg R).map (remaining log) = some (remaining log hosts)

/-- The service is as its log says: `before` was logged before the callback that runs, and
`found` says that there is a workflow. A job without a WorkflowInfo has had no report. -/
structure Enrolled (cfg : Config) (R : List String) (before : List Out) (found : Bool) (s : Service) : Prop where
  patched : Patched cfg R (before ++ s.out)
  recorded : found = true → ∀ ref, s.cache = some ref → Recorded cfg R (before ++ s.out) (s.winfos ref)
  unreported : found = true → s.cache = none → (before ++ s.out).flatMap Out.notified = []

/-- A handler may report and patch when the WorkflowInfo it has been given is the job's. -/
structure Roster (cfg : Config) (R : List String) (before : List Out) (found : Bool) (ref : Nat) (s : Service) :
    Prop where
  enrolled : Enrolled cfg R before found s
  cache : found = true → s.cache = some ref

section Handlers
variable {cfg : Config} {R : List String} {before : List Out} {found : Bool} {ref : Nat} {o : Outcomes}
variable {s t : Service}

theorem Recorded.congr {w w' : WorkflowInfo} {log : List Out} (h : Recorded cfg R log w)
    (hfailures : w'.failures = w.failures) (hhlist : w'.hlist = w.hlist) : Recorded cfg R log w' :=
  ⟨by rw [hfailures]; exact h.failures, by rw [hhlist]; exact h.hlist⟩

theorem Recorded.concat {w : WorkflowInfo} {log : List Out} {x : Out} (h : Recorded cfg R log w)
    (hx : x.isRoster = false ∨ ∃ names, x = .patchComputes names) : Recorded cfg R (log ++ [x]) w := by
  have hnotified : (log ++ [x]).flatMap Out.notified = log.flatMap Out.notified := by
    rcases hx with hx | ⟨names, rfl⟩
    · exact notified_append_of_not_isRoster hx log
    · rw [List.flatMap_append]
      exact List.append_nil _
  refine ⟨fun host => by rw [hnotified]; exact h.failures host, fun hosts hh => ?_⟩
  have hremaining : remaining (log ++ [x]) = remaining log := by
    unfold remaining
    rw [hnotified]
  rw [hremaining]
  exact h.hlist hosts hh

theorem Recorded.report {w : WorkflowInfo} {log : List Out} (h : Recorded cfg R log w) (hosts : List String) :
    Recorded cfg R (log ++ [.notify hosts])
      {w with failures := cfg.lib.uniq (w.failures ++ cfg.lib.uniq hosts)} := by
  have hnotified : (log ++ [Out.notify hosts]).flatMap Out.notified = log.flatMap Out.notified ++ hosts := by
    simp [Out.notified]
  refine ⟨fun host => ?_, fun all hall => ?_⟩
  · rw [cfg.lib.mem_uniq, List.mem_append, cfg.lib.mem_uniq, hnotified, List.mem_append, h.failures]
  · have hbefore := congrArg (Option.map (remaining (log ++ [.notify hosts]))) (h.hlist all hall)
    rw [Option.map_map, Option.map_some, remaining_remaining] at hbefore
    rw [← hbefore]
    exact congrArg (Option.map · _) (funext fun l => (remaining_remaining log [.notify hosts] l).symm)

theorem Enrolled.missing (h : Patched cfg R (before ++ s.out)) : Enrolled cfg R before false s := ⟨h, nofun, nofun⟩

theorem recorded_new (cfg : Config) (R : List String) {log : List Out} (h : log.flatMap Out.notified = [])
    (failureTolerance : Int) : Recorded cfg R log {failureTolerance := failureTolerance} :=
  ⟨fun host => by rw [h], nofun⟩

/-- A new WorkflowInfo, when there has been no report. -/
theorem Enrolled.add (h : Enrolled cfg R before found s)
    (hquiet : found = true → (before ++ s.out).flatMap Out.notified = []) (failureTolerance : Int) :
    Roster cfg R before found s.made (Prog.exec (WorkflowInfo.add failureTolerance) s).2 := by
  refine ⟨⟨h.patched, fun hfound ref href => ?_, fun _ => nofun⟩, fun _ => rfl⟩
  obtain rfl : s.made = ref := Option.some.inj href
  show Recorded cfg R _ (Function.update s.winfos s.made _ s.made)
  rw [Function.update_self]
  exact recorded_new cfg R (hquiet hfound) failureTolerance

theorem exec_get_missing (h : s.cache = none) :
    Prog.exec WorkflowInfo.get s = Prog.exec (WorkflowInfo.add (-1)) s := by
  refine (Prog.exec_bind_ok (Prog.exec_get s) _).trans ?_
  rw [h]

/-- The WorkflowInfo of the job is got. -/
theorem Enrolled.get (h : Enrolled cfg R before found s) : Prog.Ends WorkflowInfo.get s fun r t =>
    ∃ ref, r = .ok ref ∧ Roster cfg R before found ref t := by
  cases hc : s.cache with
  | some ref => exact .of_exec (exec_get_cached hc) ⟨ref, rfl, h, fun _ => hc⟩
  | none => exact .of_exec ((exec_get_missing hc).trans rfl) ⟨s.made, rfl, h.add (fun hf => h.unreported hf hc) (-1)⟩

theorem enrolled_framed : Framed found (Enrolled cfg R before found) where
  out s x hx h := by
    have hother : ∀ names, x ≠ .patchComputes names := fun names heq => by rw [heq] at hx; cases hx
    refine ⟨?_, fun hfound ref href => ?_, fun hfound hc => ?_⟩ <;> dsimp only <;> rw [← List.append_assoc]
    · exact h.patched.other hother
    · exact (h.recorded hfound ref href).concat (.inl hx)
    · rw [notified_append_of_not_isRoster hx]
      exact h.unreported hfound hc
  winfo s ref w hfailures hhlist h := by
    refine ⟨h.patched, fun hfound ref' href => ?_, h.unreported⟩
    dsimp only
    by_cases hr : ref' = ref
    · subst hr
      rw [Function.update_self]
      exact (h.recorded hfound ref' href).congr hfailures hhlist
    · rw [Function.update_of_ne hr]
      exact h.recorded hfound ref' href
  timers s timers h := ⟨h.patched, h.recorded, h.unreported⟩
  get := .of_ends fun s h => h.get.mono fun _ _ ⟨_, _, ht⟩ => ht.enrolled
  add hfound failureTolerance s h := by
    subst hfound
    exact (h.add nofun failureTolerance).enrolled
  remove hfound := by
    subst hfound
    refine .bind .get fun s => ?_
    split
    · exact .modify fun s h => .missing h.patched
    · exact .throw _

theorem roster_framed : Framed found (Roster cfg R before found ref) where
  out s x hx h := ⟨enrolled_framed.out s x hx h.enrolled, h.cache⟩
  winfo s ref' w hfailures hhlist h := ⟨enrolled_framed.winfo s ref' w hfailures hhlist h.enrolled, h.cache⟩
  timers s timers h := ⟨enrolled_framed.timers s timers h.enrolled, h.cache⟩
  get s h := by
    refine ⟨enrolled_framed.get s h.enrolled, fun hfound => ?_⟩
    rw [exec_get_cached (h.cache hfound)]
    exact h.cache hfound
  add hfound failureTolerance s h :=
    ⟨enrolled_framed.add hfound failureTolerance s h.enrolled, fun hf => absurd (hfound.symm.trans hf) nofun⟩
  remove hfound s h :=
    ⟨enrolled_framed.remove hfound s h.enrolled, fun hf => absurd (hfound.symm.trans hf) nofun⟩

/-- What is noted of a TransientCondition says nothing of the nodes. -/
theorem Enrolled.inTc (h : Enrolled cfg R before found s) (inTc : Option TransientConditionInfo) :
    Enrolled cfg R before found {s with inTc := inTc} := ⟨h.patched, h.recorded, h.unreported⟩

theorem Roster.inTc (h : Roster cfg R before found ref s) (inTc : Option TransientConditionInfo) :
    Roster cfg R before found ref {s with inTc := inTc} := ⟨h.enrolled.inTc inTc, h.cache⟩

theorem Roster.patched (h : Roster cfg R before found ref s) : Patched cfg R (before ++ s.out) := h.enrolled.patched

theorem Roster.recorded (h : Roster cfg R before found ref s) (hfound : found = true) :
    Recorded cfg R (before ++ s.out) (s.winfos ref) :=
  h.enrolled.recorded hfound ref (h.cache hfound)

/-- A step of a handler on the job's own WorkflowInfo. -/
theorem Roster.own (hp : Patched cfg R (before ++ s.out)) (hc : found = true → s.cache = some ref)
    (hr : found = true → Recorded cfg R (before ++ s.out) (s.winfos ref)) : Roster cfg R before found ref s := by
  refine ⟨⟨hp, fun hfound ref' href => ?_, fun hfound hnone => ?_⟩, hc⟩
  · obtain rfl := Option.some.inj ((hc hfound).symm.trans href)
    exact hr hfound
  · rw [hc hfound] at hnone
    cases hnone

abbrev Kept (cfg : Config) (R : List String) (before : List Out) (found : Bool) (ref : Nat) {α : Type} (p : Cb α) :
    Prop :=
  p.Safe (Roster cfg R before found ref)

/-- The nodes of a report are the WorkflowInfo's failures from then on. -/
theorem kept_notifyOfNodeFailure (nodes : List String) :
    Kept cfg R before found ref (notifyOfNodeFailure cfg o ref nodes) := by
  unfold notifyOfNodeFailure
  cases hn : Rabbit.hostlist cfg.lib nodes with
  | none => exact .throw _
  | some hosts =>
    refine .of_ends fun s h => ?_
    -- the log and the failures are brought up to date together
    obtain ⟨t₁, h₁, ht₁⟩ : ∃ t, Prog.exec (emit (.notify hosts)) s = (.ok (), t) ∧
        t = {s with out := s.out ++ [.notify hosts]} := ⟨_, rfl, rfl⟩
    obtain ⟨t₂, h₂, ht₂⟩ : ∃ t, Prog.exec (modifyWinfo ref fun w =>
          {w with failures := cfg.lib.uniq (w.failures ++ cfg.lib.uniq hosts)}) t₁ = (.ok (), t) ∧
        Roster cfg R before found ref t := by
      subst ht₁
      refine ⟨_, rfl, .own ?_ h.cache fun hfound => ?_⟩
      · exact (List.append_assoc before s.out _) ▸ h.patched.other nofun
      · dsimp only
        rw [Function.update_self, ← List.append_assoc]
        exact (h.recorded hfound).report hosts
    have hrest (w : WorkflowInfo) : Kept cfg R before found ref (if (w.failures.length : Int) ≤ w.failureTolerance
        then do
          emit (.jobRaise "dws-node-failure" 1)
          patchWorkflow o (.forceReady hosts)
        else throw .valueError) :=
      .ite (fun _ => .bind (roster_framed.emit rfl) fun _ => roster_framed.patchWorkflow fun _ => rfl) fun _ => .throw _
    exact .bind_ok h₁ (.bind_ok h₂ (((safe_readWinfo ref).bind hrest).ends ht₂))

/-- Reports that name too many nodes are caught. -/
theorem kept_notify_caught (nodes : List String) :
    Kept cfg R before found ref (tryCatch (notifyOfNodeFailure cfg o ref nodes) fun e =>
      if e = .valueError then emit (.jobRaise "dws-timeout" 0) else throw e) :=
  .tryCatch (kept_notifyOfNodeFailure nodes) fun e => .ite (fun _ => roster_framed.emit rfl) fun _ => .throw e

theorem kept_prerunTimeoutCb : Kept cfg R before found ref (prerunTimeoutCb cfg o ref) :=
  .bind (safe_readWinfo ref) fun _ => .ite (fun _ => roster_framed.emit rfl) fun _ =>
    .bind (safe_setProperty _) fun _ => kept_notify_caught _

theorem kept_setupTimeoutCb (computeNodes : List String) (lustre : Bool) :
    Kept cfg R before found ref (setupTimeoutCb cfg o ref computeNodes lustre) := by
  refine .bind (safe_readWinfo ref) fun _ => .ite (fun _ => roster_framed.emit rfl) fun _ => ?_
  split
  · exact .throw _
  · exact kept_notify_caught _

/-- The hosts of R are read. -/
theorem kept_setHlist {all : List String} (hall : jobHosts cfg R = some all) :
    Kept cfg R before found ref (modifyWinfo ref fun w => {w with hlist := some all}) := by
  refine fun s h => .own h.patched h.cache fun hfound => ?_
  show Recorded cfg R _ (Function.update s.winfos ref {s.winfos ref with hlist := some all} ref)
  rw [Function.update_self]
  refine ⟨(h.recorded hfound).failures, fun hosts hh => ?_⟩
  obtain rfl := Option.some.inj hh
  rw [hall]
  rfl

/-- The patch names what is left of the hosts. -/
theorem ends_patch {hosts : List String} (h : Roster cfg R before true ref s)
    (hhlist : (s.winfos ref).hlist = some hosts) :
    Prog.Ends (do
      modifyWinfo ref fun w => {w with hlist := w.hlist.map fun hosts => hosts.filter (· ∉ w.failures)}
      let w ← readWinfo ref
      attempt o .patchComputes
      emit (.patchComputes ((w.hlist.getD []).filter fun h => !cfg.layout.rabbitsToHostlists.contains h)) : Cb Unit) s
      fun _ t => Roster cfg R before true ref t := by
  have hrecorded := h.recorded rfl
  have hleft : hosts.filter (· ∉ (s.winfos ref).failures) = remaining (before ++ s.out) hosts :=
    List.filter_congr fun host _ => by simp only [hrecorded.failures]
  obtain ⟨t, ht, hlog, hw, hkept⟩ : ∃ t, Prog.exec (modifyWinfo ref fun w =>
        {w with hlist := w.hlist.map fun hosts => hosts.filter (· ∉ w.failures)}) s = (.ok (), t) ∧
      t.out = s.out ∧ (t.winfos ref).hlist = some (remaining (before ++ s.out) hosts) ∧
      Roster cfg R before true ref t := by
    refine ⟨_, rfl, rfl, ?_, .own h.patched h.cache fun _ => ?_⟩ <;> dsimp only <;> rw [Function.update_self]
    · rw [hhlist, Option.map_some, hleft]
    · refine ⟨hrecorded.failures, fun all hall => ?_⟩
      rw [hhlist, Option.map_some, hleft, Option.some_inj] at hall
      rw [hrecorded.hlist hosts hhlist, ← hall]
      exact congrArg some (remaining_idem _ _).symm
  refine .bind_ok ht (.bind_ok (exec_readWinfo ref t) ?_)
  unfold attempt
  cases o.raises .patchComputes with
  | some e => exact .bind_error rfl hkept
  | none =>
    refine .bind_ok (a := ()) rfl ?_
    have hpatch : computes cfg R (before ++ t.out) = some ((remaining (before ++ s.out) hosts).filter fun h =>
        !cfg.layout.rabbitsToHostlists.contains h) := by
      rw [hlog]
      have hlist := congrArg (Option.map fun hosts : List String =>
        hosts.filter fun h => !cfg.layout.rabbitsToHostlists.contains h) (hrecorded.hlist hosts hhlist)
      rwa [Option.map_map] at hlist
    refine .of_exec rfl (.own ?_ hkept.cache fun _ => ?_) <;> dsimp only <;> rw [← List.append_assoc]
    · refine hkept.patched.concat fun names heq => ?_
      rw [hpatch, ← Out.patchComputes.inj heq, hw]
      rfl
    · exact (hkept.recorded rfl).concat (.inr ⟨_, rfl⟩)

/-- The patch names what the WorkflowInfo has left of R. -/
theorem kept_patchComputesObject (hR : o.nodelist = R) :
    Kept cfg R before true ref (patchComputesObject cfg o ref) := by
  refine .of_ends fun s h => .bind_ok (exec_readWinfo ref s) ?_
  cases hhlist : (s.winfos ref).hlist with
  | some hosts => exact ends_patch h hhlist
  | none =>
    refine .bind ((safe_attempt o .lookupR).ends h) (fun _ t ht => ?_) fun _ _ ht => ht
    rw [hR]
    cases hn : Rabbit.hostlist cfg.lib R with
    | none => exact .throw ht
    | some hosts =>
      have hall : jobHosts cfg R = some (cfg.lib.uniq hosts) := by rw [jobHosts, hn]; rfl
      obtain ⟨u, hu, hhlist⟩ : ∃ u, Prog.exec (modifyWinfo ref fun w => {w with hlist := some (cfg.lib.uniq hosts)}) t =
          (.ok (), u) ∧ (u.winfos ref).hlist = some (cfg.lib.uniq hosts) :=
        ⟨_, rfl, by dsimp only; rw [Function.update_self]⟩
      have hkept := kept_setHlist hall t ht
      rw [hu] at hkept
      exact .bind_ok hu (ends_patch hkept hhlist)

theorem kept_timer (ho : o.Sound) (i : Nat) (timer : Timer) :
    Kept cfg R before o.found timer.winfo (timerCallback i (timer.callback cfg o)) := by
  have hteardown : Kept cfg R before o.found timer.winfo
      (tryCatch (checkExistenceAndMoveToTeardown o timer.winfo) fun _ => pure ()) :=
    .tryCatch (roster_framed.checkExistenceAndMoveToTeardown (.mk ho) _) fun _ => .pure _
  refine roster_framed.timerCallback ?_ i
  unfold Timer.callback
  cases timer.kind with
  | setup computeNodes lustre => exact kept_setupTimeoutCb computeNodes lustre
  | preRun => exact kept_prerunTimeoutCb
  | postRun => exact .bind hteardown fun _ => .bind (roster_framed.emit rfl) fun _ => safe_attempt o .disableNodes
  | teardownAfter => exact .bind hteardown fun _ => roster_framed.emit rfl

theorem kept_handleProposalState : Kept cfg R before found ref (handleProposalState cfg o) := by
  refine .bind (safe_attempt o .resources) fun _ => .ite (fun _ => roster_framed.emit rfl) fun _ => ?_
  split
  · exact roster_framed.emit rfl
  · exact roster_framed.emit rfl
  · exact .pure _

theorem kept_handleWorkflowErrors (workflow : Workflow) :
    Kept cfg R before found ref (handleWorkflowErrors o workflow) := by
  unfold handleWorkflowErrors
  split
  · exact roster_framed.emit rfl
  · exact .modify fun s h => h.inTc _
  · exact .modify fun s h => h.inTc _

/-- The Computes are patched when the workflow has been moved on, so there is one. -/
theorem kept_setupCompleted (hR : o.nodelist = R) : Kept cfg R before o.found ref (do
    moveDesiredstate o ref .dataIn
    patchComputesObject cfg o ref
    pure true) := by
  refine .of_ends fun s h => ?_
  have hmove := ends_moveDesiredstate (o := o) ref .dataIn s
  refine .bind (Q := fun r t => r.isOk = o.applies ∧ Roster cfg R before o.found ref t)
    ⟨hmove.1, roster_framed.moveDesiredstate o ref .dataIn s h⟩ (fun _ t ht => ?_) fun _ _ ht => ht.2
  have hfound : o.found = true := (Bool.and_eq_true_iff.mp ht.1.symm).1
  rw [hfound] at ht ⊢
  exact ((kept_patchComputesObject hR).bind fun _ => .pure _).ends ht.2

theorem kept_stateChange (hR : o.nodelist = R) (workflow : Workflow) :
    Kept cfg R before o.found ref (stateChange cfg o ref workflow) := by
  have hmoved (d : WorkflowState) : Kept cfg R before o.found ref (do moveDesiredstate o ref d; pure true) :=
    .bind (roster_framed.moveDesiredstate o ref d) fun _ => .pure _
  have hdelete : Kept cfg R before o.found ref (do
      attempt o .markRabbitsFree
      emit .deleteWorkflow
      modifyWinfo ref fun w => {w with deleted := true}
      pure true : Cb Bool) :=
    .bind (safe_attempt o _) fun _ => .bind (roster_framed.emit rfl) fun _ =>
      .bind (roster_framed.modifyWinfo ref (fun _ => rfl) fun _ => rfl) fun _ => .pure _
  unfold stateChange
  refine .ite (fun _ => .bind (safe_attempt o _) fun _ => .pure _) fun _ => .ite (fun _ => ?_) fun _ => ?_
  · refine .bind (safe_readWinfo ref) fun _ => .ite (fun _ => ?_) fun _ => hdelete
    exact .bind (roster_framed.emit rfl) fun _ => hdelete
  refine .bind (safe_readWinfo ref) fun _ => .ite (fun _ => .pure _) fun _ => ?_
  refine .ite (fun _ => .bind kept_handleProposalState fun _ => .pure _) fun _ => .ite (fun _ => ?_) fun _ => ?_
  · exact kept_setupCompleted hR
  refine .ite (fun _ => .bind (roster_framed.moveDesiredstate o ref _) fun _ => ?_) fun _ =>
    .ite (fun _ => ?_) fun _ => .ite (fun _ => hmoved _) fun _ => .ite (fun _ => ?_) fun _ => .pure _
  · exact .ite (fun _ => .bind (roster_framed.startStateTimer _ ref) fun _ => .pure _) fun _ => .pure _
  · exact .bind (safe_attempt o _) fun _ => .bind (roster_framed.emit rfl) fun _ =>
      .bind (roster_framed.stopStateTimer ref) fun _ => .pure _
  · exact .bind (roster_framed.moveToTeardown o ref) fun _ => .pure _

theorem kept_workflowStateChangeCbInner (hR : o.nodelist = R) (workflow : Workflow) :
    Kept cfg R before o.found ref (workflowStateChangeCbInner cfg o ref workflow) := by
  refine .ite (fun _ => .pure _) fun _ => .bind (safe_readWinfo ref) fun _ => .ite (fun _ => .pure _) fun _ => ?_
  exact .bind (kept_stateChange hR workflow) fun _ =>
    .ite (fun _ => kept_handleWorkflowErrors workflow) fun _ => .pure _

/-- An error tears the workflow down. -/
theorem kept_stateChange_caught (hR : o.nodelist = R) (workflow : Workflow) :
    Kept cfg R before o.found ref (tryCatch (workflowStateChangeCbInner cfg o ref workflow) fun _ => do
      tryCatch (do
        moveToTeardown o ref false
        modifyWinfo ref fun w => {w with toredown := true}) fun e =>
        match e with
        | .apiException _ => pure ()
        | e => throw e
      emit (.jobRaise "exception" 0)) := by
  have hteardown : Kept cfg R before o.found ref (do
      moveToTeardown o ref false
      modifyWinfo ref fun w => {w with toredown := true}) :=
    .bind (roster_framed.moveToTeardown o ref) fun _ => roster_framed.modifyWinfo ref (fun _ => rfl) fun _ => rfl
  refine .tryCatch (kept_workflowStateChangeCbInner hR workflow) fun _ => .bind (.tryCatch hteardown fun e => ?_)
    fun _ => roster_framed.emit rfl
  split
  · exact .pure _
  · exact .throw _

/-! ### Callbacks of a job -/

/-! ### Callbacks -/

/-- What follows on the WorkflowInfo of the job. -/
theorem enrolled_get_bind {α : Type} {next : Nat → Cb α} (hnext : ∀ ref, Kept cfg R before found ref (next ref)) :
    (WorkflowInfo.get >>= next).Safe (Enrolled cfg R before found) := by
  refine .of_ends fun s h => .bind h.get (fun ref t ht => ?_) fun e t ht => ?_
  · obtain ⟨_, hr, ht⟩ := ht
    obtain rfl := Except.ok.inj hr
    exact ((hnext ref).ends ht).mono fun _ _ hu => hu.enrolled
  · obtain ⟨_, hr, -⟩ := ht
    cases hr

theorem enrolled_timer (ho : o.Sound) (i : Nat) {timer : Timer} (h : Enrolled cfg R before o.found s)
    (hc : o.found = true → s.cache = some timer.winfo) :
    Enrolled cfg R before o.found (Prog.exec (timerCallback i (timer.callback cfg o)) s).2 :=
  (kept_timer ho i timer s ⟨h, hc⟩).enrolled

/-- The deletion of the workflow is seen when there is none any more. -/
theorem enrolled_workflowStateChangeCb (hR : o.nodelist = R) {event : Snapshot}
    (hdeleted : event = .deleted → o.found = false) :
    (workflowStateChangeCb cfg o event).Safe (Enrolled cfg R before o.found) := by
  refine .ite (fun _ => .pure _) fun _ => ?_
  cases event with
  | deleted => exact .bind enrolled_framed.get fun _ => enrolled_framed.remove (hdeleted rfl)
  | workflow workflow => exact enrolled_get_bind fun ref => kept_stateChange_caught hR workflow

theorem enrolled_notifyInTc (transCond : TransientConditionInfo) :
    (killWorkflowInTc.notifyInTc cfg o transCond).Safe (Enrolled cfg R before found) := by
  refine .ite (fun _ => .bind (safe_setProperty _) fun _ => enrolled_get_bind fun ref => ?_) fun _ => .pure _
  exact .tryCatch (.bind (kept_notifyOfNodeFailure _) fun _ => .pure _) fun e =>
    .ite (fun _ => .pure _) fun _ => .throw e

theorem enrolled_killWorkflowInTc (tcTimeout : Int) :
    (do let _ ← killWorkflowInTc cfg o tcTimeout).Safe (Enrolled cfg R before found) := by
  have hforget (b : Bool) :
      (do modify fun s => {s with inTc := none}; pure b : Cb Bool).Safe (Enrolled cfg R before found) :=
    .bind (.modify fun s h => h.inTc none) fun _ => .pure _
  refine .bind (.bind .get fun s => ?_) fun _ => .pure _
  cases s.inTc with
  | none => exact .pure _
  | some transCond =>
    exact .ite (fun _ => .pure _) fun _ => .bind (enrolled_notifyInTc transCond) fun _ =>
      .ite (fun _ => hforget true) fun _ => .bind (enrolled_framed.emit rfl) fun _ => hforget false

theorem enrolled_setupCb : (setupCb cfg o R).Safe (Enrolled cfg R before found) := by
  unfold setupCb
  cases hn : Rabbit.hostlist cfg.lib R with
  | none => exact .throw _
  | some hosts =>
    have hall : jobHosts cfg R = some (cfg.lib.uniq hosts) := by rw [jobHosts, hn]; rfl
    refine .bind (safe_getWorkflow o) fun _ => ?_
    split
    · exact .throw _
    refine .bind (safe_attempt o .servers) fun _ => enrolled_get_bind fun ref => .bind (kept_setHlist hall) fun _ =>
      .bind (roster_framed.moveDesiredstate o ref _) fun _ => .ite (fun _ => ?_) fun _ => .pure _
    exact roster_framed.startStateTimer _ ref

theorem enrolled_requestCb (ho : o.Sound) {r : Jobtap.Rpc} (hR : ∀ nodelist, r = .setup nodelist → nodelist = R) :
    (requestCb cfg o r).Safe (Enrolled cfg R before o.found) := by
  cases r with
  | create failureTolerance => exact enrolled_framed.createCb (.mk ho) failureTolerance
  | setup nodelist =>
    rw [hR nodelist rfl]
    exact enrolled_setupCb
  | postRun runStarted => exact enrolled_framed.postRunCb (.mk ho) runStarted
  | teardown => exact enrolled_framed.teardownCb (.mk ho)
  | abort => exact enrolled_framed.abortCb (.mk ho)

/-! ### Before there is a workflow -/

/-- Nothing has been reported or patched, and the hosts of the job have not been read. -/
structure Blank (before : List Out) (s : Service) : Prop where
  winfos : ∀ ref, (s.winfos ref).failures = [] ∧ (s.winfos ref).hlist = none
  inTc : s.inTc = none
  quiet : ∀ x ∈ before ++ s.out, x.isRoster = false

theorem Blank.enrolled (h : Blank before s) : Enrolled cfg R before found s := by
  have hnotified : (before ++ s.out).flatMap Out.notified = [] := by
    refine List.flatMap_eq_nil_iff.mpr fun x hx => ?_
    have hquiet := h.quiet x hx
    cases x <;> first | rfl | cases hquiet
  refine ⟨.of_quiet h.quiet, fun _ ref _ => ⟨fun host => ?_, fun hosts hh => ?_⟩, fun _ _ => hnotified⟩
  · rw [(h.winfos ref).1, hnotified]
  · rw [(h.winfos ref).2] at hh
    cases hh

/-- A WorkflowInfo is blank when it is made. -/
theorem Blank.add (h : Blank before s) (failureTolerance : Int) :
    Blank before (Prog.exec (WorkflowInfo.add failureTolerance) s).2 := by
  refine ⟨fun ref => ?_, h.inTc, h.quiet⟩
  show (Function.update s.winfos s.made {failureTolerance := failureTolerance} ref).failures = [] ∧
    (Function.update s.winfos s.made {failureTolerance := failureTolerance} ref).hlist = none
  by_cases hr : ref = s.made
  · subst hr
    rw [Function.update_self]
    exact ⟨rfl, rfl⟩
  · rw [Function.update_of_ne hr]
    exact h.winfos ref

theorem blank_framed : Framed false (Blank before) where
  out s x hx h := by
    refine ⟨h.winfos, h.inTc, fun y hy => ?_⟩
    rw [← List.append_assoc] at hy
    rcases List.mem_append.mp hy with hy | hy
    · exact h.quiet y hy
    · exact List.mem_singleton.mp hy ▸ hx
  winfo s ref w hfailures hhlist h := by
    refine ⟨fun ref' => ?_, h.inTc, h.quiet⟩
    dsimp only
    by_cases hr : ref' = ref
    · subst hr
      rw [Function.update_self, hfailures, hhlist]
      exact h.winfos ref'
    · rw [Function.update_of_ne hr]
      exact h.winfos ref'
  timers s timers h := ⟨h.winfos, h.inTc, h.quiet⟩
  get s h := by
    cases hc : s.cache with
    | some ref => exact (exec_get_cached hc) ▸ h
    | none => exact (exec_get_missing hc) ▸ h.add (-1)
  add _ failureTolerance s h := h.add failureTolerance
  remove _ := by
    refine .bind .get fun s => ?_
    split
    · exact .modify fun s h => ⟨h.winfos, h.inTc, h.quiet⟩
    · exact .throw _

theorem blank_killWorkflowInTc (tcTimeout : Int) :
    (do let _ ← killWorkflowInTc cfg o tcTimeout).Safe (Blank before) := by
  refine .of_ends fun s h => .bind_ok (a := false) (t := s) ?_ (.pure h)
  refine (Prog.exec_bind_ok (Prog.exec_get s) _).trans ?_
  rw [h.inTc]
  rfl

theorem blank_setupCb (hfound : o.found = false) (nodelist : List String) :
    (setupCb cfg o nodelist).Safe (Blank before) := by
  have hmissing (s : Service) : Prog.exec (getWorkflow o) s = (.error (.apiException 404), s) := by
    unfold getWorkflow
    rw [hfound]
    rfl
  unfold setupCb
  cases Rabbit.hostlist cfg.lib nodelist with
  | none => exact .throw _
  | some hosts => exact .of_ends fun s h => .bind_error (hmissing s) h

theorem blank_requestCb (hfound : o.found = false) (r : Jobtap.Rpc) :
    (requestCb cfg o r).Safe (Blank before) := by
  cases r with
  | create failureTolerance => exact blank_framed.createCb nofun failureTolerance
  | setup nodelist => exact blank_setupCb hfound nodelist
  | postRun runStarted => exact blank_framed.postRunCb nofun runStarted
  | teardown => exact blank_framed.teardownCb nofun
  | abort => exact blank_framed.abortCb nofun

end Handlers

/-! ### Runs of the system -/

/-- The hosts of the job are those of R wherever they are read. -/
def Action.Reads (R : List String) : Action → Prop
  | .lookup (some nodelist) _ _ => nodelist = R
  | .watch _ o => o.nodelist = R
  | _ => True

def System.alive (s : System) : Bool := (currentWorkflow s.versions).isSome

/-- The service between callbacks. -/
def System.idle (s : System) : Service := {s.service with out := []}

structure Listed (cfg : Config) (R : List String) (s : System) : Prop where
  blank : s.versions = [] → Blank s.log s.idle
  enrolled : Enrolled cfg R s.log s.alive s.idle

section Runs
variable {cfg : Config} {R : List String} {timeout : Bool} {s t : System}

/-- The callback has ended, and what it logged counts as logged before. -/
theorem Enrolled.settle {before : List Out} {found : Bool} {service : Service}
    (h : Enrolled cfg R before found service) :
    Enrolled cfg R (before ++ service.out) found {service with out := []} := by
  obtain ⟨hpatched, hrecorded, hunreported⟩ := h
  rw [← List.append_nil (before ++ service.out)] at hpatched hrecorded hunreported
  exact ⟨hpatched, hrecorded, hunreported⟩

theorem Blank.settle {before : List Out} {service : Service} (h : Blank before service) :
    Blank (before ++ service.out) {service with out := []} := by
  obtain ⟨hwinfos, hinTc, hquiet⟩ := h
  rw [← List.append_nil (before ++ service.out)] at hquiet
  exact ⟨hwinfos, hinTc, hquiet⟩

theorem Enrolled.mono {before : List Out} {found found' : Bool} {service : Service}
    (h : Enrolled cfg R before found service) (hf : found' = true → found = true) :
    Enrolled cfg R before found' service :=
  ⟨h.patched, fun hfound => h.recorded (hf hfound), fun hfound => h.unreported (hf hfound)⟩

theorem run_spec (s : System) (callback : Cb Unit) :
    (s.run callback).2.service = (Prog.exec callback s.idle).2 ∧
      (s.run callback).2.log = s.log ++ (Prog.exec callback s.idle).2.out := by
  unfold System.run respond System.idle
  cases Prog.exec callback {s.service with out := []} with
  | mk r service => cases r <;> exact ⟨rfl, rfl⟩

/-- A step that leaves the service as `service`, with what was logged in it. -/
theorem Listed.step (service : Service) (hidle : t.idle = {service with out := []})
    (hlog : t.log = s.log ++ service.out) (hblank : s.versions = [] → Blank s.log service)
    (henrolled : s.versions ≠ [] → Enrolled cfg R s.log s.alive service)
    (hexisted : s.versions ≠ [] → t.versions ≠ []) (halive : s.versions ≠ [] → t.alive = true → s.alive = true) :
    Listed cfg R t := by
  refine ⟨fun hv => ?_, ?_⟩ <;> rw [hlog, hidle] <;> by_cases hs : s.versions = []
  · exact (hblank hs).settle
  · exact absurd hv (hexisted hs)
  · exact (hblank hs).settle.enrolled
  · exact (henrolled hs).settle.mono (halive hs)

/-- A step without a callback. -/
theorem Listed.silent (h : Listed cfg R s) (hservice : t.service = s.service) (hlog : t.log = s.log)
    (hexisted : s.versions ≠ [] → t.versions ≠ []) (halive : s.versions ≠ [] → t.alive = true → s.alive = true) :
    Listed cfg R t := by
  refine .step s.idle ?_ ?_ h.blank (fun _ => h.enrolled) hexisted halive
  · unfold System.idle
    rw [hservice]
  · rw [hlog]
    exact (List.append_nil _).symm

/-- A step with a callback, which runs in `u`. -/
theorem Listed.run {u : System} (callback : Cb Unit) (hidle : u.idle = s.idle) (hlog : u.log = s.log)
    (hservice : t.service = (u.run callback).2.service) (htlog : t.log = (u.run callback).2.log)
    (hblank : s.versions = [] → Blank s.log (Prog.exec callback s.idle).2)
    (henrolled : s.versions ≠ [] → Enrolled cfg R s.log s.alive (Prog.exec callback s.idle).2)
    (hexisted : s.versions ≠ [] → t.versions ≠ []) (halive : s.versions ≠ [] → t.alive = true → s.alive = true) :
    Listed cfg R t := by
  obtain ⟨hrun, hlogged⟩ := run_spec u callback
  rw [hidle] at hrun hlogged
  refine .step (Prog.exec callback s.idle).2 ?_ ?_ hblank henrolled hexisted halive
  · exact congrArg (fun service : Service => {service with out := []}) (hservice.trans hrun)
  · rw [htlog, hlogged, hlog]

/-- The requests to set the workflow up that are in flight name the hosts of R. -/
def Named (R : List String) (rpcs : List Jobtap.Rpc) : Prop := ∀ nodelist, .setup nodelist ∈ rpcs → nodelist = R

/-- What a run keeps. -/
structure Mustered (cfg : Config) (R : List String) (s : System) : Prop where
  known : Asking s.view ∧ Existing s.view
  slotted : s.Slotted
  named : Named R s.rpcs
  listed : Listed cfg R s

theorem Named.event {rpcs : List Jobtap.Rpc} (h : Named R rpcs) {j : Jobtap.Job} {e : Jobtap.Event}
    (he : ∀ nodelist calloc sent, e = .fetchR (some nodelist) calloc sent → nodelist = R) :
    Named R (rpcs ++ (e.calls timeout j).filterMap Jobtap.Call.rpc?) := by
  intro nodelist hr
  rcases List.mem_append.mp hr with hr | hr
  · exact h nodelist hr
  · obtain ⟨calloc, sent, rfl⟩ := Jobtap.Event.sentBy j (Jobtap.mem_rpcs.mp hr)
    exact he nodelist calloc sent rfl

theorem named_step {v v' : View} {a : Action} (h : Named R v.rpcs) (hr : a.Reads R)
    (hs : View.Step cfg timeout v a v') : Named R v'.rpcs := by
  cases hs with
  | job hm he =>
    refine h.event fun nodelist calloc sent hf => ?_
    subst hf
    cases hm
  | lookup nodes calloc setup hl =>
    refine h.event fun nodelist _ _ hf => ?_
    cases hf
    exact hr
  | reply hm he => exact h.event fun nodelist calloc sent hf => absurd hf ((Reply.event_spec he).2.1 _ _ _)
  | remove hremove =>
    rename_i r
    cases r <;> exact h.event fun _ _ _ hf => nomatch hf
  | serve hr hf hl => exact fun nodelist hr => h nodelist (List.mem_of_mem_erase hr)
  | _ => exact h

theorem listed_next (timeout : Bool) (h : Mustered cfg R s) {a : Action} (he : a.Enabled s) (hr : a.Reads R) :
    Listed cfg R (a.next cfg timeout s) := by
  have hstep := view_next cfg timeout s a he
  have hexisted : s.versions ≠ [] → (a.next cfg timeout s).versions ≠ [] := existed_step hstep
  have halive : s.versions ≠ [] → (a.next cfg timeout s).alive = true → s.alive = true :=
    alive_step h.known.2 hstep
  cases a with
  | serve r o =>
    have hfound : o.found = s.alive := he.2.found
    refine .run (s := s) (u := {s with rpcs := s.rpcs.erase r}) (requestCb cfg o r) rfl rfl rfl rfl (fun hs => ?_)
      (fun _ => ?_) hexisted halive
    · have hnone : o.found = false := hfound.trans (by rw [System.alive, hs]; rfl)
      exact blank_requestCb hnone r _ (h.listed.blank hs)
    · rw [← hfound]
      refine enrolled_requestCb he.2.sound (fun nodelist hsetup => ?_) _ (hfound ▸ h.listed.enrolled)
      exact h.named nodelist (hsetup ▸ he.1)
  | watch n o =>
    obtain ⟨event, hn⟩ : ∃ event, s.versions[n]? = some event := ⟨_, List.getElem?_eq_getElem he.1⟩
    have hnext : Action.next cfg timeout s (.watch n o) =
        (System.run {s with versions := s.versions.drop n} (workflowStateChangeCb cfg o event)).2 := by
      dsimp only [Action.next]
      rw [hn]
    have hfound : o.found = s.alive := he.2.found
    rw [hnext] at hexisted halive ⊢
    refine .run (s := s) (u := {s with versions := s.versions.drop n}) _ rfl rfl rfl rfl (fun hs => ?_)
      (fun _ => ?_) hexisted halive
    · exact absurd hs (List.ne_nil_of_mem (List.mem_of_getElem? hn))
    · rw [← hfound]
      refine enrolled_workflowStateChangeCb hr (fun hdeleted => ?_) _ (hfound ▸ h.listed.enrolled)
      rw [hfound, ← Bool.not_eq_true]
      exact fun hw => h.known.2.ended.not_mem hw (hdeleted ▸ List.mem_of_getElem? hn)
  | timer i o =>
    obtain ⟨⟨t, ht, hrun⟩, hf⟩ := he
    have hheld := h.slotted.held i t ⟨ht, hrun⟩
    have hfound : o.found = s.alive := hf.found
    have hnext : Action.next cfg timeout s (.timer i o) = (s.run (timerCallback i (t.callback cfg o))).2 := by
      dsimp only [Action.next]
      rw [ht]
    rw [hnext] at hexisted halive ⊢
    refine .run (u := s) _ rfl rfl rfl rfl (fun hs => absurd hs hheld.1) (fun _ => ?_) hexisted halive
    rw [← hfound]
    exact enrolled_timer hf.sound i (hfound ▸ h.listed.enrolled) fun hw => hheld.2 (hfound.symm.trans hw)
  | killInTc tcTimeout o =>
    exact .run (u := s) _ rfl rfl rfl rfl (fun hs => blank_killWorkflowInTc tcTimeout _ (h.listed.blank hs))
      (fun _ => enrolled_killWorkflowInTc tcTimeout _ h.listed.enrolled) hexisted halive
  | reply m =>
    refine h.listed.silent ?_ ?_ hexisted halive <;> dsimp only [Action.next] <;> cases m.event <;> rfl
  | teardown =>
    refine h.listed.silent ?_ ?_ hexisted halive <;> dsimp only [Action.next] <;>
      cases currentWorkflow s.versions <;> rfl
  | _ => exact h.listed.silent rfl rfl hexisted halive

theorem mustered_init (cfg : Config) (R : List String) : Mustered cfg R {} :=
  ⟨⟨asking_init, existing_init⟩, slotted_init, nofun,
    ⟨fun _ => ⟨fun _ => ⟨rfl, rfl⟩, rfl, nofun⟩, Blank.enrolled ⟨fun _ => ⟨rfl, rfl⟩, rfl, nofun⟩⟩⟩

theorem mustered_next (timeout : Bool) {a : Action} (h : Mustered cfg R s) (he : a.Enabled s) (hr : a.Reads R) :
    Mustered cfg R (a.next cfg timeout s) :=
  ⟨known_next timeout h.known he, slotted_next timeout h.known.2 h.slotted he,
    named_step h.named hr (view_next cfg timeout s a he), listed_next timeout h he hr⟩

/-- **The Computes** are patched, in every run, with exactly the hosts of R that had not been
reported as failed, but for rabbits. -/
theorem computes_patched (cfg : Config) (timeout : Bool) (R : List String) {as : List Action}
    (h : ((systemMachine cfg timeout).restrict fun _ a => a.Reads R).Possible {} as) :
    ((systemMachine cfg timeout).restrict fun _ a => a.Reads R).Always (fun s => Patched cfg R s.log) {} as := by
  refine Machine.always_from (M := (systemMachine cfg timeout).restrict fun _ a => a.Reads R) (Mustered cfg R)
    (fun s hs => ?_) (fun s a hs he _ => mustered_next timeout hs he.1 he.2) (mustered_init cfg R) h
  have hpatched := hs.listed.enrolled.patched
  rwa [System.idle, List.append_nil] at hpatched

end Runs

/-! ### A run -/

/-- Two rabbits with one compute each, and a timeout of Setup. -/
def oneEach : Config where
  lib := Rabbit.namedHosts
  layout := (Rabbit.populateRabbitsDict Rabbit.namedHosts
    [⟨"rabbit1", some ["node1"]⟩, ⟨"rabbit2", some ["node2"]⟩]).get (by decide)
  setupTimeout := true

instance (R : List String) : (a : Action) → Decidable (a.Reads R)
  | .lookup (some nodelist) _ _ => inferInstanceAs (Decidable (nodelist = R))
  | .watch _ o => inferInstanceAs (Decidable (o.nodelist = R))
  | .lookup none _ _ | .job _ | .serve _ _ | .timer _ _ | .reply _ | .remove _ | .killInTc _ _ | .status _ | .teardown
  | .vanish => .isTrue trivial

/-- The first rabbit is not ready in time, which the job tolerates, and the workflow completes
Setup without its compute. -/
def withoutNode1 : List Action :=
  [.job (.depend 1 .ok), .serve (.create 1) {found := false}, .reply ⟨.create 1, true⟩,
    .status (complete .proposal), .watch 1 {nodelist := ["node1", "node2"]}, .job (.run {}),
    .lookup (some ["node1", "node2"]) true .ok, .serve (.setup ["node1", "node2"]) {},
    .timer 0 {servers := some [[some [("rabbit1", ⟨some false, 0⟩)]]]}, .status (complete .setup),
    .watch 2 {nodelist := ["node1", "node2"]}]

theorem withoutNode1_patched :
    .patchComputes ["node2"] ∈ ((systemMachine oneEach false).run {} withoutNode1).log ∧
      ((systemMachine oneEach false).restrict fun _ a => a.Reads ["node1", "node2"]).Always
        (fun s => Patched oneEach ["node1", "node2"] s.log) {} withoutNode1 :=
  ⟨by decide, computes_patched oneEach false ["node1", "node2"] (by decide)⟩

end FluxCoral2.Dws
