import FluxCoral2.Dws.Handlers

/-! The steps of the service that neither report failed nodes nor patch the Computes.

Whatever those steps leave alone is `Framed`: it is then kept by every handler that only
moves the workflow, tears it down or starts and stops timers, for one proof each. -/
namespace FluxCoral2.Dws
open Library

/-- Reports of failed nodes, and the patches that leave them out. -/
def Out.isRoster : Out → Bool
  | .notify _ => true
  | .patchComputes _ => true
  | _ => false

/-! ### Steps that need nothing -/

section Plain
variable {cfg : Config} {o : Outcomes} {I : Service → Prop}

theorem safe_attempt (o : Outcomes) (site : Site) : (attempt o site).Safe I := by
  unfold attempt
  split
  · exact .throw _
  · exact .pure _

theorem safe_readWinfo (ref : Nat) : (readWinfo ref).Safe I := fun _ h => h

theorem safe_getWorkflow (o : Outcomes) : (getWorkflow o).Safe I :=
  .ite (fun _ => .throw _) fun _ => safe_attempt o .getWorkflow

theorem safe_setProperty (downNodes : List String) : (setProperty cfg downNodes).Safe I :=
  .ite (fun _ => .throw _) fun _ => .pure _

end Plain

/-! ### Steps that leave the roster alone -/

/-- The workflow is there, and a look-up that fails does not say otherwise. -/
structure Outcomes.Present (o : Outcomes) : Prop where
  sound : o.Sound
  found : o.found = true

/-- A property of the service that such steps leave alone. With `found` it may rest on the
workflow being there: nothing then adds a WorkflowInfo or removes it. -/
structure Framed (found : Bool) (I : Service → Prop) : Prop where
  out : ∀ s x, x.isRoster = false → I s → I {s with out := s.out ++ [x]}
  winfo : ∀ s ref w, w.failures = (s.winfos ref).failures → w.hlist = (s.winfos ref).hlist → I s →
    I {s with winfos := Function.update s.winfos ref w}
  timers : ∀ s timers, I s → I {s with timers := timers}
  get : WorkflowInfo.get.Safe I
  add : found = false → ∀ failureTolerance, (WorkflowInfo.add failureTolerance).Safe I
  remove : found = false → WorkflowInfo.remove.Safe I

namespace Framed
variable {cfg : Config} {o : Outcomes} {found : Bool} {I : Service → Prop} (h : Framed found I)
include h

theorem emit {x : Out} (hx : x.isRoster = false) : (emit x).Safe I := fun s hs => h.out s x hx hs

theorem modifyWinfo (ref : Nat) {f : WorkflowInfo → WorkflowInfo} (hfailures : ∀ w, (f w).failures = w.failures)
    (hhlist : ∀ w, (f w).hlist = w.hlist) : (modifyWinfo ref f).Safe I :=
  fun s hs => h.winfo s ref _ (hfailures _) (hhlist _) hs

theorem stopTimer (timer : Nat) : (stopTimer timer).Safe I := fun s hs => h.timers s _ hs

theorem startTimer (kind : TimerKind) (ref : Nat) : (startTimer kind ref).Safe I := fun s hs => h.timers s _ hs

theorem stopStateTimer (ref : Nat) : (stopStateTimer ref).Safe I := by
  refine .bind (safe_readWinfo ref) fun w => ?_
  split
  · exact h.stopTimer _
  · exact .pure _

theorem startStateTimer (kind : TimerKind) (ref : Nat) : (startStateTimer kind ref).Safe I :=
  .bind (h.startTimer kind ref) fun _ => h.modifyWinfo ref (fun _ => rfl) fun _ => rfl

theorem patchWorkflow {x : Bool → Out} (hx : ∀ b, (x b).isRoster = false) : (patchWorkflow o x).Safe I :=
  .bind (h.emit (hx _)) fun _ => .ite (fun _ => .throw _) fun _ => safe_attempt o .patchWorkflow

theorem moveToTeardown (o : Outcomes) (ref : Nat) : (moveToTeardown o ref false).Safe I :=
  .bind (h.stopStateTimer ref) fun _ => .bind (h.emit rfl) fun _ => h.modifyWinfo ref (fun _ => rfl) fun _ => rfl

theorem moveDesiredstate (o : Outcomes) (ref : Nat) (d : WorkflowState) : (moveDesiredstate o ref d).Safe I :=
  .bind (h.stopStateTimer ref) fun _ => h.patchWorkflow fun _ => rfl

theorem checkExistenceAndMoveToTeardown (ho : found = true → o.Present) (ref : Nat) :
    (checkExistenceAndMoveToTeardown o ref).Safe I := by
  cases found with
  | false =>
    refine .bind (.tryCatch (.bind (safe_getWorkflow o) fun _ => .pure _) fun e =>
      .ite (fun _ => .pure _) fun _ => .throw _) fun exists' => .ite (fun _ => h.moveToTeardown o ref) fun _ => ?_
    exact .bind (h.remove rfl) fun _ => h.emit rfl
  | true =>
    refine .of_ends fun s hs => ?_
    obtain ⟨r, hr, rfl | ⟨e, rfl⟩⟩ := exec_existence (ho rfl).sound (ho rfl).found s
    · exact .bind_ok hr ((h.moveToTeardown o ref).ends hs)
    · exact .bind_error hr hs

/-! #### Timers -/

theorem timerCallback {callback : Cb Unit} (hc : callback.Safe I) (timer : Nat) :
    (timerCallback timer callback).Safe I :=
  .bind (.tryCatch hc fun _ => h.emit rfl) fun _ => h.stopTimer timer

theorem teardownAfterTimerCb (ho : found = true → o.Present) (ref : Nat) :
    (teardownAfterTimerCb o ref).Safe I :=
  .bind (.tryCatch (h.checkExistenceAndMoveToTeardown ho ref) fun _ => .pure _) fun _ => h.emit rfl

theorem postrunTimeoutCb (ho : found = true → o.Present) (ref : Nat) : (postrunTimeoutCb o ref).Safe I :=
  .bind (.tryCatch (h.checkExistenceAndMoveToTeardown ho ref) fun _ => .pure _) fun _ =>
    .bind (h.emit rfl) fun _ => safe_attempt o .disableNodes

/-! #### Requests -/

theorem createCb (ho : found = true → o.Present) (failureTolerance : Int) : (createCb o failureTolerance).Safe I := by
  refine .bind (safe_attempt o .validate) fun _ => ?_
  cases hf : o.found with
  | true => exact .of_ends fun s hs => .bind_error rfl hs
  | false =>
    have hfound : found = false := by
      cases found with
      | false => rfl
      | true => exact absurd ((ho rfl).found.symm.trans hf) nofun
    have hadd : (do let _ ← WorkflowInfo.add failureTolerance : Cb Unit).Safe I :=
      .bind (h.add hfound failureTolerance) fun _ => .pure _
    refine .bind (safe_attempt o .createObject) fun _ => .bind (h.emit rfl) fun _ => .ite (fun _ => ?_) fun _ => hadd
    exact .of_ends fun s hs => .bind_error rfl hs

theorem postRunCb (ho : found = true → o.Present) (runStarted : Bool) :
    (postRunCb cfg o runStarted).Safe I := by
  refine .bind h.get fun ref => .bind (safe_readWinfo ref) fun _ => .ite (fun _ => .pure _) fun _ =>
    .ite (fun _ => h.checkExistenceAndMoveToTeardown ho ref) fun _ =>
      .bind (h.moveDesiredstate o ref _) fun _ => ?_
  have htimer : (if cfg.postrunTimeout then Dws.startStateTimer .postRun ref else pure ()).Safe I :=
    .ite (fun _ => h.startStateTimer _ ref) fun _ => .pure _
  exact .ite (fun _ => .bind (h.startTimer _ ref) fun _ => htimer) fun _ => htimer

/-- The workflow is torn down unless it has been. -/
theorem unless_toredown (ho : found = true → o.Present) (ref : Nat) {next : Cb Unit} (hn : next.Safe I) :
    (do
      if !(← Dws.readWinfo ref).toredown then Dws.checkExistenceAndMoveToTeardown o ref
      next : Cb Unit).Safe I :=
  .bind (safe_readWinfo ref) fun _ => .ite
    (fun _ => .bind (h.checkExistenceAndMoveToTeardown ho ref) fun _ => hn) fun _ => hn

theorem teardownCb (ho : found = true → o.Present) : (teardownCb o).Safe I :=
  .bind h.get fun ref => .bind (safe_readWinfo ref) fun _ =>
    .ite (fun _ => h.checkExistenceAndMoveToTeardown ho ref) fun _ => .pure _

theorem abortCb (ho : found = true → o.Present) : (abortCb o).Safe I :=
  .bind h.get fun ref => .bind (h.modifyWinfo ref (fun _ => rfl) fun _ => rfl) fun _ =>
    h.unless_toredown ho ref (.bind (safe_attempt o .disableNodes) fun _ => safe_attempt o .disableRabbits)

end Framed

end FluxCoral2.Dws
