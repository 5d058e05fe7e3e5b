import FluxCoral2.Dws.Ledger

/-! The timers of the service, beside its ledger.

A clock has the timers themselves, with which of them run, and the one each WorkflowInfo
has for its state. Whatever leaves the clock alone is `Still`; the steps that do not are
operations on clocks, one for each. -/
namespace FluxCoral2.Dws
open Library

/-! ### Clocks -/

/-- `slot` is the timer that a WorkflowInfo has for its state. -/
structure Clock where
  ledger : Ledger
  slot : Nat → Option Nat
  timers : List Timer

def Service.clock (s : Service) : Clock where
  ledger := s.ledger
  slot := fun ref => (s.winfos ref).stateTimer
  timers := s.timers

namespace Clock

def mark (c : Clock) (x : Out) : Clock := {c with ledger := c.ledger.mark x}

def setFlags (c : Clock) (ref : Nat) (f : Flags → Flags) : Clock := {c with ledger := c.ledger.setFlags ref f}

/-- A new WorkflowInfo in the cache, without a timer. -/
def add (c : Clock) : Clock :=
  {c with ledger := c.ledger.add, slot := Function.update c.slot c.ledger.made none}

def get (c : Clock) : Clock := if c.ledger.cache.isSome then c else c.add

def forget (c : Clock) : Clock := {c with ledger := c.ledger.forget}

def stop (c : Clock) (timer : Nat) : Clock :=
  {c with timers := c.timers.modify timer fun t => {t with running := false}}

/-- Stop the timer that a WorkflowInfo has for its state. -/
def disarm (c : Clock) (ref : Nat) : Clock :=
  match c.slot ref with
  | some timer => c.stop timer
  | none => c

def start (c : Clock) (kind : TimerKind) (ref : Nat) : Clock :=
  {c with ledger := c.ledger.startTimers 1 ref, timers := c.timers ++ [Timer.mk kind ref true]}

/-- Start a timer for the state of a WorkflowInfo. -/
def arm (c : Clock) (kind : TimerKind) (ref : Nat) : Clock :=
  {c.start kind ref with slot := Function.update c.slot ref (some c.timers.length)}

def tearDown (c : Clock) (ref : Nat) : Clock :=
  ((c.disarm ref).mark .teardownWorkflow).setFlags ref fun f => {f with toredown := true}

variable (c : Clock)

@[simp] theorem ledger_mark (x : Out) : (c.mark x).ledger = c.ledger.mark x := rfl

@[simp] theorem ledger_setFlags (ref : Nat) (f : Flags → Flags) :
    (c.setFlags ref f).ledger = c.ledger.setFlags ref f := rfl

@[simp] theorem ledger_add : c.add.ledger = c.ledger.add := rfl

@[simp] theorem ledger_get : c.get.ledger = c.ledger.get := by
  rw [get, Ledger.get]
  split <;> rfl

@[simp] theorem ledger_forget : c.forget.ledger = c.ledger.forget := rfl

@[simp] theorem ledger_stop (timer : Nat) : (c.stop timer).ledger = c.ledger := rfl

@[simp] theorem ledger_disarm (ref : Nat) : (c.disarm ref).ledger = c.ledger := by
  rw [disarm]
  split <;> rfl

@[simp] theorem ledger_start (kind : TimerKind) (ref : Nat) :
    (c.start kind ref).ledger = c.ledger.startTimers 1 ref := rfl

@[simp] theorem ledger_arm (kind : TimerKind) (ref : Nat) :
    (c.arm kind ref).ledger = c.ledger.startTimers 1 ref := rfl

@[simp] theorem ledger_tearDown (ref : Nat) : (c.tearDown ref).ledger = c.ledger.tearDown ref := by
  rw [tearDown, ledger_setFlags, ledger_mark, ledger_disarm]
  rfl

theorem get_of_cached {c : Clock} {ref : Nat} (h : c.ledger.cache = some ref) : c.get = c := by
  rw [get, h]
  rfl

theorem get_of_none {c : Clock} (h : c.ledger.cache = none) : c.get = c.add := by
  rw [get, h]
  rfl

@[simp] theorem setFlags_id (ref : Nat) : c.setFlags ref id = c := by
  rw [setFlags, Ledger.setFlags_id]

/-- The error of an event is handled with the flag set once more. -/
theorem setFlags_tearDown (ref : Nat) :
    (c.tearDown ref).setFlags ref (fun f => {f with toredown := true}) = c.tearDown ref := by
  rw [setFlags, ledger_tearDown, Ledger.setFlags_tearDown, ← ledger_tearDown]

end Clock

/-! ### Steps that leave the clock alone -/

abbrev Still {α : Type} (p : Cb α) : Prop := p.Keeps Service.clock

theorem still_attempt (o : Outcomes) (site : Site) : Still (attempt o site) := by
  rw [attempt]
  split
  · exact .throw _
  · exact .pure _

theorem still_emit {x : Out} (h : x.isMark = false) : Still (emit x) := by
  intro s
  have hledger : Service.ledger {s with out := s.out ++ [x]} = s.ledger := by
    rw [Service.ledger, List.filter_append, List.filter_singleton, h]
    simp [Service.ledger]
  exact congrArg (fun l => Clock.mk l (fun ref => (s.winfos ref).stateTimer) s.timers) hledger

theorem clock_modifyWinfo (ref : Nat) (f : WorkflowInfo → WorkflowInfo) (g : Flags → Flags)
    (h : ∀ w, (f w).flags = g w.flags) (s : Service) : (Prog.exec (modifyWinfo ref f) s).2.clock =
      {s.clock.setFlags ref g with slot := Function.update s.clock.slot ref (f (s.winfos ref)).stateTimer} := by
  have hledger := ledger_modifyWinfo ref f g h s
  refine congrArg₂ (fun l slot => Clock.mk l slot s.timers) hledger (funext fun r => ?_)
  show (Function.update s.winfos ref (f (s.winfos ref)) r).stateTimer = _
  by_cases hr : r = ref
  · subst hr
    rw [Function.update_self, Function.update_self]
  · rw [Function.update_of_ne hr, Function.update_of_ne hr]
    rfl

theorem clock_modifyFlags (ref : Nat) (f : WorkflowInfo → WorkflowInfo) (g : Flags → Flags)
    (h : ∀ w, (f w).flags = g w.flags) (hslot : ∀ w, (f w).stateTimer = w.stateTimer) (s : Service) :
    (Prog.exec (modifyWinfo ref f) s).2.clock = s.clock.setFlags ref g := by
  rw [clock_modifyWinfo ref f g h, hslot]
  exact congrArg (fun slot => Clock.mk _ slot s.timers) (Function.update_eq_self ref s.clock.slot)

theorem still_modifyWinfo (ref : Nat) (f : WorkflowInfo → WorkflowInfo) (h : ∀ w, (f w).flags = w.flags)
    (hslot : ∀ w, (f w).stateTimer = w.stateTimer) : Still (modifyWinfo ref f) := by
  intro s
  rw [clock_modifyFlags ref f id h hslot, Clock.setFlags_id]

theorem still_readWinfo (ref : Nat) : Still (readWinfo ref) := fun _ => rfl

/-- A patch that is no request to move the workflow. -/
theorem still_patchWorkflow (o : Outcomes) (x : Bool → Out) (h : ∀ b, (x b).isMark = false) :
    Still (patchWorkflow o x) :=
  .bind (still_emit (h _)) fun _ => .ite (.throw _) (still_attempt o .patchWorkflow)

theorem still_notifyOfNodeFailure (cfg : Config) (o : Outcomes) (ref : Nat) (nodes : List String) :
    Still (notifyOfNodeFailure cfg o ref nodes) := by
  rw [notifyOfNodeFailure]
  split
  · exact .throw _
  · refine .bind (still_emit rfl) fun _ => .bind (still_modifyWinfo ref _ (fun _ => rfl) fun _ => rfl) fun _ =>
      .bind (still_readWinfo ref) fun w => .ite ?_ (.throw _)
    exact .bind (still_emit rfl) fun _ => still_patchWorkflow o _ fun _ => rfl

theorem still_setProperty (cfg : Config) (downNodes : List String) : Still (setProperty cfg downNodes) :=
  .ite (.throw _) (.pure _)

theorem still_patchComputesObject (cfg : Config) (o : Outcomes) (ref : Nat) :
    Still (patchComputesObject cfg o ref) := by
  have hpatch : Still (do
      modifyWinfo ref fun w => {w with hlist := w.hlist.map fun hosts => hosts.filter (· ∉ w.failures)}
      let w ← readWinfo ref
      attempt o .patchComputes
      emit (.patchComputes ((w.hlist.getD []).filter fun h =>
        !cfg.layout.rabbitsToHostlists.contains h))) :=
    .bind (still_modifyWinfo ref _ (fun _ => rfl) fun _ => rfl) fun _ => .bind (still_readWinfo ref) fun _ =>
      .bind (still_attempt o .patchComputes) fun _ => still_emit rfl
  refine .bind (still_readWinfo ref) fun w => .ite (.bind (still_attempt o .lookupR) fun _ => ?_) hpatch
  split
  · exact .bind (.throw _) fun _ => hpatch
  · exact .bind (still_modifyWinfo ref _ (fun _ => rfl) fun _ => rfl) fun _ => hpatch

theorem still_prerunTimeoutCb (cfg : Config) (o : Outcomes) (ref : Nat) :
    Still (prerunTimeoutCb cfg o ref) := by
  refine .bind (still_readWinfo ref) fun w => .ite (still_emit rfl) (.bind (still_setProperty cfg _) fun _ => ?_)
  exact .tryCatch (still_notifyOfNodeFailure cfg o ref _) fun e => .ite (still_emit rfl) (.throw e)

theorem still_setupTimeoutCb (cfg : Config) (o : Outcomes) (ref : Nat) (computeNodes : List String)
    (lustre : Bool) : Still (setupTimeoutCb cfg o ref computeNodes lustre) := by
  refine .bind (still_readWinfo ref) fun w => .ite (still_emit rfl) ?_
  split
  · exact .throw _
  · exact .tryCatch (still_notifyOfNodeFailure cfg o ref _) fun e => .ite (still_emit rfl) (.throw e)

theorem still_handleProposalState (cfg : Config) (o : Outcomes) : Still (handleProposalState cfg o) := by
  refine .bind (still_attempt o .resources) fun _ => .ite (still_emit rfl) ?_
  split
  · exact still_emit rfl
  · exact still_emit rfl
  · exact .pure _

theorem still_handleWorkflowErrors (o : Outcomes) (workflow : Workflow) :
    Still (handleWorkflowErrors o workflow) := by
  rw [handleWorkflowErrors]
  split
  · exact still_emit rfl
  · exact .modify fun _ => rfl
  · exact .modify fun _ => rfl

theorem still_disable (o : Outcomes) : Still (do attempt o .disableNodes; attempt o .disableRabbits) :=
  .bind (still_attempt o _) fun _ => still_attempt o _

/-! ### Steps that do not -/

theorem exec_emit (x : Out) (hx : x.isMark = true) (s : Service) : ∃ t,
    Prog.exec (emit x) s = (.ok (), t) ∧ t.clock = s.clock.mark x := by
  refine ⟨_, rfl, ?_⟩
  have hledger := (ledger_emit x s).trans (if_pos hx)
  exact congrArg (fun l => Clock.mk l (fun ref => (s.winfos ref).stateTimer) s.timers) hledger

theorem exec_modifyFlags (ref : Nat) (f : WorkflowInfo → WorkflowInfo) (g : Flags → Flags)
    (h : ∀ w, (f w).flags = g w.flags) (hslot : ∀ w, (f w).stateTimer = w.stateTimer) (s : Service) : ∃ t,
    Prog.exec (modifyWinfo ref f) s = (.ok (), t) ∧ t.clock = s.clock.setFlags ref g :=
  ⟨_, rfl, clock_modifyFlags ref f g h hslot s⟩

theorem exec_readWinfo (ref : Nat) (s : Service) :
    Prog.exec (readWinfo ref) s = (.ok (s.winfos ref), s) := rfl

theorem exec_add (failureTolerance : Int) (s : Service) : ∃ t,
    Prog.exec (WorkflowInfo.add failureTolerance) s = (.ok s.made, t) ∧ t.clock = s.clock.add := by
  refine ⟨_, rfl, ?_⟩
  rw [Service.clock, Service.ledger]
  show Clock.mk (Ledger.mk (some s.made) (s.made + 1)
      (fun ref => (Function.update s.winfos s.made {failureTolerance := failureTolerance} ref).flags) _ _)
    (fun ref => (Function.update s.winfos s.made {failureTolerance := failureTolerance} ref).stateTimer) _ = _
  rw [Clock.add, Ledger.add]
  congr 1
  · congr 1
    funext r
    by_cases hr : r = s.made
    · subst hr
      simp [WorkflowInfo.flags, Service.clock, Service.ledger]
    · simp [hr, Service.clock, Service.ledger]
  · funext r
    by_cases hr : r = s.made
    · subst hr
      simp [Service.clock, Service.ledger]
    · simp [hr, Service.clock, Service.ledger]

theorem exec_get_cached {ref : Nat} {s : Service} (h : s.cache = some ref) :
    Prog.exec WorkflowInfo.get s = (.ok ref, s) := by
  refine (Prog.exec_bind_ok (Prog.exec_get s) _).trans ?_
  rw [h]
  rfl

theorem exec_get (s : Service) : ∃ t, Prog.exec WorkflowInfo.get s = (.ok s.ledger.getRef, t) ∧
    t.clock = s.clock.get := by
  have hcache : s.ledger.cache = s.cache := rfl
  rw [Ledger.getRef, hcache]
  cases hc : s.cache with
  | some ref => exact ⟨s, exec_get_cached hc, (Clock.get_of_cached hc).symm⟩
  | none =>
    have hadd : Prog.exec WorkflowInfo.get s = Prog.exec (WorkflowInfo.add (-1)) s := by
      refine (Prog.exec_bind_ok (Prog.exec_get s) _).trans ?_
      rw [hc]
    rw [hadd, Clock.get_of_none hc]
    exact exec_add (-1) s

theorem exec_remove {s : Service} (h : s.cache.isSome = true) : ∃ t,
    Prog.exec WorkflowInfo.remove s = (.ok (), t) ∧ t.clock = s.clock.forget := by
  obtain ⟨ref, href⟩ := Option.isSome_iff_exists.mp h
  refine ⟨{s with cache := none}, (Prog.exec_bind_ok (Prog.exec_get s) _).trans ?_, rfl⟩
  rw [href]
  rfl

theorem exec_remove_none {s : Service} (h : s.cache = none) :
    Prog.exec WorkflowInfo.remove s = (.error .keyError, s) := by
  refine (Prog.exec_bind_ok (Prog.exec_get s) _).trans ?_
  rw [h]
  rfl

theorem map_winfo_modify (timers : List Timer) (timer : Nat) :
    (timers.modify timer fun t => {t with running := false}).map Timer.winfo = timers.map Timer.winfo := by
  induction timers generalizing timer with
  | nil => cases timer <;> rfl
  | cons t rest ih =>
    cases timer with
    | zero => rfl
    | succ timer => exact congrArg (t.winfo :: ·) (ih timer)

theorem exec_stopTimer (timer : Nat) (s : Service) : ∃ t,
    Prog.exec (stopTimer timer) s = (.ok (), t) ∧ t.clock = s.clock.stop timer := by
  refine ⟨_, rfl, ?_⟩
  show Clock.mk (Ledger.mk s.cache s.made _ ((s.timers.modify timer _).map Timer.winfo) _) _ _ = _
  rw [map_winfo_modify]
  rfl

theorem exec_stopStateTimer (ref : Nat) (s : Service) : ∃ t,
    Prog.exec (stopStateTimer ref) s = (.ok (), t) ∧ t.clock = s.clock.disarm ref := by
  have hslot : s.clock.slot ref = (s.winfos ref).stateTimer := rfl
  rw [stopStateTimer, Prog.exec_bind_ok (exec_readWinfo ref s), Clock.disarm, hslot]
  cases (s.winfos ref).stateTimer with
  | some timer => exact exec_stopTimer timer s
  | none => exact ⟨s, rfl, rfl⟩

theorem exec_startTimer (kind : TimerKind) (ref : Nat) (s : Service) : ∃ t,
    Prog.exec (startTimer kind ref) s = (.ok s.timers.length, t) ∧ t.clock = s.clock.start kind ref := by
  refine ⟨_, rfl, ?_⟩
  show Clock.mk (Ledger.mk s.cache s.made _ ((s.timers ++ [Timer.mk kind ref true]).map Timer.winfo) _) _ _ = _
  rw [List.map_append]
  rfl

theorem exec_startStateTimer (kind : TimerKind) (ref : Nat) (s : Service) : ∃ t,
    Prog.exec (startStateTimer kind ref) s = (.ok (), t) ∧ t.clock = s.clock.arm kind ref := by
  obtain ⟨t, ht, hc⟩ := exec_startTimer kind ref s
  have hset := clock_modifyWinfo ref (fun w => {w with stateTimer := some s.timers.length}) id (fun _ => rfl) t
  rw [hc, Clock.setFlags_id] at hset
  exact ⟨_, Prog.exec_bind_ok ht _, hset⟩

end FluxCoral2.Dws
