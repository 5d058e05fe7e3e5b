import FluxCoral2.Dws.Course
import FluxCoral2.Dws.Timers

/-! The timer of the state that the service waits for.

Setup, PreRun and PostRun have a timer each, and share the slot of the WorkflowInfo. Every
request to move the workflow stops what is in the slot, and so does every event of a
completed PreRun, without a look at which timer it is: one that comes late once more, when
PostRun has been asked for, leaves PostRun without its timer (`lateEvent_disarms`).
`timers_kept_iff`: this is all that can go wrong. -/
namespace FluxCoral2.Dws
open Library Jobtap

variable {cfg : Config} {o : Outcomes}

/-! ### What the service waits for -/

/-- The states that have a timer of their own. -/
def timedStates : List WorkflowState := [.setup, .preRun, .postRun]

/-- All three timeouts are positive. -/
structure Config.TimesOut (cfg : Config) : Prop where
  setup : cfg.setupTimeout = true
  prerun : cfg.prerunTimeout = true
  postrun : cfg.postrunTimeout = true

/-- What an entry of the log leaves of the states the service waits for. One that was asked
for is waited for until a later one is asked for, or it is known to be completed. -/
def Out.await (awaited : WorkflowState → Bool) : Out → WorkflowState → Bool
  | .patchDesired desiredState applied => fun state =>
    applied && decide (state = desiredState) || awaited state && decide (desiredState.rank ≤ state.rank)
  | .teardownWorkflow => fun _ => false
  | .prologRemove => fun state => awaited state && decide (state ≠ .preRun)
  | _ => awaited

/-- The timer that fires is the one of the WorkflowInfo for the state. -/
def System.fires (s : System) (state : WorkflowState) : Action → Bool
  | .timer i _ =>
    match s.service.timers[i]? with
    | some t => decide (s.service.cache = some t.winfo) && decide (t.kind.guards? = some state)
    | none => false
  | _ => false

/-- What the service waits for after a step to `t`. It waits for nothing once it has seen the
workflow deleted or missing, nor for a state whose timer has fired. -/
def awaitStep (awaited : WorkflowState → Bool) (s : System) (a : Action) (t : System) (state : WorkflowState) : Bool :=
  (t.log.drop s.log.length).foldl Out.await awaited state && t.service.cache.isSome && !s.fires state a

/-- The system, with what the service waits for. -/
def awaitMachine (cfg : Config) (timeout : Bool) : Machine (System × (WorkflowState → Bool)) Action :=
  (systemMachine cfg timeout).observed (fun _ => false) awaitStep

/-- The timer in the slot of the job's WorkflowInfo runs, and is the one for the state. -/
def System.Armed (s : System) (state : WorkflowState) : Prop :=
  ∃ ref ∈ s.service.cache, ∃ i ∈ (s.service.winfos ref).stateTimer, ∃ t ∈ s.service.timers[i]?,
    t.running = true ∧ t.winfo = ref ∧ t.kind.guards? = some state

/-- The timers of the states that the service waits for are still there. -/
def KeepsTimers (s : System × (WorkflowState → Bool)) : Prop :=
  ∀ state ∈ timedStates, s.2 state = true → s.1.Armed state

/-- The service releases the prolog for the version `n`: it reads that PreRun is completed. -/
def System.releasesProlog (s : System) (n : Nat) (o : Outcomes) : Bool :=
  match s.versions[n]? with
  | some (.workflow w) =>
    stateComplete w .preRun && (o.raises .readEvent).isNone && (o.raises .jobEnvironment).isNone &&
      match s.service.cache with
      | some ref => !(s.service.winfos ref).deleted && !(s.service.winfos ref).toredown
      | none => true
  | _ => false

/-- An event of a completed PreRun that the service acts on finds no timer of another state. -/
def SparesTimer (s : System) : Action → Prop
  | .watch n o => s.releasesProlog n o = true → ∀ state ∈ timedStates, s.Armed state → state = .preRun
  | _ => True

theorem timed_cases : ∀ state ∈ timedStates, state = .setup ∨ state = .preRun ∨ state = .postRun := by decide

theorem await_of_unmarked {x : Out} (hx : x.isMark = false) (awaited : WorkflowState → Bool) :
    x.await awaited = awaited := by
  cases x <;> first | rfl | cases hx

theorem foldl_await (out : List Out) (awaited : WorkflowState → Bool) :
    out.foldl Out.await awaited = (out.filter Out.isMark).foldl Out.await awaited := by
  induction out generalizing awaited with
  | nil => rfl
  | cons x rest ih =>
    rw [List.foldl_cons, ih]
    cases hx : x.isMark with
    | true => rw [List.filter_cons_of_pos hx, List.foldl_cons]
    | false => rw [List.filter_cons_of_neg (by simp [hx]), await_of_unmarked hx]

/-- What is waited for has been asked for. -/
theorem asked_of_await {out : List Out} {awaited : WorkflowState → Bool} {state : WorkflowState}
    (h : out.foldl Out.await awaited state = true) : awaited state = true ∨ .patchDesired state true ∈ out := by
  induction out generalizing awaited with
  | nil => exact .inl h
  | cons x rest ih =>
    rcases ih h with hx | hrest
    · cases x with
      | patchDesired d applied =>
        dsimp only [Out.await] at hx
        rw [Bool.or_eq_true, Bool.and_eq_true, Bool.and_eq_true] at hx
        rcases hx with ⟨rfl, hd⟩ | ⟨hold, -⟩
        · exact .inr (of_decide_eq_true hd ▸ List.mem_cons_self)
        · exact .inl hold
      | teardownWorkflow => cases hx
      | prologRemove => exact .inl (Bool.and_eq_true _ _ ▸ hx).1
      | _ => exact .inl hx
    · exact .inr (List.mem_cons_of_mem x hrest)

/-! ### The slot -/

namespace Clock
variable {c c' : Clock} {ref i : Nat} {state d : WorkflowState} {kind : TimerKind} {existed alive : Prop}

/-- The timer in the slot of the job's WorkflowInfo runs, and is the one for the state. -/
def Armed (c : Clock) (state : WorkflowState) : Prop :=
  ∃ i t, c.Runs i t ∧ c.ledger.cache = some t.winfo ∧ c.slot t.winfo = some i ∧ t.kind.guards? = some state

theorem not_armed_of_none (h : c.ledger.cache = none) : ¬ c.Armed state := by
  rintro ⟨i, t, -, hcache, -⟩
  rw [h] at hcache
  cases hcache

theorem not_armed_add : ¬ c.add.Armed state := by
  rintro ⟨i, t, -, hcache, hslot, -⟩
  have hmade : t.winfo = c.ledger.made := (Option.some.inj hcache).symm
  have hnone : c.add.slot t.winfo = none := by
    rw [hmade]
    exact Function.update_self _ _ _
  rw [hnone] at hslot
  cases hslot

theorem armed_get : c.get.Armed state ↔ c.Armed state := by
  cases hc : c.ledger.cache with
  | some ref => rw [get_of_cached hc]
  | none =>
    rw [get_of_none hc]
    exact iff_of_false not_armed_add (not_armed_of_none hc)

theorem not_armed_disarm (hc : c.ledger.cache = some ref) : ¬ (c.disarm ref).Armed state := by
  rintro ⟨i, t, hrun, hcache, hslot, -⟩
  rw [ledger_disarm, hc] at hcache
  rw [Slotted.slot_disarm, ← Option.some.inj hcache] at hslot
  exact (runs_disarm.mp hrun).1 hslot

theorem armed_arm (hc : c.ledger.cache = some ref) : (c.arm kind ref).Armed state ↔ kind.guards? = some state := by
  constructor
  · rintro ⟨i, t, hrun, hcache, hslot, hguards⟩
    have href : t.winfo = ref := (Option.some.inj (hc.symm.trans hcache)).symm
    have hlast : c.timers.length = i := by
      have hself : (c.arm kind ref).slot t.winfo = some c.timers.length := by
        rw [href]
        exact Function.update_self _ _ _
      exact Option.some.inj (hself.symm.trans hslot)
    rcases runs_arm.mp hrun with hrun | ⟨-, rfl⟩
    · exact absurd hrun.lt (hlast ▸ Nat.lt_irrefl _)
    · exact hguards
  · intro hguards
    have hrun : (c.arm kind ref).Runs c.timers.length ⟨kind, ref, true⟩ := runs_arm.mpr (.inr ⟨rfl, rfl⟩)
    exact ⟨_, _, hrun, hc, Function.update_self _ _ _, hguards⟩

theorem armed_ite_arm {timeout : Bool} (htimeout : timeout = true) (hc : c.ledger.cache = some ref)
    (hk : kind.guards? = some d) : (if timeout then c.arm kind ref else c).Armed state ↔ state = d := by
  rw [if_pos htimeout, armed_arm hc, hk, Option.some_inj]
  exact eq_comm

/-- A timer is stopped. -/
theorem armed_stop (hs : c.Slotted existed alive) {t : Timer} (ht : c.Runs i t) :
    (c.stop i).Armed state ↔ c.Armed state ∧ ¬ (c.ledger.cache = some t.winfo ∧ t.kind.guards? = some state) := by
  constructor
  · rintro ⟨j, u, hrun, hcache, hslot, hguards⟩
    obtain ⟨hne, hrun⟩ := runs_stop.mp hrun
    refine ⟨⟨j, u, hrun, hcache, hslot, hguards⟩, fun h => hne ?_⟩
    have href : u.winfo = t.winfo := Option.some.inj (hcache.symm.trans h.1)
    have hslot' := hs.slot i t ht (by rw [h.2]; rfl)
    rw [← href] at hslot'
    exact Option.some.inj (hslot.symm.trans hslot')
  · rintro ⟨⟨j, u, hrun, hcache, hslot, hguards⟩, hno⟩
    refine ⟨j, u, runs_stop.mpr ⟨?_, hrun⟩, hcache, hslot, hguards⟩
    rintro rfl
    obtain rfl := Option.some.inj (hrun.1.symm.trans ht.1)
    exact hno ⟨hcache, hguards⟩

/-! ### The slot holds what is waited for -/

/-- The service waits for a state that has a timer exactly while the timer runs. -/
def Guarded (awaited : WorkflowState → Bool) (c : Clock) : Prop :=
  ∀ state ∈ timedStates, c.ledger.marks.foldl Out.await awaited state = true ↔ c.Armed state

namespace Guarded
variable {awaited : WorkflowState → Bool}

/-- Nothing is waited for, and the slot is empty. -/
theorem idle (h : ∀ state ∈ timedStates, c.ledger.marks.foldl Out.await awaited state = false)
    (hno : ∀ state, ¬ c.Armed state) : c.Guarded awaited :=
  fun state hs => iff_of_false (by rw [h state hs]; decide) (hno state)

theorem foldl_mark (c : Clock) (x : Out) :
    (c.mark x).ledger.marks.foldl Out.await awaited = x.await (c.ledger.marks.foldl Out.await awaited) :=
  List.foldl_concat ..

theorem get (h : c.Guarded awaited) : c.get.Guarded awaited := by
  intro state hs
  rw [armed_get, ledger_get, Ledger.marks_get]
  exact h state hs

theorem mark (h : c.Guarded awaited) {x : Out} (hx : ∀ awaited, x.await awaited = awaited) :
    (c.mark x).Guarded awaited := by
  intro state hs
  rw [foldl_mark, hx]
  exact h state hs

theorem setFlags (h : c.Guarded awaited) (ref : Nat) (f : Flags → Flags) : (c.setFlags ref f).Guarded awaited := h

theorem release (h : c.Guarded awaited) (ref : Nat) : (c.release ref).Guarded awaited := by
  rw [Clock.release]
  split
  · exact h
  · exact h.mark fun _ => rfl

/-- Whatever was waited for, Teardown ends it. -/
theorem tearDown (awaited : WorkflowState → Bool) (hc : c.ledger.cache = some ref) :
    (c.tearDown ref).Guarded awaited := by
  have hdisarmed : ((c.disarm ref).mark .teardownWorkflow).Guarded awaited := by
    refine idle (fun state hs => ?_) fun state => not_armed_disarm hc
    rw [foldl_mark]
    rfl
  exact hdisarmed.setFlags ref _

/-- The timers that are started with a state are those for it. -/
theorem armed_timed (hcfg : cfg.TimesOut) (hc : c.ledger.cache = some ref) (hno : ∀ state, ¬ c.Armed state)
    (ht : c.Timed cfg d ref c') (hs : state ∈ timedStates) : c'.Armed state ↔ state = d := by
  have hidle (hd : d ∉ timedStates) (hsame : c' = c) : c'.Armed state ↔ state = d := by
    subst hsame
    exact iff_of_false (hno state) fun h => hd (h ▸ hs)
  cases d with
  | setup =>
    obtain ⟨nodes, lustre, rfl⟩ := ht
    exact armed_ite_arm hcfg.setup hc rfl
  | preRun =>
    have hpreRun : c' = if cfg.prerunTimeout then c.arm .preRun ref else c := ht
    subst hpreRun
    exact armed_ite_arm hcfg.prerun hc rfl
  | postRun =>
    dsimp only [Timed] at ht
    subst ht
    refine armed_ite_arm hcfg.postrun ?_ rfl
    split <;> exact hc
  | _ => exact hidle (by decide) ht

/-- The workflow is moved on from the states that are waited for. -/
theorem moved (hcfg : cfg.TimesOut) (h : c.Guarded awaited) (hc : c.ledger.cache = some ref)
    (hlater : ∀ state ∈ timedStates, c.Armed state → state.rank < d.rank ∨ state = d ∧ o.applies = true)
    (hm : c.Moved cfg o d ref c') : c'.Guarded awaited := by
  have hno (state : WorkflowState) : ¬ (c.patch o d ref).Armed state := not_armed_disarm hc
  have hpatch {state : WorkflowState} (hs : state ∈ timedStates) :
      (c.patch o d ref).ledger.marks.foldl Out.await awaited state = (o.applies && decide (state = d)) := by
    rw [Clock.patch, foldl_mark, ledger_disarm]
    dsimp only [Out.await]
    cases hold : c.ledger.marks.foldl Out.await awaited state with
    | false => rw [Bool.false_and, Bool.or_false]
    | true =>
      rcases hlater state hs ((h state hs).mp hold) with hlt | ⟨rfl, ho⟩
      · rw [decide_eq_false (Nat.not_le.mpr hlt), Bool.and_false, Bool.or_false]
      · rw [ho, decide_eq_true rfl, Bool.true_and, Bool.true_or]
  cases hm with
  | refused ho =>
    refine idle (fun state hs => ?_) hno
    rw [hpatch hs, ho, Bool.false_and]
  | taken ho ht =>
    intro state hs
    have hmarks : c'.ledger.marks = (c.patch o d ref).ledger.marks := by
      obtain ⟨n, hn⟩ := ht.ledger
      rw [hn]
      rfl
    have hcache : (c.patch o d ref).ledger.cache = some ref := by
      rw [ledger_patch]
      exact hc
    rw [armed_timed hcfg hcache hno ht hs, hmarks, hpatch hs, ho, Bool.true_and, decide_eq_true_eq]

/-- The prolog is released while no timer runs but that of PreRun. -/
theorem prologRemoved (h : c.Guarded awaited) (hc : c.ledger.cache = some ref)
    (hpreRun : ∀ state ∈ timedStates, c.Armed state → state = .preRun) :
    ((c.mark .prologRemove).disarm ref).Guarded awaited := by
  refine idle (fun state hs => ?_) fun state => not_armed_disarm hc
  rw [ledger_disarm, foldl_mark]
  dsimp only [Out.await]
  cases hold : c.ledger.marks.foldl Out.await awaited state with
  | false => rfl
  | true =>
    have hstate := hpreRun state hs ((h state hs).mp hold)
    rw [hstate]
    rfl

end Guarded

/-- At the end of a callback the WorkflowInfo may be forgotten. -/
def Leaves (awaited : WorkflowState → Bool) (c : Clock) : Prop := c.ledger.cache ≠ none → c.Guarded awaited

namespace Guarded
variable {awaited : WorkflowState → Bool} {ok : Bool}

theorem leaves (h : c.Guarded awaited) : c.Leaves awaited := fun _ => h

theorem checked (h : c.Guarded awaited) (hc : c.ledger.cache = some ref) (hl : c.Checked o ref ok c') :
    c'.Leaves awaited := by
  cases hl with
  | failed => exact h.leaves
  | tornDown => exact (tearDown awaited hc).leaves
  | released => exact fun hne => absurd rfl hne

theorem tornDown (h : c.Guarded awaited) (hc : c.ledger.cache = some ref) (hl : c.TornDown o ref ok c') :
    c'.Leaves awaited := by
  cases hl with
  | before => exact h.leaves
  | now _ hl => exact h.checked hc hl

/-- A version of the workflow that is handled without an error. -/
theorem handled (hcfg : cfg.TimesOut) {workflow : Workflow} (h : c.Guarded awaited) (hc : c.ledger.cache = some ref)
    (hnext : ∀ d, workflow.desiredState.next? = some d → ∀ state ∈ timedStates, c.Armed state →
      state.rank < d.rank ∨ state = d)
    (hpreRun : stateComplete workflow .preRun = true → (c.ledger.flags ref).deleted = false →
      (c.ledger.flags ref).toredown = false → o.raises .jobEnvironment = none →
      ∀ state ∈ timedStates, c.Armed state → state = .preRun)
    (hh : c.Handled cfg o workflow ref true c') : c'.Guarded awaited := by
  cases hh with
  | nothing => exact h
  | deleted => exact ((h.release ref).mark fun _ => rfl).setFlags ref _
  | moved hs hd ht hm hok =>
    have hstate := desiredState_of_complete hs
    refine h.moved hcfg hc (fun state hmem harmed => ?_) hm
    exact (hnext _ (hstate ▸ hd) state hmem harmed).imp_right fun h => ⟨h, hok rfl⟩
  | prologRemoved hs hd ht hj => exact h.prologRemoved hc (hpreRun hs hd ht hj)
  | tornDown => exact tearDown awaited hc

theorem noted (hcfg : cfg.TimesOut) {event : Snapshot} (h : c.Guarded awaited)
    (hnext : ∀ workflow, event = .workflow workflow → ∀ d, workflow.desiredState.next? = some d →
      ∀ state ∈ timedStates, c.Armed state → state.rank < d.rank ∨ state = d)
    (hpreRun : ∀ workflow, event = .workflow workflow → stateComplete workflow .preRun = true →
      o.raises .readEvent = none → o.raises .jobEnvironment = none →
      (∀ ref, c.ledger.cache = some ref →
        (c.ledger.flags ref).deleted = false ∧ (c.ledger.flags ref).toredown = false) →
      ∀ state ∈ timedStates, c.Armed state → state = .preRun)
    (hn : c.Noted cfg o event c') : c'.Leaves awaited := by
  have hcache := Slotted.cache_get c
  cases hn with
  | unread => exact h.leaves
  | forgotten => exact fun hne => absurd rfl hne
  | handled hr hh =>
    refine (h.get.handled hcfg hcache (fun d hd state hs harmed => ?_) ?_ hh).leaves
    · exact hnext _ rfl d hd state hs (armed_get.mp harmed)
    · intro hcomplete hd ht hj state hs harmed
      refine hpreRun _ rfl hcomplete hr hj (fun ref href => ?_) state hs (armed_get.mp harmed)
      rw [ledger_get, Ledger.flags_getRef href] at hd ht
      exact ⟨hd, ht⟩
  | failed hh => exact (tearDown awaited (hh.ledger.cache.trans hcache)).leaves

theorem requested (hcfg : cfg.TimesOut) {r : Rpc} (h : c.Guarded awaited)
    (hcreate : r.isCreate = true → ∀ state ∈ timedStates, ¬ c.Armed state)
    (hset : ∀ nodelist, r = .setup nodelist → ∀ state ∈ timedStates, ¬ c.Armed state)
    (hpost : r = .postRun true → ¬ c.Armed .postRun)
    (hl : c.Requested cfg o ok c' r) : c'.Leaves awaited := by
  have hcache := Slotted.cache_get c
  cases r with
  | create failureTolerance =>
    have hmark : (c.mark .created).Guarded awaited := h.mark fun _ => rfl
    rcases hl with rfl | ⟨-, rfl | rfl⟩
    · exact h.leaves
    · exact hmark.leaves
    · have hadd : (c.mark .created).add.Guarded awaited := by
        refine idle (fun state hs => ?_) fun state => not_armed_add
        exact Bool.not_eq_true _ ▸ fun hold => hcreate rfl state hs ((hmark state hs).mp hold)
      exact hadd.leaves
  | setup nodelist =>
    rcases hl with ⟨-, hm⟩ | ⟨-, rfl⟩
    · refine (h.get.moved hcfg hcache (fun state hs harmed => ?_) hm).leaves
      exact absurd (armed_get.mp harmed) (hset nodelist rfl state hs)
    · exact h.leaves
  | postRun runStarted =>
    cases runStarted with
    | true =>
      dsimp only [Requested] at hl
      split at hl
      · exact hl.2 ▸ h.get.leaves
      · refine (h.get.moved (d := .postRun) hcfg hcache (fun state hs harmed => ?_) hl.2).leaves
        rcases timed_cases state hs with rfl | rfl | rfl
        · exact .inl (by decide)
        · exact .inl (by decide)
        · exact absurd (armed_get.mp harmed) (hpost rfl)
    | false => exact h.get.tornDown hcache hl
  | teardown => exact h.get.tornDown hcache hl
  | abort =>
    obtain ⟨ok, hl⟩ := hl
    have habort : c.abort.Guarded awaited := h.get.setFlags _ _
    exact habort.tornDown hcache hl

/-- A timer fires. -/
theorem fired (h : c.Guarded awaited) (hs : c.Slotted existed alive) (ha : o.found = true → alive) {t : Timer}
    (ht : c.Runs i t) (hl : c.Fired o t i c') (hne : c'.ledger.cache ≠ none) : ∀ state ∈ timedStates,
      (c'.ledger.marks.foldl Out.await awaited state = true ∧
        ¬ (c.ledger.cache = some t.winfo ∧ t.kind.guards? = some state)) ↔ c'.Armed state := by
  intro state hstate
  have hstop : (c.ledger.marks.foldl Out.await awaited state = true ∧
      ¬ (c.ledger.cache = some t.winfo ∧ t.kind.guards? = some state)) ↔ (c.stop i).Armed state := by
    rw [armed_stop hs ht, h state hstate]
  rw [Fired] at hl
  split at hl
  · obtain ⟨ok, c₁, hchecked, rfl⟩ := hl
    cases hchecked with
    | failed => exact hstop
    | released => exact absurd rfl hne
    | tornDown hfound =>
      -- the workflow exists, and the timer is one of its WorkflowInfo
      have hcache := (hs.held i t ht).2 (ha hfound)
      have hidle : ¬ (c.tearDown t.winfo).Armed state := not_armed_disarm hcache
      refine iff_of_false (fun hold => hidle ((tearDown awaited hcache state hstate).mp hold.1)) fun harmed => hidle ?_
      obtain ⟨j, u, hrun, hrest⟩ := harmed
      exact ⟨j, u, (runs_stop.mp hrun).2, hrest⟩
  · exact hl ▸ hstop

end Guarded
end Clock

/-! ### Events of a completed PreRun -/

theorem stateActive_of_ne {workflow : Workflow} {state d : WorkflowState} (h : workflow.desiredState = state)
    (hd : state ≠ d) :
    stateActive workflow d = false := by
  subst h
  simp [stateActive, hd]

/-- The service releases the prolog, and stops whatever timer it finds. -/
theorem ends_releasesProlog {workflow : Workflow} {ref : Nat} {s : Service} (hc : s.cache = some ref)
    (hcomplete : stateComplete workflow .preRun = true) (hread : o.raises .readEvent = none)
    (hj : o.raises .jobEnvironment = none) (hd : (s.winfos ref).deleted = false)
    (ht : (s.winfos ref).toredown = false) :
    Prog.Ends (workflowStateChangeCb cfg o (.workflow workflow)) s fun _ t =>
      t.clock = (s.clock.mark .prologRemove).disarm ref := by
  have hstate := desiredState_of_complete hcomplete
  have hactive {d : WorkflowState} (h : .preRun ≠ d) : stateActive workflow d = false := stateActive_of_ne hstate h
  have hno {d : WorkflowState} (h : .preRun ≠ d) : stateComplete workflow d = false := by
    rw [stateComplete, hactive h]
    rfl
  have hsome : ¬ workflow.state = none := by
    intro hnone
    rw [stateComplete, stateActive, hnone, hstate] at hcomplete
    cases hcomplete
  have hchange : Prog.Ends (stateChange cfg o ref workflow) s fun r t =>
      r.isOk = true ∧ t.clock = (s.clock.mark .prologRemove).disarm ref := by
    rw [stateChange, hactive (d := .teardown) (by decide), hno (d := .teardown) (by decide)]
    refine .bind_ok (exec_readWinfo ref s) ?_
    rw [ht, hno (d := .proposal) (by decide), hno (d := .setup) (by decide), hno (d := .dataIn) (by decide), hcomplete,
      attempt, hj]
    obtain ⟨t₁, h₁, hc₁⟩ := exec_emit .prologRemove rfl s
    obtain ⟨t₂, h₂, hc₂⟩ := exec_stopStateTimer ref t₁
    refine .bind_ok (a := ()) rfl (.bind_ok h₁ (.bind_ok h₂ (.pure ⟨rfl, ?_⟩)))
    rw [hc₂, hc₁]
  have hinner : Prog.Ends (workflowStateChangeCbInner cfg o ref workflow) s fun r t =>
      r.isOk = true ∧ t.clock = (s.clock.mark .prologRemove).disarm ref := by
    rw [workflowStateChangeCbInner, if_neg hsome]
    refine .bind_ok (exec_readWinfo ref s) ?_
    rw [hd]
    refine .bind hchange (fun goesOn t h => ?_) fun _ _ h => absurd h.1 Bool.false_ne_true
    cases goesOn with
    | true => exact (ends_handleWorkflowErrors workflow t).mono fun _ _ hu => ⟨hu.1, hu.2.trans h.2⟩
    | false => exact .pure h
  rw [workflowStateChangeCb, hread]
  refine .bind_ok (exec_get_cached hc) ?_
  exact .tryCatch hinner (fun _ _ h => h.2) fun _ _ h => absurd h.1 Bool.false_ne_true

/-! ### The result -/

theorem armed_clock {s : System} {state : WorkflowState} : s.clock.Armed state ↔ s.Armed state := by
  constructor
  · rintro ⟨i, t, ⟨ht, hrun⟩, hcache, hslot, hguards⟩
    exact ⟨t.winfo, hcache, i, hslot, t, ht, hrun, rfl, hguards⟩
  · rintro ⟨_, hcache, i, hslot, t, ht, hrun, rfl, hguards⟩
    exact ⟨i, t, ⟨ht, hrun⟩, hcache, hslot, hguards⟩

/-- What a run has asked for, and the timers of what it waits for. -/
structure Awaiting (s : System) (awaited : WorkflowState → Bool) : Prop where
  known : Asking s.view ∧ Existing s.view
  course : Course s.view
  slotted : s.Slotted
  asked : ∀ state, awaited state = true → .patchDesired state true ∈ s.log
  guarded : s.clock.Guarded awaited

theorem awaiting_init : Awaiting {} fun _ => false :=
  ⟨⟨asking_init, existing_init⟩, course_init, slotted_init, fun _ => nofun,
    .idle (fun _ _ => rfl) fun _ => Clock.not_armed_of_none rfl⟩

section Step
variable {s t : System} {awaited : WorkflowState → Bool} {a : Action} {c : Clock} {out : List Out}
  {state : WorkflowState}

/-- A timer that runs is for a state that was asked for. -/
theorem Awaiting.asked_of_armed (h : Awaiting s awaited) (hs : state ∈ timedStates) (harmed : s.clock.Armed state) :
    .patchDesired state true ∈ s.view.ledger.marks :=
  List.mem_filter.mpr ⟨h.asked state ((h.guarded state hs).mpr harmed), rfl⟩

/-- When a state is completed that the service sees, none after the next one has been asked for. -/
theorem Course.later_next {v : View} (h : Course v) {workflow : Workflow} (hw : .workflow workflow ∈ v.versions)
    {d : WorkflowState} (hd : workflow.desiredState.next? = some d) (hs : state ∈ timedStates)
    (hasked : .patchDesired state true ∈ v.ledger.marks) : state.rank < d.rank ∨ state = d := by
  have hnotPreRun := h.not_preRun hw
  have hnotProlog := h.not_prolog hw
  rw [Snapshot.rank] at hnotPreRun hnotProlog
  cases hstate : workflow.desiredState with
  | setup =>
    rw [hstate] at hd hnotPreRun hnotProlog
    cases hd
    rcases timed_cases state hs with rfl | rfl | rfl
    · exact .inl (by decide)
    · exact absurd hasked (hnotPreRun (by decide))
    · exact absurd (h.ran hasked).1 (hnotProlog (by decide))
  | dataIn =>
    rw [hstate] at hd hnotProlog
    cases hd
    rcases timed_cases state hs with rfl | rfl | rfl
    · exact .inl (by decide)
    · exact .inr rfl
    · exact absurd (h.ran hasked).1 (hnotProlog (by decide))
  | postRun =>
    rw [hstate] at hd
    cases hd
    rcases timed_cases state hs with rfl | rfl | rfl <;> exact .inl (by decide)
  | _ =>
    rw [hstate] at hd
    cases hd

theorem releasesProlog_iff {n : Nat} {workflow : Workflow} (hn : s.versions[n]? = some (.workflow workflow)) :
    s.releasesProlog n o = true ↔ stateComplete workflow .preRun = true ∧ o.raises .readEvent = none ∧
      o.raises .jobEnvironment = none ∧ ∀ ref, s.service.cache = some ref →
        (s.service.winfos ref).deleted = false ∧ (s.service.winfos ref).toredown = false := by
  rw [System.releasesProlog, hn]
  cases hc : s.service.cache <;> simp [and_assoc]

/-- A callback leaves the timers of what is waited for after it. -/
theorem armed_tick (hcfg : cfg.TimesOut) (h : Awaiting s awaited) (hc : SparesTimer s a) (ht : s.Ticks cfg a c)
    (hne : c.ledger.cache ≠ none) : ∀ state ∈ timedStates,
      (c.ledger.marks.foldl Out.await awaited state = true ∧ s.fires state a = false) ↔ c.Armed state := by
  have hleaves (hf : ∀ state, s.fires state a = false) (hl : c.Leaves awaited) : ∀ state ∈ timedStates,
      (c.ledger.marks.foldl Out.await awaited state = true ∧ s.fires state a = false) ↔ c.Armed state :=
    fun state hs => (and_iff_left (hf state)).trans (hl hne state hs)
  have hasked {state : WorkflowState} (hs : state ∈ timedStates) := h.asked_of_armed hs
  cases ht with
  | outside houtside =>
    refine hleaves (fun state => ?_) h.guarded.leaves
    cases a <;> first | rfl | cases houtside
  | serve hr hf hl =>
    refine hleaves (fun _ => rfl) (h.guarded.requested hcfg (fun hcreate state hs harmed => ?_)
      (fun nodelist hsetup state hs harmed => ?_) (fun hpostRun harmed => ?_) hl)
    · exact countP_ne_zero hr hcreate (h.known.2.created (h.course.setUp _ (hasked hs harmed)).1).2
    · subst hsetup
      exact h.course.unasked hr _ (hasked hs harmed)
    · subst hpostRun
      exact h.course.not_postRun hr (hasked (by decide) harmed)
  | watch hn hf hl =>
    refine hleaves (fun _ => rfl) (h.guarded.noted hcfg (fun workflow hw d hd state hs harmed => ?_)
      (fun workflow hw hcomplete hr hj hflags => ?_) hl)
    · subst hw
      exact h.course.later_next (List.mem_of_getElem? hn) hd hs (hasked hs harmed)
    · subst hw
      have hspares := hc ((releasesProlog_iff hn).mpr ⟨hcomplete, hr, hj, hflags⟩)
      exact fun state hs harmed => hspares state hs (armed_clock.mp harmed)
  | timer hrun hf hl =>
    intro state hs
    rename_i i o t
    have hfires : s.fires state (.timer i o) = false ↔
        ¬ (s.clock.ledger.cache = some t.winfo ∧ t.kind.guards? = some state) := by
      have ht : s.service.timers[i]? = some t := hrun.1
      rw [System.fires, ht]
      show (decide (s.service.cache = some t.winfo) && decide (t.kind.guards? = some state)) = false ↔ _
      rw [← Bool.not_eq_true, Bool.and_eq_true, decide_eq_true_eq, decide_eq_true_eq]
      rfl
    rw [hfires]
    exact h.guarded.fired h.slotted hf.found.symm.trans hrun hl hne state hs
  | killInTc hf => exact hleaves (fun _ => rfl) h.guarded.get.leaves

theorem guarded_next (h : c.ledger.cache ≠ none → ∀ state ∈ timedStates,
      (c.ledger.marks.foldl Out.await awaited state = true ∧ s.fires state a = false) ↔ c.Armed state)
    (hg : s.Goes t c out) : t.clock.Guarded (awaitStep awaited s a t) := by
  intro state hs
  have hcache : t.service.cache = c.ledger.cache := congrArg (fun c => c.ledger.cache) hg.clock
  have hout : t.log.drop s.log.length = out := by
    rw [hg.log, List.drop_left]
  have harmed : t.clock.Armed state ↔ c.Armed state := by
    rw [hg.clock]
    exact Iff.rfl
  show ((t.log.drop s.log.length).foldl Out.await awaited state && t.service.cache.isSome &&
    !s.fires state a) = true ↔ _
  rw [harmed, hout, foldl_await, hg.marks, hcache]
  cases hnone : c.ledger.cache with
  | none =>
    rw [Option.isSome_none, Bool.and_false]
    exact iff_of_false nofun (Clock.not_armed_of_none hnone)
  | some ref =>
    rw [Option.isSome_some, Bool.and_true, Bool.and_eq_true, Bool.not_eq_true', h (by rw [hnone]; nofun) state hs]

theorem awaiting_next (hcfg : cfg.TimesOut) (timeout : Bool) (h : Awaiting s awaited) (he : a.Enabled s)
    (hc : SparesTimer s a) :
    Awaiting (a.next cfg timeout s) (awaitStep awaited s a (a.next cfg timeout s)) := by
  obtain ⟨c, out, ht, hg⟩ := ticks_next cfg timeout s a he
  refine ⟨known_next timeout h.known he, course_next timeout h.known h.course he,
    slotted_next timeout h.known.2 h.slotted he, fun state hstate => ?_, guarded_next (armed_tick hcfg h hc ht) hg⟩
  rw [awaitStep, Bool.and_eq_true, Bool.and_eq_true, hg.log, List.drop_left] at hstate
  rw [hg.log]
  exact (asked_of_await hstate.1.1).elim (fun hold => List.mem_append_left _ (h.asked state hold))
    (List.mem_append_right _)

/-- The event of a completed PreRun stops the timer that it finds. -/
theorem lost_of_releasesProlog (cfg : Config) (timeout : Bool) (h : Awaiting s awaited) {n : Nat}
    (hr : s.releasesProlog n o = true) (hs : state ∈ timedStates) (harmed : s.Armed state) (hne : state ≠ .preRun) :
    awaitStep awaited s (.watch n o) (Action.next cfg timeout s (.watch n o)) state = true ∧
      ¬ (Action.next cfg timeout s (.watch n o)).Armed state := by
  obtain ⟨ref, href, -⟩ := id harmed
  have hcache : s.service.cache = some ref := href
  cases hn : s.versions[n]? with
  | none =>
    rw [System.releasesProlog, hn] at hr
    cases hr
  | some event =>
    cases event with
    | deleted =>
      rw [System.releasesProlog, hn] at hr
      cases hr
    | workflow workflow =>
      obtain ⟨hcomplete, hread, hj, hflags⟩ := (releasesProlog_iff hn).mp hr
      obtain ⟨hd, ht⟩ := hflags ref hcache
      obtain ⟨c, rfl, hl⟩ := leads_run {s with versions := s.versions.drop n}
        (workflowStateChangeCb cfg o (.workflow workflow)) (Q := fun _ c => c = (s.clock.mark .prologRemove).disarm ref)
        (ends_releasesProlog hcache hcomplete hread hj hd ht)
      have hnext : Action.next cfg timeout s (.watch n o) =
          (System.run {s with versions := s.versions.drop n} (workflowStateChangeCb cfg o (.workflow workflow))).2 := by
        dsimp only [Action.next]
        rw [hn]
      rw [← hnext] at hl
      obtain ⟨out, hg⟩ := hl.goes
      have hmarks : out.filter Out.isMark = [.prologRemove] := by
        rw [hg.marks, Clock.ledger_disarm]
        rfl
      have hlog : (Action.next cfg timeout s (.watch n o)).log.drop s.log.length = out := by
        rw [hg.log]
        exact List.drop_left ..
      have hkept : (Action.next cfg timeout s (.watch n o)).service.cache = some ref := by
        refine (congrArg (fun c => c.ledger.cache) hg.clock).trans ?_
        show ((s.clock.mark .prologRemove).disarm ref).ledger.cache = some ref
        rw [Clock.ledger_disarm]
        exact hcache
      have hawaited : awaited state = true := (h.guarded state hs).mpr (armed_clock.mpr harmed)
      constructor
      · rw [awaitStep, hlog, foldl_await, hmarks, hkept]
        show (awaited state && decide (state ≠ .preRun) && true && true) = true
        rw [hawaited, decide_eq_true hne]
        rfl
      · rw [← armed_clock, hg.clock]
        exact Clock.not_armed_disarm hcache

theorem keepsTimers_next_iff (hcfg : cfg.TimesOut) (timeout : Bool) (h : Awaiting s awaited) (he : a.Enabled s) :
    KeepsTimers (a.next cfg timeout s, awaitStep awaited s a (a.next cfg timeout s)) ↔ SparesTimer s a := by
  constructor
  · intro hkeeps
    cases a with
    | watch n o =>
      intro hr state hs harmed
      by_contra hne
      obtain ⟨hawaited, hlost⟩ := lost_of_releasesProlog cfg timeout h hr hs harmed hne
      exact hlost (hkeeps state hs hawaited)
    | _ => trivial
  · intro hc state hs hawaited
    exact armed_clock.mp (((awaiting_next hcfg timeout h he hc).guarded state hs).mp hawaited)

end Step

/-- **No timer is lost** in a run exactly when no event of a completed PreRun finds the timer
of another state. -/
theorem timers_kept_iff (cfg : Config) (hcfg : cfg.TimesOut) (timeout : Bool) {actions : List Action}
    (h : (systemMachine cfg timeout).Possible (systemMachine cfg timeout).init actions) :
    (awaitMachine cfg timeout).Always KeepsTimers (awaitMachine cfg timeout).init actions ↔
      (systemMachine cfg timeout).Legal SparesTimer (systemMachine cfg timeout).init actions :=
  Machine.observed_always_iff_legal (P := KeepsTimers) (fun s => Awaiting s.1 s.2)
    (fun _ _ _ hs he hc => awaiting_next hcfg timeout hs he hc)
    (fun _ _ _ hs _ he => keepsTimers_next_iff hcfg timeout hs he)
    awaiting_init (fun _ _ => nofun) h

instance (s : System) (state : WorkflowState) : Decidable (s.Armed state) :=
  inferInstanceAs (Decidable (∃ ref ∈ s.service.cache, ∃ i ∈ (s.service.winfos ref).stateTimer,
    ∃ t ∈ s.service.timers[i]?, t.running = true ∧ t.winfo = ref ∧ t.kind.guards? = some state))

instance (s : System × (WorkflowState → Bool)) : Decidable (KeepsTimers s) :=
  inferInstanceAs (Decidable (∀ state ∈ timedStates, s.2 state = true → s.1.Armed state))

instance (s : System) : (a : Action) → Decidable (SparesTimer s a)
  | .watch n o => inferInstanceAs (Decidable (s.releasesProlog n o = true →
      ∀ state ∈ timedStates, s.Armed state → state = .preRun))
  | .job _ | .lookup _ _ _ | .reply _ | .remove _ | .serve _ _ | .timer _ _ | .killInTc _ _ | .status _
  | .teardown | .vanish => .isTrue trivial

/-- A service with a timeout for each of the three states. -/
def timedConfig : Config := {nodeConfig with setupTimeout := true, prerunTimeout := true, postrunTimeout := true}

/-- The completion of PreRun is seen once more when PostRun has been asked for. -/
def lateEvent : List Action := running ++
  [.job .finish, .job (.finishCb {}), .job (.cleanupCb {}), .serve (.postRun true) {}, .watch 0 {}]

set_option maxRecDepth 4000 in
theorem lateEvent_disarms :
    (systemMachine timedConfig true).Possible (systemMachine timedConfig true).init lateEvent ∧
      ¬ (awaitMachine timedConfig true).Always KeepsTimers (awaitMachine timedConfig true).init lateEvent :=
  ⟨by decide, fun h => absurd h.last (by decide)⟩

set_option maxRecDepth 4000 in
theorem completed_keepsTimers :
    (awaitMachine timedConfig true).Always KeepsTimers (awaitMachine timedConfig true).init completed :=
  (timers_kept_iff timedConfig ⟨rfl, rfl, rfl⟩ true (by decide)).mpr (by decide)

end FluxCoral2.Dws
