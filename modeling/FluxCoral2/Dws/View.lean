import FluxCoral2.Dws.Handlers
import FluxCoral2.Dws.System

/-! The system as the results about runs see it.

A view has the ledger in place of the service, with all that was logged in its marks.
`View.Step` says what each action can do to a view, in terms of a few operations on
views, and `view_next` that the system does nothing else. What every operation keeps,
every run of the system keeps. -/
namespace FluxCoral2.Dws
open Library Jobtap

/-! ### Views -/

structure View where
  job : Job
  looked : Bool
  rpcs : List Rpc
  replies : List Reply
  removes : List Remove
  versions : List Snapshot
  answered : List Reply
  ledger : Ledger

def System.view (s : System) : View where
  job := s.job
  looked := s.looked
  rpcs := s.rpcs
  replies := s.replies
  removes := s.removes
  versions := s.versions
  answered := s.answered
  ledger := {s.service.ledger with marks := s.log.filter Out.isMark}

/-- The ledger a callback starts from: nothing logged. -/
def Ledger.fresh (l : Ledger) : Ledger := {l with marks := []}

namespace View

/-- What a callback that ends in the ledger `l` does to the system. -/
def absorb (v : View) (l : Ledger) : View := {v with
  removes := v.removes ++ l.marks.filterMap Out.remove?
  versions := l.marks.foldl Out.version v.versions
  ledger := {l with marks := v.ledger.marks ++ l.marks}}

def get (v : View) : View := {v with ledger := v.ledger.get}

def forget (v : View) : View := {v with ledger := v.ledger.forget}

def add (v : View) : View := {v with ledger := v.ledger.add}

def setFlags (v : View) (ref : Nat) (f : Flags → Flags) : View := {v with ledger := v.ledger.setFlags ref f}

def startTimers (v : View) (n : Nat) (ref : Nat) : View := {v with ledger := v.ledger.startTimers n ref}

def mark (v : View) (x : Out) : View := {v with
  removes := v.removes ++ x.remove?.toList
  versions := x.version v.versions
  ledger := v.ledger.mark x}

def tearDown (v : View) (ref : Nat) : View :=
  (v.mark .teardownWorkflow).setFlags ref fun f => {f with toredown := true}

section Absorb
variable (v : View) (l : Ledger)

@[simp] theorem absorb_fresh : v.absorb v.ledger.fresh = v := by
  unfold absorb Ledger.fresh
  simp

@[simp] theorem absorb_get : v.absorb l.get = (v.absorb l).get := by
  unfold absorb get Ledger.get
  dsimp only
  split <;> rfl

@[simp] theorem absorb_forget : v.absorb l.forget = (v.absorb l).forget := rfl

@[simp] theorem absorb_add : v.absorb l.add = (v.absorb l).add := rfl

@[simp] theorem absorb_setFlags (ref : Nat) (f : Flags → Flags) :
    v.absorb (l.setFlags ref f) = (v.absorb l).setFlags ref f := rfl

@[simp] theorem absorb_startTimers (n ref : Nat) :
    v.absorb (l.startTimers n ref) = (v.absorb l).startTimers n ref := rfl

@[simp] theorem absorb_mark (x : Out) : v.absorb (l.mark x) = (v.absorb l).mark x := by
  unfold absorb mark Ledger.mark
  cases h : x.remove? <;> simp [h]

@[simp] theorem absorb_tearDown (ref : Nat) : v.absorb (l.tearDown ref) = (v.absorb l).tearDown ref :=
  congrArg (fun v => setFlags v ref fun f => {f with toredown := true}) (v.absorb_mark l .teardownWorkflow)

end Absorb

/-- An event of the job. -/
def event (timeout : Bool) (v : View) (e : Event) : View := {v with
  job := e.apply timeout v.job
  rpcs := v.rpcs ++ (e.calls timeout v.job).filterMap Call.rpc?}

end View

/-! ### Steps of a view -/

/-- What the callback of a request does, and whether it returns. -/
def Requested (cfg : Config) (o : Outcomes) (l : Ledger) (ok : Bool) (l' : Ledger) : Rpc → Prop
  | .create _ => l' = l ∨ o.found = false ∧ (l' = l.mark .created ∨ l' = (l.mark .created).add)
  | .setup nodelist =>
    o.reachesSetup cfg nodelist = true ∧ Moved o .setup l.getRef l.get l' ∨
      o.reachesSetup cfg nodelist = false ∧ l' = l
  | .postRun runStarted =>
    if (l.get.flags l.getRef).toredown then ok = true ∧ l' = l.get
    else if runStarted then ok = o.applies ∧ Moved o .postRun l.getRef l.get l'
    else Checked o l.getRef l.get ok l'
  | .teardown => (l.get.flags l.getRef).toredown = true ∧ l' = l.get ∨
      ∃ ok, Checked o l.getRef l.get ok l'
  | .abort => (l.abort.flags l.getRef).toredown = true ∧ l' = l.abort ∨
      ∃ ok, Checked o l.getRef l.abort ok l'

/-- What the callback of a request does to the clock. -/
def Clock.Requested (cfg : Config) (o : Outcomes) (c : Clock) (ok : Bool) (c' : Clock) : Rpc → Prop
  | .create _ => c' = c ∨ o.found = false ∧ (c' = c.mark .created ∨ c' = (c.mark .created).add)
  | .setup nodelist =>
    o.reachesSetup cfg nodelist = true ∧ c.get.Moved cfg o .setup c.ledger.getRef c' ∨
      o.reachesSetup cfg nodelist = false ∧ c' = c
  | .postRun true =>
    if (c.ledger.get.flags c.ledger.getRef).toredown then ok = true ∧ c' = c.get
    else ok = o.applies ∧ c.get.Moved cfg o .postRun c.ledger.getRef c'
  | .postRun false => c.get.TornDown o c.ledger.getRef ok c'
  | .teardown => c.get.TornDown o c.ledger.getRef ok c'
  | .abort => ∃ ok, c.abort.TornDown o c.ledger.getRef ok c'

theorem Clock.TornDown.ledger {o : Outcomes} {ref : Nat} {c c' : Clock} {ok : Bool} (h : c.TornDown o ref ok c') :
    (c.ledger.flags ref).toredown = true ∧ ok = true ∧ c'.ledger = c.ledger ∨
      (c.ledger.flags ref).toredown = false ∧ Dws.Checked o ref c.ledger ok c'.ledger := by
  cases h with
  | before ht => exact .inl ⟨ht, rfl, rfl⟩
  | now ht h => exact .inr ⟨ht, h.ledger⟩

theorem Clock.Requested.ledger {cfg : Config} {o : Outcomes} {c c' : Clock} {ok : Bool} {r : Rpc}
    (h : c.Requested cfg o ok c' r) : Dws.Requested cfg o c.ledger ok c'.ledger r := by
  have hget := c.ledger_get
  cases r with
  | create failureTolerance =>
    rcases h with rfl | ⟨hf, rfl | rfl⟩
    · exact .inl rfl
    · exact .inr ⟨hf, .inl rfl⟩
    · exact .inr ⟨hf, .inr rfl⟩
  | setup nodelist =>
    rcases h with ⟨hr, hm⟩ | ⟨hr, rfl⟩
    · exact .inl ⟨hr, hget ▸ hm.ledger⟩
    · exact .inr ⟨hr, rfl⟩
  | postRun runStarted =>
    cases runStarted with
    | true =>
      dsimp only [Requested, Dws.Requested] at h ⊢
      cases ht : (c.ledger.get.flags c.ledger.getRef).toredown with
      | true =>
        rw [ht] at h
        exact ⟨h.1, (congrArg Clock.ledger h.2).trans hget⟩
      | false =>
        rw [ht] at h
        exact ⟨h.1, hget ▸ h.2.ledger⟩
    | false =>
      dsimp only [Dws.Requested]
      have htorn := TornDown.ledger h
      rw [hget] at htorn
      rcases htorn with ⟨ht, hok, hl⟩ | ⟨ht, hc⟩
      · rw [ht]
        exact ⟨hok, hl⟩
      · rw [ht]
        exact hc
  | teardown =>
    have htorn := TornDown.ledger h
    rw [hget] at htorn
    exact htorn.imp (fun h => ⟨h.1, h.2.2⟩) fun h => ⟨ok, h.2⟩
  | abort =>
    obtain ⟨ok, h⟩ := h
    have htorn := TornDown.ledger h
    rw [ledger_abort] at htorn
    exact htorn.imp (fun h => ⟨h.1, h.2.2⟩) fun h => ⟨ok, h.2⟩

theorem requested_requestCb (cfg : Config) {o : Outcomes} (ho : o.Sound) (r : Rpc) (s : Service) :
    Prog.Ends (requestCb cfg o r) s fun res t => s.clock.Requested cfg o res.isOk t.clock r := by
  cases r with
  | create failureTolerance => exact ends_createCb failureTolerance s
  | setup nodelist => exact ends_setupCb nodelist s
  | postRun runStarted =>
    cases runStarted with
    | true => exact ends_postRunCb_started s
    | false => exact ends_postRunCb_unstarted ho s
  | teardown => exact ends_teardownCb ho s
  | abort => exact ends_abortCb ho s

/-- What an action can do to a view. -/
inductive View.Step (cfg : Config) (timeout : Bool) (v : View) : Action → View → Prop
  | job {e : Event} (hm : e.isMessage = false) (he : e.Enabled v.job) :
    Step cfg timeout v (.job e) (v.event timeout e)
  | lookup (R : Option (List String)) (calloc : Bool) (setup : Sent) (hl : v.looked = false) :
    Step cfg timeout v (.lookup R calloc setup)
      ({v with looked := true}.event timeout (.fetchR R calloc setup))
  | reply {m : Reply} {e : Event} (hm : m ∈ v.replies) (he : m.event = some e) :
    Step cfg timeout v (.reply m) ({v with replies := v.replies.erase m}.event timeout e)
  | unread {m : Reply} (hm : m ∈ v.replies) (he : m.event = none) :
    Step cfg timeout v (.reply m) {v with replies := v.replies.erase m}
  | remove {r : Remove} (hr : r ∈ v.removes) :
    Step cfg timeout v (.remove r) ({v with removes := v.removes.erase r}.event timeout r.event)
  | serve {r : Rpc} {o : Outcomes} {ok : Bool} {l : Ledger} (hr : r ∈ v.rpcs)
    (hf : o.found = (currentWorkflow v.versions).isSome)
    (hl : Requested cfg o v.ledger.fresh ok l r) :
    Step cfg timeout v (.serve r o)
      ({v with
        rpcs := v.rpcs.erase r
        replies := v.replies ++ [Reply.mk r ok]
        answered := v.answered ++ [Reply.mk r ok]}.absorb l)
  | watch {n : Nat} {o : Outcomes} {event : Snapshot} {l : Ledger} (hn : v.versions[n]? = some event)
    (hf : o.found = (currentWorkflow v.versions).isSome) (hl : Noted o v.ledger.fresh event l) :
    Step cfg timeout v (.watch n o) ({v with versions := v.versions.drop n}.absorb l)
  | timer {i : Nat} {o : Outcomes} {ref : Nat} {l : Ledger} (href : ref ∈ v.ledger.timers)
    (hf : o.found = (currentWorkflow v.versions).isSome)
    (hl : l = v.ledger.fresh ∨ ∃ ok, Checked o ref v.ledger.fresh ok l) :
    Step cfg timeout v (.timer i o) (v.absorb l)
  | killInTc {tcTimeout : Int} {o : Outcomes} {l : Ledger}
    (hl : l = v.ledger.fresh ∨ l = v.ledger.fresh.get) :
    Step cfg timeout v (.killInTc tcTimeout o) (v.absorb l)
  | status {w workflow : Workflow} (hw : currentWorkflow v.versions = some w)
    (hd : workflow.desiredState = w.desiredState) :
    Step cfg timeout v (.status workflow) {v with versions := v.versions ++ [.workflow workflow]}
  | teardown {w : Workflow} (hm : .teardownWorkflow ∈ v.ledger.marks)
    (hw : currentWorkflow v.versions = some w) :
    Step cfg timeout v .teardown
      {v with versions := v.versions ++ [.workflow {w with desiredState := .teardown}]}
  | vanish (hm : .deleteWorkflow ∈ v.ledger.marks) (hw : (currentWorkflow v.versions).isSome = true) :
    Step cfg timeout v .vanish {v with versions := v.versions ++ [.deleted]}

theorem ne_nil_of_current {versions : List Snapshot} (h : (currentWorkflow versions).isSome = true) :
    versions ≠ [] := by
  intro hnil
  subst hnil
  cases h

theorem current_isSome {versions : List Snapshot} (h : versions ≠ []) (hd : .deleted ∉ versions) :
    (currentWorkflow versions).isSome = true := by
  unfold currentWorkflow
  rw [List.getLast?_eq_some_getLast h]
  cases hlast : versions.getLast h with
  | workflow workflow => rfl
  | deleted => exact absurd (hlast ▸ List.getLast_mem h) hd

theorem Out.version_ne_nil (x : Out) {versions : List Snapshot} (h : versions ≠ []) :
    x.version versions ≠ [] := by
  unfold Out.version
  split
  · simp
  · split
    · simp
    · exact h
  · exact h

theorem Out.deleted_mem_version {x : Out} {versions : List Snapshot} (h : .deleted ∈ x.version versions) :
    .deleted ∈ versions := by
  unfold version at h
  split at h
  · simpa using h
  · split at h
    · simpa using h
    · exact h
  · exact h

def Snapshot.rank : Snapshot → Nat
  | .workflow w => w.desiredState.rank
  | .deleted => 6

theorem WorkflowState.rank_le (d : WorkflowState) : d.rank ≤ 6 := by cases d <;> decide

theorem WorkflowState.rank_eq_six {d : WorkflowState} (h : d.rank = 6) : d = .teardown := by
  cases d <;> first | rfl | cases h

theorem Snapshot.rank_le (x : Snapshot) : x.rank ≤ 6 := by
  cases x with
  | workflow w => exact w.desiredState.rank_le
  | deleted => exact Nat.le_refl 6

theorem current_append (versions : List Snapshot) (x : Snapshot) : currentWorkflow (versions ++ [x]) =
    match x with
    | .workflow workflow => some workflow
    | .deleted => none := by
  unfold currentWorkflow
  rw [List.getLast?_concat]
  cases x <;> rfl

theorem exists_append_of_current {versions : List Snapshot} {w : Workflow} (hw : currentWorkflow versions = some w) :
    ∃ l, versions = l ++ [.workflow w] := by
  rcases List.eq_nil_or_concat versions with rfl | ⟨l, y, hl⟩
  · cases hw
  · rw [List.concat_eq_append] at hl
    rw [hl, current_append] at hw
    cases y with
    | workflow w' => exact ⟨l, Option.some.inj hw ▸ hl⟩
    | deleted => cases hw

theorem mem_of_current {versions : List Snapshot} {w : Workflow} (hw : currentWorkflow versions = some w) :
    .workflow w ∈ versions := by
  obtain ⟨l, rfl⟩ := exists_append_of_current hw
  exact List.mem_append_right l (List.mem_singleton.mpr rfl)

section Drop
variable {versions : List Snapshot} {n : Nat} {event : Snapshot}

/-- The version that the watch gives is the first of those from it on. -/
theorem drop_event (hn : versions[n]? = some event) : versions.drop n = event :: versions.drop (n + 1) := by
  obtain ⟨hlt, hget⟩ := List.getElem?_eq_some_iff.mp hn
  rw [List.drop_eq_getElem_cons hlt, hget]

theorem drop_ne_nil (hn : versions[n]? = some event) : versions.drop n ≠ [] := by
  rw [drop_event hn]
  exact List.cons_ne_nil _ _

theorem current_drop (hn : versions[n]? = some event) :
    currentWorkflow (versions.drop n) = currentWorkflow versions := by
  unfold currentWorkflow
  rw [List.getLast?_drop, if_neg (Nat.not_le.mpr (List.getElem?_eq_some_iff.mp hn).1)]

end Drop

theorem version_patch (desiredState : WorkflowState) (applied : Bool) (versions : List Snapshot) :
    (Out.patchDesired desiredState applied).version versions = versions ∨
      ∃ workflow, currentWorkflow versions = some workflow ∧
        (Out.patchDesired desiredState applied).version versions =
          versions ++ [.workflow {workflow with desiredState := desiredState}] := by
  cases applied with
  | false => exact .inl rfl
  | true =>
    cases hw : currentWorkflow versions with
    | none =>
      refine .inl ?_
      unfold Out.version
      rw [hw]
    | some workflow =>
      refine .inr ⟨workflow, rfl, ?_⟩
      unfold Out.version
      rw [hw]

theorem pairwise_append_singleton {α : Type} {R : α → α → Prop} {l : List α} {a : α} :
    (l ++ [a]).Pairwise R ↔ l.Pairwise R ∧ ∀ x ∈ l, R x a := by
  simp [List.pairwise_append]

theorem mem_of_mem_concat {α : Type} {l : List α} {a x : α} (h : x ∈ l ++ [a]) (hne : x ≠ a) : x ∈ l :=
  (List.mem_append.mp h).resolve_right fun h => hne (List.mem_singleton.mp h)

theorem View.absorb_versions_ne_nil (v : View) (l : Ledger) (h : v.versions ≠ []) :
    (v.absorb l).versions ≠ [] := by
  show l.marks.foldl Out.version v.versions ≠ []
  generalize v.versions = versions at h ⊢
  induction l.marks generalizing versions with
  | nil => exact h
  | cons x rest ih => exact ih _ (x.version_ne_nil h)

/-- A message may come at any time. -/
theorem Jobtap.Event.enabled_of_message {j : Job} {e : Event} (h : e.isMessage = true) (hn : e.isMessage = false) :
    e.Enabled j := absurd (h.symm.trans hn) (by decide)

/-! ### The system takes these steps -/

theorem foldl_version (out : List Out) (versions : List Snapshot) :
    out.foldl Out.version versions = (out.filter Out.isMark).foldl Out.version versions := by
  induction out generalizing versions with
  | nil => rfl
  | cons x rest ih =>
    rw [List.foldl_cons, ih]
    cases h : x.isMark with
    | true => rw [List.filter_cons_of_pos h, List.foldl_cons]
    | false =>
      rw [List.filter_cons_of_neg (by simp [h])]
      cases x <;> first | rfl | cases h

theorem filterMap_remove (out : List Out) :
    out.filterMap Out.remove? = (out.filter Out.isMark).filterMap Out.remove? := by
  rw [List.filterMap_filter]
  refine List.filterMap_congr fun x _ => ?_
  cases x <;> rfl

/-- The clock a callback starts from: nothing logged. -/
def Clock.fresh (c : Clock) : Clock := {c with ledger := c.ledger.fresh}

def System.clock (s : System) : Clock := s.service.clock.fresh

/-- A callback that ends in the clock `c` takes the system from `s` to `t`. -/
structure System.Leads (s : System) (c : Clock) (t : System) : Prop where
  view : t.view = s.view.absorb c.ledger
  clock : t.clock = c.fresh
  log : ∃ out, t.log = s.log ++ out ∧ out.filter Out.isMark = c.ledger.marks

/-- What a callback does to the clock, it does to the system. -/
theorem leads_run (s : System) (callback : Cb Unit) {Q : Bool → Clock → Prop}
    (h : Prog.Ends callback {s.service with out := []} fun r t => Q r.isOk t.clock) :
    ∃ c, Q (s.run callback).1 c ∧ s.Leads c (s.run callback).2 := by
  have hleads (t : Service) : s.Leads t.clock {s with
      service := t
      removes := s.removes ++ t.out.filterMap Out.remove?
      versions := t.out.foldl Out.version s.versions
      log := s.log ++ t.out} := by
    refine ⟨?_, rfl, t.out, rfl, rfl⟩
    unfold System.view View.absorb Service.clock Service.ledger
    dsimp only
    rw [filterMap_remove, foldl_version, List.filter_append]
  unfold Prog.Ends at h
  unfold System.run respond
  cases hr : Prog.exec callback {s.service with out := []} with
  | mk r t =>
    rw [hr] at h
    cases r with
    | ok a => exact ⟨t.clock, h, hleads t⟩
    | error e => exact ⟨t.clock, h, hleads t⟩

theorem drop_rpcs (timeout : Bool) (j : Job) (e : Event) :
    (e.apply timeout j).rpcs.drop j.rpcs.length = (e.calls timeout j).filterMap Call.rpc? := by
  rw [Job.rpcs_eq (e.apply timeout j), loud_apply, List.filterMap_append, ← Job.rpcs_eq, List.drop_left]

theorem view_event (timeout : Bool) (s : System) (e : Event) :
    (s.event timeout e).view = s.view.event timeout e := by
  unfold System.event View.event System.view
  dsimp only
  rw [drop_rpcs]

/-- The system after a request was served. -/
theorem leads_serve (cfg : Config) (timeout : Bool) (s : System) {r : Rpc} {o : Outcomes} (ho : o.Sound) :
    ∃ ok c t, s.clock.Requested cfg o ok c r ∧ System.Leads {s with rpcs := s.rpcs.erase r} c t ∧
      Action.next cfg timeout s (.serve r o) = {t with
        replies := s.replies ++ [Reply.mk r ok]
        answered := s.answered ++ [Reply.mk r ok]} := by
  obtain ⟨c, hc, hl⟩ := leads_run {s with rpcs := s.rpcs.erase r} (requestCb cfg o r)
    (Q := fun ok c => s.clock.Requested cfg o ok c r) (requested_requestCb cfg ho r _)
  dsimp only [Action.next]
  cases hrun : System.run {s with rpcs := s.rpcs.erase r} (requestCb cfg o r) with
  | mk ok t =>
    rw [hrun] at hc hl
    have hanswered : t.answered = s.answered := congrArg View.answered hl.view
    have hreplies : t.replies = s.replies := congrArg View.replies hl.view
    refine ⟨ok, c, t, hc, hl, ?_⟩
    rw [hanswered, hreplies]

/-- The view after a request was served. -/
theorem view_serve (cfg : Config) (timeout : Bool) (s : System) {r : Rpc} {o : Outcomes} (ho : o.Sound) :
    ∃ ok c, s.clock.Requested cfg o ok c r ∧ (Action.next cfg timeout s (.serve r o)).view =
      View.absorb {s.view with
        rpcs := s.view.rpcs.erase r
        replies := s.view.replies ++ [Reply.mk r ok]
        answered := s.view.answered ++ [Reply.mk r ok]} c.ledger := by
  obtain ⟨ok, c, t, hc, hl, hnext⟩ := leads_serve cfg timeout s ho
  refine ⟨ok, c, hc, ?_⟩
  rw [hnext]
  exact congrArg (fun v : View => {v with
    replies := s.replies ++ [Reply.mk r ok]
    answered := s.answered ++ [Reply.mk r ok]}) hl.view

/-- The system after an event of the watch. -/
theorem leads_watch (cfg : Config) (timeout : Bool) (s : System) {n : Nat} {o : Outcomes} {event : Snapshot}
    (hn : s.versions[n]? = some event) : ∃ c, s.clock.Noted cfg o event c ∧
      System.Leads {s with versions := s.versions.drop n} c (Action.next cfg timeout s (.watch n o)) := by
  dsimp only [Action.next]
  rw [hn]
  exact leads_run {s with versions := s.versions.drop n} (workflowStateChangeCb cfg o event)
    (Q := fun _ c => s.clock.Noted cfg o event c) (ends_workflowStateChangeCb event _)

/-- The system after a timer fired. -/
theorem leads_timer (cfg : Config) (timeout : Bool) (s : System) {i : Nat} {o : Outcomes} {t : Timer} (ho : o.Sound)
    (ht : s.service.timers[i]? = some t) : ∃ c, s.clock.Fired o t i c ∧
      s.Leads c (Action.next cfg timeout s (.timer i o)) := by
  dsimp only [Action.next]
  rw [ht]
  exact leads_run s (timerCallback i (t.callback cfg o)) (Q := fun _ c => s.clock.Fired o t i c) (ends_timer ho i t _)

/-- The system after the check of the transient conditions. -/
theorem leads_killInTc (cfg : Config) (timeout : Bool) (s : System) (tcTimeout : Int) (o : Outcomes) :
    ∃ c, (c = s.clock ∨ c = s.clock.get) ∧ s.Leads c (Action.next cfg timeout s (.killInTc tcTimeout o)) :=
  leads_run s (do let _ ← killWorkflowInTc cfg o tcTimeout) (Q := fun _ c => c = s.clock ∨ c = s.clock.get)
    (ends_killWorkflowInTc tcTimeout _)

/-- What a timer does to the ledger: nothing, or it sees whether the workflow exists and tears it down. -/
theorem Clock.Fired.ledger {o : Outcomes} {timer : Timer} {i : Nat} {c c' : Clock} (h : c.Fired o timer i c') :
    c'.ledger = c.ledger ∨ ∃ ok, Dws.Checked o timer.winfo c.ledger ok c'.ledger := by
  rw [Fired] at h
  split at h
  · obtain ⟨ok, c₁, hc, rfl⟩ := h
    exact .inr ⟨ok, hc.ledger⟩
  · exact .inl (h ▸ c.ledger_stop i)

theorem view_next (cfg : Config) (timeout : Bool) (s : System) (a : Action) (he : a.Enabled s) :
    View.Step cfg timeout s.view a (a.next cfg timeout s).view := by
  cases a with
  | job e => exact view_event timeout s e ▸ .job he.1 he.2
  | lookup R calloc setup =>
    exact view_event timeout {s with looked := true} (.fetchR R calloc setup) ▸ .lookup R calloc setup he.1
  | reply m =>
    dsimp only [Action.next]
    cases hm : m.event with
    | none => exact .unread he hm
    | some e => exact view_event timeout {s with replies := s.replies.erase m} e ▸ .reply he hm
  | remove r => exact view_event timeout {s with removes := s.removes.erase r} r.event ▸ .remove he
  | serve r o =>
    obtain ⟨ok, c, hc, hv⟩ := view_serve cfg timeout s he.2.sound
    exact hv ▸ .serve he.1 he.2.found hc.ledger
  | watch n o =>
    have hlt : n < s.versions.length := he.1
    have hn := List.getElem?_eq_getElem hlt
    obtain ⟨c, hc, hl⟩ := leads_watch cfg timeout s hn
    exact hl.view ▸ .watch hn he.2.found hc.ledger
  | timer i o =>
    obtain ⟨⟨t, ht, -⟩, hf⟩ := he
    obtain ⟨c, hc, hl⟩ := leads_timer cfg timeout s hf.sound ht
    exact hl.view ▸ .timer (List.mem_map.mpr ⟨t, List.mem_of_getElem? ht, rfl⟩) hf.found hc.ledger
  | killInTc tcTimeout o =>
    obtain ⟨c, hc, hl⟩ := leads_killInTc cfg timeout s tcTimeout o
    exact hl.view ▸ .killInTc
      (hc.imp (congrArg Clock.ledger) fun h => (congrArg Clock.ledger h).trans s.clock.ledger_get)
  | status workflow =>
    obtain ⟨w, hw, hd⟩ := he
    exact .status hw hd
  | teardown =>
    obtain ⟨hm, hw⟩ := he
    obtain ⟨w, hw⟩ := Option.isSome_iff_exists.mp hw
    dsimp only [Action.next]
    rw [hw]
    exact .teardown (List.mem_filter.mpr ⟨hm, rfl⟩) hw
  | vanish => exact .vanish (List.mem_filter.mpr ⟨he.1, rfl⟩) he.2

end FluxCoral2.Dws
