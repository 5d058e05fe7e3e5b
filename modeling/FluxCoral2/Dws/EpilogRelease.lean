import Mathlib.Data.List.Infix
import FluxCoral2.Dws.View

/-! The release of the epilog.

The service asks the plugin to remove the epilog when the workflow has been torn down;
the plugin starts the epilog when the job finishes. Nothing orders the two: a request
that comes before the epilog was started is used up, and the epilog then waits for good
(`removedWhileRunning_stranded`). `pending_released`: in a run in which every request to
remove the epilog comes after its start, an epilog that waits has its release to come. -/
namespace FluxCoral2.Dws
open Library Jobtap

/-! ### The epilog of the plugin -/

/-- The epilog has been started and not finished since. -/
def Jobtap.Job.EpilogPending (j : Job) : Prop := j.epilogCalls.getLast? = some .start

/-- The epilog is finished only after its start, and while it waits the job is in CLEANUP. -/
structure EpilogState (j : Job) : Prop where
  once : StartedOnce j
  first : j.epilogCalls.head? ≠ some .finish
  posted : j.finishPosted = true → j.state = .cleanup ∨ j.state = .inactive
  cleanup : j.EpilogPending → j.state = .cleanup

theorem eq_start_of_getLast? {l : List EpilogCall} (hlast : l.getLast? = some .start)
    (hfirst : l.head? ≠ some .finish) (hcount : l.count .start ≤ 1) : l = [.start] := by
  match l, hlast, hfirst, hcount with
  | [x], hlast, _, _ =>
    have hx : x = .start := Option.some.inj hlast
    rw [hx]
  | x :: y :: rest, hlast, hfirst, hcount =>
    have hmem : EpilogCall.start ∈ y :: rest := List.mem_of_getLast? (by simpa using hlast)
    have hrest := List.count_pos_iff.mpr hmem
    cases x with
    | start =>
      rw [List.count_cons_self] at hcount
      omega
    | finish => exact absurd rfl hfirst

theorem EpilogState.pending {j : Job} (h : EpilogState j) (hp : j.EpilogPending) :
    j.epilogCalls = [.start] := by
  refine eq_start_of_getLast? hp h.first ?_
  rw [h.once.starts]
  split <;> omega

/-- A callback that finishes the epilog adds that; others add a start, and a finish if that fails. -/
theorem added_cases (timeout : Bool) (j : Job) (e : Event) : e.added timeout j = [.finish] ∧ e.Finishes j ∨
    e.added timeout j <+: [.start, .finish] := by
  by_cases hf : e.Finishes j
  · exact .inl ⟨Event.added_of_finishes hf, hf⟩
  · right
    cases e with
    | finishCb c =>
      unfold Event.added
      cases j.epilogActive
      · exact c.added_prefix
      · exact List.nil_prefix
    | cleanupCb c =>
      unfold Event.added
      cases j.startPosted
      · exact c.added_prefix
      · exact List.nil_prefix
    | _ =>
      rw [Event.added_of_not_finishes hf (fun _ => by simp) (fun _ => by simp)]
      exact List.nil_prefix

theorem prefix_cases {l : List EpilogCall} (h : l <+: [.start, .finish]) :
    l = [] ∨ l = [.start] ∨ l = [.start, .finish] := by
  have hl := (List.mem_inits l _).mpr h
  simpa using hl

/-- An epilog that waits after an event waited before, or the event has started it. -/
theorem pending_apply {timeout : Bool} {j : Job} {e : Event} (hp : (e.apply timeout j).EpilogPending) :
    j.EpilogPending ∧ e.added timeout j = [] ∨ e.added timeout j = [.start] := by
  unfold Job.EpilogPending at hp ⊢
  rw [epilogCalls_apply, List.getLast?_append] at hp
  rcases added_cases timeout j e with ⟨ha, -⟩ | ha
  · rw [ha] at hp
    cases hp
  rcases prefix_cases ha with ha | ha | ha
  · rw [ha] at hp
    exact .inl ⟨hp, ha⟩
  · exact .inr ha
  · rw [ha] at hp
    cases hp

theorem posted_apply {timeout : Bool} {j : Job} {e : Event} (h : EpilogState j)
    (he : e.isMessage = false → e.Enabled j) (hfin : (e.apply timeout j).finishPosted = true) :
    (e.apply timeout j).state = .cleanup ∨ (e.apply timeout j).state = .inactive := by
  have hk := kept_apply timeout j e
  rw [hk.finishPosted] at hfin
  rw [hk.state]
  cases e with
  | depend failureTolerance create =>
    have hstate : j.state = .new := he rfl
    rcases h.posted hfin with hs | hs <;> (rw [hstate] at hs; cases hs)
  | run c =>
    have hstate : j.state = .depend := he rfl
    rcases h.posted hfin with hs | hs <;> (rw [hstate] at hs; cases hs)
  | finish => exact Job.cleanup_state _
  | exception severity type sent =>
    dsimp only [Event.update] at hfin ⊢
    split
    · exact Job.cleanup_state j
    · rename_i hs
      rw [if_neg hs] at hfin
      exact h.posted hfin
  | inactive => exact .inr rfl
  | _ => exact h.posted hfin

/-- While the epilog waits, the job stays in CLEANUP. -/
theorem cleanup_apply {timeout : Bool} {j : Job} {e : Event} (h : EpilogState j)
    (he : e.isMessage = false → e.Enabled j) (hp : (e.apply timeout j).EpilogPending) :
    (e.apply timeout j).state = .cleanup := by
  rw [(kept_apply timeout j e).state]
  rcases pending_apply hp with ⟨hp, -⟩ | ha
  · have hstate := h.cleanup hp
    have hne : j.state ≠ .inactive := by simp [hstate]
    cases e with
    | depend failureTolerance create =>
      rw [show j.state = .new from he rfl] at hstate
      cases hstate
    | run c =>
      rw [show j.state = .depend from he rfl] at hstate
      cases hstate
    | finish => exact Job.cleanup_state_of_ne hne
    | exception severity type sent =>
      dsimp only [Event.update]
      split
      · exact Job.cleanup_state_of_ne hne
      · exact hstate
    | inactive => exact absurd (h.pending hp) (he rfl).2.2
    | _ => exact hstate
  · cases e with
    | finishCb c => exact (h.posted (he rfl).1).resolve_right (he rfl).2
    | cleanupCb c => exact (he rfl).1
    | _ =>
      have hcount := congrArg (List.count EpilogCall.start) ha
      rw [Event.count_added (fun _ => by simp) (fun _ => by simp)] at hcount
      cases hcount

theorem epilogState_apply {timeout : Bool} {j : Job} {e : Event} (h : EpilogState j)
    (he : e.isMessage = false → e.Enabled j) (hf : e.Finishes j → j.epilogActive = true) :
    EpilogState (e.apply timeout j) := by
  refine ⟨startedOnce_apply timeout j e h.once he, ?_, posted_apply h he, cleanup_apply h he⟩
  rw [epilogCalls_apply]
  cases hcalls : j.epilogCalls with
  | cons x rest =>
    have hfirst := h.first
    rw [hcalls] at hfirst
    exact hfirst
  | nil =>
    rcases added_cases timeout j e with ⟨-, hfin⟩ | ha
    · have hstarts := h.once.starts
      rw [hcalls, hf hfin] at hstarts
      cases hstarts
    · rcases prefix_cases ha with ha | ha | ha <;> rw [ha] <;> simp

/-- Once started, the epilog is finished when it does not wait in CLEANUP. -/
theorem EpilogState.finished {j : Job} (h : EpilogState j) (ha : j.epilogActive = true) (hs : j.state ≠ .cleanup) :
    .finish ∈ j.epilogCalls := by
  have hstarts := h.once.starts
  rw [ha, if_pos rfl] at hstarts
  cases hlast : j.epilogCalls.getLast? with
  | none =>
    rw [List.getLast?_eq_none_iff.mp hlast] at hstarts
    cases hstarts
  | some x =>
    cases x with
    | start => exact absurd (h.cleanup hlast) hs
    | finish => exact List.mem_of_getLast? hlast

theorem finishes_of_not_message {j : Job} {e : Event} (hm : e.isMessage = false) (hf : e.Finishes j) :
    j.epilogActive = true := by
  cases e with
  | exception severity type sent => exact hf.2.2.1
  | postRunResponse r => cases hm
  | epilogRemove malformed => cases hm
  | _ => exact hf.elim

/-! ### The release, in a view -/

/-- The epilog is finished already, or the service has asked for it. -/
def View.Released (v : View) : Prop := .epilogRemove ∈ v.ledger.marks ∨ .finish ∈ v.job.epilogCalls

/-- What a run keeps in which every request to remove the epilog comes after its start. -/
structure Releasing (v : View) : Prop where
  epilog : EpilogState v.job
  asked : ∀ b, .postRun b ∈ v.rpcs → v.job.epilogActive = true
  replied : ∀ m ∈ v.replies, m.rpc.isPostRun = true → v.job.epilogActive = true
  aborted : .abort ∈ v.rpcs → .finish ∈ v.job.epilogCalls
  removed : ∀ ref, (v.ledger.flags ref).epilogRemoved = true → .finish ∈ v.job.epilogCalls
  inFlight : .epilogRemove ∈ v.ledger.marks → .epilog ∈ v.removes ∨ .finish ∈ v.job.epilogCalls
  deleted : ∀ ref, (v.ledger.flags ref).deleted = true → v.Released
  deleting : .deleteWorkflow ∈ v.ledger.marks → v.Released
  vanished : .deleted ∈ v.versions → .deleteWorkflow ∈ v.ledger.marks
  toredown : ∀ ref, (v.ledger.flags ref).toredown = true → v.versions ≠ []
  answered : ∀ b, ⟨.postRun b, true⟩ ∈ v.answered → v.versions ≠ [] ∨ .epilogRemove ∈ v.ledger.marks

theorem releasing_init : Releasing (System.view {}) := by
  refine ⟨⟨startedOnce_init, by decide, nofun, nofun⟩, nofun, nofun, nofun, nofun, nofun, nofun, nofun, nofun,
    nofun, nofun⟩

namespace Releasing
variable {v : View}

/-- Another request is logged; a deletion needs the release. -/
theorem mark (h : Releasing v) (x : Out) (hx : x = .deleteWorkflow → v.Released) : Releasing (v.mark x) := by
  have hmarks {y : Out} (hy : y ∈ v.ledger.marks) : y ∈ (v.mark x).ledger.marks :=
    List.mem_append_left [x] hy
  have hreleased (hr : v.Released) : (v.mark x).Released := hr.imp_left hmarks
  refine ⟨h.epilog, h.asked, h.replied, h.aborted, h.removed, fun hr => ?_, fun ref hd => ?_, fun hd => ?_,
    fun hd => hmarks (h.vanished (Out.deleted_mem_version hd)), fun ref ht => Out.version_ne_nil x (h.toredown ref ht),
    fun b hb => ?_⟩
  · rcases List.mem_append.mp hr with hr | hr
    · exact (h.inFlight hr).imp_left (List.mem_append_left _)
    · rw [List.mem_singleton] at hr
      subst hr
      exact .inl (List.mem_append_right _ (List.mem_singleton.mpr rfl))
  · exact hreleased (h.deleted ref hd)
  · rcases List.mem_append.mp hd with hd | hd
    · exact hreleased (h.deleting hd)
    · exact hreleased (hx (List.mem_singleton.mp hd).symm)
  · exact (h.answered b hb).imp (Out.version_ne_nil x) hmarks

/-- The flags change, and nothing that is logged. -/
theorem withLedger (h : Releasing v) {l : Ledger} (hm : l.marks = v.ledger.marks)
    (hremoved : ∀ ref, (l.flags ref).epilogRemoved = true → .finish ∈ v.job.epilogCalls)
    (hdeleted : ∀ ref, (l.flags ref).deleted = true → v.Released)
    (htoredown : ∀ ref, (l.flags ref).toredown = true → v.versions ≠ []) : Releasing {v with ledger := l} := by
  have hreleased (hr : v.Released) : View.Released {v with ledger := l} := by
    unfold View.Released
    rw [hm]
    exact hr
  refine ⟨h.epilog, h.asked, h.replied, h.aborted, hremoved, ?_, fun ref hd => hreleased (hdeleted ref hd), ?_,
    ?_, htoredown, ?_⟩
  · rw [hm]
    exact h.inFlight
  · rw [hm]
    exact fun hd => hreleased (h.deleting hd)
  · rw [hm]
    exact h.vanished
  · rw [hm]
    exact h.answered

/-- WorkflowInfos that are made, forgotten or given timers. -/
theorem ofFlags (h : Releasing v) {l : Ledger} (hm : l.marks = v.ledger.marks)
    (hf : ∀ ref, l.flags ref = v.ledger.flags ref ∨ l.flags ref = {}) : Releasing {v with ledger := l} := by
  have hold (ref : Nat) (p : Flags → Bool) (hp : p {} = false) (ht : p (l.flags ref) = true) :
      p (v.ledger.flags ref) = true := by
    rcases hf ref with hr | hr
    · rw [← hr]
      exact ht
    · rw [hr, hp] at ht
      cases ht
  exact h.withLedger hm (fun ref hr => h.removed ref (hold ref Flags.epilogRemoved rfl hr))
    (fun ref hd => h.deleted ref (hold ref Flags.deleted rfl hd))
    fun ref ht => h.toredown ref (hold ref Flags.toredown rfl ht)

theorem get (h : Releasing v) : Releasing v.get := h.ofFlags (Ledger.marks_get _) (Ledger.flags_get _)

theorem add (h : Releasing v) : Releasing v.add := h.ofFlags rfl (Ledger.flags_add _)

theorem forget (h : Releasing v) : Releasing v.forget := h.ofFlags rfl fun _ => .inl rfl

theorem startTimers (h : Releasing v) (n ref : Nat) : Releasing (v.startTimers n ref) :=
  h.ofFlags rfl fun _ => .inl rfl

theorem setFlags (h : Releasing v) (ref : Nat) (f : Flags → Flags)
    (hremoved : (f (v.ledger.flags ref)).epilogRemoved = true → .finish ∈ v.job.epilogCalls)
    (hdeleted : (f (v.ledger.flags ref)).deleted = true → v.Released)
    (htoredown : (f (v.ledger.flags ref)).toredown = true → v.versions ≠ []) :
    Releasing (v.setFlags ref f) := by
  have hcases (p : Flags → Prop) (q : Prop) (hself : p (f (v.ledger.flags ref)) → q)
      (hother : ∀ r, p (v.ledger.flags r) → q) (r : Nat) (hp : p ((v.ledger.setFlags ref f).flags r)) : q := by
    by_cases hr : r = ref
    · subst hr
      rw [Ledger.flags_setFlags_self] at hp
      exact hself hp
    · rw [Ledger.flags_setFlags_ne _ _ hr] at hp
      exact hother r hp
  exact h.withLedger rfl (hcases (·.epilogRemoved = true) _ hremoved h.removed)
    (hcases (·.deleted = true) _ hdeleted h.deleted) (hcases (·.toredown = true) _ htoredown h.toredown)

theorem tearDown (h : Releasing v) (ref : Nat) (hv : v.versions ≠ []) : Releasing (v.tearDown ref) := by
  have hmark := h.mark .teardownWorkflow nofun
  exact hmark.setFlags ref _ (hmark.removed ref) (hmark.deleted ref) fun _ =>
    Out.version_ne_nil .teardownWorkflow hv

/-- An event of the job, which may take a message out of flight. -/
theorem event {timeout : Bool} {e : Event} (h : Releasing v) (he : e.isMessage = false → e.Enabled v.job)
    (hf : e.Finishes v.job → v.job.epilogActive = true) {removes : List Remove} {replies : List Reply}
    (looked : Bool) (hreplies : replies ⊆ v.replies)
    (hremoves : .epilogRemove ∈ v.ledger.marks →
      .epilog ∈ removes ∨ .finish ∈ (e.apply timeout v.job).epilogCalls) :
    Releasing (View.event timeout {v with removes := removes, replies := replies, looked := looked} e) := by
  have hfinish (hc : .finish ∈ v.job.epilogCalls) : .finish ∈ (e.apply timeout v.job).epilogCalls :=
    finish_apply (.inl hc)
  have hactive (ha : v.job.epilogActive = true) : (e.apply timeout v.job).epilogActive = true := active_apply ha
  refine ⟨epilogState_apply h.epilog he hf, fun b hb => ?_, fun m hm hr => hactive (h.replied m (hreplies hm) hr),
    fun ha => ?_, fun ref hr => hfinish (h.removed ref hr), hremoves,
    fun ref hd => (h.deleted ref hd).imp_right hfinish,
    fun hd => (h.deleting hd).imp_right hfinish, h.vanished, h.toredown, h.answered⟩
  · rcases List.mem_append.mp hb with hb | hb
    · exact hactive (h.asked b hb)
    · exact active_of_postRun (mem_rpcs.mp hb)
  · rcases List.mem_append.mp ha with ha | ha
    · exact hfinish (h.aborted ha)
    · obtain ⟨sent, rfl, hp, hactive, hsent⟩ := Event.sentBy v.job (mem_rpcs.mp ha)
      exact finish_apply (.inr ⟨rfl, hp, hactive, rfl, hsent⟩)

theorem checked {o : Outcomes} {ref : Nat} {l l' : Ledger} {ok : Bool} (h : Releasing (v.absorb l))
    (hc : Checked o ref l ok l') (hf : o.found = true → v.versions ≠ []) : Releasing (v.absorb l') := by
  cases hc with
  | failed => exact h
  | tornDown hfound =>
    rw [View.absorb_tearDown]
    exact h.tearDown ref (v.absorb_versions_ne_nil l (hf hfound))
  | released hfound =>
    rw [View.absorb_mark, View.absorb_forget]
    exact h.forget.mark .epilogRemove nofun

theorem moved {o : Outcomes} {desiredState : WorkflowState} {ref : Nat} {l l' : Ledger}
    (h : Releasing (v.absorb l)) (hm : Moved o desiredState ref l l') : Releasing (v.absorb l') := by
  obtain ⟨n, rfl, -⟩ := hm
  rw [View.absorb_startTimers, View.absorb_mark]
  exact (h.mark (.patchDesired desiredState o.applies) nofun).startTimers n ref

theorem release {l : Ledger} (h : Releasing (v.absorb l)) (ref : Nat) :
    Releasing (v.absorb (l.release ref)) ∧ (v.absorb (l.release ref)).Released := by
  unfold Ledger.release
  cases hr : (l.flags ref).epilogRemoved with
  | true => exact ⟨h, .inr (h.removed ref hr)⟩
  | false =>
    rw [if_neg Bool.false_ne_true, View.absorb_mark]
    exact ⟨h.mark .epilogRemove nofun, .inl (List.mem_append_right _ (List.mem_singleton.mpr rfl))⟩

theorem handled {o : Outcomes} {workflow : Workflow} {ref : Nat} {l l' : Ledger}
    (h : Releasing (v.absorb l)) (hh : Handled o workflow ref l l') (hv : v.versions ≠ []) :
    Releasing (v.absorb l') := by
  cases hh with
  | nothing => exact h
  | released hs hd => exact (h.release ref).1
  | deleted hs hd =>
    obtain ⟨hrelease, hreleased⟩ := h.release ref
    have hmark := hrelease.mark .deleteWorkflow fun _ => hreleased
    rw [View.absorb_setFlags, View.absorb_mark]
    exact hmark.setFlags ref _ (hmark.removed ref) (fun _ => hreleased.imp_left (List.mem_append_left _))
      (hmark.toredown ref)
  | moved hs hnext ht hm => exact h.moved hm
  | prologRemoved hs ht =>
    rw [View.absorb_mark]
    exact h.mark .prologRemove nofun
  | tornDown hs ht =>
    rw [View.absorb_tearDown]
    exact h.tearDown ref (v.absorb_versions_ne_nil l hv)

theorem noted {o : Outcomes} {l l' : Ledger} {event : Snapshot} (h : Releasing (v.absorb l))
    (hn : Noted o l event l') (hv : v.versions ≠ []) : Releasing (v.absorb l') := by
  have hget : Releasing (v.absorb l.get) := by
    rw [View.absorb_get]
    exact h.get
  cases hn with
  | unread => exact h
  | forgotten =>
    rw [View.absorb_forget]
    exact hget.forget
  | handled hh => exact hget.handled hh hv
  | failed hh =>
    rw [View.absorb_tearDown]
    exact (hget.handled hh hv).tearDown _ (v.absorb_versions_ne_nil _ hv)

/-- A version of the workflow, or its end when it was to be deleted. -/
theorem append (h : Releasing v) (x : Snapshot) (hx : x = .deleted → .deleteWorkflow ∈ v.ledger.marks) :
    Releasing {v with versions := v.versions ++ [x]} := by
  have hne : v.versions ++ [x] ≠ [] := by simp
  refine ⟨h.epilog, h.asked, h.replied, h.aborted, h.removed, h.inFlight, h.deleted, h.deleting, fun hd => ?_,
    fun _ _ => hne, fun _ _ => .inl hne⟩
  rcases List.mem_append.mp hd with hd | hd
  · exact h.vanished hd
  · exact hx (List.mem_singleton.mp hd).symm

/-- Whatever a request does, the release stays to come; a success of `dws.post_run` says
that there is a workflow to tear down or that the release was asked for. -/
theorem requested {cfg : Config} {o : Outcomes} {r : Rpc} {ok : Bool} {l : Ledger}
    (h : Releasing v) (hf : o.found = true → v.versions ≠ [])
    (ha : r = .abort → .finish ∈ v.job.epilogCalls) (hl : Requested cfg o v.ledger.fresh ok l r) :
    Releasing (v.absorb l) ∧ (r.isPostRun = true → ok = true →
      (v.absorb l).versions ≠ [] ∨ .epilogRemove ∈ (v.absorb l).ledger.marks) := by
  have hfresh : Releasing (v.absorb v.ledger.fresh) := by
    rw [View.absorb_fresh]
    exact h
  have hget : Releasing (v.absorb v.ledger.fresh.get) := by
    rw [View.absorb_get]
    exact hfresh.get
  cases r with
  | create failureTolerance =>
    refine ⟨?_, nofun⟩
    rcases hl with rfl | ⟨-, rfl | rfl⟩
    · exact hfresh
    · rw [View.absorb_mark]
      exact hfresh.mark .created nofun
    · rw [View.absorb_add, View.absorb_mark]
      exact (hfresh.mark .created nofun).add
  | setup nodelist =>
    refine ⟨?_, nofun⟩
    rcases hl with ⟨-, hm⟩ | ⟨-, rfl⟩
    · exact hget.moved hm
    · exact hfresh
  | postRun runStarted =>
    dsimp only [Requested] at hl
    cases ht : (v.ledger.fresh.get.flags v.ledger.fresh.getRef).toredown with
    | true =>
      rw [ht, if_pos rfl] at hl
      obtain ⟨-, rfl⟩ := hl
      refine ⟨hget, fun _ _ => .inl (v.absorb_versions_ne_nil _ ?_)⟩
      rcases v.ledger.fresh.flags_get v.ledger.fresh.getRef with hr | hr
      · rw [hr] at ht
        exact h.toredown _ ht
      · rw [hr] at ht
        cases ht
    | false =>
      rw [ht, if_neg Bool.false_ne_true] at hl
      cases runStarted with
      | true =>
        obtain ⟨hok, hm⟩ := hl
        refine ⟨hget.moved hm, fun _ h => .inl (v.absorb_versions_ne_nil _ (hf ?_))⟩
        rw [hok] at h
        exact (Bool.and_eq_true_iff.mp h).1
      | false =>
        refine ⟨hget.checked hl hf, fun _ h => ?_⟩
        rw [if_neg Bool.false_ne_true] at hl
        cases hl with
        | failed => cases h
        | tornDown hfound => exact .inl (v.absorb_versions_ne_nil _ (hf hfound))
        | released hfound =>
          rw [View.absorb_mark]
          exact .inr (List.mem_append_right _ (List.mem_singleton.mpr rfl))
  | teardown =>
    refine ⟨?_, nofun⟩
    rcases hl with ⟨-, rfl⟩ | ⟨_, hc⟩
    · exact hget
    · exact hget.checked hc hf
  | abort =>
    have habort : Releasing (v.absorb v.ledger.fresh.abort) := by
      unfold Ledger.abort
      rw [View.absorb_setFlags]
      exact hget.setFlags _ _ (fun _ => ha rfl) (hget.deleted _) (hget.toredown _)
    refine ⟨?_, nofun⟩
    rcases hl with ⟨-, rfl⟩ | ⟨_, hc⟩
    · exact habort
    · exact habort.checked hc hf

end Releasing

/-- A request to remove the epilog is delivered when the epilog has been started. -/
def RemovedInTime (s : System) : Action → Prop
  | .remove .epilog => s.job.epilogActive = true
  | _ => True

theorem releasing_step {cfg : Config} {timeout : Bool} {v v' : View} {a : Action} (h : Releasing v)
    (hs : View.Step cfg timeout v a v') (hc : a = .remove .epilog → v.job.epilogActive = true) :
    Releasing v' := by
  have hfound {o : Outcomes} (hf : o.found = (currentWorkflow v.versions).isSome) (ho : o.found = true) :
      v.versions ≠ [] := ne_nil_of_current (hf.symm.trans ho)
  have hkeep {e : Event} (hr : .epilogRemove ∈ v.ledger.marks) :
      .epilog ∈ v.removes ∨ .finish ∈ (e.apply timeout v.job).epilogCalls :=
    (h.inFlight hr).imp_right fun hc => finish_apply (.inl hc)
  cases hs with
  | job hm he =>
    exact h.event (fun _ => he) (finishes_of_not_message hm) v.looked (List.Subset.refl _) hkeep
  | lookup R calloc setup hl =>
    exact h.event (Event.enabled_of_message rfl) False.elim true (List.Subset.refl _) hkeep
  | reply hm he =>
    rename_i m e
    have hreply : e.isMessage = true ∧ (e.Finishes v.job → m.rpc.isPostRun = true) := by
      unfold Reply.event at he
      cases hr : m.rpc <;> rw [hr] at he <;> cases he
      · exact ⟨rfl, False.elim⟩
      · exact ⟨rfl, False.elim⟩
      · exact ⟨rfl, fun _ => rfl⟩
    exact h.event (Event.enabled_of_message hreply.1) (fun hf => h.replied m hm (hreply.2 hf)) v.looked
      List.erase_subset hkeep
  | unread hm he =>
    exact ⟨h.epilog, h.asked, fun m hm => h.replied m (List.mem_of_mem_erase hm), h.aborted, h.removed,
      h.inFlight, h.deleted, h.deleting, h.vanished, h.toredown, h.answered⟩
  | remove hr =>
    rename_i r
    cases r with
    | prolog =>
      refine h.event (Event.enabled_of_message rfl) False.elim v.looked (List.Subset.refl _) fun hr => ?_
      exact (hkeep hr).imp_left (List.mem_erase_of_ne (by decide)).mpr
    | epilog =>
      refine h.event (Event.enabled_of_message rfl) (fun _ => hc rfl) v.looked (List.Subset.refl _) fun _ => .inr ?_
      by_cases hs : v.job.state = .cleanup
      · exact finish_apply (.inr ⟨rfl, hs⟩)
      · exact finish_apply (.inl (h.epilog.finished (hc rfl) hs))
  | serve hr hf hl =>
    rename_i r o ok l
    have hsent : Releasing {v with
        rpcs := v.rpcs.erase r
        replies := v.replies ++ [Reply.mk r ok]} := by
      refine ⟨h.epilog, fun b hb => h.asked b (List.mem_of_mem_erase hb), fun m hm hp => ?_,
        fun ha => h.aborted (List.mem_of_mem_erase ha), h.removed, h.inFlight, h.deleted, h.deleting, h.vanished,
        h.toredown, h.answered⟩
      rcases List.mem_append.mp hm with hm | hm
      · exact h.replied m hm hp
      · rw [List.mem_singleton.mp hm] at hp
        cases r with
        | postRun b => exact h.asked b hr
        | _ => cases hp
    obtain ⟨hdone, hanswer⟩ := hsent.requested (hfound hf) (fun ha => h.aborted (ha ▸ hr)) hl
    refine ⟨hdone.epilog, hdone.asked, hdone.replied, hdone.aborted, hdone.removed, hdone.inFlight, hdone.deleted,
      hdone.deleting, hdone.vanished, hdone.toredown, fun b hb => ?_⟩
    rcases List.mem_append.mp hb with hb | hb
    · exact hdone.answered b hb
    · obtain ⟨rfl, rfl⟩ := Reply.mk.inj (List.mem_singleton.mp hb)
      exact hanswer rfl rfl
  | watch hn hf hl =>
    rename_i n o event l
    have hdrop := drop_ne_nil hn
    have hv : Releasing {v with versions := v.versions.drop n} :=
      ⟨h.epilog, h.asked, h.replied, h.aborted, h.removed, h.inFlight, h.deleted, h.deleting,
        fun hd => h.vanished (List.mem_of_mem_drop hd), fun _ _ => hdrop, fun _ _ => .inl hdrop⟩
    exact Releasing.noted (by rw [View.absorb_fresh]; exact hv) hl hdrop
  | timer href hf hl =>
    rcases hl with rfl | ⟨ok, hl⟩
    · rw [View.absorb_fresh]
      exact h
    · exact Releasing.checked (by rw [View.absorb_fresh]; exact h) hl (hfound hf)
  | killInTc hl =>
    rcases hl with rfl | rfl
    · rw [View.absorb_fresh]
      exact h
    · rw [View.absorb_get, View.absorb_fresh]
      exact h.get
  | status hw hd => exact h.append _ nofun
  | teardown hm hw => exact h.append _ nofun
  | vanish hm hw => exact h.append _ fun _ => hm

/-! ### The result -/

/-- An epilog that waits, with the end of the job reported, has its release to come: a
request to remove it is in flight, or there is a workflow whose teardown the service has
yet to see. -/
def System.NotStranded (s : System) : Prop :=
  s.job.EpilogPending → (∃ b, ⟨.postRun b, true⟩ ∈ s.answered) →
    .epilog ∈ s.removes ∨ (currentWorkflow s.versions).isSome = true ∧
      ∀ ref ∈ s.service.cache, (s.service.winfos ref).deleted = false

theorem notStranded_of_releasing {s : System} (h : Releasing s.view) : s.NotStranded := by
  intro hpending ⟨b, hb⟩
  have hcalls : s.job.epilogCalls = [.start] := h.epilog.pending hpending
  have hunfinished : .finish ∉ s.job.epilogCalls := by rw [hcalls]; decide
  by_cases hr : .epilogRemove ∈ s.view.ledger.marks
  · exact .inl ((h.inFlight hr).resolve_right hunfinished)
  have hno : ¬ s.view.Released := fun h => h.elim hr hunfinished
  refine .inr ⟨?_, fun ref _ => ?_⟩
  · exact current_isSome ((h.answered b hb).resolve_right hr) fun hd => hno (h.deleting (h.vanished hd))
  · rw [← Bool.not_eq_true]
    exact fun hd => hno (h.deleted ref hd)

/-- **No epilog is stranded** in a run whose requests to remove it come after its start. -/
theorem pending_released (cfg : Config) (timeout : Bool) (actions : List Action)
    (h : (systemMachine cfg timeout).Legal RemovedInTime (systemMachine cfg timeout).init actions) :
    (systemMachine cfg timeout).Always System.NotStranded (systemMachine cfg timeout).init actions :=
  Machine.always_from (C := RemovedInTime) (fun s => Releasing s.view) (fun _ => notStranded_of_releasing)
    (fun s a hs he hc => releasing_step hs (view_next cfg timeout s a he) fun ha => by subst ha; exact hc)
    releasing_init h

instance (s : System) (a : Action) : Decidable (RemovedInTime s a) := by
  unfold RemovedInTime
  split <;> infer_instance

instance (j : Job) : Decidable j.EpilogPending := inferInstanceAs (Decidable (_ = _))

instance (s : System) : Decidable s.NotStranded := by
  unfold System.NotStranded
  infer_instance

/-- The service fails to handle an event while the job runs: it tears the workflow down
and raises an exception. The workflow is gone before the tasks are. -/
def removedWhileRunning : List Action := running ++
  [.watch 0 {raises := fun site => if site = .jobEnvironment then some .other else none},
    .job (.exception 0 (some "exception") true), .job (.cleanupCb {}), .teardown,
    .status (complete .teardown), .watch 2 {}, .remove .epilog, .job .finish, .job (.finishCb {}),
    .serve (.postRun true) {}]

set_option maxRecDepth 4000 in
theorem removedWhileRunning_stranded :
    (systemMachine nodeConfig false).Possible (systemMachine nodeConfig false).init removedWhileRunning ∧
      ¬ (systemMachine nodeConfig false).Always System.NotStranded (systemMachine nodeConfig false).init
        removedWhileRunning := by
  refine ⟨by decide, fun h => absurd h.last (by decide)⟩

set_option maxRecDepth 4000 in
theorem completed_released : (systemMachine nodeConfig false).Always System.NotStranded
    (systemMachine nodeConfig false).init completed :=
  pending_released nodeConfig false completed (by decide)

end FluxCoral2.Dws
