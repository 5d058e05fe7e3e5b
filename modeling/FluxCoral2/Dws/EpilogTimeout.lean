import FluxCoral2.Dws.EpilogRelease

/-! The timeout of the epilog (`epilog_timeout_cb`).

A timer is started with the epilog, and nothing stops it. When it expires, the callback asks
only whether the job is in CLEANUP, where other epilogs may keep it long after its own was
finished. The exception then has the service drain the nodes and disable the rabbits of a
job that ended cleanly (`expiredAfterRemoval_late`). `timeout_iff_timely`: what it takes is
that the timer expires while the epilog is active, or after the job has left CLEANUP. -/
namespace FluxCoral2.Dws.Jobtap
open Library

/-- The request of the service has finished the epilog: all other callbacks finish it with
another status. -/
def Job.Removed (j : Job) : Prop := List.Sublist [.epilogStart, .epilogFinish 0] j.calls

/-- Whether an exception of the timer was raised without an active epilog, and whether the
service was told to abort a job whose epilog it had removed. -/
structure Notes where
  late : Bool := false
  aborted : Bool := false
  deriving DecidableEq

def Event.isTimer : Event → Bool
  | .epilogTimer => true
  | _ => false

def Event.isException : Event → Bool
  | .exception .. => true
  | _ => false

instance (j : Job) : Decidable j.Removed := inferInstanceAs (Decidable (List.Sublist _ _))

def Notes.see (n : Notes) (j : Job) (e : Event) (j' : Job) : Notes where
  late := n.late ||
    (e.isTimer && j'.calls = j.calls ++ [.raiseException epilogAbortException 0] && !decide j.EpilogPending)
  aborted := n.aborted || (j.rpcs.count .abort < j'.rpcs.count .abort && decide j.Removed)

/-- The plugin, with what is noted of its run. -/
def timedMachine (timeout : Bool) : Machine (Job × Notes) Event := (jobtapMachine timeout).observed {} Notes.see

/-- The timer has raised its exception only on an active epilog, and no job was aborted whose
epilog the service had removed. -/
def OnlyActive (s : Job × Notes) : Prop := s.2.late = false ∧ s.2.aborted = false

/-- The timer expires on an active epilog or on a job that is not in CLEANUP, and the
exception for it is not raised on a job whose epilog the service has removed. -/
def Timely (j : Job) : Event → Prop
  | .epilogTimer => j.state = .cleanup → j.EpilogPending
  | .exception severity type sent => (Event.exception severity type sent).Finishes j → ¬ j.Removed
  | _ => True

variable {timeout : Bool} {j : Job}

theorem raised_iff (e : Event) :
    (e.isTimer && (e.apply timeout j).calls = j.calls ++ [.raiseException epilogAbortException 0]) = true ↔
      e.isTimer = true ∧ j.state = .cleanup := by
  cases e with
  | epilogTimer =>
    show (true && decide ((epilogTimeoutCb j).calls = _)) = true ↔ _
    unfold epilogTimeoutCb Job.call
    by_cases hs : j.state = .cleanup <;> simp [hs, Event.isTimer]
  | _ => simp [Event.isTimer]

/-- `dws.abort` is sent by an exception that finishes the epilog. -/
theorem abort_mem_iff (timeout : Bool) (e : Event) :
    .rpc .abort ∈ e.calls timeout j ↔ e.isException = true ∧ e.Finishes j := by
  constructor
  · intro h
    obtain ⟨sent, rfl, hp, ha, hsent⟩ := Event.sentBy j h
    exact ⟨rfl, rfl, hp, ha, rfl, hsent⟩
  · rintro ⟨hexception, hfinishes⟩
    cases e with
    | exception severity type sent =>
      obtain ⟨hs, hp, ha, ht, hsent⟩ := hfinishes
      show Call.rpc .abort ∈ if _ then _ else _
      rw [if_pos (And.intro hs ⟨hp, ha, hsent⟩), if_pos ht]
      exact List.mem_cons_self
    | _ => cases hexception

theorem aborts_iff (timeout : Bool) (e : Event) : j.rpcs.count .abort < (e.apply timeout j).rpcs.count .abort ↔
    e.isException = true ∧ e.Finishes j := by
  rw [← abort_mem_iff timeout, ← mem_rpcs, Job.rpcs_eq, Job.rpcs_eq, loud_apply, List.filterMap_append,
    List.count_append, ← List.count_pos_iff]
  omega

theorem timely_iff {e : Event} :
    Timely j e ↔ (e.isTimer = true → j.state = .cleanup → j.EpilogPending) ∧
      (e.isException = true ∧ e.Finishes j → ¬ j.Removed) := by
  cases e <;> simp [Event.isTimer, Event.isException, Timely]

theorem see_clean_iff (timeout : Bool) (j : Job) (e : Event) {n : Notes} (h : OnlyActive (j, n)) :
    OnlyActive (e.apply timeout j, n.see j e (e.apply timeout j)) ↔ Timely j e := by
  obtain ⟨hlate, haborted⟩ := h
  have hfirst : (n.see j e (e.apply timeout j)).late = false ↔
      (e.isTimer = true → j.state = .cleanup → j.EpilogPending) := by
    unfold Notes.see
    rw [show n.late = false from hlate, Bool.false_or, Bool.and_eq_false_iff, ← Bool.not_eq_true, raised_iff]
    simp
    tauto
  have hsecond : (n.see j e (e.apply timeout j)).aborted = false ↔
      (e.isException = true ∧ e.Finishes j → ¬ j.Removed) := by
    unfold Notes.see
    rw [show n.aborted = false from haborted, ← aborts_iff timeout]
    simp
  unfold OnlyActive
  rw [hfirst, hsecond, timely_iff]

/-- **The timeout is raised on an active epilog only**, and no job is aborted whose epilog was
removed, exactly in the runs in which each step is timely. -/
theorem timeout_iff_timely (timeout : Bool) (events : List Event)
    (hp : (jobtapMachine timeout).Possible (jobtapMachine timeout).init events) :
    (timedMachine timeout).Always OnlyActive (timedMachine timeout).init events ↔
      (jobtapMachine timeout).Legal Timely (jobtapMachine timeout).init events := by
  exact Machine.observed_always_iff_legal (fun _ => True) (fun _ _ _ _ _ _ => trivial)
    (fun j n e _ h _ => see_clean_iff timeout j e h) trivial ⟨rfl, rfl⟩ hp

/-- The tasks finish and the service removes the epilog. Then the timer expires, while
another plugin still has the job in CLEANUP. -/
def expiredAfterRemoval : List Event :=
  removedAfterFinish ++ [.epilogTimer, .exception 0 (some epilogAbortException) true]

instance (s : Job × Notes) : Decidable (OnlyActive s) := inferInstanceAs (Decidable (_ ∧ _))

instance (j : Job) (e : Event) : Decidable (Timely j e) := decidable_of_decidable_of_iff timely_iff.symm

theorem expiredAfterRemoval_late :
    (jobtapMachine true).Possible (jobtapMachine true).init expiredAfterRemoval ∧
      ¬ (timedMachine true).Always OnlyActive (timedMachine true).init expiredAfterRemoval := by
  decide

theorem expired_in_time : (timedMachine true).Always OnlyActive (timedMachine true).init
    (removedAfterFinish ++ [.inactive, .epilogTimer]) :=
  (timeout_iff_timely true _ (by decide)).mpr (by decide)

end FluxCoral2.Dws.Jobtap
