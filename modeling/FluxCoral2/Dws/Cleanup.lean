import FluxCoral2.Library.Prog

/-! Releasing a workflow that is to be deleted (`cleanup.py`).

The Kubernetes server holds a workflow object with its finalizer list; any call to
it may fail, with no effect. `delete_workflow_coro` is handed a copy of the object,
takes the Flux finalizer off, asks for the deletion, and starts over on a failure.

`_remove_finalizer` takes the finalizer off the copy in memory before it patches the
server, and does nothing for a copy that lacks it. So only the first round can
release the workflow: `released_iff_first_round`. -/
namespace FluxCoral2.Dws.Cleanup
open Library

def finalizer : String := "flux-framework.readthedocs.io/workflow"

/-- A `metadata.finalizers` list. `create_cb` lists the Flux finalizer once, and no one
adds it again. -/
structure Finalizers where
  names : List String
  once : names.count finalizer ≤ 1
  deriving DecidableEq

def Finalizers.Has (f : Finalizers) : Prop := finalizer ∈ f.names

instance (f : Finalizers) : Decidable f.Has := inferInstanceAs (Decidable (_ ∈ _))

/-- `list.remove`, of the Flux finalizer. -/
def Finalizers.remove (f : Finalizers) : Finalizers :=
  ⟨f.names.erase finalizer, Nat.le_trans (List.erase_sublist.count_le _) f.once⟩

theorem Finalizers.not_has_remove (f : Finalizers) : ¬ f.remove.Has := by
  have h := f.once
  show ¬ finalizer ∈ f.names.erase finalizer
  rw [← List.count_pos_iff, List.count_erase_self]
  omega

/-! ### The server -/

/-- The workflow on the server; `deleting` once a deletion was accepted. -/
structure WorkflowObject where
  finalizers : Finalizers
  deleting : Bool
  deriving DecidableEq

/-- An object to be deleted goes away with its last finalizer. -/
def WorkflowObject.settle (obj : WorkflowObject) : Option WorkflowObject :=
  if obj.deleting ∧ obj.finalizers.names = [] then none else some obj

inductive Request
  | get
  | patchFinalizers (finalizers : Finalizers)
  | delete
  deriving DecidableEq

/-- How a call fails when the object is there. -/
inductive Failure
  | api (status : Nat) (found : status ≠ 404)
  | connection
  deriving DecidableEq

/-- Whether, and how, the call of a given number fails. -/
abbrev Api := Nat → Request → Option WorkflowObject → Option Failure

inductive Exn
  | apiException (status : Nat)
  | connectionError
  deriving DecidableEq

def Failure.exn : Failure → Exn
  | .api status _ => .apiException status
  | .connection => .connectionError

/-- The copies of the workflow in memory: the one handed to the coroutine, and the one
that `remove_finalizer` reads again. -/
inductive Copy | handed | reread
  deriving DecidableEq

structure World where
  object : Option WorkflowObject
  calls : Nat
  copies : Copy → Finalizers

abbrev Call := Prog Exn World

/-- Number a call, and fail it if it is to fail. -/
def callServer (api : Api) (r : Request) : Call WorkflowObject := do
  let w ← get
  set {w with calls := w.calls + 1}
  match api w.calls r w.object with
  | some failure => throw failure.exn
  | none =>
    match w.object with
    | none => throw (.apiException 404)
    | some obj => pure obj

def getNamespacedCustomObject (api : Api) : Call Unit := do
  let obj ← callServer api .get
  modify fun w => {w with copies := fun c => if c = .reread then obj.finalizers else w.copies c}

def patchNamespacedCustomObject (api : Api) (finalizers : Finalizers) : Call Unit := do
  let obj ← callServer api (.patchFinalizers finalizers)
  modify fun w => {w with object := {obj with finalizers := finalizers}.settle}

def deleteNamespacedCustomObject (api : Api) : Call Unit := do
  let obj ← callServer api .delete
  modify fun w => {w with object := {obj with deleting := true}.settle}

/-! ### `cleanup.py` -/

def _removeFinalizer (api : Api) (workflow : Copy) : Call Unit := do
  let w ← get
  if (w.copies workflow).Has then
    -- the list is edited in place, whatever becomes of the patch
    let removed := (w.copies workflow).remove
    set {w with copies := fun c => if c = workflow then removed else w.copies c}
    patchNamespacedCustomObject api removed

def removeFinalizer (api : Api) (workflow : Copy) : Call Unit :=
  tryCatch (_removeFinalizer api workflow) fun e =>
    match e with
    | .apiException _ => do
      getNamespacedCustomObject api
      _removeFinalizer api .reread
    | .connectionError => throw e

inductive Exit | deleted | notFound
  deriving DecidableEq

/-- One round of the loop of `delete_workflow_coro`. -/
def deleteRound (api : Api) : Call (Option Exit) :=
  tryCatch (do
    removeFinalizer api .handed
    deleteNamespacedCustomObject api
    pure (some .deleted)) fun e =>
    if e = .apiException 404 then pure (some .notFound) else pure none

/-- `delete_workflow_coro`, for so many rounds at most: how it returned, if it did. -/
def deleteWorkflowCoro (api : Api) : Nat → Call (Option Exit)
  | 0 => pure none
  | fuel + 1 => do
    match ← deleteRound api with
    | some exit => pure (some exit)
    | none => deleteWorkflowCoro api fuel

/-! ### What a call does -/

variable (api : Api) {w : World} {obj : WorkflowObject}

theorem exec_callServer (r : Request) (h : w.object = some obj) :
    Prog.exec (callServer api r) w = match api w.calls r (some obj) with
      | some failure => (.error failure.exn, {w with calls := w.calls + 1})
      | none => (.ok obj, {w with calls := w.calls + 1}) := by
  simp only [callServer, Prog.exec_bind, Prog.exec_get, Prog.exec_set, h]
  cases api w.calls r (some obj) <;> rfl

theorem exec_get (h : w.object = some obj) :
    Prog.exec (getNamespacedCustomObject api) w = match api w.calls .get (some obj) with
      | some failure => (.error failure.exn, {w with calls := w.calls + 1})
      | none => (.ok (), {w with
          calls := w.calls + 1
          copies := fun c => if c = .reread then obj.finalizers else w.copies c}) := by
  rw [getNamespacedCustomObject, Prog.exec_bind, exec_callServer api _ h]
  cases api w.calls .get (some obj) <;> rfl

theorem exec_patch (finalizers : Finalizers) (h : w.object = some obj) :
    Prog.exec (patchNamespacedCustomObject api finalizers) w =
      match api w.calls (.patchFinalizers finalizers) (some obj) with
      | some failure => (.error failure.exn, {w with calls := w.calls + 1})
      | none => (.ok (), {w with
          calls := w.calls + 1
          object := {obj with finalizers := finalizers}.settle}) := by
  rw [patchNamespacedCustomObject, Prog.exec_bind, exec_callServer api _ h]
  cases api w.calls (.patchFinalizers finalizers) (some obj) <;> rfl

theorem exec_delete (h : w.object = some obj) :
    Prog.exec (deleteNamespacedCustomObject api) w = match api w.calls .delete (some obj) with
      | some failure => (.error failure.exn, {w with calls := w.calls + 1})
      | none => (.ok (), {w with
          calls := w.calls + 1
          object := {obj with deleting := true}.settle}) := by
  rw [deleteNamespacedCustomObject, Prog.exec_bind, exec_callServer api _ h]
  cases api w.calls .delete (some obj) <;> rfl

theorem exec_delete_absent (h : w.object = none) : ∃ e,
    Prog.exec (deleteNamespacedCustomObject api) w = (.error e, {w with calls := w.calls + 1}) := by
  simp only [deleteNamespacedCustomObject, callServer, Prog.exec_bind, Prog.exec_get, Prog.exec_set, h]
  cases api w.calls .delete none with
  | none => exact ⟨_, rfl⟩
  | some failure => exact ⟨_, rfl⟩

theorem exec_removeOnce (c : Copy) (hc : (w.copies c).Has) :
    Prog.exec (_removeFinalizer api c) w = Prog.exec (patchNamespacedCustomObject api (w.copies c).remove)
      {w with copies := fun c' => if c' = c then (w.copies c).remove else w.copies c'} := by
  rw [_removeFinalizer, Prog.exec_bind_ok (Prog.exec_get w), if_pos hc]
  exact Prog.exec_bind_ok (Prog.exec_set _ _) _

/-- A copy without the finalizer is left alone, and so is the server. -/
theorem exec_remove_absent (hc : ¬ (w.copies .handed).Has) :
    Prog.exec (removeFinalizer api .handed) w = (.ok (), w) := by
  refine Prog.exec_tryCatch_ok ?_ _
  rw [_removeFinalizer, Prog.exec_bind_ok (Prog.exec_get w), if_neg hc]
  rfl

/-! ### The first round -/

/-- The Flux finalizer is not on the server object. -/
def World.Released (w : World) : Prop := ∀ obj, w.object = some obj → ¬ obj.finalizers.Has

theorem WorkflowObject.settle_eq_some {o : WorkflowObject} (h : obj.settle = some o) : o = obj := by
  unfold WorkflowObject.settle at h
  split at h
  · cases h
  · exact (Option.some.inj h).symm

theorem WorkflowObject.settle_of_has (h : obj.finalizers.Has) : obj.settle = some obj := by
  refine if_neg fun hgone => ?_
  rw [Finalizers.Has, hgone.2] at h
  cases h

/-- The patch of the first round is accepted, or is refused by the server and then, on
the copy read again, accepted. -/
def PatchAccepted (api : Api) (copy : Finalizers) (obj : WorkflowObject) : Prop :=
  match api 0 (.patchFinalizers copy.remove) (some obj) with
  | none => True
  | some .connection => False
  | some (.api _ _) => api 1 .get (some obj) = none ∧
      api 2 (.patchFinalizers obj.finalizers.remove) (some obj) = none

/-- The number of calls the first round makes for its patch. -/
def patchCalls (api : Api) (copy : Finalizers) (obj : WorkflowObject) : Nat :=
  if copy.Has then
    match api 0 (.patchFinalizers copy.remove) (some obj) with
    | none => 1
    | some .connection => 1
    | some (.api _ _) => if api 1 .get (some obj) = none then 3 else 2
  else 0

/-- A workflow object on the server, and a copy of it handed to the coroutine. -/
def start (copy : Finalizers) (obj : WorkflowObject) : World := ⟨some obj, 0, fun _ => copy⟩

theorem released_of_patched {finalizers : Finalizers} (hf : ¬ finalizers.Has)
    (h : w.object = {obj with finalizers := finalizers}.settle) : w.Released := by
  intro o ho
  rw [h] at ho
  rw [WorkflowObject.settle_eq_some ho]
  exact hf

theorem exec_remove_first {copy : Finalizers} (hF : obj.finalizers.Has) (hc : copy.Has) :
    ∃ r w', Prog.exec (removeFinalizer api .handed) (start copy obj) = (r, w') ∧
      ¬ (w'.copies .handed).Has ∧
      (PatchAccepted api copy obj ∧ r = .ok () ∧ w'.Released ∨
        ¬ PatchAccepted api copy obj ∧ (∃ f : Failure, r = .error f.exn) ∧
          w'.object = some obj ∧ w'.calls = patchCalls api copy obj) := by
  have hgone := copy.not_has_remove
  have hfirst := exec_removeOnce api (w := start copy obj) .handed hc
  rw [exec_patch api _ rfl] at hfirst
  unfold PatchAccepted patchCalls
  rw [if_pos hc]
  cases hpatch : api 0 (.patchFinalizers copy.remove) (some obj) with
  | none =>
    rw [show (start copy obj).copies .handed = copy from rfl] at hfirst
    simp only [start, hpatch] at hfirst
    exact ⟨_, _, Prog.exec_tryCatch_ok hfirst _, hgone, .inl ⟨trivial, rfl, released_of_patched hgone rfl⟩⟩
  | some failure =>
    simp only [start, hpatch] at hfirst
    have hcaught := Prog.exec_tryCatch_error hfirst fun e => match e with
      | .apiException _ => do
        getNamespacedCustomObject api
        _removeFinalizer api .reread
      | .connectionError => throw e
    cases failure with
    | connection => exact ⟨_, _, hcaught, hgone, .inr ⟨id, ⟨.connection, rfl⟩, rfl, rfl⟩⟩
    | api status found =>
      rw [show Failure.exn (.api status found) = .apiException status from rfl] at hcaught
      dsimp only at hcaught
      rw [Prog.exec_bind, exec_get api rfl] at hcaught
      cases hget : api 1 .get (some obj) with
      | some failure =>
        rw [hget] at hcaught
        refine ⟨_, _, hcaught, hgone, .inr ⟨?_, ⟨failure, rfl⟩, rfl, rfl⟩⟩
        simp
      | none =>
        rw [hget] at hcaught
        dsimp only at hcaught
        rw [exec_removeOnce api .reread hF, exec_patch api _ rfl] at hcaught
        have hgone' := obj.finalizers.not_has_remove
        cases hagain : api 2 (.patchFinalizers obj.finalizers.remove) (some obj) with
        | none =>
          simp only [if_pos, hagain] at hcaught
          exact ⟨_, _, hcaught, hgone, .inl ⟨⟨rfl, rfl⟩, rfl, released_of_patched hgone' rfl⟩⟩
        | some failure =>
          simp only [if_pos, hagain] at hcaught
          refine ⟨_, _, hcaught, hgone, .inr ⟨?_, ⟨failure, rfl⟩, rfl, rfl⟩⟩
          simp

/-! ### The later rounds

The copy has lost the finalizer, and each round only asks for the deletion. -/

theorem Failure.exn_found (failure : Failure) : failure.exn ≠ .apiException 404 := by
  cases failure with
  | api status found =>
    intro h
    exact found (Exn.apiException.inj h)
  | connection => exact Exn.noConfusion

theorem exec_round_of_failed {w' : World} {e : Exn}
    (h : Prog.exec (removeFinalizer api .handed) w = (.error e, w')) (he : e ≠ .apiException 404) :
    Prog.exec (deleteRound api) w = (.ok none, w') := by
  rw [deleteRound, Prog.exec_tryCatch_error (Prog.exec_bind_error h _), if_neg he]
  rfl

/-- With the finalizer off the copy, a round is the deletion. -/
theorem exec_round_of_removed {w' : World}
    (h : Prog.exec (removeFinalizer api .handed) w = (.ok (), w')) (ho : w'.object = some obj) :
    Prog.exec (deleteRound api) w = match api w'.calls .delete (some obj) with
      | some _ => (.ok none, {w' with calls := w'.calls + 1})
      | none => (.ok (some .deleted), {w' with
          calls := w'.calls + 1
          object := {obj with deleting := true}.settle}) := by
  rw [deleteRound, Prog.exec_tryCatch, Prog.exec_bind_ok h, Prog.exec_bind, exec_delete api ho]
  cases api w'.calls .delete (some obj) with
  | none => rfl
  | some failure =>
    dsimp only
    rw [if_neg failure.exn_found]
    rfl

theorem exec_round_of_absent {w' : World}
    (h : Prog.exec (removeFinalizer api .handed) w = (.ok (), w')) (ho : w'.object = none) :
    ∃ r, Prog.exec (deleteRound api) w = (.ok r, {w' with calls := w'.calls + 1}) := by
  obtain ⟨e, he⟩ := exec_delete_absent api ho
  rw [deleteRound, Prog.exec_tryCatch, Prog.exec_bind_ok h, Prog.exec_bind_error he]
  dsimp only
  split
  · exact ⟨_, rfl⟩
  · exact ⟨_, rfl⟩

/-- A round that follows the removal keeps the workflow released. -/
theorem round_released {w' : World}
    (h : Prog.exec (removeFinalizer api .handed) w = (.ok (), w')) (hw : w'.Released) :
    ∃ r w'', Prog.exec (deleteRound api) w = (.ok r, w'') ∧ w''.Released ∧ w''.copies = w'.copies := by
  cases ho : w'.object with
  | none =>
    obtain ⟨r, hr⟩ := exec_round_of_absent api h ho
    exact ⟨_, _, hr, hw, rfl⟩
  | some obj =>
    have hround := exec_round_of_removed api h ho
    cases hd : api w'.calls .delete (some obj) with
    | some failure =>
      rw [hd] at hround
      exact ⟨_, _, hround, hw, rfl⟩
    | none =>
      rw [hd] at hround
      refine ⟨_, _, hround, fun o hsettle => ?_, rfl⟩
      rw [WorkflowObject.settle_eq_some hsettle]
      exact hw obj ho

theorem rounds_released (fuel : Nat) (hc : ¬ (w.copies .handed).Has) (hw : w.Released) :
    (Prog.exec (deleteWorkflowCoro api fuel) w).2.Released := by
  induction fuel generalizing w with
  | zero => exact hw
  | succ fuel ih =>
    obtain ⟨r, w', hround, hw', hcopies⟩ := round_released api (exec_remove_absent api hc) hw
    rw [deleteWorkflowCoro, Prog.exec_bind_ok hround]
    cases r with
    | some exit => exact hw'
    | none => exact ih (by rwa [hcopies]) hw'

/-- While the finalizer is on the object and off the copy, nothing takes it off the object,
and the coroutine returns with the first deletion that is accepted. -/
theorem rounds_held (fuel : Nat) (hc : ¬ (w.copies .handed).Has) (ho : w.object = some obj)
    (hF : obj.finalizers.Has) :
    ∃ r w', Prog.exec (deleteWorkflowCoro api fuel) w = (.ok r, w') ∧ ¬ w'.Released ∧
      (r = some .deleted ↔ ∃ i < fuel, api (w.calls + i) .delete (some obj) = none) := by
  induction fuel generalizing w with
  | zero => exact ⟨_, _, rfl, fun h => h obj ho hF, by simp⟩
  | succ fuel ih =>
    have hround := exec_round_of_removed api (exec_remove_absent api hc) ho
    cases hd : api w.calls .delete (some obj) with
    | none =>
      rw [hd] at hround
      rw [deleteWorkflowCoro, Prog.exec_bind_ok hround]
      refine ⟨_, _, rfl, fun h => h {obj with deleting := true} ?_ hF, fun _ => ⟨0, by omega, hd⟩, fun _ => rfl⟩
      exact WorkflowObject.settle_of_has hF
    | some failure =>
      rw [hd] at hround
      rw [deleteWorkflowCoro, Prog.exec_bind_ok hround]
      obtain ⟨r, w', hrest, hheld, hiff⟩ := ih (w := {w with calls := w.calls + 1}) hc ho
      refine ⟨r, w', hrest, hheld, hiff.trans ⟨fun ⟨i, hi, h⟩ => ?_, fun ⟨i, hi, h⟩ => ?_⟩⟩
      · refine ⟨i + 1, by omega, ?_⟩
        rwa [show w.calls + (i + 1) = w.calls + 1 + i by omega]
      · cases i with
        | zero =>
          rw [Nat.add_zero, hd] at h
          cases h
        | succ i =>
          refine ⟨i, by omega, ?_⟩
          show api (w.calls + 1 + i) .delete (some obj) = none
          rwa [show w.calls + 1 + i = w.calls + (i + 1) by omega]

/-! ### Deletion releases the workflow -/

/-- If the coroutine returns, and not because the workflow was not found, then the Flux
finalizer is off the server object. -/
def ReleasedOnReturn (api : Api) (copy : Finalizers) (obj : WorkflowObject) : Prop :=
  ∀ fuel, (Prog.exec (deleteWorkflowCoro api fuel) (start copy obj)).1 = .ok (some .deleted) →
    (Prog.exec (deleteWorkflowCoro api fuel) (start copy obj)).2.Released

/-- No deletion asked for after the patch of the first round is ever accepted. -/
def NeverDeleted (api : Api) (copy : Finalizers) (obj : WorkflowObject) : Prop :=
  ∀ n, patchCalls api copy obj ≤ n → api n .delete (some obj) ≠ none

theorem not_returned_zero :
    (Prog.exec (deleteWorkflowCoro api 0) w).1 ≠ .ok (some .deleted) := by
  intro h
  cases show (none : Option Exit) = some .deleted from Except.ok.inj h

theorem released_of_accepted {copy : Finalizers} (hF : obj.finalizers.Has) (hc : copy.Has)
    (hp : PatchAccepted api copy obj) : ReleasedOnReturn api copy obj := by
  intro fuel hret
  cases fuel with
  | zero => exact absurd hret (not_returned_zero api)
  | succ fuel =>
    obtain ⟨r, w', hremove, hgone, ⟨_, rfl, hrel⟩ | ⟨hn, _⟩⟩ := exec_remove_first api hF hc
    · obtain ⟨exit, w'', hround, hrel', hcopies⟩ := round_released api hremove hrel
      rw [deleteWorkflowCoro, Prog.exec_bind_ok hround]
      cases exit with
      | some exit => exact hrel'
      | none => exact rounds_released api fuel (by rwa [hcopies]) hrel'
    · exact absurd hp hn

/-- Where the first round fails to release the workflow, the coroutine releases it in no
round, and returns with the first deletion that is accepted. -/
theorem rounds_of_not_accepted {copy : Finalizers} (hF : obj.finalizers.Has)
    (hp : ¬ (copy.Has ∧ PatchAccepted api copy obj)) (fuel : Nat) :
    ∃ r w', Prog.exec (deleteWorkflowCoro api (fuel + 1)) (start copy obj) = (.ok r, w') ∧
      ((∃ i < fuel, api (patchCalls api copy obj + i) .delete (some obj) = none) →
        r = some .deleted) ∧
      (r = some .deleted → ¬ w'.Released ∧ ¬ NeverDeleted api copy obj) := by
  by_cases hc : copy.Has
  · obtain ⟨r, w', hremove, hgone, ⟨hp', _⟩ | ⟨_, ⟨failure, rfl⟩, ho, hcalls⟩⟩ :=
      exec_remove_first api hF hc
    · exact absurd ⟨hc, hp'⟩ hp
    · have hround := exec_round_of_failed api hremove failure.exn_found
      obtain ⟨r, w'', hrest, hheld, hiff⟩ := rounds_held api fuel hgone ho hF
      rw [hcalls] at hiff
      rw [deleteWorkflowCoro, Prog.exec_bind_ok hround]
      refine ⟨r, w'', hrest, hiff.mpr, fun hr => ⟨hheld, fun hnever => ?_⟩⟩
      obtain ⟨i, _, hi⟩ := hiff.mp hr
      exact hnever _ (Nat.le_add_right _ i) hi
  · have hcalls : patchCalls api copy obj = 0 := if_neg hc
    obtain ⟨r, w', hrun, hheld, hiff⟩ := rounds_held api (w := start copy obj) (fuel + 1) hc rfl hF
    refine ⟨r, w', hrun, fun ⟨i, hi, h⟩ => hiff.mpr ⟨i, by omega, ?_⟩, fun hr => ⟨hheld, fun hnever => ?_⟩⟩
    · rwa [hcalls] at h
    · obtain ⟨i, _, hi⟩ := hiff.mp hr
      exact hnever _ (by omega) hi

/-- **Deletion releases the workflow exactly when the first round does**, unless the
coroutine never returns. -/
theorem released_iff_first_round (api : Api) (copy : Finalizers) (obj : WorkflowObject)
    (hF : obj.finalizers.Has) : ReleasedOnReturn api copy obj ↔
      copy.Has ∧ PatchAccepted api copy obj ∨ NeverDeleted api copy obj := by
  refine ⟨fun hrel => ?_, fun h => ?_⟩
  · by_cases hp : copy.Has ∧ PatchAccepted api copy obj
    · exact .inl hp
    · refine .inr fun n hn hd => ?_
      obtain ⟨r, w', hrun, hreturns, hheld⟩ :=
        rounds_of_not_accepted api hF hp (n - patchCalls api copy obj + 1)
      have hr := hreturns ⟨n - patchCalls api copy obj, by omega, by
        rwa [Nat.add_sub_cancel' hn]⟩
      have hw' := hrel (n - patchCalls api copy obj + 1 + 1)
      rw [hrun, hr] at hw'
      exact (hheld hr).1 (hw' rfl)
  · rcases h with ⟨hc, hp⟩ | hnever
    · exact released_of_accepted api hF hc hp
    · by_cases hp : copy.Has ∧ PatchAccepted api copy obj
      · exact released_of_accepted api hF hp.1 hp.2
      · intro fuel hret
        cases fuel with
        | zero => exact absurd hret (not_returned_zero api)
        | succ fuel =>
          obtain ⟨r, w', hrun, _, hheld⟩ := rounds_of_not_accepted api hF hp fuel
          rw [hrun] at hret
          exact absurd hnever (hheld (Except.ok.inj hret)).2

/-- The Flux finalizer and one of another controller. -/
def created : Finalizers := ⟨[finalizer, "nnf.cray.hpe.com/finalizer"], by decide⟩

/-- The connection drops at the first call, and every later call succeeds. -/
def droppedOnce : Api := fun n _ _ => if n = 0 then some .connection else none

theorem dropped_patch_not_released : ¬ ReleasedOnReturn droppedOnce created ⟨created, false⟩ := by
  intro h
  have hheld := h 2 (by decide)
  exact hheld ⟨created, true⟩ (by decide) (by decide)

/-- A refused patch is made again on the copy read again. -/
theorem refused_patch_released :
    ReleasedOnReturn (fun n _ _ => if n = 0 then some (.api 422 (by decide)) else none)
      created ⟨created, false⟩ :=
  (released_iff_first_round _ created ⟨created, false⟩ (by decide)).mpr
    (.inl ⟨by decide, And.intro rfl rfl⟩)

end FluxCoral2.Dws.Cleanup
