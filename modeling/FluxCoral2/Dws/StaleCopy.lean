import Mathlib.Data.List.Chain
import Mathlib.Data.Nat.Find
import FluxCoral2.Dws.Cleanup

/-! Patching the finalizers of a workflow from a copy (`cleanup.py`).

Other controllers take their finalizers off a workflow too, so a copy may list one that
the object lacks by now. The server reads a patch with such a list as an attempt to add a
finalizer, and refuses it with 422: here its object is another at each call, as the others
leave it.

`remove_finalizer` reads the workflow again before its second attempt.
`teardown_workflow_coro` makes every attempt with the list it was handed, so it goes on
being refused while the object stays as it is: `one_refusal_iff`. -/
namespace FluxCoral2.Dws.StaleCopy
open Library Cleanup

/-! ### The server -/

/-- The finalizers of the workflow at each call, if there is a workflow. -/
abbrev Server := Nat → Option Finalizers

/-- What a patch asks for; `teardown` is the desired state. -/
structure Patch where
  teardown : Bool
  finalizers : Finalizers
  deriving DecidableEq

inductive Response | accepted | refused | notFound
  deriving DecidableEq

def Patch.response (patch : Patch) (object : Option Finalizers) : Response :=
  match object with
  | none => .notFound
  | some current => if patch.finalizers.names ⊆ current.names then .accepted else .refused

/-- A patch that was sent. -/
structure Attempt where
  call : Nat
  patch : Patch
  response : Response
  deriving DecidableEq

structure World where
  calls : Nat := 0
  attempts : List Attempt := []

abbrev Call := Prog Exn World

def getNamespacedCustomObject (server : Server) : Call Finalizers := do
  let w ← get
  set {w with calls := w.calls + 1}
  match server w.calls with
  | none => throw (.apiException 404)
  | some current => pure current

def patchNamespacedCustomObject (server : Server) (patch : Patch) : Call Unit := do
  let w ← get
  let response := patch.response (server w.calls)
  set {w with calls := w.calls + 1, attempts := w.attempts ++ [Attempt.mk w.calls patch response]}
  match response with
  | .accepted => pure ()
  | .refused => throw (.apiException 422)
  | .notFound => throw (.apiException 404)

/-! ### `cleanup.py` -/

def _removeFinalizer (server : Server) (workflow : Finalizers) : Call Unit :=
  if workflow.Has then patchNamespacedCustomObject server ⟨false, workflow.remove⟩ else pure ()

/-- `remove_finalizer`: all that the calls raise is an ApiException. -/
def removeFinalizer (server : Server) (workflow : Finalizers) : Call Unit :=
  tryCatch (_removeFinalizer server workflow) fun _ => do
    let workflow ← getNamespacedCustomObject server
    _removeFinalizer server workflow

/-- One round of the loop of `teardown_workflow_coro`; returns whether the loop is over. -/
def teardownRound (server : Server) (patch : Patch) : Call Bool :=
  tryCatch (do
    patchNamespacedCustomObject server patch
    pure true) fun e => pure (e = .apiException 404)

/-- The loop, for so many rounds at most. -/
def teardownRounds (server : Server) (patch : Patch) : Nat → Call Unit
  | 0 => pure ()
  | fuel + 1 => do
    if !(← teardownRound server patch) then teardownRounds server patch fuel

/-- `teardown_workflow_coro`. The log of the pod is saved between, and its errors are caught. -/
def teardownWorkflowCoro (server : Server) (workflow : Finalizers) (fuel : Nat) : Call Unit :=
  teardownRounds server ⟨true, workflow.remove⟩ fuel

/-- The patches that a routine sends. -/
def attempts (routine : Call Unit) : List Attempt := (Prog.exec routine {}).2.attempts

/-! ### The attempts of each routine -/

variable {server : Server} {copy : Finalizers}

/-- The attempt that a call makes. -/
def attempt (server : Server) (patch : Patch) (call : Nat) : Attempt := ⟨call, patch, patch.response (server call)⟩

def Response.exn? : Response → Option Exn
  | .accepted => none
  | .refused => some (.apiException 422)
  | .notFound => some (.apiException 404)

theorem exec_patch (server : Server) (patch : Patch) (w : World) :
    Prog.exec (patchNamespacedCustomObject server patch) w =
      (match (attempt server patch w.calls).response.exn? with
        | none => .ok ()
        | some e => .error e,
      ⟨w.calls + 1, w.attempts ++ [attempt server patch w.calls]⟩) := by
  unfold attempt
  simp only [patchNamespacedCustomObject, Prog.exec_bind, Prog.exec_get, Prog.exec_set]
  cases patch.response (server w.calls) <;> rfl

/-- The attempts of the loop, from a call on. -/
def teardownAttempts (server : Server) (patch : Patch) : Nat → Nat → List Attempt
  | 0, _ => []
  | fuel + 1, call =>
    attempt server patch call ::
      if (attempt server patch call).response = .refused then teardownAttempts server patch fuel (call + 1) else []

theorem exec_teardownRound (server : Server) (patch : Patch) (w : World) :
    Prog.exec (teardownRound server patch) w =
      (.ok ((attempt server patch w.calls).response ≠ .refused),
        ⟨w.calls + 1, w.attempts ++ [attempt server patch w.calls]⟩) := by
  rw [teardownRound, Prog.exec_tryCatch, Prog.exec_bind, exec_patch]
  cases (attempt server patch w.calls).response <;> rfl

theorem exec_teardownRounds (server : Server) (patch : Patch) (fuel : Nat) (w : World) :
    (Prog.exec (teardownRounds server patch fuel) w).2.attempts =
      w.attempts ++ teardownAttempts server patch fuel w.calls := by
  induction fuel generalizing w with
  | zero => exact (List.append_nil _).symm
  | succ fuel ih =>
    rw [teardownRounds, Prog.exec_bind_ok (exec_teardownRound server patch w), teardownAttempts]
    by_cases h : (attempt server patch w.calls).response = .refused
    · simp [h, ih]
    · simp [h]

theorem attempts_teardown (server : Server) (copy : Finalizers) (fuel : Nat) :
    attempts (teardownWorkflowCoro server copy fuel) = teardownAttempts server ⟨true, copy.remove⟩ fuel 0 :=
  exec_teardownRounds server ⟨true, copy.remove⟩ fuel {}

theorem exec_removeOnce (server : Server) (workflow : Finalizers) (w : World) :
    (Prog.exec (_removeFinalizer server workflow) w).2.attempts = w.attempts ++
      if workflow.Has then [attempt server ⟨false, workflow.remove⟩ w.calls] else [] := by
  unfold _removeFinalizer
  split
  · rw [exec_patch]
  · exact (List.append_nil _).symm

/-- The second attempt, with what the workflow has when it is read again. -/
def secondAttempt (server : Server) : List Attempt :=
  match server 1 with
  | none => []
  | some current => if current.Has then [attempt server ⟨false, current.remove⟩ 2] else []

theorem attempts_remove (hc : copy.Has) : attempts (removeFinalizer server copy) =
    attempt server ⟨false, copy.remove⟩ 0 ::
      if (attempt server ⟨false, copy.remove⟩ 0).response = .accepted then [] else secondAttempt server := by
  unfold attempts removeFinalizer secondAttempt
  rw [Prog.exec_tryCatch, _removeFinalizer, if_pos hc, exec_patch]
  have hagain : (Prog.exec (do
      let workflow ← getNamespacedCustomObject server
      _removeFinalizer server workflow) ⟨1, [attempt server ⟨false, copy.remove⟩ 0]⟩).2.attempts =
      attempt server ⟨false, copy.remove⟩ 0 :: secondAttempt server := by
    unfold getNamespacedCustomObject secondAttempt
    simp only [Prog.exec_bind, Prog.exec_get, Prog.exec_set]
    cases server 1 with
    | none => rfl
    | some current => exact exec_removeOnce server current _
  cases (attempt server ⟨false, copy.remove⟩ 0).response with
  | accepted => rfl
  | refused => exact hagain
  | notFound => exact hagain

theorem attempts_remove_absent (hc : ¬ copy.Has) : attempts (removeFinalizer server copy) = [] := by
  unfold attempts removeFinalizer
  rw [Prog.exec_tryCatch, _removeFinalizer, if_neg hc]
  rfl

/-! ### One refusal at most -/

/-- The workflow stays as it is from one attempt to another. -/
def Unchanged (server : Server) (a b : Attempt) : Prop :=
  ∀ call, a.call ≤ call → call ≤ b.call → server call = server a.call

/-- No attempt is refused for a workflow that is as it was at the attempt before. -/
def RefusedOnce (server : Server) (attempts : List Attempt) : Prop :=
  attempts.IsChain fun a b => Unchanged server a b → b.response ≠ .refused

/-- Once the others leave the workflow alone, its teardown is accepted after one refusal at
most, and takes the Flux finalizer off. -/
def AcceptedAfterOne (server : Server) (copy : Finalizers) : Prop :=
  ∀ stop, (∀ call, (server call).isSome) → (∀ call, stop ≤ call → server call = server stop) →
    ∃ fuel, ∃ a ∈ attempts (teardownWorkflowCoro server copy fuel),
      a.response = .accepted ∧ ¬ a.patch.finalizers.Has ∧
      ((attempts (teardownWorkflowCoro server copy fuel)).filter fun b =>
        stop ≤ b.call ∧ b.response = .refused).length ≤ 1

structure CostsOneRefusal (server : Server) (copy : Finalizers) : Prop where
  remove : RefusedOnce server (attempts (removeFinalizer server copy))
  teardown : ∀ fuel, RefusedOnce server (attempts (teardownWorkflowCoro server copy fuel))
  accepted : AcceptedAfterOne server copy

/-- The copy has a finalizer, other than that of Flux, which the workflow lacks. -/
def Stale (server : Server) (copy : Finalizers) (call : Nat) : Prop :=
  ∃ current, server call = some current ∧ ¬ copy.remove.names ⊆ current.names

theorem refused_iff {teardown : Bool} {call : Nat} :
    (attempt server ⟨teardown, copy.remove⟩ call).response = .refused ↔ Stale server copy call := by
  unfold attempt Patch.response Stale
  cases server call with
  | none => simp
  | some current =>
    dsimp only
    split <;> simp_all

theorem remove_subset (f : Finalizers) : f.remove.names ⊆ f.names := List.erase_subset

/-- `remove_finalizer` makes its second attempt with what the workflow has. -/
theorem remove_refusedOnce (server : Server) (copy : Finalizers) :
    RefusedOnce server (attempts (removeFinalizer server copy)) := by
  unfold RefusedOnce
  by_cases hc : copy.Has
  · rw [attempts_remove hc]
    split
    · exact .singleton _
    · unfold secondAttempt
      cases h1 : server 1 with
      | none => exact .singleton _
      | some current =>
        dsimp only
        split
        · refine List.isChain_pair.mpr fun hsame hrefused => ?_
          obtain ⟨now, hnow, hlacks⟩ := refused_iff.mp hrefused
          have hread : server 2 = server 1 :=
            (hsame 2 (Nat.zero_le _) (Nat.le_refl _)).trans (hsame 1 (Nat.zero_le _) (Nat.le_succ _)).symm
          obtain rfl : current = now := Option.some.inj (h1.symm.trans (hread.symm.trans hnow))
          exact hlacks (remove_subset current)
        · exact .singleton _
  · rw [attempts_remove_absent hc]
    exact .nil

/-! ### The teardown -/

/-- The workflow changes before the next attempt, as long as the copy is stale. -/
def ChangesWhileStale (server : Server) (copy : Finalizers) : Prop :=
  ∀ call, (∀ c ≤ call, Stale server copy c) → server (call + 1) ≠ server call

theorem teardown_refusedOnce (hchanges : ChangesWhileStale server copy) (fuel : Nat) {call : Nat}
    (hstale : ∀ c < call, Stale server copy c) :
    RefusedOnce server (teardownAttempts server ⟨true, copy.remove⟩ fuel call) := by
  unfold RefusedOnce
  induction fuel generalizing call with
  | zero => exact .nil
  | succ fuel ih =>
    rw [teardownAttempts]
    split
    · rename_i hrefused
      have hstale' : ∀ c < call + 1, Stale server copy c := by
        intro c hc
        rcases Nat.lt_succ_iff_lt_or_eq.mp hc with hc | rfl
        · exact hstale c hc
        · exact refused_iff.mp hrefused
      have hrest := ih hstale'
      cases fuel with
      | zero => exact .singleton _
      | succ fuel =>
        rw [teardownAttempts] at hrest ⊢
        refine List.isChain_cons_cons.mpr ⟨fun hsame _ => ?_, hrest⟩
        exact hchanges call (fun c hc => hstale' c (Nat.lt_succ_of_le hc))
          (hsame (call + 1) (Nat.le_succ call) (Nat.le_refl _))
    · exact .singleton _

/-- While the copy is stale every attempt is refused, and the next one made. -/
theorem teardownAttempts_stale {patch : Patch} {n : Nat} (fuel : Nat) {call : Nat}
    (h : ∀ c, call ≤ c → c < call + n → (attempt server patch c).response = .refused) :
    teardownAttempts server patch (n + fuel) call =
      (List.range' call n).map (attempt server patch) ++ teardownAttempts server patch fuel (call + n) := by
  induction n generalizing call with
  | zero => simp
  | succ n ih =>
    rw [Nat.succ_add, teardownAttempts, if_pos (h call (Nat.le_refl _) (by omega)),
      ih fun c hc hlt => h c (by omega) (by omega)]
    rw [List.range'_succ, List.map_cons, List.cons_append, show call + 1 + n = call + (n + 1) by omega]

theorem teardown_accepted (hchanges : ChangesWhileStale server copy) : AcceptedAfterOne server copy := by
  classical
  intro stop hthere hstop
  have hfresh : ∃ call, ¬ Stale server copy call := by
    by_contra hstale
    push Not at hstale
    exact hchanges stop (fun c _ => hstale c) (hstop _ (Nat.le_succ stop))
  have hfirst : ∀ c < Nat.find hfresh, Stale server copy c := fun c hc => not_not.mp (Nat.find_min hfresh hc)
  have hle : Nat.find hfresh ≤ stop := by
    by_contra hlt
    exact hchanges stop (fun c hc => hfirst c (by omega)) (hstop _ (Nat.le_succ stop))
  have hrefused : (attempt server ⟨true, copy.remove⟩ (Nat.find hfresh)).response ≠ .refused :=
    refused_iff.not.mpr (Nat.find_spec hfresh)
  generalize Nat.find hfresh = call at hfirst hle hrefused
  have haccepted : (attempt server ⟨true, copy.remove⟩ call).response = .accepted := by
    obtain ⟨current, hcurrent⟩ := Option.isSome_iff_exists.mp (hthere call)
    unfold attempt Patch.response at hrefused ⊢
    rw [hcurrent] at hrefused ⊢
    dsimp only at hrefused ⊢
    split
    · rfl
    · simp_all
  have hlog : attempts (teardownWorkflowCoro server copy (call + 1)) =
      (List.range' 0 call).map (attempt server ⟨true, copy.remove⟩) ++ [attempt server ⟨true, copy.remove⟩ call] := by
    rw [attempts_teardown, teardownAttempts_stale 1 fun c _ hc => refused_iff.mpr (hfirst c (by omega)),
      teardownAttempts, Nat.zero_add, if_neg hrefused]
  refine ⟨call + 1, _, ?_, haccepted, copy.not_has_remove, ?_⟩
  · rw [hlog]
    exact List.mem_append_right _ (List.mem_singleton.mpr rfl)
  · have hnone : ∀ b ∈ attempts (teardownWorkflowCoro server copy (call + 1)),
        ¬ (stop ≤ b.call ∧ b.response = .refused) := by
      intro b hb ⟨hlate, hr⟩
      rw [hlog] at hb
      rcases List.mem_append.mp hb with hb | hb
      · obtain ⟨c, hc, rfl⟩ := List.mem_map.mp hb
        have hbefore := (List.mem_range'_1.mp hc).2
        exact absurd hlate (by show ¬ stop ≤ c; omega)
      · rw [List.mem_singleton.mp hb] at hr
        exact hrefused hr
    rw [List.filter_eq_nil_iff.mpr fun b hb => by simpa using hnone b hb]
    exact Nat.zero_le 1

/-- A workflow that stays as it is refuses the same list again. -/
theorem changes_of_refusedOnce (h : ∀ fuel, RefusedOnce server (attempts (teardownWorkflowCoro server copy fuel))) :
    ChangesWhileStale server copy := by
  intro call hstale hsame
  have hnext : Stale server copy (call + 1) := by
    unfold Stale
    rw [hsame]
    exact hstale call (Nat.le_refl _)
  have hlog : attempts (teardownWorkflowCoro server copy (call + 2)) =
      (List.range' 0 call).map (attempt server ⟨true, copy.remove⟩) ++
        [attempt server ⟨true, copy.remove⟩ call, attempt server ⟨true, copy.remove⟩ (call + 1)] := by
    rw [attempts_teardown, teardownAttempts_stale 2 fun c _ hc => refused_iff.mpr (hstale c (by omega)), Nat.zero_add,
      teardownAttempts, if_pos (refused_iff.mpr (hstale call (Nat.le_refl _))), teardownAttempts,
      if_pos (refused_iff.mpr hnext), teardownAttempts]
  have hchain := h (call + 2)
  unfold RefusedOnce at hchain
  rw [hlog, List.isChain_append_cons_cons] at hchain
  refine hchain.2.1 (fun c hlo hhi => ?_) (refused_iff.mpr hnext)
  change call ≤ c at hlo
  change c ≤ call + 1 at hhi
  show server c = server call
  rcases Nat.eq_or_lt_of_le hlo with rfl | hlt
  · rfl
  · rw [show c = call + 1 by omega, hsame]

/-- **A stale copy costs one refusal** at most exactly when the workflow changes before each
attempt of the teardown that follows a stale one. -/
theorem one_refusal_iff (server : Server) (copy : Finalizers) :
    CostsOneRefusal server copy ↔ ChangesWhileStale server copy := by
  constructor
  · intro h
    exact changes_of_refusedOnce h.teardown
  · intro h
    refine ⟨remove_refusedOnce server copy, fun fuel => ?_, teardown_accepted h⟩
    rw [attempts_teardown]
    exact teardown_refusedOnce h fuel nofun

/-- Another controller has taken its finalizer off, and leaves the workflow alone. -/
def released : Server := fun _ => some ⟨[finalizer], by decide⟩

theorem released_refused_always : ¬ CostsOneRefusal released created := by
  intro h
  have hstale : ∀ c ≤ 0, Stale released created c := fun c _ => ⟨_, rfl, by decide⟩
  exact changes_of_refusedOnce h.teardown 0 hstale rfl

end FluxCoral2.Dws.StaleCopy
