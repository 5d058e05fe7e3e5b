import FluxCoral2.Eventlog.Decision
import Mathlib.Algebra.Order.BigOperators.Group.List
import Mathlib.Tactic.Linarith

/-! The deadline of a wait (`eventlog.c`).

Behind a skipped line the wait has the time that is left, which is the timeout less the time the
line took. If that is negative, it stands for no timeout at all. `keepsDeadline_iff`: the waits
keep the deadline just when no skipped line that is there in time is still looked at when the
time is over. -/
namespace FluxCoral2.Eventlog

variable {jsonLoads : Text → Option Json} {eventName : Text} {responses left : List Response}
  {response : Response} {t : ℚ}

/-- Each call has a timeout within the time there is, and so has the time waited in all. -/
structure KeepsDeadline (timeout : ℚ) (calls : List Call) : Prop where
  timeouts : ∀ call ∈ calls, 0 ≤ call.timeout ∧ call.timeout ≤ timeout
  waited : (calls.map Call.waited).sum ≤ (timeout : WithTop ℚ)

/-- A response with a line behind which the loop goes on. -/
def Skipped (jsonLoads : Text → Option Json) (eventName : Text) (response : Response) : Prop :=
  ∃ s, response.line = some s ∧ verdict jsonLoads eventName s = none

/-- The time the responses take. -/
def elapsed (responses : List Response) : ℚ :=
  (responses.map fun response => (response.arrival + response.processing : ℚ)).sum

/-- A skipped line that is there in time is done with in time. -/
def DoneInTime (jsonLoads : Text → Option Json) (eventName : Text) (timeout : ℚ) (responses : List Response) : Prop :=
  ∀ before response after, responses = before ++ response :: after →
    (∀ b ∈ before, Skipped jsonLoads eventName b) → Skipped jsonLoads eventName response →
    elapsed before + response.arrival ≤ timeout → elapsed before + response.arrival + response.processing ≤ timeout

/-! ### The calls of a wait -/

theorem calls_skip (ht : 0 ≤ t) (hskip : Skipped jsonLoads eventName response) (hin : response.arrival ≤ t) :
    (eventlogWaitFor jsonLoads eventName t (response :: left)).calls =
      ⟨t, (response.arrival : ℚ)⟩ ::
        (eventlogWaitFor jsonLoads eventName (t - (response.arrival + response.processing)) left).calls := by
  obtain ⟨s, hline, hv⟩ := hskip
  rw [eventlogWaitFor_skip (fun _ => hin) hline hv, remaining, if_pos ht, adjustTimeout]

/-- A response that is too late, or not skipped, ends the wait in its first call. -/
theorem calls_last (left : List Response) (ht : 0 ≤ t)
    (h : ¬ (Skipped jsonLoads eventName response ∧ response.arrival ≤ t)) :
    ∃ waited : ℚ, waited ≤ t ∧
      (eventlogWaitFor jsonLoads eventName t (response :: left)).calls = [⟨t, waited⟩] := by
  by_cases hin : response.arrival ≤ t
  · refine ⟨response.arrival, hin, ?_⟩
    cases hline : response.line with
    | none => simp [eventlogWaitFor, hline, not_lt.mpr hin]
    | some s =>
      cases hv : verdict jsonLoads eventName s with
      | none => exact absurd ⟨⟨s, hline, hv⟩, hin⟩ h
      | some o => rw [eventlogWaitFor_done (fun _ => hin) hline hv]
  · exact ⟨t, le_refl t, by simp [eventlogWaitFor, ht, lt_of_not_ge hin]⟩

theorem calls_nil (ht : 0 ≤ t) : (eventlogWaitFor jsonLoads eventName t []).calls = [⟨t, t⟩] := by
  simp [eventlogWaitFor, not_lt.mpr ht]

/-- The first call is made with the whole timeout. -/
theorem exists_call (jsonLoads : Text → Option Json) (eventName : Text) (t : ℚ) (responses : List Response) :
    ∃ call ∈ (eventlogWaitFor jsonLoads eventName t responses).calls, call.timeout = t := by
  cases responses with
  | nil =>
    rw [eventlogWaitFor]
    split <;> simp
  | cons response left =>
    rw [eventlogWaitFor]
    repeat' first | split | simp

/-! ### The deadline -/

/-- No call waits without an end. -/
def Bounded (calls : List Call) : Prop := ∀ call ∈ calls, 0 ≤ call.timeout

theorem nonneg_of_bounded (h : Bounded (eventlogWaitFor jsonLoads eventName t responses).calls) : 0 ≤ t := by
  obtain ⟨call, hmem, rfl⟩ := exists_call jsonLoads eventName t responses
  exact h call hmem

theorem bounded_cons {call : Call} {calls : List Call} : Bounded (call :: calls) ↔ 0 ≤ call.timeout ∧ Bounded calls :=
  List.forall_mem_cons

theorem keepsDeadline_singleton {waited : ℚ} (ht : 0 ≤ t) (hw : waited ≤ t) : KeepsDeadline t [⟨t, waited⟩] where
  timeouts := by simpa using ht
  waited := by simpa using hw

theorem KeepsDeadline.cons {arrival processing : ℚ} {calls : List Call} (ht : 0 ≤ t) (ha : 0 ≤ arrival)
    (hp : 0 ≤ processing) (h : KeepsDeadline (t - (arrival + processing)) calls) :
    KeepsDeadline t (⟨t, arrival⟩ :: calls) where
  timeouts := by
    refine List.forall_mem_cons.mpr ⟨⟨ht, le_refl t⟩, fun call hmem => ?_⟩
    obtain ⟨hnonneg, hle⟩ := h.timeouts call hmem
    exact ⟨hnonneg, by linarith⟩
  waited := by
    have hleft : t - (arrival + processing) ≤ t - arrival := by linarith
    calc ((⟨t, arrival⟩ :: calls : List Call).map Call.waited).sum
        = (arrival : WithTop ℚ) + (calls.map Call.waited).sum := by simp
      _ ≤ (arrival : WithTop ℚ) + ((t - arrival : ℚ) : WithTop ℚ) := by
          gcongr
          exact h.waited.trans (WithTop.coe_le_coe.mpr hleft)
      _ = (t : WithTop ℚ) := by rw [← WithTop.coe_add, add_sub_cancel]

/-- As long as no call waits without an end, the time that is left bounds what is still waited. -/
theorem keepsDeadline_of_bounded (h : Bounded (eventlogWaitFor jsonLoads eventName t responses).calls) :
    KeepsDeadline t (eventlogWaitFor jsonLoads eventName t responses).calls := by
  have ht := nonneg_of_bounded h
  induction responses generalizing t with
  | nil =>
    rw [calls_nil ht]
    exact keepsDeadline_singleton ht (le_refl t)
  | cons response left ih =>
    by_cases hgo : Skipped jsonLoads eventName response ∧ response.arrival ≤ t
    · obtain ⟨hskip, hin⟩ := hgo
      rw [calls_skip ht hskip hin] at h ⊢
      have hleft := (bounded_cons.mp h).2
      exact .cons ht response.arrival.coe_nonneg response.processing.coe_nonneg
        (ih hleft (nonneg_of_bounded hleft))
    · obtain ⟨waited, hw, hcalls⟩ := calls_last left ht hgo
      rw [hcalls]
      exact keepsDeadline_singleton ht hw

theorem elapsed_cons : elapsed (response :: left) = response.arrival + response.processing + elapsed left := by
  simp [elapsed]

theorem elapsed_nonneg : 0 ≤ elapsed left := by
  refine List.sum_nonneg fun time hmem => ?_
  obtain ⟨response, -, rfl⟩ := List.mem_map.mp hmem
  exact add_nonneg response.arrival.coe_nonneg response.processing.coe_nonneg

theorem doneInTime_cons :
    DoneInTime jsonLoads eventName t (response :: left) ↔
      (Skipped jsonLoads eventName response ∧ response.arrival ≤ t → response.arrival + response.processing ≤ t ∧
        DoneInTime jsonLoads eventName (t - (response.arrival + response.processing)) left) := by
  constructor
  · rintro h ⟨hskip, hin⟩
    refine ⟨?_, fun before r after heq hbefore hr hle => ?_⟩
    · simpa [elapsed] using h [] response left rfl (by simp) hskip (by simpa [elapsed] using hin)
    · have hdone := h (response :: before) r after (by simp [heq]) (by simpa [hskip] using hbefore) hr
      rw [elapsed_cons] at hdone
      linarith [hdone (by linarith)]
  · intro h before r after heq hbefore hr hle
    cases before with
    | nil =>
      obtain ⟨rfl, rfl⟩ := List.cons.inj heq
      simp only [elapsed, List.map_nil, List.sum_nil, zero_add] at hle ⊢
      exact (h ⟨hr, hle⟩).1
    | cons b before =>
      obtain ⟨rfl, rfl⟩ := List.cons.inj heq
      rw [elapsed_cons] at hle ⊢
      -- what comes behind the response takes no less than no time
      have hin : response.arrival ≤ t := by
        have hbehind : 0 ≤ elapsed before := elapsed_nonneg
        linarith [response.processing.coe_nonneg, r.arrival.coe_nonneg]
      obtain ⟨-, hleft⟩ := h ⟨hbefore response (by simp), hin⟩
      have hdone := hleft before r after rfl (fun b hb => hbefore b (List.mem_cons_of_mem _ hb)) hr
      linarith [hdone (by linarith)]

theorem bounded_iff (ht : 0 ≤ t) :
    Bounded (eventlogWaitFor jsonLoads eventName t responses).calls ↔
      DoneInTime jsonLoads eventName t responses := by
  induction responses generalizing t with
  | nil => simp [calls_nil ht, Bounded, DoneInTime, ht]
  | cons response left ih =>
    rw [doneInTime_cons]
    by_cases hgo : Skipped jsonLoads eventName response ∧ response.arrival ≤ t
    · rw [calls_skip ht hgo.1 hgo.2, bounded_cons]
      constructor
      · intro ⟨_, hleft⟩ _
        have hnonneg := nonneg_of_bounded hleft
        exact ⟨sub_nonneg.mp hnonneg, (ih hnonneg).mp hleft⟩
      · intro h
        obtain ⟨hin, hleft⟩ := h hgo
        exact ⟨ht, (ih (sub_nonneg.mpr hin)).mpr hleft⟩
    · obtain ⟨waited, -, hcalls⟩ := calls_last left ht hgo
      simp [hcalls, Bounded, ht, hgo]

theorem keepsDeadline_iff (jsonLoads : Text → Option Json) (eventName : Text) (timeout : ℚ≥0)
    (responses : List Response) :
    KeepsDeadline timeout (eventlogWaitFor jsonLoads eventName timeout responses).calls ↔
      DoneInTime jsonLoads eventName timeout responses := by
  rw [← bounded_iff timeout.coe_nonneg]
  exact ⟨fun h call hmem => (h.timeouts call hmem).1, keepsDeadline_of_bounded⟩

/-! ### An entry at the deadline -/

def submitText : Text := entryText ['s', 'u', 'b', 'm', 'i', 't'] []

def submitEntry : Json := .object [(keyName, .string ['s', 'u', 'b', 'm', 'i', 't']), (keyTimestamp, .integer 1)]

/-- Half a minute is left, and the entry is there at its end. The next call has no timeout. -/
theorem submit_at_deadline :
    ¬ KeepsDeadline 30 (eventlogWaitFor (loadsTwo submitText submitEntry) craySlingshot 30
      [⟨30, 1 / 1000, some (submitText ++ ['\n'])⟩]).calls := by
  have hskip : Skipped (loadsTwo submitText submitEntry) craySlingshot
      ⟨30, 1 / 1000, some (submitText ++ ['\n'])⟩ := ⟨_, rfl, rfl⟩
  intro h
  rw [calls_skip (by norm_num) hskip (by norm_num)] at h
  obtain ⟨call, hmem, hcall⟩ := exists_call (loadsTwo submitText submitEntry) craySlingshot
    ((30 : ℚ) - (((30 : ℚ≥0) : ℚ) + ((1 / 1000 : ℚ≥0) : ℚ))) []
  have hnonneg := (h.timeouts call (List.mem_cons_of_mem _ hmem)).1
  rw [hcall] at hnonneg
  norm_num at hnonneg

end FluxCoral2.Eventlog
