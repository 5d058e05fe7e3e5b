import FluxCoral2.Eventlog.Decision

/-! Readers of one eventlog (`eventlog.c`).

The shells of a job read its eventlog on their own, and each has seen so much of it. What a wait
without a timeout comes to is decided by the lines, whenever they come (`outcome_eq_decision`),
and more lines do not change it (`decision_of_isPrefix`). -/
namespace FluxCoral2.Eventlog

variable {jsonLoads : Text → Option Json} {eventName : Text}

/-- What the lines make of a wait that has no timeout. -/
def decision (jsonLoads : Text → Option Json) (eventName : Text) (lines : List Text) : Outcome :=
  (lines.findSome? (verdict jsonLoads eventName)).getD .waiting

theorem decision_cons_of_some {line : Text} {o : Outcome} (h : verdict jsonLoads eventName line = some o)
    (rest : List Text) : decision jsonLoads eventName (line :: rest) = o := by
  rw [decision, List.findSome?_cons, h]
  rfl

theorem decision_cons_of_none {line : Text} (h : verdict jsonLoads eventName line = none) (rest : List Text) :
    decision jsonLoads eventName (line :: rest) = decision jsonLoads eventName rest := by
  rw [decision, List.findSome?_cons, h]
  rfl

/-- The times of the lines are of no account. -/
theorem outcome_eq_decision {timeout : ℚ} (ht : timeout < 0) {responses : List Response} {lines : List Text}
    (h : responses.map Response.line = lines.map some) :
    (eventlogWaitFor jsonLoads eventName timeout responses).outcome = decision jsonLoads eventName lines := by
  induction lines generalizing responses with
  | nil =>
    rw [List.map_eq_nil_iff.mp h, eventlogWaitFor, if_pos ht]
    rfl
  | cons line rest ih =>
    obtain ⟨response, left, rfl, hline, hrest⟩ := List.map_eq_cons_iff.mp h
    have hneg : ¬ 0 ≤ timeout := not_le.mpr ht
    cases hv : verdict jsonLoads eventName line with
    | some o =>
      rw [eventlogWaitFor_done (fun h => absurd h hneg) hline hv, decision_cons_of_some hv]
    | none =>
      rw [eventlogWaitFor_skip (fun h => absurd h hneg) hline hv, decision_cons_of_none hv, remaining, if_neg hneg]
      exact ih hrest

/-- One who has seen less has not decided, or has decided the same. -/
theorem decision_of_isPrefix {seen log : List Text} (h : seen <+: log) :
    decision jsonLoads eventName seen = .waiting ∨
      decision jsonLoads eventName seen = decision jsonLoads eventName log := by
  obtain ⟨rest, rfl⟩ := h
  unfold decision
  rw [List.findSome?_append]
  cases seen.findSome? (verdict jsonLoads eventName) with
  | none => exact .inl rfl
  | some o => exact .inr rfl

theorem verdict_ne_waiting (line : Text) : verdict jsonLoads eventName line ≠ some .waiting := by
  unfold verdict
  split
  · exact nofun
  · rename_i name context _
    cases doneWith eventName name context <;> exact nofun

/-- A line that decides ends the wait. -/
theorem decision_ne_waiting {lines : List Text} {line : Text} {o : Outcome} (hmem : line ∈ lines)
    (h : verdict jsonLoads eventName line = some o) : decision jsonLoads eventName lines ≠ .waiting := by
  unfold decision
  cases hfind : lines.findSome? (verdict jsonLoads eventName) with
  | none =>
    have hnone := List.findSome?_eq_none_iff.mp hfind line hmem
    rw [h] at hnone
    cases hnone
  | some o' =>
    obtain ⟨line', -, hv⟩ := List.exists_of_findSome?_eq_some hfind
    rintro rfl
    exact verdict_ne_waiting line' hv

/-- More lines change nothing once it is decided. -/
theorem decision_append_of_ne {log : List Text} (h : decision jsonLoads eventName log ≠ .waiting) (more : List Text) :
    decision jsonLoads eventName (log ++ more) = decision jsonLoads eventName log :=
  ((decision_of_isPrefix (List.prefix_append log more)).resolve_left h).symm

theorem decision_append_of_waiting {log : List Text} (h : decision jsonLoads eventName log = .waiting) (line : Text) :
    decision jsonLoads eventName (log ++ [line]) = (verdict jsonLoads eventName line).getD .waiting := by
  unfold decision at h ⊢
  rw [List.findSome?_append]
  cases hfind : log.findSome? (verdict jsonLoads eventName) with
  | none =>
    rw [Option.none_or, List.findSome?_cons]
    cases verdict jsonLoads eventName line <;> rfl
  | some o =>
    obtain ⟨before, -, hv⟩ := List.exists_of_findSome?_eq_some hfind
    rw [hfind] at h
    obtain rfl : o = .waiting := h
    exact absurd hv (verdict_ne_waiting before)

/-! ### Lines by what they are to a reader -/

/-- The line of an event of another name. -/
def Foreign (jsonLoads : Text → Option Json) (eventName line : Text) : Prop :=
  ∃ name context, Entry jsonLoads line name context ∧ cString name ≠ eventName

/-- The line of an event behind which nothing is waited for. -/
def Surpasses (jsonLoads : Text → Option Json) (line : Text) : Prop :=
  ∃ name context, Entry jsonLoads line name context ∧
    (cString name = start ∨ cString name = exception ∧ isFatal context)

section
variable (hstart : eventName ≠ start) (hexception : eventName ≠ exception) {line : Text}
include hstart hexception

theorem Surpasses.verdict (h : Surpasses jsonLoads line) :
    verdict jsonLoads eventName line = some (.returned none) := by
  obtain ⟨name, context, hentry, hname | ⟨hname, hfatal⟩⟩ := h <;> refine (verdict_iff hstart hexception).mpr ?_
  · exact .start hentry hname
  · obtain ⟨severity, hseverity, hzero⟩ := isFatal_iff.mp hfatal
    exact .exception hentry hname hseverity hzero

/-- An event of another name is passed, or surpasses. -/
theorem Foreign.verdict (h : Foreign jsonLoads eventName line) {o : Outcome}
    (hv : verdict jsonLoads eventName line = some o) : o = .returned none ∧ Surpasses jsonLoads line := by
  obtain ⟨name, context, hentry, hne⟩ := h
  cases (verdict_iff hstart hexception).mp hv with
  | malformed hno => exact absurd hentry (hno name context)
  | start hentry' hname => exact ⟨rfl, _, _, hentry', .inl hname⟩
  | exception hentry' hname hseverity hzero =>
    exact ⟨rfl, _, _, hentry', .inr ⟨hname, isFatal_iff.mpr ⟨_, hseverity, hzero⟩⟩⟩
  | wanted hentry' hname =>
    obtain ⟨rfl, -⟩ := hentry.unique hentry'
    exact absurd hname hne

end

end FluxCoral2.Eventlog
