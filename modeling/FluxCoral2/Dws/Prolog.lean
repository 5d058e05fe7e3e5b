import FluxCoral2.Dws.View

/-! Starting and finishing the prolog.

The plugin starts the prolog when the job runs, and finishes it once the service has
given it the environment of the job, or on an exception. Failures only raise exceptions,
so that one callback finishes the prolog for all of them: `prolog_discipline`.

The request that gives the environment posts it before it looks at whether the prolog is
active, and the service sends the request for every event of a completed PreRun:
`environment_iff_active`. -/
namespace FluxCoral2.Dws
open Library

namespace Jobtap

variable {timeout : Bool} {j : Job}

/-! ### What each event adds to the calls about the prolog -/

inductive PrologCall
  | start
  | finish (status : Nat)
  | environment
  deriving DecidableEq

def Call.prolog? : Call → Option PrologCall
  | .prologStart => some .start
  | .prologFinish status => some (.finish status)
  | .eventPost name => if name = "dws_environment" then some .environment else none
  | _ => none

def Job.prologCalls (j : Job) : List PrologCall := j.view Call.prolog?

theorem Job.prologCalls_call (j : Job) (c : Call) :
    (j.call c).prologCalls = j.prologCalls ++ c.prolog?.toList := by
  show (j.calls ++ [c]).filterMap Call.prolog? = _
  rw [List.filterMap_append]
  cases h : c.prolog? <;> simp [h, prologCalls, view]

theorem Job.prologCalls_send (j : Job) (r : Rpc) (s : Sent) : (j.send r s).prologCalls = j.prologCalls := by
  cases s with
  | unsent => rfl
  | _ => exact (j.prologCalls_call (.rpc r)).trans (List.append_nil _)

theorem Job.prologCalls_cleanup (j : Job) : j.cleanup.prologCalls = j.prologCalls := by
  rw [Job.cleanup]
  split <;> rfl

theorem prologCalls_raise (j : Job) (type : String) : (raiseJobException j type).prologCalls = j.prologCalls :=
  (j.prologCalls_call _).trans (List.append_nil _)

theorem prologCalls_dwsPrologFinish (j : Job) (success : Bool) :
    (dwsPrologFinish j success).prologCalls =
      j.prologCalls ++ if success && j.prologActive.getD true then [.finish 0] else [] := by
  rw [dwsPrologFinish]
  cases j.prologActive.getD true with
  | false => simp
  | true =>
    cases success with
    | false => exact (prologCalls_raise j setupPrologName).trans (List.append_nil _).symm
    | true => exact j.prologCalls_call (.prologFinish 0)

theorem prologCalls_startDwsEpilogForJob (timeout : Bool) (j : Job) (runStarted : Bool) (c : EpilogCalls) :
    (startDwsEpilogForJob timeout j runStarted c).prologCalls = j.prologCalls := by
  have hmark : ({j with epilogActive := true} : Job).prologCalls = j.prologCalls := rfl
  rw [startDwsEpilogForJob]
  cases c.reactor <;> cases c.calloc <;> cases timeout <;> cases c.timer <;> cases c.postRun <;>
    simp [currentJobException, raiseJobException, dwsEpilogFinish, Job.send, Job.prologCalls_call,
      Call.prolog?, hmark]

/-- The calls about the prolog that an event makes. -/
def Event.prologCalls (j : Job) : Event → List PrologCall
  | .run c => if c.malloc then [.start] else []
  | .prologRemove false => .environment :: if j.prologActive.getD true then [.finish 0] else []
  | .exception severity _ _ => if severity = 0 ∧ j.prologActive = some true then [.finish 1] else []
  | _ => []

theorem prologCalls_exceptionCb (j : Job) (type : Option String) (sent : Bool) :
    (exceptionCb j 0 type sent).prologCalls =
      j.prologCalls ++ if j.prologActive = some true then [.finish 1] else [] := by
  rw [exceptionCb, if_neg (by decide)]
  by_cases hp : j.prologActive = some true
  · rw [if_pos hp, if_pos hp]
    exact j.prologCalls_call (.prologFinish 1)
  · rw [if_neg hp, if_neg hp]
    by_cases ha : j.epilogActive = true <;> by_cases ht : type = some epilogAbortException <;>
      cases sent <;> simp [ha, ht, Job.prologCalls_call, Call.prolog?]

theorem prologCalls_apply (timeout : Bool) (j : Job) (e : Event) :
    (e.apply timeout j).prologCalls = j.prologCalls ++ e.prologCalls j := by
  have hnone : j.prologCalls = j.prologCalls ++ [] := (List.append_nil _).symm
  cases e with
  | depend failureTolerance create =>
    have hmark : ({j with state := .depend} : Job).prologCalls = j.prologCalls := rfl
    show (dependCb {j with state := .depend} failureTolerance create).prologCalls = _
    rw [dependCb]
    cases create <;>
      simp [currentJobException, Job.prologCalls_call, Job.send, Call.prolog?, hmark, Event.prologCalls]
  | createResponse r =>
    show (createCb j r).prologCalls = _
    rw [createCb]
    split
    · exact hnone
    · exact (prologCalls_raise j createDepName).trans hnone
  | run c =>
    have hmark : ({j with state := .run, prologActive := some true} : Job).prologCalls = j.prologCalls := rfl
    have hstate : ({j with state := .run} : Job).prologCalls = j.prologCalls := rfl
    show (runCb {j with state := .run} c).prologCalls = j.prologCalls ++ if c.malloc then [.start] else []
    rw [runCb]
    cases c.malloc <;> cases c.calloc <;> cases c.lookup <;>
      simp [prologCalls_dwsPrologFinish, currentJobException, Job.prologCalls_call, Call.prolog?, hmark, hstate]
  | fetchR R calloc setup =>
    show (fetchRCallback j R calloc setup).prologCalls = _
    cases R <;> cases calloc <;> cases setup <;>
      simp [fetchRCallback, prologCalls_dwsPrologFinish, Job.prologCalls_send, Event.prologCalls]
  | setupResponse r =>
    show (setupRpcCb j r).prologCalls = _
    rw [setupRpcCb]
    cases r <;> simp [prologCalls_dwsPrologFinish, Event.prologCalls]
  | prologRemove malformed =>
    cases malformed with
    | true => exact (prologCalls_raise j "exception").trans hnone
    | false =>
      refine (prologCalls_dwsPrologFinish _ true).trans ?_
      rw [Job.prologCalls_call, List.append_assoc]
      rfl
  | exception severity type sent =>
    show (exceptionCb (if severity = 0 then j.cleanup else j) severity type sent).prologCalls =
      j.prologCalls ++ if severity = 0 ∧ j.prologActive = some true then [.finish 1] else []
    by_cases hs : severity = 0
    · subst hs
      rw [if_pos rfl, prologCalls_exceptionCb, j.prologCalls_cleanup, j.cleanup_prologActive]
      simp
    · rw [if_neg hs, if_neg fun h => hs h.1, exceptionCb, if_pos hs, List.append_nil]
  | finish => exact (Job.prologCalls_cleanup _).trans hnone
  | finishCb c =>
    show (finishCb timeout j c).prologCalls = _
    rw [finishCb]
    split
    · exact hnone
    · exact (prologCalls_startDwsEpilogForJob timeout j true c).trans hnone
  | cleanupCb c =>
    show (cleanupCb timeout {j with cleaned := true} c).prologCalls = _
    rw [cleanupCb]
    split
    · exact (prologCalls_startDwsEpilogForJob timeout _ false c).trans hnone
    · exact hnone
  | postRunResponse r =>
    show (postRunRpcCallback j r).prologCalls = _
    rw [postRunRpcCallback]
    cases r <;>
      simp [dwsEpilogFinish, raiseJobException, Job.prologCalls_call, Call.prolog?, Event.prologCalls]
  | epilogRemove malformed =>
    show (epilogRemoveMsgCb j malformed).prologCalls = _
    rw [epilogRemoveMsgCb]
    split
    · exact hnone
    split
    · exact hnone
    · exact j.prologCalls_call (.epilogFinish 0)
  | epilogTimer =>
    show (epilogTimeoutCb j).prologCalls = _
    rw [epilogTimeoutCb]
    split
    · exact hnone
    · exact j.prologCalls_call _
  | startRequest => exact hnone
  | start => exact hnone
  | inactive => exact hnone

/-! ### Discipline -/

/-- The aux item is there when the service asks to remove the prolog. -/
def AuxPresent (j : Job) (e : Event) : Prop := e = .prologRemove false → j.prologActive ≠ none

/-- How the prolog ends: the environment is posted before it is finished, or it is
finished on an exception. -/
inductive PrologEnd : List PrologCall → Prop
  | success : PrologEnd [.start, .environment, .finish 0]
  | failure : PrologEnd [.start, .finish 1]

/-- The aux item says whether the prolog is active; nothing but the environment is
posted when it is over. -/
structure Prologued (j : Job) : Prop where
  absent : j.prologActive = none → j.prologCalls = []
  active : j.prologActive = some true → j.prologCalls = [.start]
  finished : j.prologActive = some false →
    ∃ done n, PrologEnd done ∧ j.prologCalls = done ++ List.replicate n .environment
  early : j.state = .new ∨ j.state = .depend → j.prologActive = none

theorem prologued_init : Prologued {} :=
  ⟨fun _ => rfl, fun h => (by cases h), fun h => (by cases h), fun _ => rfl⟩

/-- An event that neither starts nor finishes the prolog. -/
theorem Prologued.of_same {e : Event} (h : Prologued j) (hcalls : e.prologCalls j = [])
    (hprolog : e.prolog j = j.prologActive)
    (hstate : (e.update j).state = .new ∨ (e.update j).state = .depend → j.prologActive = none) :
    Prologued (e.apply timeout j) := by
  have hc := prologCalls_apply timeout j e
  rw [hcalls, List.append_nil] at hc
  have hp := (prologActive_apply timeout j e).trans hprolog
  refine ⟨?_, ?_, ?_, fun hs => ?_⟩
  · rw [hp, hc]
    exact h.absent
  · rw [hp, hc]
    exact h.active
  · rw [hp, hc]
    exact h.finished
  · rw [hp]
    rw [(kept_apply timeout j e).state] at hs
    exact hstate hs

theorem Job.cleanup_late (j : Job) : ¬ (j.cleanup.state = .new ∨ j.cleanup.state = .depend) := by
  rcases j.cleanup_state with h | h <;> simp [h]

theorem prologued_apply (timeout : Bool) (j : Job) (e : Event) (h : Prologued j)
    (he : e.isMessage = false → e.Enabled j) (haux : AuxPresent j e) : Prologued (e.apply timeout j) := by
  have hc := prologCalls_apply timeout j e
  have hp := prologActive_apply timeout j e
  have hs := (kept_apply timeout j e).state
  cases e with
  | depend failureTolerance create => exact h.of_same rfl rfl fun _ => h.early (.inl (he rfl))
  | run c =>
    have hnone := h.early (.inr (he rfl))
    cases hm : c.malloc with
    | false =>
      have hcalls : (Event.run c).prologCalls j = [] := by rw [Event.prologCalls, hm]; rfl
      have hprolog : (Event.run c).prolog j = j.prologActive := by rw [Event.prolog, hm]; rfl
      exact h.of_same hcalls hprolog fun _ => hnone
    | true =>
      rw [Event.prologCalls, hm, if_pos rfl, h.absent hnone] at hc
      rw [Event.prolog, hm, if_pos rfl] at hp
      refine ⟨fun hn => ?_, fun _ => hc, fun hf => ?_, fun hearly => ?_⟩
      · rw [hp] at hn
        cases hn
      · rw [hp] at hf
        cases hf
      · rw [hs] at hearly
        rcases hearly with hearly | hearly <;> cases hearly
  | prologRemove malformed =>
    cases malformed with
    | true => exact h.of_same rfl rfl h.early
    | false =>
      rw [Event.prologCalls] at hc
      rw [Event.prolog] at hp
      cases hactive : j.prologActive with
      | none => exact absurd hactive (haux rfl)
      | some active =>
        rw [hactive] at hp hc
        refine ⟨fun hn => ?_, fun ht => ?_, fun _ => ?_, fun hearly => ?_⟩
        · rw [hp] at hn
          cases hn
        · rw [hp] at ht
          cases ht
        · rw [hc]
          cases active with
          | true =>
            rw [h.active hactive]
            exact ⟨_, 0, .success, rfl⟩
          | false =>
            obtain ⟨done, n, hdone, hcalls⟩ := h.finished hactive
            refine ⟨done, n + 1, hdone, ?_⟩
            rw [hcalls, List.append_assoc, List.replicate_succ']
            rfl
        · rw [hs] at hearly
          have hnone := h.early hearly
          rw [hactive] at hnone
          cases hnone
  | exception severity type sent =>
    by_cases hfatal : severity = 0 ∧ j.prologActive = some true
    · rw [Event.prologCalls, if_pos hfatal, h.active hfatal.2] at hc
      rw [Event.prolog, if_pos hfatal] at hp
      refine ⟨fun hn => ?_, fun ht => ?_, fun _ => ⟨_, 0, .failure, hc⟩, fun hearly => ?_⟩
      · rw [hp] at hn
        cases hn
      · rw [hp] at ht
        cases ht
      · rw [hs, Event.update, if_pos hfatal.1] at hearly
        exact absurd hearly j.cleanup_late
    · refine h.of_same (if_neg hfatal) (if_neg hfatal) fun hearly => ?_
      dsimp only [Event.update] at hearly
      split at hearly
      · exact absurd hearly j.cleanup_late
      · exact h.early hearly
  | finish => exact h.of_same rfl rfl fun hearly => absurd hearly (Job.cleanup_late _)
  | inactive =>
    refine h.of_same rfl rfl fun hearly => ?_
    rcases hearly with hearly | hearly <;> cases hearly
  | _ => exact h.of_same rfl rfl h.early

/-- The prolog is finished at most once, and with success only when the environment has
been posted. -/
structure Job.Disciplined (j : Job) : Prop where
  once : j.prologCalls.countP (fun c => c matches .finish _) ≤ 1
  environment : ∀ pre post, j.prologCalls = pre ++ .finish 0 :: post → .environment ∈ pre

/-- The prolog was started and has not been finished. -/
def Job.PrologOpen (j : Job) : Prop := .start ∈ j.prologCalls ∧ ∀ status, .finish status ∉ j.prologCalls

theorem PrologEnd.mem {done : List PrologCall} (h : PrologEnd done) :
    ∃ status, .finish status ∈ done := by
  cases h with
  | success => exact ⟨0, by decide⟩
  | failure => exact ⟨1, by decide⟩

theorem Prologued.open_iff (h : Prologued j) : j.PrologOpen ↔ j.prologActive = some true := by
  constructor
  · rintro ⟨hstart, hopen⟩
    match hactive : j.prologActive with
    | none =>
      rw [h.absent hactive] at hstart
      cases hstart
    | some false =>
      obtain ⟨done, n, hdone, hcalls⟩ := h.finished hactive
      obtain ⟨status, hmem⟩ := hdone.mem
      exact absurd (hcalls ▸ List.mem_append_left _ hmem) (hopen status)
    | some true => rfl
  · intro hactive
    rw [Job.PrologOpen, h.active hactive]
    simp

theorem PrologEnd.append_eq {done : List PrologCall} (h : PrologEnd done) {n : Nat}
    {pre post : List PrologCall}
    (heq : done ++ List.replicate n .environment = pre ++ .finish 0 :: post) : .environment ∈ pre := by
  match pre with
  | [] => cases h <;> simp at heq
  | [c] => cases h <;> simp at heq
  | c :: c' :: rest =>
    cases h with
    | success =>
      have henv : c' = .environment := by simpa using (List.cons.inj (List.cons.inj heq).2).1.symm
      exact henv ▸ List.mem_cons_of_mem c (List.mem_cons_self ..)
    | failure =>
      -- nothing but the environment follows the failed finish
      have hrest : List.replicate n PrologCall.environment = rest ++ .finish 0 :: post :=
        (List.cons.inj (List.cons.inj heq).2).2
      have hmem : PrologCall.finish 0 ∈ List.replicate n PrologCall.environment := by
        rw [hrest]
        exact List.mem_append_right _ (List.mem_cons_self ..)
      cases List.eq_of_mem_replicate hmem

theorem Prologued.disciplined (h : Prologued j) : j.Disciplined := by
  match hactive : j.prologActive with
  | none =>
    have hcalls := h.absent hactive
    exact ⟨by rw [hcalls]; decide, fun pre post heq => by rw [hcalls] at heq; simp at heq⟩
  | some true =>
    have hcalls := h.active hactive
    refine ⟨by rw [hcalls]; decide, fun pre post heq => ?_⟩
    rw [hcalls] at heq
    cases pre <;> simp at heq
  | some false =>
    obtain ⟨done, n, hdone, hcalls⟩ := h.finished hactive
    refine ⟨?_, fun pre post heq => hdone.append_eq (hcalls.symm.trans heq)⟩
    rw [hcalls, List.countP_append, List.countP_replicate, if_neg (by decide)]
    cases hdone <;> decide

/-- The plugin, where the service's requests find the aux item. -/
def prologMachine (timeout : Bool) : Machine Job Event := (jobtapMachine timeout).restrict AuxPresent

/-- **The prolog is disciplined** in every state of a run, and it is not active when the
callback of a fatal exception returns. -/
theorem prolog_discipline (timeout : Bool) (es : List Event)
    (hp : (prologMachine timeout).Possible (prologMachine timeout).init es) :
    (prologMachine timeout).Always Job.Disciplined (prologMachine timeout).init es ∧
      ∀ pre type sent post, es = pre ++ .exception 0 type sent :: post →
        ¬ ((prologMachine timeout).run (prologMachine timeout).init
          (pre ++ [.exception 0 type sent])).PrologOpen := by
  have hstep : ∀ j e, Prologued j → (prologMachine timeout).enabled j e → True →
      Prologued ((prologMachine timeout).next j e) :=
    fun j e h he _ => prologued_apply timeout j e h (fun _ => he.1) he.2
  refine ⟨Machine.always_from Prologued (fun j h => h.disciplined) hstep prologued_init hp, ?_⟩
  intro pre type sent post heq
  rw [heq, Machine.Possible, Machine.legal_append, Machine.legal_cons] at hp
  have hinv : Prologued ((prologMachine timeout).run (prologMachine timeout).init pre) :=
    Machine.invariant Prologued prologued_init hstep hp.1
  have hnext := hstep _ _ hinv hp.2.1 trivial
  rw [Machine.run_append, Machine.run_cons, Machine.run_nil, hnext.open_iff]
  show ¬ (Event.apply timeout _ _).prologActive = some true
  rw [prologActive_apply, Event.prolog]
  split
  · simp
  · rename_i hno
    exact fun hactive => hno ⟨rfl, hactive⟩

/-- The job fails to set up, and a second exception comes after the first. -/
def failedSetup : List Event :=
  [.depend 0 .ok, .createResponse .success, .run {}, .fetchR (some ["node1"]) true .ok,
    .setupResponse .failure, .exception 0 (some "dws-setup") true, .exception 0 (some "dws-setup") true]

instance (j : Job) : (e : Event) → Decidable (AuxPresent j e)
  | .prologRemove false => decidable_of_iff (j.prologActive ≠ none) ⟨fun h _ => h, fun h => h rfl⟩
  | .prologRemove true | .depend _ _ | .createResponse _ | .run _ | .fetchR _ _ _ | .setupResponse _ | .startRequest
  | .start | .finish | .finishCb _ | .exception _ _ _ | .cleanupCb _ | .postRunResponse _ | .epilogRemove _
  | .epilogTimer | .inactive => .isTrue nofun

instance (timeout : Bool) (j : Job) (e : Event) : Decidable ((prologMachine timeout).enabled j e) :=
  inferInstanceAs (Decidable (e.Enabled j ∧ AuxPresent j e))

theorem failedSetup_disciplined :
    (prologMachine false).Always Job.Disciplined (prologMachine false).init failedSetup ∧
      ¬ ((prologMachine false).run (prologMachine false).init failedSetup).PrologOpen := by
  obtain ⟨halways, hclosed⟩ := prolog_discipline false failedSetup (by decide)
  exact ⟨halways, hclosed failedSetup.dropLast (some "dws-setup") true [] rfl⟩

/-! ### One environment event -/

/-- The environment is posted at most once, and before the prolog is finished. -/
structure Job.EnvironmentOnce (j : Job) : Prop where
  once : j.prologCalls.count .environment ≤ 1
  before : ∀ pre post, j.prologCalls = pre ++ .environment :: post → ∀ status, .finish status ∉ pre

theorem environmentOnce_append {c : PrologCall} (hc : c ≠ .environment) {calls : List PrologCall}
    (h : ∀ pre post, calls = pre ++ .environment :: post → ∀ status, .finish status ∉ pre)
    (pre post : List PrologCall) (heq : calls ++ [c] = pre ++ .environment :: post) (status : Nat) :
    .finish status ∉ pre := by
  rcases List.eq_nil_or_concat post with rfl | ⟨rest, last, rfl⟩
  · exact absurd (List.append_inj_right' heq rfl) (by simp [hc])
  · rw [List.concat_eq_append, ← List.cons_append, ← List.append_assoc] at heq
    exact h pre rest (List.append_inj_left' heq rfl) status

theorem Job.EnvironmentOnce.append {j' : Job} (c : PrologCall) (h : j.EnvironmentOnce)
    (hc : c ≠ .environment) (hcalls : j'.prologCalls = j.prologCalls ++ [c]) : j'.EnvironmentOnce := by
  refine ⟨?_, ?_⟩
  · rw [hcalls, List.count_append, List.count_singleton, if_neg (by simp [hc])]
    exact h.once
  · rw [hcalls]
    exact environmentOnce_append hc h.before

theorem Job.EnvironmentOnce.of_eq {j' : Job} (h : j.EnvironmentOnce)
    (hcalls : j'.prologCalls = j.prologCalls) : j'.EnvironmentOnce :=
  ⟨hcalls ▸ h.once, hcalls ▸ h.before⟩

/-- A request to remove the prolog keeps the environment single exactly while the prolog
is active. -/
theorem environmentOnce_apply_iff (timeout : Bool) (j : Job) (e : Event) (h : Prologued j)
    (honce : j.EnvironmentOnce) (haux : AuxPresent j e) :
    (e.apply timeout j).EnvironmentOnce ↔ (e = .prologRemove false → j.prologActive = some true) := by
  have hcalls := prologCalls_apply timeout j e
  by_cases hremove : e = .prologRemove false
  · subst hremove
    rw [Event.prologCalls] at hcalls
    match hactive : j.prologActive with
    | none => exact absurd hactive (haux rfl)
    | some true =>
      rw [hactive, h.active hactive] at hcalls
      refine ⟨fun _ _ => rfl, fun _ => ⟨by rw [hcalls]; decide, fun pre post heq status hmem => ?_⟩⟩
      rw [hcalls] at heq
      match pre with
      | [] => cases hmem
      | [c] =>
        have hstart : c = .start := (List.cons.inj heq).1.symm
        rw [hstart, List.mem_singleton] at hmem
        cases hmem
      | c :: c' :: rest => cases rest <;> simp at heq
    | some false =>
      refine ⟨fun hnext => ?_, fun hg => by cases hg rfl⟩
      obtain ⟨done, n, hdone, hover⟩ := h.finished hactive
      obtain ⟨status, hmem⟩ := hdone.mem
      rw [hactive] at hcalls
      exact absurd (hover ▸ List.mem_append_left _ hmem) (hnext.before _ _ hcalls status)
  · refine ⟨fun _ hr => absurd hr hremove, fun _ => ?_⟩
    have hnil : e.prologCalls j = [] → (e.apply timeout j).EnvironmentOnce := fun hnil =>
      honce.of_eq (by rw [hcalls, hnil, List.append_nil])
    cases e with
    | run c =>
      by_cases hm : c.malloc = true
      · exact honce.append .start (by decide) (hcalls.trans (by rw [Event.prologCalls, if_pos hm]))
      · exact hnil (if_neg hm)
    | exception severity type sent =>
      by_cases hfatal : severity = 0 ∧ j.prologActive = some true
      · exact honce.append (.finish 1) (by decide) (hcalls.trans (by rw [Event.prologCalls, if_pos hfatal]))
      · exact hnil (if_neg hfatal)
    | prologRemove malformed =>
      cases malformed with
      | true => exact hnil rfl
      | false => exact absurd rfl hremove
    | _ => exact hnil rfl

end Jobtap

open Jobtap

/-- The event of the job that an action makes. -/
def Action.event? : Action → Option Event
  | .job e => some e
  | .lookup R calloc setup => some (.fetchR R calloc setup)
  | .reply m => m.event
  | .remove r => some r.event
  | _ => none

theorem job_next (cfg : Config) (timeout : Bool) (s : System) (a : Action) :
    (a.next cfg timeout s).job = (a.event?.map fun e => e.apply timeout s.job).getD s.job := by
  cases a with
  | reply m =>
    dsimp only [Action.next, Action.event?]
    cases m.event <;> rfl
  | watch n o =>
    dsimp only [Action.next]
    cases s.versions[n]? <;> rfl
  | timer i o =>
    dsimp only [Action.next]
    cases s.service.timers[i]? <;> rfl
  | teardown =>
    dsimp only [Action.next]
    cases currentWorkflow s.versions <;> rfl
  | _ => rfl

theorem Reply.isMessage {m : Reply} {e : Event} (h : m.event = some e) : e.isMessage = true := by
  obtain ⟨rpc, success⟩ := m
  cases rpc <;> cases h <;> rfl

/-- A request to remove the prolog is always one of the service. -/
theorem Action.event?_eq_prologRemove {s : System} {a : Action} (he : a.Enabled s) :
    a.event? = some (.prologRemove false) ↔ a = .remove .prolog := by
  constructor
  · intro h
    cases a with
    | job e =>
      obtain rfl := Option.some.inj h
      cases he.1
    | lookup R calloc setup => cases h
    | reply m =>
      obtain ⟨rpc, success⟩ := m
      cases rpc <;> cases h
    | remove r =>
      cases r with
      | prolog => rfl
      | epilog => cases h
    | _ => cases h
  · rintro rfl
    rfl

theorem Action.event?_enabled {s : System} {a : Action} {e : Event} (he : a.Enabled s)
    (h : a.event? = some e) (hm : e.isMessage = false) : e.Enabled s.job := by
  cases a with
  | job e' =>
    obtain rfl := Option.some.inj h
    exact he.2
  | lookup R calloc setup =>
    obtain rfl := Option.some.inj h
    cases hm
  | reply m =>
    rw [Reply.isMessage h] at hm
    cases hm
  | remove r =>
    obtain rfl := Option.some.inj h
    cases r <;> cases hm
  | _ => cases h

/-- The aux item is there when the service asks to remove the prolog. -/
def AuxKept (s : System) (a : Action) : Prop := a = .remove .prolog → s.job.prologActive ≠ none

/-- The service's request to remove the prolog comes while the prolog is active. -/
def RemovesActive (s : System) (a : Action) : Prop := a = .remove .prolog → s.job.prologActive = some true

/-- The system, where the service's requests find the aux item. -/
def auxMachine (cfg : Config) (timeout : Bool) : Machine System Action :=
  (systemMachine cfg timeout).restrict AuxKept

theorem auxPresent_of_kept {s : System} {a : Action} {e : Event} (he : a.Enabled s) (hk : AuxKept s a)
    (h : a.event? = some e) : AuxPresent s.job e := by
  rintro rfl
  exact hk ((Action.event?_eq_prologRemove he).mp h)

theorem prologued_next (cfg : Config) (timeout : Bool) (s : System) (a : Action) (h : Prologued s.job)
    (he : a.Enabled s) (hk : AuxKept s a) : Prologued (a.next cfg timeout s).job := by
  rw [job_next]
  cases hevent : a.event? with
  | none => exact h
  | some e =>
    exact prologued_apply timeout s.job e h (Action.event?_enabled he hevent) (auxPresent_of_kept he hk hevent)

theorem environmentOnce_next_iff (cfg : Config) (timeout : Bool) (s : System) (a : Action)
    (h : Prologued s.job) (honce : s.job.EnvironmentOnce) (he : a.Enabled s) (hk : AuxKept s a) :
    (a.next cfg timeout s).job.EnvironmentOnce ↔ RemovesActive s a := by
  rw [job_next, RemovesActive, ← Action.event?_eq_prologRemove he]
  cases hevent : a.event? with
  | none => exact ⟨fun _ hnone => (by cases hnone), fun _ => honce⟩
  | some e =>
    rw [Option.some_inj]
    exact environmentOnce_apply_iff timeout s.job e h honce (auxPresent_of_kept he hk hevent)

/-- **The environment is posted once**, and before the prolog is finished, in every state
of a run exactly when every request of the service to remove the prolog comes while the
prolog is active. -/
theorem environment_iff_active (cfg : Config) (timeout : Bool) (as : List Action)
    (hp : (auxMachine cfg timeout).Possible (auxMachine cfg timeout).init as) :
    (auxMachine cfg timeout).Always (fun s => s.job.EnvironmentOnce) (auxMachine cfg timeout).init as ↔
      (auxMachine cfg timeout).Legal RemovesActive (auxMachine cfg timeout).init as := by
  have hinit : ({} : Job).EnvironmentOnce :=
    ⟨Nat.zero_le 1, fun pre post heq => absurd heq.symm (by simp [Job.prologCalls, Job.view])⟩
  have hinv : ∀ (s : System) (a : Action),
      Prologued s.job → (auxMachine cfg timeout).enabled s a → RemovesActive s a →
      Prologued ((auxMachine cfg timeout).next s a).job :=
    fun s a h he _ => prologued_next cfg timeout s a h he.1 he.2
  have hstep : ∀ (s : System) (a : Action),
      Prologued s.job → s.job.EnvironmentOnce → (auxMachine cfg timeout).enabled s a →
      (((auxMachine cfg timeout).next s a).job.EnvironmentOnce ↔ RemovesActive s a) :=
    fun s a h honce he => environmentOnce_next_iff cfg timeout s a h honce he.1 he.2
  exact Machine.always_iff_legal (fun s : System => Prologued s.job) hinv hstep prologued_init hinit hp

instance (s : System) : (a : Action) → Decidable (AuxKept s a)
  | .remove .prolog => decidable_of_iff (s.job.prologActive ≠ none) ⟨fun h _ => h, fun h => h rfl⟩
  | .remove .epilog | .job _ | .lookup _ _ _ | .reply _ | .serve _ _ | .watch _ _ | .timer _ _ | .killInTc _ _
  | .status _ | .teardown | .vanish => .isTrue nofun

instance (s : System) : (a : Action) → Decidable (RemovesActive s a)
  | .remove .prolog => decidable_of_iff (s.job.prologActive = some true) ⟨fun h _ => h, fun h => h rfl⟩
  | .remove .epilog | .job _ | .lookup _ _ _ | .reply _ | .serve _ _ | .watch _ _ | .timer _ _ | .killInTc _ _
  | .status _ | .teardown | .vanish => .isTrue nofun

instance (cfg : Config) (timeout : Bool) (s : System) (a : Action) :
    Decidable ((auxMachine cfg timeout).enabled s a) :=
  inferInstanceAs (Decidable (a.Enabled s ∧ AuxKept s a))

/-- The event of the completed PreRun is reported again when the tasks run. -/
def reportedTwice : List Action := running ++ [.watch 0 {}, .remove .prolog]

set_option maxRecDepth 4000 in
theorem reportedTwice_possible :
    (auxMachine nodeConfig false).Possible (auxMachine nodeConfig false).init reportedTwice := by
  decide

theorem reportedTwice_not_once :
    (auxMachine nodeConfig false).Possible (auxMachine nodeConfig false).init reportedTwice ∧
      ¬ (auxMachine nodeConfig false).Always (fun s => s.job.EnvironmentOnce)
        (auxMachine nodeConfig false).init reportedTwice := by
  refine ⟨reportedTwice_possible, fun h => ?_⟩
  exact absurd h.last.once (by set_option maxRecDepth 4000 in decide)

set_option maxRecDepth 4000 in
theorem completed_environmentOnce : (auxMachine nodeConfig false).Always (fun s => s.job.EnvironmentOnce)
    (auxMachine nodeConfig false).init completed :=
  (environment_iff_active nodeConfig false completed (by decide)).mpr (by decide)

end FluxCoral2.Dws
