import FluxCoral2.Dws.Prolog
import FluxCoral2.Dws.ShellPlugin
import FluxCoral2.Eventlog.Readers

/-! The variables of a job, from its workflow to its shells.

The service sends the variables for each event of a completed PreRun, the plugin posts what it
is sent, others post to the eventlog too, and each shell of the job reads of it on its own.
`job_variables`: in every order of these steps, the shells that go on have set the variables
that were sent first, and a shell is without them only because of an exception that came before
them.

The job is started when its prolog is over, so it is the prolog that keeps a start from being
read before the variables (`Agreed`). -/
namespace FluxCoral2.Dws.JobEnvironment
open Library Eventlog Library.Environ
open Jobtap (Job)

variable {jsonLoads : Text → Option Json} {b64decode : Text → Option Text} {timeout : Bool}

/-! ### The system -/

/-- The job, the lines of its eventlog, and the variables that the service has sent for it, some
of which the plugin has not been given yet. -/
structure System where
  job : Job := {}
  log : List Text := []
  sent : List Variables := []
  pending : List Variables := []

/-- The line of a `dws_environment` event. -/
def TellsVariables (jsonLoads : Text → Option Json) (line : Text) (vars : Variables) : Prop :=
  ∃ context, Entry jsonLoads line dwsEnvironment (some context) ∧
    context.get? keyVariables = some (.object vars.entries)

def IsStart (jsonLoads : Text → Option Json) (line : Text) : Prop :=
  ∃ context, Entry jsonLoads line start context

def IsException (jsonLoads : Text → Option Json) (line : Text) (severity : Nat) : Prop :=
  ∃ context, Entry jsonLoads line exception (some context) ∧
    context.get? keySeverity = some (.integer (BitVec.ofNat 64 severity))

/-- The line of an exception that a shell takes for a fatal one. -/
def IsFatalException (jsonLoads : Text → Option Json) (line : Text) : Prop :=
  ∃ name context, Entry jsonLoads line name context ∧ cString name = exception ∧ isFatal context

/-- The events that come with lines of the eventlog. The callback of an exception may be made once
more for a line that is there. -/
def Logs (jsonLoads : Text → Option Json) (log : List Text) : Jobtap.Event → Option Text → Prop
  | .start, line => ∃ text, line = some text ∧ IsStart jsonLoads text
  | .exception severity _ _, some text => IsException jsonLoads text severity
  | .exception severity _ _, none => ∃ text ∈ log, IsException jsonLoads text severity
  | _, line => line = none

/-- The service handles a completed PreRun; the plugin is given what is pending, and posts a line;
the other events of the job; and what others post. -/
inductive Step
  | workflow (secretsApi : SecretsApi) (status : WorkflowStatus)
  | deliver (line : Text)
  | own (e : Jobtap.Event) (line : Option Text)
  | post (line : Text)

def Step.Enabled (jsonLoads : Text → Option Json) (s : System) : Step → Prop
  | .workflow _ _ => True
  | .deliver line => ∃ vars, s.pending.head? = some vars ∧ TellsVariables jsonLoads line vars
  | .own e line => e ≠ .prologRemove false ∧ e.Enabled s.job ∧ Logs jsonLoads s.log e line
  | .post line => ∃ name context, Entry jsonLoads line name context ∧
    cString name ∉ [dwsEnvironment, start, exception]

def Step.next (b64decode : Text → Option Text) (timeout : Bool) (s : System) : Step → System
  | .workflow secretsApi status =>
    let vars := (fetchJobEnvironment b64decode secretsApi status).toList
    {s with sent := s.sent ++ vars, pending := s.pending ++ vars}
  | .deliver line => {s with
      job := (Jobtap.Event.prologRemove false).apply timeout s.job
      log := s.log ++ [line]
      pending := s.pending.tail}
  | .own e line => {s with job := e.apply timeout s.job, log := s.log ++ line.toList}
  | .post line => {s with log := s.log ++ [line]}

def environmentMachine (jsonLoads : Text → Option Json) (b64decode : Text → Option Text) (timeout : Bool) :
    Machine System Step :=
  ⟨{}, Step.Enabled jsonLoads, Step.next b64decode timeout⟩

/-! ### Shells -/

/-- A shell of a job with a `dw` attribute. -/
structure Shell where
  calls : Calls := {}
  dw : Json
  env : Environment

/-- What comes of a shell behind some lines, which came when they came. -/
def Shell.run (jsonLoads : Text → Option Json) (shell : Shell) (responses : List Response) : Result :=
  dwsEnvironmentInit shell.calls (some (some shell.dw))
    (eventlogWaitFor jsonLoads dwsEnvironment (-1) responses).outcome shell.env

/-- Some shell has seen so much of the eventlog, and this came of it. -/
structure Comes (jsonLoads : Text → Option Json) (s : System) (shell : Shell) (seen : List Text) (result : Result) :
    Prop where
  part : seen <+: s.log
  comes : ∃ responses, responses.map Response.line = seen.map some ∧ shell.run jsonLoads responses = result

/-- What the shells of the job do with the variables that were sent first. -/
structure JobVariables (jsonLoads : Text → Option Json) (s : System) : Prop where
  sets : ∀ shell seen env, Comes jsonLoads s shell seen (.done env) → ∃ vars strings,
    s.sent.head? = some vars ∧ vars.entries = asJson strings ∧
      ∀ name, env.get? name = (valueOf (asVars strings) name).or (shell.env.get? name)
  fails : ∀ shell seen, Comes jsonLoads s shell seen .failed → shell.calls.eventWatch = true →
    (∀ name, shell.calls.setenv name = true) →
    (∃ vars, s.sent.head? = some vars ∧ ∀ strings, vars.entries ≠ asJson strings) ∨
      ∃ before line after, s.log = before ++ line :: after ∧ IsFatalException jsonLoads line ∧
        ∀ earlier ∈ before, ¬ IsStart jsonLoads earlier ∧ ∀ vars, ¬ TellsVariables jsonLoads earlier vars
  waits : ∀ shell seen, Comes jsonLoads s shell seen .waiting → ∀ line ∈ seen,
    ¬ Surpasses jsonLoads line ∧ ∀ vars, ¬ TellsVariables jsonLoads line vars

/-! ### What a line says -/

theorem dwsEnvironment_ne : dwsEnvironment ≠ start ∧ dwsEnvironment ≠ exception := by decide

theorem cString_names : cString dwsEnvironment = dwsEnvironment ∧ cString start = start ∧
    cString exception = exception := by decide

section
variable {line : Text}

theorem TellsVariables.verdict {vars : Variables} (h : TellsVariables jsonLoads line vars) : ∃ context,
    verdict jsonLoads dwsEnvironment line = some (.returned (some context)) ∧
      context.get? keyVariables = some (.object vars.entries) := by
  obtain ⟨context, hentry, hvars⟩ := h
  obtain ⟨hstart, hexception⟩ := dwsEnvironment_ne
  exact ⟨context, (verdict_iff hstart hexception).mpr (.wanted hentry cString_names.1), hvars⟩

theorem IsStart.surpasses (h : IsStart jsonLoads line) : Surpasses jsonLoads line := by
  obtain ⟨context, hentry⟩ := h
  exact ⟨_, _, hentry, .inl cString_names.2.1⟩

theorem IsException.fatal (h : IsException jsonLoads line 0) : IsFatalException jsonLoads line := by
  obtain ⟨context, hentry, hseverity⟩ := h
  exact ⟨_, _, hentry, cString_names.2.2, isFatal_iff.mpr ⟨_, hseverity, rfl⟩⟩

theorem IsFatalException.surpasses (h : IsFatalException jsonLoads line) : Surpasses jsonLoads line := by
  obtain ⟨name, context, hentry, hname, hfatal⟩ := h
  exact ⟨name, context, hentry, .inr ⟨hname, hfatal⟩⟩

theorem verdict_of_surpasses (h : Surpasses jsonLoads line) :
    verdict jsonLoads dwsEnvironment line = some (.returned none) :=
  h.verdict dwsEnvironment_ne.1 dwsEnvironment_ne.2

/-- An exception is passed, or is a fatal one. -/
theorem IsException.verdict {severity : Nat} (h : IsException jsonLoads line severity) :
    verdict jsonLoads dwsEnvironment line = none ∨
      verdict jsonLoads dwsEnvironment line = some (.returned none) ∧ IsFatalException jsonLoads line := by
  obtain ⟨context, hentry, -⟩ := h
  by_cases hfatal : isFatal (some context)
  · have h : IsFatalException jsonLoads line := ⟨_, _, hentry, cString_names.2.2, hfatal⟩
    exact .inr ⟨verdict_of_surpasses h.surpasses, h⟩
  · refine .inl (Option.eq_none_iff_forall_ne_some.mpr fun o hv => hfatal ?_)
    have hforeign : Foreign jsonLoads dwsEnvironment line := ⟨_, _, hentry, by decide⟩
    obtain ⟨-, name, context', hentry', hcase⟩ := hforeign.verdict dwsEnvironment_ne.1 dwsEnvironment_ne.2 hv
    obtain ⟨rfl, rfl⟩ := hentry.unique hentry'
    exact (hcase.resolve_left (by decide)).2

end

/-! ### The invariant -/

/-- What the eventlog decides: nothing as long as the prolog is not over; then the variables that
were sent first, or that a fatal exception came before them and before a start. -/
structure Agreed (jsonLoads : Text → Option Json) (s : System) : Prop where
  waiting : decision jsonLoads dwsEnvironment s.log = .waiting →
    s.pending = s.sent ∧ s.job.prologActive ≠ some false ∧ s.job.startRequested = false
  told : ∀ context, decision jsonLoads dwsEnvironment s.log = .returned (some context) →
    ∃ vars, s.sent.head? = some vars ∧ context.get? keyVariables = some (.object vars.entries)
  fatal : decision jsonLoads dwsEnvironment s.log = .returned none → ∃ before line after,
    s.log = before ++ line :: after ∧ IsFatalException jsonLoads line ∧
      ∀ earlier ∈ before, verdict jsonLoads dwsEnvironment earlier = none
  read : ∀ error, decision jsonLoads dwsEnvironment s.log ≠ .failed error

theorem agreed_init : Agreed jsonLoads {} := ⟨fun _ => ⟨rfl, nofun, rfl⟩, nofun, nofun, nofun⟩

/-- What is decided stays so. -/
theorem Agreed.of_decided {s s' : System} (h : Agreed jsonLoads s)
    (hdone : decision jsonLoads dwsEnvironment s.log ≠ .waiting) (hlog : s.log <+: s'.log)
    (hsent : s.sent <+: s'.sent) : Agreed jsonLoads s' := by
  obtain ⟨more, hmore⟩ := hlog
  obtain ⟨later, hlater⟩ := hsent
  have hsame : decision jsonLoads dwsEnvironment s'.log = decision jsonLoads dwsEnvironment s.log := by
    rw [← hmore]
    exact decision_append_of_ne hdone more
  refine ⟨fun hwaiting => absurd (hsame ▸ hwaiting) hdone, fun context htold => ?_, fun hnone => ?_,
    fun error => hsame ▸ h.read error⟩
  · obtain ⟨vars, hhead, hvars⟩ := h.told context (hsame ▸ htold)
    refine ⟨vars, ?_, hvars⟩
    rw [← hlater, List.head?_append, hhead]
    rfl
  · obtain ⟨before, line, after, hsplit, hfatal, hbefore⟩ := h.fatal (hsame ▸ hnone)
    refine ⟨before, line, after ++ more, ?_, hfatal, hbefore⟩
    rw [← hmore, hsplit, List.append_assoc]
    rfl

/-- A line that is passed decides nothing. -/
theorem Agreed.of_passed {s s' : System} (h : Agreed jsonLoads s) {line : Text}
    (hwaiting : decision jsonLoads dwsEnvironment s.log = .waiting) (hlog : s'.log = s.log ++ [line])
    (hpassed : verdict jsonLoads dwsEnvironment line = none) (hsent : s'.sent = s.sent)
    (hpending : s'.pending = s.pending) (hprolog : s'.job.prologActive ≠ some false)
    (hstart : s'.job.startRequested = false) : Agreed jsonLoads s' := by
  have hsame : decision jsonLoads dwsEnvironment s'.log = .waiting := by
    rw [hlog, decision_append_of_waiting hwaiting, hpassed]
    rfl
  refine ⟨fun _ => ⟨?_, hprolog, hstart⟩, fun context htold => ?_, fun hnone => ?_, fun error hfailed => ?_⟩
  · rw [hpending, hsent]
    exact (h.waiting hwaiting).1
  · rw [hsame] at htold
    cases htold
  · rw [hsame] at hnone
    cases hnone
  · rw [hsame] at hfailed
    cases hfailed

/-- A fatal exception is the first line that decides. -/
theorem Agreed.of_fatal {s s' : System} {line : Text}
    (hwaiting : decision jsonLoads dwsEnvironment s.log = .waiting) (hlog : s'.log = s.log ++ [line])
    (hfatal : IsFatalException jsonLoads line) : Agreed jsonLoads s' := by
  have hsame : decision jsonLoads dwsEnvironment s'.log = .returned none := by
    rw [hlog, decision_append_of_waiting hwaiting, verdict_of_surpasses hfatal.surpasses]
    rfl
  refine ⟨fun hno => ?_, fun context htold => ?_, fun _ => ⟨s.log, line, [], hlog, hfatal, ?_⟩, fun error hfailed => ?_⟩
  · rw [hsame] at hno
    cases hno
  · rw [hsame] at htold
    cases htold
  · intro earlier hmem
    by_contra hdecides
    obtain ⟨o, hv⟩ := Option.ne_none_iff_exists'.mp hdecides
    exact decision_ne_waiting hmem hv hwaiting
  · rw [hsame] at hfailed
    cases hfailed

/-- As long as nothing is decided, no event of the job ends the prolog, or asks for the start. -/
theorem own_undecided (timeout : Bool) {s : System} (h : Agreed jsonLoads s)
    (hwaiting : decision jsonLoads dwsEnvironment s.log = .waiting) {e : Jobtap.Event} {line : Option Text}
    (hno : e ≠ .prologRemove false) (he : e.Enabled s.job) (hlogs : Logs jsonLoads s.log e line)
    (hpassed : ∀ text, line = some text → verdict jsonLoads dwsEnvironment text = none) :
    (e.apply timeout s.job).prologActive ≠ some false ∧ (e.apply timeout s.job).startRequested = false := by
  obtain ⟨-, hprolog, hstart⟩ := h.waiting hwaiting
  rw [Jobtap.prologActive_apply, (Jobtap.kept_apply timeout s.job e).startRequested]
  cases e with
  | prologRemove malformed =>
    cases malformed with
    | true => exact ⟨hprolog, hstart⟩
    | false => exact absurd rfl hno
  | run c =>
    refine ⟨?_, hstart⟩
    dsimp only [Jobtap.Event.prolog]
    split
    · simp
    · exact hprolog
  | startRequest => exact absurd he.2 hprolog
  | exception severity type sent =>
    have hcleanup : ((Jobtap.Event.exception severity type sent).update s.job).startRequested = false := by
      dsimp only [Jobtap.Event.update]
      split
      · unfold Job.cleanup
        split <;> exact hstart
      · exact hstart
    refine ⟨?_, hcleanup⟩
    dsimp only [Jobtap.Event.prolog]
    split
    · rename_i hfatal
      obtain ⟨rfl, -⟩ := hfatal
      -- the line of the exception decides
      cases line with
      | some text =>
        have hv := verdict_of_surpasses (IsException.fatal hlogs).surpasses
        rw [hpassed text rfl] at hv
        cases hv
      | none =>
        obtain ⟨text, hmem, hline⟩ := hlogs
        exact absurd hwaiting (decision_ne_waiting hmem (verdict_of_surpasses hline.fatal.surpasses))
    · exact hprolog
  | finish =>
    refine ⟨hprolog, ?_⟩
    show (Job.cleanup _).startRequested = false
    unfold Job.cleanup
    split <;> exact hstart
  | _ => exact ⟨hprolog, hstart⟩

theorem agreed_workflow {s : System} (h : Agreed jsonLoads s) (secretsApi : SecretsApi) (status : WorkflowStatus) :
    Agreed jsonLoads (Step.next b64decode timeout s (.workflow secretsApi status)) := by
  refine ⟨fun hwaiting => ?_, fun context htold => ?_, h.fatal, h.read⟩
  · obtain ⟨hpending, hjob⟩ := h.waiting hwaiting
    exact ⟨congrArg (· ++ _) hpending, hjob⟩
  · obtain ⟨vars, hhead, hvars⟩ := h.told context htold
    refine ⟨vars, ?_, hvars⟩
    show (s.sent ++ _).head? = some vars
    rw [List.head?_append, hhead]
    rfl

/-- What the plugin is given first was sent first. -/
theorem agreed_deliver {s : System} (h : Agreed jsonLoads s) {line : Text}
    (he : (Step.deliver line).Enabled jsonLoads s) :
    Agreed jsonLoads (Step.next b64decode timeout s (.deliver line)) := by
  by_cases hwaiting : decision jsonLoads dwsEnvironment s.log = .waiting
  · obtain ⟨vars, hhead, htells⟩ := he
    obtain ⟨context, hv, hvars⟩ := htells.verdict
    have hsame : decision jsonLoads dwsEnvironment (s.log ++ [line]) = .returned (some context) := by
      rw [decision_append_of_waiting hwaiting, hv]
      rfl
    refine ⟨fun hno => absurd (hsame.symm.trans hno) nofun, fun context' htold => ?_,
      fun hno => absurd (hsame.symm.trans hno) nofun, fun error hno => absurd (hsame.symm.trans hno) nofun⟩
    obtain rfl : context = context' := by simpa using hsame.symm.trans htold
    exact ⟨vars, (h.waiting hwaiting).1 ▸ hhead, hvars⟩
  · exact h.of_decided hwaiting (List.prefix_append _ _) (List.prefix_refl _)

theorem agreed_own {s : System} (h : Agreed jsonLoads s) {e : Jobtap.Event} {line : Option Text}
    (he : (Step.own e line).Enabled jsonLoads s) :
    Agreed jsonLoads (Step.next b64decode timeout s (.own e line)) := by
  obtain ⟨hno, henabled, hlogs⟩ := he
  by_cases hwaiting : decision jsonLoads dwsEnvironment s.log = .waiting
  · cases line with
    | none =>
      obtain ⟨hprolog, hstart⟩ := own_undecided timeout h hwaiting hno henabled hlogs nofun
      have hlog : (Step.next b64decode timeout s (.own e none)).log = s.log := List.append_nil _
      refine ⟨fun _ => ⟨(h.waiting hwaiting).1, hprolog, hstart⟩, ?_, ?_, ?_⟩ <;> rw [hlog, hwaiting] <;> exact nofun
    | some text =>
      -- a line is that of a start, which comes behind a decision, or of an exception
      have hexception : ∃ severity, IsException jsonLoads text severity := by
        cases e with
        | start =>
          have hrequested := henabled.1
          rw [(h.waiting hwaiting).2.2] at hrequested
          cases hrequested
        | exception severity type sent => exact ⟨severity, hlogs⟩
        | _ => cases hlogs
      obtain ⟨severity, hline⟩ := hexception
      obtain hpassed | ⟨-, hfatal⟩ := hline.verdict
      · obtain ⟨hprolog, hstart⟩ := own_undecided timeout h hwaiting hno henabled hlogs
          fun other hother => Option.some.inj hother ▸ hpassed
        exact h.of_passed hwaiting rfl hpassed rfl rfl hprolog hstart
      · exact .of_fatal hwaiting rfl hfatal
  · exact h.of_decided hwaiting (List.prefix_append _ _) (List.prefix_refl _)

theorem agreed_post {s : System} (h : Agreed jsonLoads s) {line : Text} (he : (Step.post line).Enabled jsonLoads s) :
    Agreed jsonLoads (Step.next b64decode timeout s (.post line)) := by
  by_cases hwaiting : decision jsonLoads dwsEnvironment s.log = .waiting
  · obtain ⟨name, context, hentry, hname⟩ := he
    simp only [List.mem_cons, List.not_mem_nil, or_false, not_or] at hname
    have hpassed : verdict jsonLoads dwsEnvironment line = none := by
      refine Option.eq_none_iff_forall_ne_some.mpr fun o hv => ?_
      have hforeign : Foreign jsonLoads dwsEnvironment line := ⟨name, context, hentry, hname.1⟩
      obtain ⟨-, _, _, hentry', hcase⟩ := hforeign.verdict dwsEnvironment_ne.1 dwsEnvironment_ne.2 hv
      obtain ⟨rfl, rfl⟩ := hentry.unique hentry'
      exact hcase.elim hname.2.1 fun hfatal => hname.2.2 hfatal.1
    obtain ⟨-, hprolog, hstart⟩ := h.waiting hwaiting
    exact h.of_passed hwaiting rfl hpassed rfl rfl hprolog hstart
  · exact h.of_decided hwaiting (List.prefix_append _ _) (List.prefix_refl _)

theorem agreed_next {s : System} (h : Agreed jsonLoads s) {step : Step} (he : step.Enabled jsonLoads s) :
    Agreed jsonLoads (step.next b64decode timeout s) := by
  cases step with
  | workflow secretsApi status => exact agreed_workflow h secretsApi status
  | deliver line => exact agreed_deliver h he
  | own e line => exact agreed_own h he
  | post line => exact agreed_post h he

/-! ### What the shells do -/

/-- A shell that does not wait has decided what the eventlog decides. -/
theorem Comes.reads {s : System} {shell : Shell} {seen : List Text} {result : Result}
    (h : Comes jsonLoads s shell seen result) :
    dwsEnvironmentInit shell.calls (some (some shell.dw)) (decision jsonLoads dwsEnvironment seen) shell.env = result ∧
      (decision jsonLoads dwsEnvironment seen = .waiting ∨
        decision jsonLoads dwsEnvironment seen = decision jsonLoads dwsEnvironment s.log) := by
  obtain ⟨responses, hlines, hrun⟩ := h.comes
  have htimeout : (-1 : ℚ) < 0 := by norm_num
  rw [Shell.run, outcome_eq_decision htimeout hlines] at hrun
  exact ⟨hrun, decision_of_isPrefix h.part⟩

theorem Agreed.jobVariables {s : System} (h : Agreed jsonLoads s) : JobVariables jsonLoads s := by
  refine ⟨fun shell seen env hcomes => ?_, fun shell seen hcomes hwatch hok => ?_,
    fun shell seen hcomes line hmem => ?_⟩
  · obtain ⟨hinit, hseen⟩ := hcomes.reads
    obtain ⟨context, envObject, hdecision, hvars, hset⟩ := init_done hinit
    obtain hwaiting | hsame := hseen
    · rw [hdecision] at hwaiting
      cases hwaiting
    · obtain ⟨vars, hhead, htold⟩ := h.told context (hsame.symm.trans hdecision)
      obtain rfl := Option.some.inj (hvars.symm.trans htold)
      rw [setEnvironment] at hset
      obtain ⟨strings, hstrings⟩ := setMembers_success hset
      rw [hstrings, setMembers_asJson] at hset
      refine ⟨vars, strings, hhead, hstrings, get?_setenvs ?_ hset⟩
      rw [asVars_names, ← asJson_names, ← hstrings]
      exact vars.nodup
  · obtain ⟨hinit, hseen⟩ := hcomes.reads
    cases hdecision : decision jsonLoads dwsEnvironment seen with
    | waiting =>
      rw [hdecision, dwsEnvironmentInit, hwatch] at hinit
      cases hinit
    | failed error =>
      rw [hdecision] at hseen
      exact absurd (hseen.resolve_left nofun).symm (h.read error)
    | returned obj =>
      rw [hdecision] at hseen hinit
      have hlog := (hseen.resolve_left nofun).symm
      cases obj with
      | none =>
        obtain ⟨before, line, after, hsplit, hfatal, hbefore⟩ := h.fatal hlog
        refine .inr ⟨before, line, after, hsplit, hfatal, fun earlier hmem => ⟨fun hstart => ?_, fun vars htells => ?_⟩⟩
        · have hv := verdict_of_surpasses hstart.surpasses
          rw [hbefore earlier hmem] at hv
          cases hv
        · obtain ⟨context, hv, -⟩ := htells.verdict
          rw [hbefore earlier hmem] at hv
          cases hv
      | some context =>
        obtain ⟨vars, hhead, htold⟩ := h.told context hlog
        refine .inl ⟨vars, hhead, fun strings hstrings => ?_⟩
        rw [hstrings] at htold
        obtain ⟨env, hdone⟩ := init_strings shell.dw hwatch hok htold shell.env
        rw [hdone] at hinit
        cases hinit
  · obtain ⟨hinit, -⟩ := hcomes.reads
    have hwaiting := init_waiting hinit
    refine ⟨fun hsurpasses => ?_, fun vars htells => ?_⟩
    · exact decision_ne_waiting hmem (verdict_of_surpasses hsurpasses) hwaiting
    · obtain ⟨context, hv, -⟩ := htells.verdict
      exact decision_ne_waiting hmem hv hwaiting

/-- **The variables of a workflow reach its job**: in every order of the events of the workflow, of
the job and of others, the shells that go on have set the variables that were sent first, and a
shell whose calls do not fail goes on unless they are no strings or a fatal exception came first. -/
theorem job_variables (jsonLoads : Text → Option Json) (b64decode : Text → Option Text) (timeout : Bool)
    (steps : List Step) (hp : (environmentMachine jsonLoads b64decode timeout).Possible
      (environmentMachine jsonLoads b64decode timeout).init steps) :
    (environmentMachine jsonLoads b64decode timeout).Always (JobVariables jsonLoads)
      (environmentMachine jsonLoads b64decode timeout).init steps :=
  Machine.always_from (Agreed jsonLoads) (fun _ h => h.jobVariables) (fun _ _ h he _ => agreed_next h he) agreed_init hp

/-! ### A job with a mount and a token -/

def mountVars : Variables := ⟨[("DW_JOB_my".toList, .string "/mnt/nnf".toList)], by decide⟩

def mountStatus : WorkflowStatus := ⟨some mountVars, some ⟨some "token1".toList, some "default".toList⟩⟩

def oneSecret : SecretsApi := fun _ _ => some ⟨[(keyToken, "c2VjcmV0".toList)], by decide⟩

def environmentText : Text :=
  entryText dwsEnvironment
    (",\"context\":\x7b\"variables\":\x7b\"DW_JOB_my\":\"/mnt/nnf\",\"DW_WORKFLOW_TOKEN\":\"secret\"\x7d\x7d".toList)

def environmentContext : Json :=
  .object [(keyVariables, .object [("DW_JOB_my".toList, .string "/mnt/nnf".toList),
    (dwWorkflowToken, .string "secret".toList)])]

def environmentEntry : Json :=
  .object [(keyName, .string dwsEnvironment), (keyTimestamp, .integer 1), (keyContext, environmentContext)]

/-- The Slingshot plugin posts an event before the variables are there. -/
def mounted : List Step :=
  [.own (.depend 0 .ok) none, .own (.run {}) none, .post (wantedText ++ ['\n']), .workflow oneSecret mountStatus,
    .deliver (environmentText ++ ['\n']), .own .startRequest none]

theorem mounted_jobVariables :
    (environmentMachine (loadsTwo environmentText environmentEntry) (fun _ => some "secret".toList) true).Always
      (JobVariables (loadsTwo environmentText environmentEntry))
      (environmentMachine (loadsTwo environmentText environmentEntry) (fun _ => some "secret".toList) true).init
      mounted := by
  refine job_variables (loadsTwo environmentText environmentEntry) (fun _ => some "secret".toList) true mounted ?_
  have htells : Entry (loadsTwo environmentText environmentEntry) (environmentText ++ ['\n']) dwsEnvironment
      (some environmentContext) := ⟨⟨_, by decide, rfl⟩, ⟨_, loadsTwo_text, rfl, rfl, rfl, rfl⟩, rfl⟩
  have hpost : Entry (loadsTwo environmentText environmentEntry) (wantedText ++ ['\n']) craySlingshot none :=
    ⟨⟨_, by decide, rfl⟩, ⟨_, loadsTwo_wanted (by decide), rfl, rfl, rfl, rfl⟩, rfl⟩
  refine ⟨⟨nofun, rfl, rfl⟩, trivial, ⟨nofun, rfl, rfl⟩, trivial, ⟨_, _, hpost, by decide⟩, trivial, trivial, trivial,
    ⟨_, rfl, _, htells, rfl⟩, trivial, ⟨nofun, ⟨rfl, rfl⟩, rfl⟩, trivial, trivial⟩

end FluxCoral2.Dws.JobEnvironment
