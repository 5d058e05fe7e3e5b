import FluxCoral2.Dws.Constraints
import FluxCoral2.Dws.Jobtap
import FluxCoral2.Library.Machine
import FluxCoral2.Rabbit.Reapplied
import Mathlib.Data.List.ReduceOption

/-! How a job with rabbit storage gets out of DEPEND (`dws-jobtap.c`, `coral2_dws.py`).

The plugin holds a job back with a dependency, until the service has sent the resources that the
job needs with its storage. The service may send them again for every event of the workflow, and
after a restart it knows the resources only from the job's KVS.

`job_admitted`: in every order, a job is released only with the resources that `apply_breakdowns`
makes of those it was submitted with, and with the nodes that all its updates and its own
constraints leave it; and no update changes a job that is released. -/
namespace FluxCoral2.Dws.Admission
open Library Library.Rfc31
open Breakdown (Resource ResourceUpdate ProposalEvent Applied)
open Constraints (Jobspec)
open Jobtap (createDepName)

/-! ### The plugin -/

inductive Phase | new | depend | released | cleanup
  deriving DecidableEq

/-- What the job manager keeps of a job. An exception that was raised keeps it from being released. -/
structure Job where
  phase : Phase := .new
  dependencies : List String := []
  resources : List Resource
  jobspec : Jobspec
  exceptions : List String := []

def Job.raise (job : Job) (type : String) : Job := {job with exceptions := job.exceptions ++ [type]}

def pluginName : String := "dws"

/-- Which calls of `depend_cb` succeed. -/
structure DependCalls where
  unpack : Bool := true
  dependencyAdd : Bool := true
  subscribe : Bool := true
  rpc : Bool := true
  calloc : Bool := true
  auxSet : Bool := true

/-- `depend_cb`, and whether `dws.create` was sent. -/
def dependCb (c : DependCalls) (job : Job) : Job × Bool :=
  if !c.unpack then (job.raise pluginName, false)
  else if !job.jobspec.dw then (job, false)
  else if !c.dependencyAdd then (job.raise pluginName, false)
  else
    let job := {job with dependencies := createDepName :: job.dependencies}
    if !c.subscribe then (job.raise pluginName, false)
    else if !c.rpc then (job.raise pluginName, false)
    else if !c.calloc then (job.raise pluginName, true)
    else if !c.auxSet then (job.raise pluginName, true)
    else (job, true)

def createCb (job : Job) (response : Jobtap.Response) : Job :=
  if response = .success then job else job.raise createDepName

/-- Which calls of `resource_update_msg_cb` succeed. -/
structure UpdateCalls where
  lookup : Bool := true
  constraints : Bool := true
  update : Bool := true
  remove : Bool := true

/-- A `dws.resource-update` RPC; of a malformed one the id may be read. -/
inductive Message
  | malformed (id : Bool)
  | update (u : ResourceUpdate)

/-- What an update makes of the jobspec. -/
def Job.updated (job : Job) (u : ResourceUpdate) : Job := {job with
  resources := u.resources
  jobspec := job.jobspec.resourceUpdate (u.exclude.map Constraints.toRfc31)}

/-- The job, and the response. -/
def resourceUpdateMsgCb (c : UpdateCalls) (job : Job) : Message → Job × Except String Unit
  | .malformed id =>
    (if id then job.raise "exception" else job, .error "received malformed dws.resource-update RPC")
  | .update u =>
    if u.errmsg.isSome then (job.raise pluginName, .ok ())
    else if !c.lookup || job.phase ≠ .depend then (job, .error "job not found in depend state")
    else if u.exclude.isSome && !c.constraints then
      (job.raise pluginName, .error "Could not generate new constraints")
    else if !c.update then
      (job.raise pluginName, .error "could not update jobspec with new constraints and resources")
    else if !c.remove then (job.updated u, .error "Failed to remove dependency for job")
    else ({job.updated u with dependencies := job.dependencies.erase createDepName}, .ok ())

/-! ### The system -/

/-- The job, the resources that its jobspec has had, the request that was sent for it, the resources
that the service has stored with the workflow, the updates it has sent, the Proposal events that it
has handled, and the updates that have changed the jobspec. -/
structure System where
  job : Job
  history : List (List Resource)
  requested : Option (List Resource) := none
  stored : Option (List Resource) := none
  sent : List ResourceUpdate := []
  handled : List ProposalEvent := []
  accepted : List ResourceUpdate := []

/-- The update changes the jobspec. -/
def Accepts (c : UpdateCalls) (job : Job) (u : ResourceUpdate) : Bool :=
  u.errmsg.isNone && (c.lookup && job.phase = .depend) && (u.exclude.isNone || c.constraints) && c.update

/-- The DEPEND callback, when others have added their dependencies; the callback of `dws.create` in the
service, and its response; a Proposal event, for which the service looks up resources unless it has
them; a restart of the service; an RPC to the plugin; and what the job manager does. -/
inductive Step
  | depend (others : List String) (c : DependCalls)
  | create
  | createResponse (response : Jobtap.Response)
  | proposal (event : ProposalEvent) (lookedUp : List Resource)
  | restart
  | message (c : UpdateCalls) (m : Message)
  | dependencyRemove (name : String)
  | release
  | exception (type : String)

/-- A lookup finds what the jobspec is or was; only the plugin removes its dependency. -/
def Step.Enabled (s : System) : Step → Prop
  | .depend others _ => s.job.phase = .new ∧ createDepName ∉ others
  | .create => s.requested.isSome
  | .createResponse _ => s.requested.isSome
  | .proposal _ lookedUp => lookedUp ∈ s.history
  | .restart => True
  | .message _ (.malformed _) => True
  | .message _ (.update u) => u ∈ s.sent
  | .dependencyRemove name => name ≠ createDepName
  | .release => s.job.phase = .depend ∧ s.job.dependencies = [] ∧ s.job.exceptions = []
  | .exception _ => True

/-- `repr` is Python's, and `id` is the job's. -/
def Step.next (repr : String → String) (id : Nat) (s : System) : Step → System
  | .depend others c =>
    let called := dependCb c {s.job with phase := .depend, dependencies := others}
    {s with job := called.1, requested := if called.2 then some s.job.resources else none}
  | .create => {s with stored := s.requested}
  | .createResponse response => {s with job := createCb s.job response}
  | .proposal event lookedUp =>
    {s with
      handled := s.handled ++ [event]
      sent := s.sent ++
        match Breakdown.handleProposalState repr event.settings id event.breakdowns (s.stored.getD lookedUp) with
        | .ok update => update.toList
        | .error _ => []}
  | .restart => {s with stored := none}
  | .message c (.malformed known) => {s with job := (resourceUpdateMsgCb c s.job (.malformed known)).1}
  | .message c (.update u) =>
    let job := (resourceUpdateMsgCb c s.job (.update u)).1
    {s with
      job := job
      history := job.resources :: s.history
      accepted := s.accepted ++ if Accepts c s.job u then [u] else []}
  | .dependencyRemove name => {s with job := {s.job with dependencies := s.job.dependencies.erase name}}
  | .release => {s with job := {s.job with phase := .released}}
  | .exception type => {s with job := {s.job.raise type with phase := .cleanup}}

/-- A job is submitted with a jobspec. -/
def submitted (resources : List Resource) (jobspec : Jobspec) : System where
  job := {resources := resources, jobspec := jobspec}
  history := [resources]

def admissionMachine (repr : String → String) (id : Nat) (resources : List Resource) (jobspec : Jobspec) :
    Machine System Step :=
  ⟨submitted resources jobspec, Step.Enabled, Step.next repr id⟩

/-! ### What a job is to be released with -/

/-- `apply_breakdowns` makes these resources of the original ones. -/
def Sizes (original : List Resource) (event : ProposalEvent) (resources : List Resource) : Prop :=
  Breakdown.applyBreakdowns event.settings.maximums event.settings.minAllocationSize event.breakdowns original =
    .ok (some resources)

/-- The resources are the original ones with their storage; or as they are, where Fluxion does not
schedule rabbits. -/
def Sized (original : List Resource) (handled : List ProposalEvent) (resources : List Resource) : Prop :=
  resources = original ∧ (∃ event ∈ handled, event.settings.disableFluxion = true) ∨
    ∃ event ∈ handled, Sizes original event resources

/-- The constraints of the updates that have changed the jobspec. -/
def System.excludes (s : System) : List (Option Constraint) :=
  s.accepted.map fun u => u.exclude.map Constraints.toRfc31

/-- What a job is released with, and the nodes it may have. -/
structure Admitted (original : List Resource) (jobspec : Jobspec) (s : System) : Prop where
  resources : s.job.phase = .released → Sized original s.handled s.job.resources
  updates : ∀ u ∈ s.accepted, u.errmsg = none ∧ ∃ event ∈ s.handled,
    u.exclude = Breakdown.newConstraint event.settings.disableFluxion event.settings.drainComputeNodes
  nodes : ∀ emptyOr node, s.job.jobspec.allows emptyOr node =
    ((jobspec.allows emptyOr node && s.excludes.reduceOption.all (Constraint.matches emptyOr node)) ||
      (!s.excludes.reduceOption.isEmpty && jobspec.allowRabbits && node.properties "rabbit"))

/-! ### What an update changes -/

theorem update_accepted {c : UpdateCalls} {job : Job} {u : ResourceUpdate} (h : Accepts c job u = true) :
    ∃ dependencies, (resourceUpdateMsgCb c job (.update u)).1 = {job.updated u with dependencies := dependencies} ∧
      job.phase = .depend ∧ u.errmsg = none := by
  simp only [Accepts, Bool.and_eq_true, Bool.or_eq_true, decide_eq_true_eq, Option.isNone_iff_eq_none] at h
  obtain ⟨⟨⟨herrmsg, hlookup, hphase⟩, hconstraints⟩, hupdate⟩ := h
  have hgenerate : (u.exclude.isSome && !c.constraints) = false := by
    obtain hnone | hok := hconstraints
    · rw [hnone]
      rfl
    · rw [hok, Bool.not_true, Bool.and_false]
  refine ⟨if c.remove then job.dependencies.erase createDepName else job.dependencies, ?_, hphase, herrmsg⟩
  simp only [resourceUpdateMsgCb, herrmsg, hlookup, hphase, hgenerate, hupdate]
  cases c.remove <;> rfl

/-- An update that is not accepted changes nothing; it may raise an exception. -/
theorem update_refused {c : UpdateCalls} {job : Job} {u : ResourceUpdate} (h : Accepts c job u = false) :
    ∃ exceptions,
      (resourceUpdateMsgCb c job (.update u)).1 = {job with exceptions := job.exceptions ++ exceptions} := by
  have hsame : job = {job with exceptions := job.exceptions ++ []} := by rw [List.append_nil]
  unfold resourceUpdateMsgCb
  dsimp only
  split
  · exact ⟨_, rfl⟩
  split
  · exact ⟨[], hsame⟩
  split
  · exact ⟨_, rfl⟩
  split
  · exact ⟨_, rfl⟩
  · -- the update would have been accepted
    rename_i herrmsg hlookup hconstraints hupdate
    simp only [Option.not_isSome_iff_eq_none, Bool.or_eq_true, Bool.not_eq_true', decide_eq_true_eq, not_or,
      Bool.not_eq_false, not_not, Bool.and_eq_true, not_and] at herrmsg hlookup hconstraints hupdate
    have haccepts : Accepts c job u = true := by
      simp only [Accepts, herrmsg, hlookup, hupdate, Option.isNone_none, decide_true, Bool.and_true, Bool.true_and,
        Bool.or_eq_true, Option.isNone_iff_eq_none]
      cases hexclude : u.exclude with
      | none => exact .inl rfl
      | some constraint => exact .inr (hconstraints (by rw [hexclude]; rfl))
    rw [h] at haccepts
    cases haccepts

theorem dependCb_spec (c : DependCalls) (job : Job) : ∃ dependencies exceptions,
    (dependCb c job).1 = {job with dependencies := dependencies, exceptions := job.exceptions ++ exceptions} ∧
      (job.jobspec.dw = true → createDepName ∈ dependencies ∨ exceptions ≠ []) := by
  unfold dependCb
  split
  · exact ⟨_, _, rfl, fun _ => .inr nofun⟩
  split
  · rename_i hdw
    refine ⟨job.dependencies, [], by rw [List.append_nil], fun h => ?_⟩
    rw [h] at hdw
    cases hdw
  split
  · exact ⟨_, _, rfl, fun _ => .inr nofun⟩
  dsimp only
  split
  · exact ⟨_, _, rfl, fun _ => .inr nofun⟩
  split
  · exact ⟨_, _, rfl, fun _ => .inr nofun⟩
  split
  · exact ⟨_, _, rfl, fun _ => .inr nofun⟩
  split
  · exact ⟨_, _, rfl, fun _ => .inr nofun⟩
  · exact ⟨createDepName :: job.dependencies, [], by rw [List.append_nil], fun _ => .inl List.mem_cons_self⟩

/-! ### What updates add up to -/

theorem allows_foldl (emptyOr : Bool) (node : Node) (updates : List (Option Constraint)) (job : Jobspec) :
    (updates.foldl Jobspec.resourceUpdate job).allows emptyOr node =
      ((job.allows emptyOr node && updates.reduceOption.all (Constraint.matches emptyOr node)) ||
        (!updates.reduceOption.isEmpty && job.allowRabbits && node.properties "rabbit")) := by
  induction updates generalizing job with
  | nil => simp
  | cons update rest ih =>
    rw [List.foldl_cons, ih]
    cases update with
    | none =>
      rw [List.reduceOption_cons_of_none]
      rfl
    | some c =>
      rw [List.reduceOption_cons_of_some, Constraints.allows_resourceUpdate, List.all_cons, List.isEmpty_cons]
      show ((_ || job.allowRabbits && node.properties "rabbit") && _ || _ && job.allowRabbits && _) = _
      -- what the rest leaves of the rabbits is of no account
      have hempty : rest.reduceOption.isEmpty = true →
          rest.reduceOption.all (Constraint.matches emptyOr node) = true := by
        intro h
        rw [List.isEmpty_iff.mp h]
        rfl
      cases job.allows emptyOr node <;> cases c.matches emptyOr node <;> cases job.allowRabbits <;>
        cases node.properties "rabbit" <;> cases hrest : rest.reduceOption.isEmpty <;>
        cases hall : rest.reduceOption.all (Constraint.matches emptyOr node) <;> simp_all

theorem Sized.mono {original resources : List Resource} {handled handled' : List ProposalEvent}
    (h : Sized original handled resources) (hsub : ∀ e ∈ handled, e ∈ handled') :
    Sized original handled' resources := by
  obtain ⟨hsame, event, he, hfluxion⟩ | ⟨event, he, hsizes⟩ := h
  · exact .inl ⟨hsame, event, hsub event he, hfluxion⟩
  · exact .inr ⟨event, hsub event he, hsizes⟩

/-- Resources that are sized are the original ones, or are recognized. -/
theorem Sized.applied {original resources : List Resource} {handled : List ProposalEvent}
    (h : Sized original handled resources) : resources = original ∨ Applied resources := by
  obtain ⟨hsame, -⟩ | ⟨event, -, hsizes⟩ := h
  · exact .inl hsame
  · exact Breakdown.applyBreakdowns_some hsizes

/-- What an event sends is sized, if the resources that it starts from are the original ones or are
sized already. -/
theorem sized_update {repr : String → String} {jobid : Nat} {original resources : List Resource}
    {handled : List ProposalEvent} {event : ProposalEvent} {u : ResourceUpdate}
    (hresources : resources = original ∨ Sized original handled resources)
    (h : Breakdown.handleProposalState repr event.settings jobid event.breakdowns resources = .ok (some u)) :
    (u.errmsg = none → Sized original (handled ++ [event]) u.resources) ∧
      u.exclude = Breakdown.newConstraint event.settings.disableFluxion event.settings.drainComputeNodes := by
  have hself : event ∈ handled ++ [event] := List.mem_append_right _ List.mem_cons_self
  obtain ⟨⟨sent, errmsg⟩, hsent, h⟩ := Prog.bind_ok h
  cases sent with
  | none => cases h
  | some sent =>
    obtain rfl := Option.some.inj (Except.ok.inj h)
    refine ⟨fun herrmsg => ?_, rfl⟩
    cases hd : event.settings.disableFluxion with
    | true =>
      simp only [Breakdown.updatedResources, hd, if_true] at hsent
      obtain ⟨hsent, -⟩ := Prod.mk.inj (Except.ok.inj hsent)
      obtain rfl := Option.some.inj hsent
      exact hresources.elim (fun hsame => .inl ⟨hsame, event, hself, hd⟩)
        fun hsized => hsized.mono fun e he => List.mem_append_left _ he
    | false =>
      obtain ⟨happly, -⟩ | ⟨message, -, -, hrefused⟩ := Breakdown.updatedResources_ok repr event.settings hd hsent
      · -- resources that are recognized are not sent again
        obtain rfl | happlied := hresources.elim .inl Sized.applied
        · exact .inr ⟨event, hself, happly⟩
        · rw [Breakdown.applyBreakdowns_applied happlied] at happly
          cases happly
      · rw [hrefused] at herrmsg
        cases herrmsg

/-! ### The invariant -/

/-- The service knows the original resources, or what the jobspec has had of it; and the job is held
back as long as no update has changed its jobspec. -/
structure Sound (original : List Resource) (jobspec : Jobspec) (s : System) : Prop where
  current : s.job.resources ∈ s.history
  requested : ∀ r, s.requested = some r → r = original
  stored : ∀ r, s.stored = some r → r = original
  history : ∀ r ∈ s.history, r = original ∨ Sized original s.handled r
  sent : ∀ u ∈ s.sent, (u.errmsg = none → Sized original s.handled u.resources) ∧ ∃ event ∈ s.handled,
    u.exclude = Breakdown.newConstraint event.settings.disableFluxion event.settings.drainComputeNodes
  accepted : ∀ u ∈ s.accepted, u ∈ s.sent ∧ u.errmsg = none
  resources : s.accepted = [] ∧ s.job.resources = original ∨ ∃ u ∈ s.accepted, s.job.resources = u.resources
  jobspec : s.job.jobspec = s.excludes.foldl Jobspec.resourceUpdate jobspec
  fresh : s.job.phase = .new → s.accepted = []
  held : s.job.phase = .depend → createDepName ∈ s.job.dependencies ∨ s.accepted ≠ [] ∨ s.job.exceptions ≠ []
  released : s.job.phase = .released → s.accepted ≠ []

theorem sound_init (original : List Resource) (jobspec : Jobspec) :
    Sound original jobspec (submitted original jobspec) where
  current := List.mem_cons_self
  requested := nofun
  stored := nofun
  history _ hr := .inl (List.mem_singleton.mp hr)
  sent := nofun
  accepted := nofun
  resources := .inl ⟨rfl, rfl⟩
  jobspec := rfl
  fresh _ := rfl
  held := nofun
  released := nofun

theorem Sound.admitted {original : List Resource} {jobspec : Jobspec} {s : System} (h : Sound original jobspec s) :
    Admitted original jobspec s := by
  refine ⟨fun hreleased => ?_, fun u hu => ?_, fun emptyOr node => ?_⟩
  · obtain ⟨hnone, -⟩ | ⟨u, hu, hsame⟩ := h.resources
    · exact absurd hnone (h.released hreleased)
    · obtain ⟨hsent, herrmsg⟩ := h.accepted u hu
      exact hsame ▸ (h.sent u hsent).1 herrmsg
  · obtain ⟨hsent, herrmsg⟩ := h.accepted u hu
    exact ⟨herrmsg, (h.sent u hsent).2⟩
  · rw [h.jobspec]
    exact allows_foldl emptyOr node s.excludes jobspec

section Steps
variable {repr : String → String} {jobid : Nat} {original : List Resource} {jobspec : Jobspec} {s : System}

/-- A step that leaves the jobspec, the updates and what the service knows, and that neither brings a
job to DEPEND nor releases it. -/
theorem Sound.of_job (h : Sound original jobspec s) (job : Job) (hresources : job.resources = s.job.resources)
    (hjobspec : job.jobspec = s.job.jobspec) (hphase : job.phase = s.job.phase ∨ job.phase = .cleanup)
    (hdependencies : createDepName ∈ s.job.dependencies → createDepName ∈ job.dependencies)
    (hexceptions : s.job.exceptions ≠ [] → job.exceptions ≠ []) : Sound original jobspec {s with job := job} where
  current := hresources ▸ h.current
  requested := h.requested
  stored := h.stored
  history := h.history
  sent := h.sent
  accepted := h.accepted
  resources := by
    rw [hresources]
    exact h.resources
  jobspec := hjobspec.trans h.jobspec
  fresh hnew := by
    obtain hsame | hcleanup := hphase
    · exact h.fresh (hsame.symm.trans hnew)
    · cases hcleanup.symm.trans hnew
  held hdepend := by
    obtain hsame | hcleanup := hphase
    · exact (h.held (hsame.symm.trans hdepend)).imp hdependencies (Or.imp_right hexceptions)
    · cases hcleanup.symm.trans hdepend
  released hreleased := by
    obtain hsame | hcleanup := hphase
    · exact h.released (hsame.symm.trans hreleased)
    · cases hcleanup.symm.trans hreleased

theorem Sound.raise (h : Sound original jobspec s) (type : String) :
    Sound original jobspec {s with job := s.job.raise type} :=
  h.of_job _ rfl rfl (.inl rfl) id fun _ => by simp [Job.raise]

theorem sound_depend (hdw : jobspec.dw = true) (h : Sound original jobspec s) {others : List String} (c : DependCalls)
    (he : (Step.depend others c).Enabled s) : Sound original jobspec (Step.next repr jobid s (.depend others c)) := by
  obtain ⟨dependencies, exceptions, hcalled, hheld⟩ :=
    dependCb_spec c {s.job with phase := .depend, dependencies := others}
  have hnone := h.fresh he.1
  have hcurrent : s.job.resources = original :=
    h.resources.elim And.right fun ⟨u, hu, _⟩ => absurd (hnone ▸ hu) List.not_mem_nil
  have hsame : s.job.jobspec = jobspec := by
    rw [h.jobspec, System.excludes, hnone]
    rfl
  dsimp only [Step.next]
  rw [hcalled]
  refine ⟨h.current, fun r hr => ?_, h.stored, h.history, h.sent, h.accepted, h.resources, h.jobspec, nofun,
    fun _ => ?_, nofun⟩
  · dsimp only at hr
    split at hr
    · exact (Option.some.inj hr).symm.trans hcurrent
    · cases hr
  · refine (hheld (hsame ▸ hdw)).imp_right fun hne => .inr fun hempty => hne ?_
    exact (List.append_eq_nil_iff.mp hempty).2

theorem sound_proposal (h : Sound original jobspec s) {event : ProposalEvent} {lookedUp : List Resource}
    (he : (Step.proposal event lookedUp).Enabled s) :
    Sound original jobspec (Step.next repr jobid s (.proposal event lookedUp)) := by
  have hsub : ∀ e ∈ s.handled, e ∈ s.handled ++ [event] := fun e he => List.mem_append_left _ he
  have hknown : s.stored.getD lookedUp = original ∨ Sized original s.handled (s.stored.getD lookedUp) := by
    cases hstored : s.stored with
    | none => exact h.history lookedUp he
    | some r => exact .inl (h.stored r hstored)
  have hold {u : ResourceUpdate} (hu : u ∈ s.sent) :
      (u.errmsg = none → Sized original (s.handled ++ [event]) u.resources) ∧ ∃ event' ∈ s.handled ++ [event],
        u.exclude = Breakdown.newConstraint event'.settings.disableFluxion event'.settings.drainComputeNodes := by
    obtain ⟨hsized, event', he', hexclude⟩ := h.sent u hu
    exact ⟨fun herrmsg => (hsized herrmsg).mono hsub, event', hsub event' he', hexclude⟩
  refine ⟨h.current, h.requested, h.stored, fun r hr => (h.history r hr).imp_right fun hsized => hsized.mono hsub,
    fun u hu => ?_, fun u hu => ⟨List.mem_append_left _ (h.accepted u hu).1, (h.accepted u hu).2⟩, h.resources,
    h.jobspec, h.fresh, h.held, h.released⟩
  obtain hu | hu := List.mem_append.mp hu
  · exact hold hu
  · split at hu
    · rename_i update hupdate
      obtain rfl := Option.mem_toList.mp hu
      obtain ⟨hsized, hexclude⟩ := sized_update hknown hupdate
      exact ⟨hsized, event, List.mem_append_right _ List.mem_cons_self, hexclude⟩
    · cases hu

theorem sound_update (h : Sound original jobspec s) {c : UpdateCalls} {u : ResourceUpdate}
    (he : (Step.message c (.update u)).Enabled s) :
    Sound original jobspec (Step.next repr jobid s (.message c (.update u))) := by
  cases haccepts : Accepts c s.job u with
  | false =>
    obtain ⟨exceptions, hcalled⟩ := update_refused haccepts
    dsimp only [Step.next]
    rw [hcalled, haccepts, if_neg (by decide), List.append_nil]
    have hjob := h.of_job {s.job with exceptions := s.job.exceptions ++ exceptions} rfl rfl (.inl rfl) id
      fun hne hempty => hne (List.append_eq_nil_iff.mp hempty).1
    exact {hjob with
      current := List.mem_cons_self
      history := fun r hr =>
        (List.mem_cons.mp hr).elim (fun hr => hr ▸ h.history s.job.resources h.current) (h.history r)}
  | true =>
    obtain ⟨dependencies, hcalled, hphase, herrmsg⟩ := update_accepted haccepts
    dsimp only [Step.next]
    rw [hcalled, haccepts, if_pos rfl]
    have hself : u ∈ s.accepted ++ [u] := List.mem_append_right _ List.mem_cons_self
    have hsized := (h.sent u he).1 herrmsg
    refine ⟨List.mem_cons_self, h.requested, h.stored, fun r hr => ?_, h.sent, fun u' hu' => ?_,
      .inr ⟨u, hself, rfl⟩, ?_, fun hnew => ?_, fun _ => .inr (.inl (by simp)), fun hreleased => ?_⟩
    · obtain rfl | hr := List.mem_cons.mp hr
      · exact .inr hsized
      · exact h.history r hr
    · obtain hu' | hu' := List.mem_append.mp hu'
      · exact h.accepted u' hu'
      · obtain rfl := List.mem_singleton.mp hu'
        exact ⟨he, herrmsg⟩
    · show (s.job.jobspec.resourceUpdate _) = ((s.accepted ++ [u]).map _).foldl _ _
      rw [List.map_append, List.foldl_append, h.jobspec]
      rfl
    · cases hphase.symm.trans hnew
    · cases hphase.symm.trans hreleased

theorem sound_release (h : Sound original jobspec s) (he : Step.release.Enabled s) :
    Sound original jobspec (Step.next repr jobid s .release) := by
  obtain ⟨hphase, hdependencies, hexceptions⟩ := he
  refine {h with fresh := nofun, held := nofun, released := fun _ => ?_}
  obtain hheld | haccepted | hraised := h.held hphase
  · rw [hdependencies] at hheld
    cases hheld
  · exact haccepted
  · exact absurd hexceptions hraised

theorem sound_next (hdw : jobspec.dw = true) (h : Sound original jobspec s) {step : Step} (he : step.Enabled s) :
    Sound original jobspec (step.next repr jobid s) := by
  cases step with
  | depend others c => exact sound_depend hdw h c he
  | create => exact {h with stored := h.requested}
  | createResponse response =>
    dsimp only [Step.next, createCb]
    split
    · exact h
    · exact h.raise createDepName
  | proposal event lookedUp => exact sound_proposal h he
  | restart => exact {h with stored := nofun}
  | message c m =>
    cases m with
    | malformed known =>
      cases known with
      | true => exact h.raise "exception"
      | false => exact h
    | update u => exact sound_update h he
  | dependencyRemove name =>
    exact h.of_job _ rfl rfl (.inl rfl) (fun hmem => (List.mem_erase_of_ne (Ne.symm he)).mpr hmem) id
  | release => exact sound_release h he
  | exception type => exact h.of_job _ rfl rfl (.inr rfl) id fun _ => by simp [Job.raise]

/-- What is out of DEPEND stays as it is. -/
theorem frozen_next (repr : String → String) (jobid : Nat)
    (hout : s.job.phase = .released ∨ s.job.phase = .cleanup) {step : Step} (he : step.Enabled s) :
    ((step.next repr jobid s).job.phase = .released ∨ (step.next repr jobid s).job.phase = .cleanup) ∧
      (step.next repr jobid s).job.resources = s.job.resources ∧
      (step.next repr jobid s).job.jobspec = s.job.jobspec := by
  cases step with
  | depend others c => exact absurd he.1 (by rcases hout with h | h <;> rw [h] <;> decide)
  | createResponse response =>
    dsimp only [Step.next, createCb]
    split <;> exact ⟨hout, rfl, rfl⟩
  | message c m =>
    cases m with
    | malformed known => cases known <;> exact ⟨hout, rfl, rfl⟩
    | update u =>
      cases haccepts : Accepts c s.job u with
      | false =>
        obtain ⟨exceptions, hcalled⟩ := update_refused haccepts
        dsimp only [Step.next]
        rw [hcalled]
        exact ⟨hout, rfl, rfl⟩
      | true =>
        obtain ⟨-, -, hphase, -⟩ := update_accepted haccepts
        exact absurd hphase (by rcases hout with h | h <;> rw [h] <;> decide)
  | release => exact ⟨.inl rfl, rfl, rfl⟩
  | exception type => exact ⟨.inr rfl, rfl, rfl⟩
  | _ => exact ⟨hout, rfl, rfl⟩

end Steps

theorem frozen_run {repr : String → String} {jobid : Nat} {original : List Resource} {jobspec : Jobspec} {s : System}
    {steps : List Step} (hout : s.job.phase = .released ∨ s.job.phase = .cleanup)
    (hp : (admissionMachine repr jobid original jobspec).Possible s steps) :
    ((admissionMachine repr jobid original jobspec).run s steps).job.resources = s.job.resources ∧
      ((admissionMachine repr jobid original jobspec).run s steps).job.jobspec = s.job.jobspec := by
  induction steps generalizing s with
  | nil => exact ⟨rfl, rfl⟩
  | cons step rest ih =>
    obtain ⟨he, -, hrest⟩ := hp
    obtain ⟨hstill, hresources, hjobspec⟩ := frozen_next repr jobid hout he
    obtain ⟨hresources', hjobspec'⟩ := ih hstill hrest
    exact ⟨hresources'.trans hresources, hjobspec'.trans hjobspec⟩

/-- **A job is released with its storage**: in every order of its callbacks, of the events of its
workflow, of restarts of the service and of what others do, a job with directives gets out of
DEPEND only with an update of its jobspec, which has its storage once, however often it was sent;
and then the jobspec is left as it is. -/
theorem job_admitted (repr : String → String) (jobid : Nat) (original : List Resource) (jobspec : Jobspec)
    (hdw : jobspec.dw = true) (before after : List Step)
    (hp : (admissionMachine repr jobid original jobspec).Possible
      (admissionMachine repr jobid original jobspec).init (before ++ after)) :
    let s :=
      (admissionMachine repr jobid original jobspec).run (admissionMachine repr jobid original jobspec).init before
    let t := (admissionMachine repr jobid original jobspec).run s after
    Admitted original jobspec s ∧ (s.job.phase = .released → s.accepted ≠ [] ∧
      t.job.resources = s.job.resources ∧ t.job.jobspec = s.job.jobspec) := by
  obtain ⟨hbefore, hafter⟩ := (Machine.legal_append _ _ _).mp hp
  have hsound := Machine.invariant (Sound original jobspec) (sound_init original jobspec)
    (fun _ _ h he _ => sound_next hdw h he) hbefore
  exact ⟨hsound.admitted, fun hreleased => ⟨hsound.released hreleased, frozen_run (.inl hreleased) hafter⟩⟩

/-! ### A job of two nodes -/

def batchJob : Jobspec := {allowRabbits := true, constraints := some (.properties ["batch"])}

/-- 16 GiB on each node, away from the rabbits that are down. -/
def sixteen : ProposalEvent := ⟨{drainComputeNodes := false}, Breakdown.oneAllocation .xfs 16⟩

def sixteenUpdate : ResourceUpdate where
  id := 7
  resources := Breakdown.twoNodesUpdated
  exclude := some (.not (.properties ["badrabbit"]))
  errmsg := none

/-- The dependency is removed with the second update only, which was sent for the first event too. -/
def releasedLate : List Step :=
  [.depend ["other"] {}, .create, .proposal sixteen (Breakdown.nodes 2), .dependencyRemove "other",
    .message {remove := false} (.update sixteenUpdate), .restart, .proposal sixteen Breakdown.twoNodesUpdated,
    .message {} (.update sixteenUpdate), .release]

theorem releasedLate_admitted :
    Admitted (Breakdown.nodes 2) batchJob ((admissionMachine Breakdown.quoted 7 (Breakdown.nodes 2) batchJob).run
      (admissionMachine Breakdown.quoted 7 (Breakdown.nodes 2) batchJob).init releasedLate) ∧
    ((admissionMachine Breakdown.quoted 7 (Breakdown.nodes 2) batchJob).run
      (admissionMachine Breakdown.quoted 7 (Breakdown.nodes 2) batchJob).init releasedLate).accepted ≠ [] := by
  have hp : (admissionMachine Breakdown.quoted 7 (Breakdown.nodes 2) batchJob).Possible
      (admissionMachine Breakdown.quoted 7 (Breakdown.nodes 2) batchJob).init (releasedLate ++ []) := by
    have hother : "other" ≠ createDepName := by decide
    refine ⟨⟨rfl, by decide⟩, trivial, rfl, trivial, List.mem_cons_self, trivial, hother, trivial, ?_, trivial,
      trivial, trivial, List.mem_cons_self, trivial, ?_, trivial, ⟨rfl, rfl, rfl⟩, trivial, trivial⟩
    · exact List.mem_cons_self
    · exact List.mem_cons_self
  obtain ⟨hadmitted, hreleased⟩ :=
    job_admitted Breakdown.quoted 7 (Breakdown.nodes 2) batchJob rfl releasedLate [] hp
  exact ⟨hadmitted, (hreleased rfl).1⟩

end FluxCoral2.Dws.Admission
