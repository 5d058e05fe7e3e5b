import FluxCoral2.CrayPals.Plugin
import FluxCoral2.CrayPmi.Exclusive
import FluxCoral2.Eventlog.Readers

/-! Control ports, from the job manager to the shells (`cray-pmi-bootstrap.c`, `cray_pals.c`).

The plugin of the job manager posts the ports of a job in the job's eventlog, where others post
too. Each shell of the job reads of it on its own, and sets `PMI_CONTROL_PORT`.
`control_ports`: in every order of these steps, the list is the same for all shells of a job, and
does not overlap with that of another job that is running.

A job whose ports are posted but not stored is told of ports that are never returned, so that the
invariant (`Told`) is about the events, of which what is stored is a part. -/
namespace FluxCoral2.CrayPmi
open Library Eventlog
open CrayPals hiding Text
open IntString (decimal)

variable {jsonLoads : Text → Option Json}

/-! ### The system -/

/-- The plugin, and the lines of the eventlog of each job. -/
structure System where
  plugin : Plugin
  log : Nat → List Text

/-- The line of a `cray-pmi-bootstrap` event. -/
def TellsPorts (jsonLoads : Text → Option Json) (line : Text) (ports : List Int) (random : Int) : Prop :=
  ∃ context, Entry jsonLoads line crayPmiBootstrap (some context) ∧
    context.get? keyPorts = some (.array (ports.map fun port => .integer (BitVec.ofInt 64 port))) ∧
    context.get? keyRandomInteger = some (.integer (BitVec.ofInt 64 random))

/-- The callbacks of the plugin, with the line of the event if one is posted, and what others post. -/
inductive Step
  | run (id : Nat) (c : RunCalls) (nodelist : Option (List String)) (random : Int) (line : Text)
  | cleanup (id : Nat)
  | post (id : Nat) (line : Text)

/-- What `run_cb` posts. -/
def posted (c : RunCalls) (nodelist : Option (List String)) (range : PortRange) : Option (List Int) :=
  (runCb c nodelist range).2.2.1

def Step.Enabled (jsonLoads : Text → Option Json) (s : System) : Step → Prop
  | .run id c nodelist random line => (Op.run id c nodelist random).Enabled s.plugin ∧
    ∀ ports, posted c nodelist s.plugin.range = some ports → TellsPorts jsonLoads line ports random
  | .cleanup id => (Op.cleanup id).Enabled s.plugin
  | .post _ line => Foreign jsonLoads crayPmiBootstrap line

def Step.next (s : System) : Step → System
  | .run id c nodelist random line =>
    { plugin := (Op.run id c nodelist random).apply s.plugin
      log :=
        if (posted c nodelist s.plugin.range).isSome then Function.update s.log id (s.log id ++ [line])
        else s.log }
  | .cleanup id => {s with plugin := (Op.cleanup id).apply s.plugin}
  | .post id line => {s with log := Function.update s.log id (s.log id ++ [line])}

def systemMachine (jsonLoads : Text → Option Json) (range : PortRange) : Machine System Step :=
  ⟨⟨(bootstrapMachine range).init, fun _ => []⟩, Step.Enabled jsonLoads, Step.next⟩

/-! ### Shells -/

/-- The shell is to read the ports from the eventlog. -/
def Bootstraps (shell : Shell) : Prop :=
  shell.enabled = some true ∧
    ∀ options, crayPalsParseArgs shell.options = some options → wantsEvent shell.info.size options.pmi = true

/-- What comes of a shell behind some lines, which came when they came. -/
def shellRun (jsonLoads : Text → Option Json) (shell : Shell) (responses : List Response) : Result :=
  shell.run (eventlogWaitFor jsonLoads crayPmiBootstrap (-1) responses).outcome

/-- A shell of a job has seen so much of the eventlog, and goes on with an environment. -/
def GoesOn (jsonLoads : Text → Option Json) (s : System) (id : Nat) (env : Environment) : Prop :=
  ∃ shell responses seen file, Bootstraps shell ∧ seen <+: s.log id ∧ responses.map Response.line = seen.map some ∧
    shellRun jsonLoads shell responses = .done env file

/-- A start whose ports are stored posts and takes the same. -/
theorem runCb_auxSet (c : RunCalls) (nodelist : Option (List String)) (range : PortRange) :
    (runCb {c with auxSet := true} nodelist range).2.1 = (runCb c nodelist range).2.1 ∧
      (runCb {c with auxSet := true} nodelist range).2.2.2 = posted c nodelist range ∧
      ((runCb c nodelist range).2.2.2 = none ∨ (runCb c nodelist range).2.2.2 = posted c nodelist range) := by
  unfold posted runCb
  cases nodelist with
  | none => exact ⟨rfl, rfl, .inl rfl⟩
  | some hlist =>
    dsimp only
    split
    · exact ⟨rfl, rfl, .inl rfl⟩
    split
    · exact ⟨rfl, rfl, .inl rfl⟩
    split
    · exact ⟨rfl, rfl, .inl rfl⟩
    split
    · exact ⟨rfl, rfl, .inl rfl⟩
    split
    · exact ⟨rfl, rfl, .inl rfl⟩
    · cases c.auxSet
      · exact ⟨rfl, rfl, .inl rfl⟩
      · exact ⟨rfl, rfl, .inr rfl⟩

theorem posted_pair {c : RunCalls} {nodelist : Option (List String)} {range : PortRange} {ports : List Int}
    (h : posted c nodelist range = some ports) : ∃ p q, ports = [p, q] := by
  unfold posted runCb at h
  cases nodelist with
  | none => cases h
  | some hlist =>
    dsimp only at h
    split at h
    · cases h
    split at h
    · cases h
    split at h
    · cases h
    split at h
    · cases h
    split at h
    · cases h
    split at h
    · exact ⟨_, _, (Option.some.inj h).symm⟩
    · exact ⟨_, _, (Option.some.inj h).symm⟩

/-- What a start posts was on the stack, and is not there any more. -/
theorem posted_taken {lo hi : Int} (c : RunCalls) (nodelist : Option (List String)) {range : PortRange}
    (hstack : Stack lo hi range) :
    (∀ p ∈ (runCb c nodelist range).2.1.available, p ∈ range.available) ∧
      ∀ ports, posted c nodelist range = some ports → ports.Nodup ∧ (∀ p ∈ ports, p ∈ range.available) ∧
        ∀ p ∈ ports, p ∉ (runCb c nodelist range).2.1.available := by
  obtain ⟨hrange, haux, -⟩ := runCb_auxSet c nodelist range
  obtain ⟨taken, havail, hsize, htaken⟩ := runCb_spec {c with auxSet := true} nodelist range
  rw [hrange] at havail hsize
  obtain ⟨-, hnodup, hfree, hbelow, hgone⟩ := stack_taken hstack hsize havail
  refine ⟨hbelow, fun ports hports => ?_⟩
  rw [haux, hports] at htaken
  obtain rfl := Option.some.inj (htaken.resolve_left nofun)
  exact ⟨hnodup, hfree, hgone⟩

/-! ### The invariant -/

/-- The events are of jobs that ran, one for each, and their ports are out as long as the job runs. -/
structure Told (lo hi : Int) (s : Plugin) : Prop where
  ran : ∀ e ∈ s.events, (s.jobs e.id).phase ≠ .waiting
  once : ∀ e ∈ s.events, ∀ e' ∈ s.events, e.id = e'.id → e = e'
  two : ∀ e ∈ s.events, ∃ p q, e.ports = [p, q] ∧ p ≠ q ∧ (lo ≤ p ∧ p < hi) ∧ lo ≤ q ∧ q < hi
  out : ∀ e ∈ s.events, (s.jobs e.id).phase = .ran → ∀ p ∈ e.ports, p ∉ s.range.available
  apart : ∀ e ∈ s.events, ∀ e' ∈ s.events, (s.jobs e.id).phase = .ran → (s.jobs e'.id).phase = .ran → e.id ≠ e'.id →
    ∀ p ∈ e.ports, p ∉ e'.ports
  stored : ∀ id ports, (s.jobs id).aux = some ports → ∃ e ∈ s.events, e.id = id ∧ e.ports = ports

theorem mem_events_run {s : Plugin} {id : Nat} {c : RunCalls} {nodelist : Option (List String)} {random : Int}
    {e : Event} : e ∈ ((Op.run id c nodelist random).apply s).events ↔
      e ∈ s.events ∨ ∃ ports, posted c nodelist s.range = some ports ∧ e = ⟨id, ports, random⟩ := by
  show e ∈ s.events ++ (posted c nodelist s.range).toList.map _ ↔ _
  rw [List.mem_append, List.mem_map]
  simp only [Option.mem_toList, eq_comm (a := e)]

theorem jobs_run {s : Plugin} {id : Nat} {c : RunCalls} {nodelist : Option (List String)} {random : Int} :
    ((Op.run id c nodelist random).apply s).jobs =
      Function.update s.jobs id ⟨.ran, (runCb c nodelist s.range).2.2.2⟩ := rfl

theorem jobs_cleanup {s : Plugin} {id : Nat} :
    ((Op.cleanup id).apply s).jobs = Function.update s.jobs id {s.jobs id with phase := .cleaned} := rfl

theorem told_run {lo hi : Int} {s : Plugin} (h : Told lo hi s) (hdisjoint : Disjoint lo hi s) {id : Nat}
    (c : RunCalls) (nodelist : Option (List String)) (random : Int) (hwaiting : (s.jobs id).phase = .waiting) :
    Told lo hi ((Op.run id c nodelist random).apply s) := by
  obtain ⟨hbelow, htaken⟩ := posted_taken c nodelist hdisjoint.stack
  -- the events there were are of other jobs
  have hother {e : Event} (he : e ∈ s.events) : e.id ≠ id := fun hid => h.ran e he (hid ▸ hwaiting)
  have hphase {e : Event} (he : e ∈ s.events) :
      (((Op.run id c nodelist random).apply s).jobs e.id).phase = (s.jobs e.id).phase := by
    rw [jobs_run, Function.update_of_ne (hother he)]
  refine ⟨fun e he => ?_, fun e he e' he' hid => ?_, fun e he => ?_, fun e he hran p hp => ?_,
    fun e he e' he' hran hran' hid p hp hp' => ?_, fun id' ports haux => ?_⟩
  · obtain hold | ⟨ports, -, rfl⟩ := mem_events_run.mp he
    · rw [hphase hold]
      exact h.ran e hold
    · rw [jobs_run, Function.update_self]
      exact nofun
  · obtain hold | ⟨ports, hports, rfl⟩ := mem_events_run.mp he <;>
      obtain hold' | ⟨ports', hports', rfl⟩ := mem_events_run.mp he'
    · exact h.once e hold e' hold' hid
    · exact absurd hid (hother hold)
    · exact absurd hid.symm (hother hold')
    · rw [Option.some.inj (hports.symm.trans hports')]
  · obtain hold | ⟨ports, hports, rfl⟩ := mem_events_run.mp he
    · exact h.two e hold
    · obtain ⟨p, q, rfl⟩ := posted_pair hports
      obtain ⟨hnodup, hfree, -⟩ := htaken _ hports
      have hin : ∀ p' ∈ [p, q], lo ≤ p' ∧ p' < hi := fun p' hp' => hdisjoint.stack.within p' (hfree p' hp')
      exact ⟨p, q, rfl, by simpa using hnodup, hin p (by simp), hin q (by simp)⟩
  · obtain hold | ⟨ports, hports, rfl⟩ := mem_events_run.mp he
    · exact fun hmem => h.out e hold (hphase hold ▸ hran) p hp (hbelow p hmem)
    · exact (htaken ports hports).2.2 p hp
  · obtain hold | ⟨ports, hports, rfl⟩ := mem_events_run.mp he <;>
      obtain hold' | ⟨ports', hports', rfl⟩ := mem_events_run.mp he'
    · exact h.apart e hold e' hold' (hphase hold ▸ hran) (hphase hold' ▸ hran') hid p hp hp'
    · exact h.out e hold (hphase hold ▸ hran) p hp ((htaken ports' hports').2.1 p hp')
    · exact h.out e' hold' (hphase hold' ▸ hran') p hp' ((htaken ports hports).2.1 p hp)
    · exact hid rfl
  · by_cases hid : id' = id
    · rw [hid, jobs_run, Function.update_self] at haux
      have hsome : (runCb c nodelist s.range).2.2.2 = some ports := haux
      have hports : posted c nodelist s.range = some ports := by
        rw [← (runCb_auxSet c nodelist s.range).2.2.resolve_left (by rw [hsome]; exact nofun), hsome]
      exact ⟨_, mem_events_run.mpr (.inr ⟨ports, hports, rfl⟩), hid.symm, rfl⟩
    · rw [jobs_run, Function.update_of_ne hid] at haux
      obtain ⟨e, he, hsame⟩ := h.stored id' ports haux
      exact ⟨e, mem_events_run.mpr (.inl he), hsame⟩

theorem told_cleanup {lo hi : Int} (hlo : 0 < lo) {s : Plugin} (h : Told lo hi s) (hdisjoint : Disjoint lo hi s)
    {id : Nat} (hphase : (s.jobs id).phase ≠ .cleaned) : Told lo hi ((Op.cleanup id).apply s) := by
  obtain ⟨-, -, havail⟩ := cleanupCb_spec hlo s id hdisjoint hphase
  have hjobs {id' : Nat} (hid : id' ≠ id) : ((Op.cleanup id).apply s).jobs id' = s.jobs id' := by
    rw [jobs_cleanup, Function.update_of_ne hid]
  have hself : ((Op.cleanup id).apply s).jobs id = {s.jobs id with phase := .cleaned} := by
    rw [jobs_cleanup, Function.update_self]
  -- a job that is running is another one
  have hran {id' : Nat} (hran' : (((Op.cleanup id).apply s).jobs id').phase = .ran) :
      id' ≠ id ∧ (s.jobs id').phase = .ran := by
    by_cases hid : id' = id
    · rw [hid, hself] at hran'
      cases hran'
    · exact ⟨hid, hjobs hid ▸ hran'⟩
  refine ⟨fun e he => ?_, h.once, h.two, fun e he hran' p hp hmem => ?_,
    fun e he e' he' hran₁ hran₂ => h.apart e he e' he' (hran hran₁).2 (hran hran₂).2, fun id' ports haux => ?_⟩
  · by_cases hid : e.id = id
    · rw [hid, hself]
      exact nofun
    · rw [hjobs hid]
      exact h.ran e he
  · obtain ⟨hid, hstill⟩ := hran hran'
    rw [show ((Op.cleanup id).apply s).range.available = _ from havail, List.mem_append] at hmem
    obtain hmem | hmem := hmem
    · exact h.out e he hstill p hp hmem
    · -- what comes back was told to the job that cleans up
      cases hown : s.recorded id with
      | none => simp [hown] at hmem
      | some own =>
        obtain ⟨hownRan, hownAux⟩ := recorded_eq_some.mp hown
        obtain ⟨e', he', rfl, rfl⟩ := h.stored id own hownAux
        rw [hown] at hmem
        exact h.apart e he e' he' hstill hownRan hid p hp hmem
  · refine h.stored id' ports ?_
    by_cases hid : id' = id
    · rw [hid, hself] at haux
      exact hid ▸ haux
    · exact hjobs hid ▸ haux

/-- The plugin is as it has to be, and an eventlog has the job's own event, if any, and others. -/
structure Kept (jsonLoads : Text → Option Json) (lo hi : Int) (s : System) : Prop where
  disjoint : Disjoint lo hi s.plugin
  told : Told lo hi s.plugin
  logged : ∀ id, ∀ line ∈ s.log id, Foreign jsonLoads crayPmiBootstrap line ∨
    ∃ e ∈ s.plugin.events, e.id = id ∧ TellsPorts jsonLoads line e.ports e.randomInteger

theorem mem_log_append {log : Nat → List Text} {id id' : Nat} {line line' : Text}
    (h : line' ∈ Function.update log id (log id ++ [line]) id') : line' ∈ log id' ∨ id' = id ∧ line' = line := by
  by_cases hid : id' = id
  · subst hid
    rw [Function.update_self, List.mem_append, List.mem_singleton] at h
    exact h.imp_right fun hline => ⟨rfl, hline⟩
  · rw [Function.update_of_ne hid] at h
    exact .inl h

theorem kept_step {lo hi : Int} (hlo : 0 < lo) {s : System} (h : Kept jsonLoads lo hi s) {step : Step}
    (he : step.Enabled jsonLoads s) : Kept jsonLoads lo hi (step.next s) := by
  cases step with
  | run id c nodelist random line =>
    obtain ⟨hwaiting, htells⟩ := he
    have hold {id' : Nat} {line' : Text} (hmem : line' ∈ s.log id') : Foreign jsonLoads crayPmiBootstrap line' ∨
        ∃ e ∈ ((Op.run id c nodelist random).apply s.plugin).events, e.id = id' ∧
          TellsPorts jsonLoads line' e.ports e.randomInteger :=
      (h.logged id' line' hmem).imp_right fun ⟨e, he, hsame⟩ => ⟨e, mem_events_run.mpr (.inl he), hsame⟩
    refine ⟨disjoint_run s.plugin id c nodelist random h.disjoint hwaiting,
      told_run h.told h.disjoint c nodelist random hwaiting, fun id' line' hmem => ?_⟩
    dsimp only [Step.next] at hmem
    cases hposted : posted c nodelist s.plugin.range with
    | none =>
      rw [hposted] at hmem
      exact hold hmem
    | some ports =>
      rw [hposted] at hmem
      obtain hmem | ⟨rfl, rfl⟩ := mem_log_append hmem
      · exact hold hmem
      · exact .inr ⟨_, mem_events_run.mpr (.inr ⟨ports, hposted, rfl⟩), rfl, htells ports hposted⟩
  | cleanup id =>
    exact ⟨disjoint_cleanup hlo s.plugin id h.disjoint he, told_cleanup hlo h.told h.disjoint he, h.logged⟩
  | post id line =>
    refine ⟨h.disjoint, h.told, fun id' line' hmem => ?_⟩
    obtain hmem | ⟨-, rfl⟩ := mem_log_append hmem
    · exact h.logged id' line' hmem
    · exact .inl he

/-! ### What a line says -/

theorem crayPmiBootstrap_ne : crayPmiBootstrap ≠ start ∧ crayPmiBootstrap ≠ exception := by decide

theorem cString_crayPmiBootstrap : cString crayPmiBootstrap = crayPmiBootstrap := by decide

theorem TellsPorts.verdict {line : Text} {ports : List Int} {random : Int}
    (h : TellsPorts jsonLoads line ports random) :
    ∃ context, verdict jsonLoads crayPmiBootstrap line = some (.returned (some context)) ∧
      context.get? keyPorts = some (.array (ports.map fun port => .integer (BitVec.ofInt 64 port))) ∧
      context.get? keyRandomInteger = some (.integer (BitVec.ofInt 64 random)) := by
  obtain ⟨context, hentry, hcontext⟩ := h
  obtain ⟨hstart, hexception⟩ := crayPmiBootstrap_ne
  exact ⟨context, (verdict_iff hstart hexception).mpr (.wanted hentry cString_crayPmiBootstrap), hcontext⟩

/-- A shell that goes on has decided what the eventlog decides, and set what it says. -/
theorem GoesOn.reads {s : System} {id : Nat} {env : Environment} (h : GoesOn jsonLoads s id env) :
    decision jsonLoads crayPmiBootstrap (s.log id) = .returned none ∧ env.get? varControlPort = none ∨
      ∃ context port₁ port₂ secret, decision jsonLoads crayPmiBootstrap (s.log id) = .returned (some context) ∧
        unpackContext context = some (port₁, port₂, secret) ∧
        env.get? varControlPort = some (portList port₁ port₂) ∧
        env.get? varSharedSecret = some (decimal secret.toNat) := by
  obtain ⟨shell, responses, seen, file, ⟨hon, hwants⟩, hseen, hlines, hrun⟩ := h
  obtain ⟨options, hparse, hinit⟩ := run_done hon hrun
  obtain ⟨pmi, path, bytes, hread, -, -, hprepared⟩ := init_done hinit
  have hwant := hwants options hparse
  have hinvalid : options.pmi.valid = false := by
    unfold wantsEvent at hwant
    simp only [Bool.and_eq_true, Bool.not_eq_true'] at hwant
    exact hwant.2
  have htimeout : (-1 : ℚ) < 0 := by norm_num
  rw [if_pos hwant, outcome_eq_decision htimeout hlines, getPmiBootstrap] at hread
  split at hread
  · cases hread
  have hport := hprepared.controlPort
  have hsecret := hprepared.sharedSecret
  have hall : decision jsonLoads crayPmiBootstrap seen = .waiting ∨
      decision jsonLoads crayPmiBootstrap seen = decision jsonLoads crayPmiBootstrap (s.log id) :=
    decision_of_isPrefix hseen
  cases hdecision : decision jsonLoads crayPmiBootstrap seen with
  | waiting =>
    rw [hdecision] at hread
    cases hread
  | failed error =>
    rw [hdecision] at hread
    cases hread
  | returned obj =>
    rw [hdecision] at hread hall
    have hlog := (hall.resolve_left nofun).symm
    cases obj with
    | none =>
      cases hread
      rw [hinvalid] at hport
      exact .inl ⟨hlog, hport⟩
    | some context =>
      dsimp only [readFuture] at hread
      split at hread
      · cases hread
      · rename_i port₁ port₂ secret hunpack
        cases hread
        exact .inr ⟨context, port₁, port₂, secret, hlog, hunpack, hport, hsecret⟩

def bootstrapText : Text :=
  entryText crayPmiBootstrap (",\"context\":\x7b\"ports\":[1073,1072],\"random_integer\":7\x7d".toList)

/-- The Slingshot plugin posts an event, then the ports are posted. -/
def twoNodes : List Step :=
  [.post 1 (wantedText ++ ['\n']), .run 1 {} (some ["node1", "node2"]) 7 (bootstrapText ++ ['\n']), .cleanup 1]

end FluxCoral2.CrayPmi
