import FluxCoral2.CrayPals.LibraryPath
import FluxCoral2.CrayPals.Taskmap
import FluxCoral2.Eventlog.WaitFor
import FluxCoral2.Library.Environ
import FluxCoral2.Library.IntString

/-! The libpals plugin of a shell (`cray_pals.c`).

A shell with `-o pmi=cray-pals` writes the apinfo file of its job and sets what libpals reads. A
job of more than one shell needs two ports and a secret, which are options, or are in an event of
the job's eventlog. `init_done` says what a shell that goes on has done.

Which calls fail and the hostlist package are arguments. -/
namespace FluxCoral2.CrayPals
open Library Apinfo Eventlog Environ
open IntString (decimal)

abbrev Environment := Dict Text Text

/-- Which calls of the plugin fail. -/
structure Calls where
  create : Bool := true
  addHandlers : Bool := true
  eventWatch : Bool := true
  heapNodes : Bool := true
  heapPes : Bool := true
  heapCmd : Bool := true
  put : Bool := true
  setenv : Text → Bool := fun _ => true

/-! ### Options -/

/-- `struct pmi_bootstrap_info`. -/
structure PmiBootstrapInfo where
  port₁ : CInt := 0
  port₂ : CInt := 0
  secret : BitVec 64 := 0
  valid : Bool := false
  disabled : Bool := false

/-- `struct cray_pals`, as the options make it. -/
structure Options where
  apinfoVersion : CInt := 5
  noEditEnv : CInt := 0
  pmi : PmiBootstrapInfo := {}

def keyNoEditEnv : Text := "no-edit-env".toList

def keyApinfoVersion : Text := "apinfo-version".toList

def keyPmiBootstrap : Text := "pmi-bootstrap".toList

/-- `s?i`: an int that may be missing. -/
def unpackInt (opts : Json) (key : Text) (value : CInt) : Option CInt :=
  match opts.get? key with
  | none => some value
  | some (.integer n) => some (n.setWidth 32)
  | some _ => none

/-- The `!` of an object: no other members. -/
def onlyKeys (keys : List Text) : Json → Bool
  | .object members => members.all fun member => keys.contains member.1
  | _ => false

/-- `[iiI]`, of which there may be more. -/
def unpackBootstrap : Json → Option PmiBootstrapInfo
  | .array (.integer port₁ :: .integer port₂ :: .integer secret :: _) =>
    some {port₁ := port₁.setWidth 32, port₂ := port₂.setWidth 32, secret, valid := true}
  | _ => none

def parsePmiBootstrap : Option Json → Option PmiBootstrapInfo
  | none => some {}
  | some (.string s) => if Eventlog.cString s = "off".toList then some {disabled := true} else none
  | some value => unpackBootstrap value

/-- The options of `-o cray-pals`, or an error. -/
def crayPalsParseArgs : Except Unit (Option Json) → Option Options
  | .error () => none
  | .ok none => some {}
  | .ok (some opts) =>
    if !onlyKeys [keyNoEditEnv, keyApinfoVersion, keyPmiBootstrap] opts then none
    else do
      let noEditEnv ← unpackInt opts keyNoEditEnv 0
      let apinfoVersion ← unpackInt opts keyApinfoVersion 5
      let pmi ← parsePmiBootstrap (opts.get? keyPmiBootstrap)
      some {noEditEnv, apinfoVersion, pmi}

def memberOfCsv (list name : Text) : Bool := (Argz.createSep ',' list).contains name

/-! ### The apinfo file -/

/-- What a shell knows of its job. -/
structure ShellInfo where
  size : CInt
  rank : CInt
  ntasks : CInt
  jobid : BitVec 64
  /-- `R.execution.nodelist`. -/
  nodelist : Option Json
  taskmap : Option Taskmap
  /-- `version`, `nslots` and `cores_per_slot` of the jobspec. -/
  jobspec : Option (CInt × CInt × CInt)

/-- What the hostlist package makes of an entry, which may be of many hosts. -/
abbrev HostlistAppend := Hostlist → Text → Option Hostlist

def noHosts : Hostlist := ⟨[], nofun, by decide⟩

/-- The loop of `hostlist_from_array`. -/
def appendEntries (append : HostlistAppend) : List Json → Hostlist → Option Hostlist
  | [], hlist => some hlist
  | .string entry :: rest, hlist => do
    let hlist ← append hlist (Eventlog.cString entry)
    appendEntries append rest hlist
  | _ :: _, _ => none

def hostlistFromArray (append : HostlistAppend) : Json → Option Hostlist
  | .array values => appendEntries append values noHosts
  | _ => none

def getCoresPerTask (jobspec : Option (CInt × CInt × CInt)) (ntasks : CInt) : Option CInt :=
  match jobspec with
  | none => none
  | some (version, taskSlots, coresPerSlot) =>
    if version ≠ 1 then none
    else
      let coresPerTask := (taskSlots * coresPerSlot).sdiv ntasks
      if coresPerTask.slt 0 then none else some coresPerTask

/-- An object with the hosts and the tasks, which is checked and written. -/
def putApinfo {Comm Nic Rest : Type} (impl : Impl Comm Nic Rest) (c : Calls) (hosts : Hostlist) (map : Taskmap)
    (coresPerTask : CInt) : Option (List Byte) :=
  let ap := impl.create
  let (ap, ok) := impl.call ap (.setHostlist c.heapNodes hosts)
  if !ok then none
  else
    let (ap, ok) := impl.call ap (.setTaskmap c.heapPes c.heapCmd map coresPerTask)
    if !ok then none
    else
      match opCheck ap with
      | .error _ => none
      | .ok () => if c.put then impl.write ap else none

/-- `apinfo_create` takes the two versions that there are. -/
def putVersion (version : CInt) (c : Calls) (hosts : Hostlist) (map : Taskmap) (coresPerTask : CInt) :
    Option (List Byte) :=
  if version = 1 then putApinfo apinfo1 c hosts map coresPerTask
  else if version = 5 then putApinfo apinfo5 c hosts map coresPerTask
  else none

def varTmpdir : Text := "FLUX_JOB_TMPDIR".toList

/-- A path that fits, with the NUL behind it. -/
def apinfoPath (tmpdir : Text) : Option Text :=
  let path := tmpdir ++ "/libpals_apinfo".toList
  if (String.ofList path).utf8ByteSize ≥ 1024 then none else some path

/-- The path and the bytes of the file. -/
def createApinfo (append : HostlistAppend) (c : Calls) (shell : ShellInfo) (options : Options) (env : Environment) :
    Option (Text × List Byte) := do
  let tmpdir ← env.get? varTmpdir
  let path ← apinfoPath tmpdir
  let nodelist ← shell.nodelist
  let map ← shell.taskmap
  let coresPerTask ← getCoresPerTask shell.jobspec shell.ntasks
  let hlist ← hostlistFromArray append nodelist
  let file ← putVersion options.apinfoVersion c hlist map coresPerTask
  some (path, file)

/-! ### Ports -/

def crayPmiBootstrap : Text := "cray-pmi-bootstrap".toList

def keyPorts : Text := "ports".toList

def keyRandomInteger : Text := "random_integer".toList

/-- `{s:[ii] s:I}`. -/
def unpackContext (context : Json) : Option (CInt × CInt × BitVec 64) :=
  match context.get? keyPorts, context.get? keyRandomInteger with
  | some (.array (.integer port₁ :: .integer port₂ :: _)), some (.integer secret) =>
    some (port₁.setWidth 32, port₂.setWidth 32, secret)
  | _, _ => none

/-- What comes of `eventlog_wait_for`, which does not come back as long as it waits. -/
def readFuture (outcome : Outcome) (pmi : PmiBootstrapInfo) : Option (Except Unit PmiBootstrapInfo) :=
  match outcome with
  | .waiting => none
  | .failed _ => some (.error ())
  | .returned none => some (.ok pmi)
  | .returned (some context) =>
    match unpackContext context with
    | none => some (.error ())
    | some (port₁, port₂, secret) => some (.ok {pmi with port₁, port₂, secret, valid := true})

def getPmiBootstrap (c : Calls) (outcome : Outcome) (pmi : PmiBootstrapInfo) :
    Option (Except Unit PmiBootstrapInfo) :=
  if !c.eventWatch then some (.error ()) else readFuture outcome pmi

/-- A job of more than one shell, which has no ports by its options, and is not to go without. -/
def wantsEvent (size : CInt) (pmi : PmiBootstrapInfo) : Bool := BitVec.slt 1 size && !pmi.disabled && !pmi.valid

/-! ### The environment -/

def varNodeid : Text := "PALS_NODEID".toList

def varApid : Text := "PALS_APID".toList

def varSpoolDir : Text := "PALS_SPOOL_DIR".toList

def varApinfo : Text := "PALS_APINFO".toList

def varControlPort : Text := "PMI_CONTROL_PORT".toList

def varSharedSecret : Text := "PMI_SHARED_SECRET".toList

def idVars (shell : ShellInfo) : List (Text × Text) :=
  [(varNodeid, decimal shell.rank.toInt), (varApid, decimal shell.jobid.toNat)]

def portList (port₁ port₂ : CInt) : Text := decimal port₁.toInt ++ ',' :: decimal port₂.toInt

def fileVars (tmpdir path : Text) (pmi : PmiBootstrapInfo) : List (Text × Text) :=
  [(varSpoolDir, tmpdir), (varApinfo, path)] ++
    if pmi.valid then [(varControlPort, portList pmi.port₁ pmi.port₂), (varSharedSecret, decimal pmi.secret.toNat)]
    else []

def setEnvironment (c : Calls) (shell : ShellInfo) (pmi : PmiBootstrapInfo) (path : Text) (env : Environment) :
    Bool × Environment :=
  match setenvs c.setenv (idVars shell) (unsetenv env varControlPort) with
  | (false, env) => (false, env)
  | (true, env) =>
    match env.get? varTmpdir with
    | none => (false, env)
    | some tmpdir => setenvs c.setenv (fileVars tmpdir path pmi) env

/-! ### A shell -/

/-- What becomes of a shell: its environment, and the file if there is one. -/
inductive Result
  | waiting
  | failed
  | done (env : Environment) (file : Option (Text × List Byte))

/-- `shell.init`. -/
def libpalsInit (append : HostlistAppend) (c : Calls) (shell : ShellInfo) (options : Options) (outcome : Outcome)
    (env : Environment) : Result :=
  let read :=
    if wantsEvent shell.size options.pmi then getPmiBootstrap c outcome options.pmi else some (.ok options.pmi)
  match read with
  | none => .waiting
  | some (.error ()) => .failed
  | some (.ok pmi) =>
    match createApinfo append c shell options env with
    | none => .failed
    | some (path, file) =>
      match setEnvironment c shell pmi path env with
      | (false, _) => .failed
      | (true, env) => .done env (some (path, file))

def palsEnv : List Text :=
  [varNodeid, "PALS_RANKID".toList, varApinfo, varApid, varSpoolDir, "PALS_FD".toList, "PALS_DEPTH".toList,
    "PALS_LOCAL_RANKID".toList, "PALS_LOCAL_SIZE".toList, "PMI_JOBID".toList, varControlPort, varSharedSecret,
    "PMI_JOBID".toList, "PMI_LOCAL_RANK".toList, "PMI_LOCAL_SIZE".toList]

def unsetPalsEnv (env : Environment) : Environment := palsEnv.foldl unsetenv env

/-- What a shell is started with. -/
structure Shell where
  append : HostlistAppend
  calls : Calls := {}
  info : ShellInfo
  /-- The option `pmi`. -/
  pmi : Except Unit (Option Text)
  /-- The option `cray-pals`. -/
  options : Except Unit (Option Json)
  env : Environment

/-- The plugin is asked for. -/
def Shell.enabled (shell : Shell) : Option Bool :=
  match shell.pmi with
  | .error () => none
  | .ok none => some false
  | .ok (some list) => some (memberOfCsv list "cray-pals".toList)

/-- `flux_plugin_init`, and `shell.init` if the plugin is asked for. -/
def Shell.run (shell : Shell) (outcome : Outcome) : Result :=
  match shell.enabled with
  | none => .failed
  | some false => .done (unsetPalsEnv shell.env) none
  | some true =>
    if !shell.calls.create then .failed
    else
      match crayPalsParseArgs shell.options with
      | none => .failed
      | some options =>
        if !shell.calls.addHandlers then .failed
        else libpalsInit shell.append shell.calls shell.info options outcome shell.env

/-! ### What is set -/

/-- The variables that libpals reads. -/
def palsVars : List Text := [varNodeid, varApid, varSpoolDir, varApinfo, varControlPort, varSharedSecret]

/-- What a shell that goes on has set: the ports only if they are valid, and nothing else. -/
structure Prepared (shell : ShellInfo) (pmi : PmiBootstrapInfo) (path : Text) (before after : Environment) : Prop where
  nodeid : after.get? varNodeid = some (decimal shell.rank.toInt)
  apid : after.get? varApid = some (decimal shell.jobid.toNat)
  spoolDir : after.get? varSpoolDir = before.get? varTmpdir
  apinfo : after.get? varApinfo = some path
  controlPort : after.get? varControlPort = if pmi.valid then some (portList pmi.port₁ pmi.port₂) else none
  sharedSecret : after.get? varSharedSecret =
    if pmi.valid then some (decimal pmi.secret.toNat) else before.get? varSharedSecret
  others : ∀ name ∉ palsVars, after.get? name = before.get? name

section
variable {append : HostlistAppend} {c : Calls} {shell : ShellInfo} {options : Options} {outcome : Outcome}
  {pmi : PmiBootstrapInfo} {path : Text} {env env' : Environment}

theorem idVars_names (shell : ShellInfo) : (idVars shell).map Prod.fst = [varNodeid, varApid] := rfl

theorem fileVars_names (tmpdir path : Text) (pmi : PmiBootstrapInfo) :
    ((fileVars tmpdir path pmi).map Prod.fst).Sublist [varSpoolDir, varApinfo, varControlPort, varSharedSecret] := by
  unfold fileVars
  cases pmi.valid <;> simp

theorem fileVars_valid {pmi : PmiBootstrapInfo} (h : pmi.valid = true) (tmpdir path : Text) :
    (varControlPort, portList pmi.port₁ pmi.port₂) ∈ fileVars tmpdir path pmi ∧
      (varSharedSecret, decimal pmi.secret.toNat) ∈ fileVars tmpdir path pmi := by
  simp [fileVars, h]

theorem fileVars_nodup (tmpdir path : Text) (pmi : PmiBootstrapInfo) :
    ((fileVars tmpdir path pmi).map Prod.fst).Nodup :=
  List.Nodup.sublist (fileVars_names tmpdir path pmi) (by decide)

theorem setEnvironment_prepared (h : setEnvironment c shell pmi path env = (true, env')) :
    Prepared shell pmi path env env' := by
  unfold setEnvironment at h
  split at h
  · cases h
  · rename_i mid hids
    split at h
    · cases h
    · rename_i tmpdir htmpdir
      have hmid (name : Text) := get?_setenvs (idVars_names shell ▸ by decide) hids name
      have hafter (name : Text) := get?_setenvs (fileVars_nodup tmpdir path pmi) h name
      have hkept {name : Text} (hport : name ≠ varControlPort) (hid : name ∉ [varNodeid, varApid]) :
          mid.get? name = env.get? name := by
        rw [hmid, valueOf_eq_none (idVars_names shell ▸ hid), Option.none_or, unsetenv, Dict.get?_del_ne _ hport]
      have hnoPort : mid.get? varControlPort = none := by
        rw [hmid, valueOf_eq_none (idVars_names shell ▸ by decide), Option.none_or, unsetenv, Dict.get?_del_self]
      have hfile {name : Text} (hname : name ∉ [varSpoolDir, varApinfo, varControlPort, varSharedSecret]) :
          env'.get? name = mid.get? name := by
        rw [hafter, valueOf_eq_none fun hmem => hname ((fileVars_names tmpdir path pmi).subset hmem), Option.none_or]
      have hinvalid (hvalid : pmi.valid = false) {name : Text} (hname : name ∉ [varSpoolDir, varApinfo]) :
          env'.get? name = mid.get? name := by
        rw [hafter, valueOf_eq_none (by simpa [fileVars, hvalid] using hname), Option.none_or]
      rw [hkept (by decide) (by decide)] at htmpdir
      refine ⟨?_, ?_, ?_, ?_, ?_, ?_, fun name hname => ?_⟩
      · rw [hfile (by decide), hmid]
        rfl
      · rw [hfile (by decide), hmid]
        rfl
      · rw [hafter, htmpdir]
        rfl
      · rw [hafter]
        rfl
      · cases hvalid : pmi.valid with
        | false => exact (hinvalid hvalid (by decide)).trans hnoPort
        | true =>
          rw [hafter, (valueOf_eq_some (fileVars_nodup tmpdir path pmi)).mpr (fileVars_valid hvalid tmpdir path).1]
          rfl
      · cases hvalid : pmi.valid with
        | false => exact (hinvalid hvalid (by decide)).trans (hkept (by decide) (by decide))
        | true =>
          rw [hafter, (valueOf_eq_some (fileVars_nodup tmpdir path pmi)).mpr (fileVars_valid hvalid tmpdir path).2]
          rfl
      · have hout : ∀ vars ⊆ palsVars, name ∉ vars := fun vars hvars hmem => hname (hvars hmem)
        have hport : name ∉ [varControlPort] := hout _ (by decide)
        rw [hfile (hout _ (by decide)), hkept (by simpa using hport) (hout _ (by decide))]

/-- A shell that goes on has the file and the environment. -/
theorem init_done {file : Option (Text × List Byte)}
    (h : libpalsInit append c shell options outcome env = .done env' file) : ∃ pmi path bytes,
      (if wantsEvent shell.size options.pmi then getPmiBootstrap c outcome options.pmi else some (.ok options.pmi)) =
        some (.ok pmi) ∧
      createApinfo append c shell options env = some (path, bytes) ∧ file = some (path, bytes) ∧
      Prepared shell pmi path env env' := by
  unfold libpalsInit at h
  dsimp only at h
  split at h
  · cases h
  · cases h
  · rename_i pmi hread
    split at h
    · cases h
    · rename_i path bytes hfile
      split at h
      · cases h
      · rename_i env' hset
        cases h
        exact ⟨pmi, path, bytes, hread, hfile, rfl, setEnvironment_prepared hset⟩

/-- The plugin is asked for, and its options are good. -/
theorem run_done {shell : Shell} {file : Option (Text × List Byte)} (hon : shell.enabled = some true)
    (h : shell.run outcome = .done env' file) : ∃ options, crayPalsParseArgs shell.options = some options ∧
      libpalsInit shell.append shell.calls shell.info options outcome shell.env = .done env' file := by
  unfold Shell.run at h
  rw [hon] at h
  dsimp only at h
  split at h
  · cases h
  · split at h
    · cases h
    · rename_i options hparse
      split at h
      · cases h
      · exact ⟨options, hparse, h⟩

theorem readFuture_waiting (h : readFuture outcome pmi = none) : outcome = .waiting := by
  unfold readFuture at h
  split at h
  · rfl
  · cases h
  · cases h
  · split at h <;> cases h

theorem init_waiting (h : libpalsInit append c shell options outcome env = .waiting) : outcome = .waiting := by
  unfold libpalsInit at h
  dsimp only at h
  split at h
  · rename_i hread
    split at hread
    · unfold getPmiBootstrap at hread
      split at hread
      · cases hread
      · exact readFuture_waiting hread
    · cases hread
  · cases h
  · split at h
    · cases h
    · split at h <;> cases h

end

end FluxCoral2.CrayPals
