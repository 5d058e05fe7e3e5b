import FluxCoral2.Eventlog.WaitFor
import FluxCoral2.Library.Argz
import FluxCoral2.Library.Environ
import FluxCoral2.Library.IntString
import FluxCoral2.Slingshot.Housekeeping
import FluxCoral2.Slingshot.Reservation

/-! The Slingshot environment of a job (`cray-slingshot.c` of the shell).

The shell clears four variables, and sets them from the environment of its broker or from the
reservation of the job, whose CXI services it looks for on the devices. `shell_environment`:
if it succeeds, they are all of one of the two, or unset, and nothing else is touched.
`nested_environment`: the jobs of an instance that runs in a job have what that job has, at
any depth.

Which calls fail, the flags that a device has of a service and the printing of JSON are
arguments. -/
namespace FluxCoral2.Slingshot.Shell
open Library Eventlog Environ
open IntString (decimal hex)

/-! ### CXI services -/

inductive TrafficClass | dedicatedAccess | lowLatency | bulkData | bestEffort
  deriving DecidableEq

/-- What a device says of a service besides what the prolog asks for. -/
structure Flags where
  enable : Bool := true
  tcDedicatedAccess : Bool := false
  tcBulkData : Bool := false
  deriving DecidableEq

/-- The flags of the services of a device, by their ids. -/
abbrev Driver := Nat → Nat → Flags

def tcs (flags : Flags) (desc : CxiSvcDesc) : TrafficClass → Bool
  | .dedicatedAccess => flags.tcDedicatedAccess
  | .lowLatency => desc.tcLowLatency
  | .bulkData => flags.tcBulkData
  | .bestEffort => desc.tcBestEffort

def TrafficClass.bit : TrafficClass → Nat
  | .dedicatedAccess => 0
  | .lowLatency => 1
  | .bulkData => 2
  | .bestEffort => 3

def trafficClasses : List TrafficClass := [.dedicatedAccess, .lowLatency, .bulkData, .bestEffort]

def tcmaskDefault : Nat := 0xf

def tcmaskFromDesc (tcs : TrafficClass → Bool) : Nat :=
  trafficClasses.foldl (fun mask tc => if tcs tc then mask ||| 1 <<< tc.bit else mask) 0

/-- The VNIs in the order of the array; the user is not looked at. -/
def matchCxiService (flags : Flags) (desc : CxiSvcDesc) (vnis : List Int) : Bool :=
  if !flags.enable || desc.isSystemSvc then false
  else if desc.numVldVnis ≠ vnis.length then false
  else (List.range desc.numVldVnis).all fun i => ((desc.vnis.toList.getD i 0).toNat : Int) = vnis.getD i 0

/-- Which calls of the shell fail. -/
structure Calls where
  getDeviceList : Bool := true
  openDevice : Nat → Bool := fun _ => true
  getSvcList : Nat → Bool := fun _ => true
  setenv : Text → Bool := fun _ => true

/-- The first service that matches. -/
def findService (driver : Driver) (vnis : List Int) (dev : CxilDev) : Option CxiSvcDesc :=
  dev.svcs.find? fun desc => matchCxiService (driver dev.info.devId desc.svcId) desc vnis

def appendCxiServiceMatch (c : Calls) (driver : Driver) (vnis : List Int) (dev : CxilDev) (svcs : List Int)
    (tcmask : Nat) : Option (List Int × Nat) :=
  if !c.openDevice dev.info.devId then none
  else if !c.getSvcList dev.info.devId then none
  else
    match findService driver vnis dev with
    | some desc =>
      some (svcs ++ [(desc.svcId : Int)], tcmask &&& tcmaskFromDesc (tcs (driver dev.info.devId desc.svcId) desc))
    | none => some (svcs ++ [-1], tcmask &&& tcmaskDefault)

/-- The loop of `add_devices`, with what is in the arrays so far. -/
def addDevicesLoop (c : Calls) (driver : Driver) (deviceName : Nat → Text) (vnis : List Int) :
    List CxilDev → (devs : List Text) → (svcs : List Int) → (tcmask : Nat) → Option (List Text × List Int × Nat)
  | [], devs, svcs, tcmask => some (devs, svcs, tcmask)
  | dev :: rest, devs, svcs, tcmask =>
    match appendCxiServiceMatch c driver vnis dev svcs tcmask with
    | none => none
    | some (svcs, tcmask) =>
      addDevicesLoop c driver deviceName vnis rest (devs ++ [deviceName dev.info.devId]) svcs tcmask

def addDevices (c : Calls) (driver : Driver) (deviceName : Nat → Text) (vnis : List Int) (devices : List CxilDev)
    (tcmask : Nat) : Option (List Text × List Int × Nat) :=
  if !c.getDeviceList then none else addDevicesLoop c driver deviceName vnis devices [] [] tcmask

/-! ### The environment -/

def varVnis : Text := "SLINGSHOT_VNIS".toList

def varDevices : Text := "SLINGSHOT_DEVICES".toList

def varSvcIds : Text := "SLINGSHOT_SVC_IDS".toList

def varTcs : Text := "SLINGSHOT_TCS".toList

/-- The variables that are the plugin's. -/
def slingshotVars : List Text := [varVnis, varDevices, varSvcIds, varTcs]

theorem slingshotVars_nodup : slingshotVars.Nodup := by decide

abbrev Environment := Dict Text Text

/-- `-1` is a failure that ends the shell, `1` one behind which the next method is tried. -/
inductive Rc | success | fatal | nonFatal
  deriving DecidableEq

/-- Setting variables with `flux_shell_setenvf`. -/
def setVars (c : Calls) (vars : List (Text × Text)) (env : Environment) : Rc × Environment :=
  let (done, env) := setenvs c.setenv vars env
  (if done then .success else .fatal, env)

/-- An array is not set if it is empty; there are no values that are not printed. -/
def setenvJsonIntArray (dumps : List Json → Text) (name : Text) (list : List Json) : List (Text × Text) :=
  if list.length = 0 then [] else [(name, dumps list)]

def stringifyJsonStringArray (list : List Text) : Text := Argz.stringify ',' list

def setenvJsonStringArray (name : Text) (list : List Text) : List (Text × Text) :=
  if list.length = 0 then [] else [(name, stringifyJsonStringArray list)]

def keyVnis : Text := ['v', 'n', 'i', 's']

def toEntry : Json → Slingshot.Entry
  | .integer n => .integer n.toInt
  | _ => .other

def elements : Json → List Json
  | .array values => values
  | _ => []

/-- A build with libcxi has devices. -/
structure Node where
  haveCxi : Bool := true
  calls : Calls := {}
  driver : Driver := fun _ _ => {}
  deviceName : Nat → Text
  devices : List CxilDev

def Node.addDevices (node : Node) (vnis : Json) : Option (List Text × List Int × Nat) :=
  if node.haveCxi then
    Shell.addDevices node.calls node.driver node.deviceName ((elements vnis).map fun v => (toEntry v).value)
      node.devices tcmaskDefault
  else some ([], [], tcmaskDefault)

/-- What is set for a reservation. -/
def reservationVars (dumps : List Json → Text) (vnis : Json) (devices : List Text) (cxiSvc : List Int) (tcmask : Nat) :
    List (Text × Text) :=
  setenvJsonIntArray dumps varVnis (elements vnis) ++ setenvJsonStringArray varDevices devices ++
    setenvJsonIntArray dumps varSvcIds (cxiSvc.map fun id => .integer (BitVec.ofInt 64 id)) ++ [(varTcs, hex tcmask)]

/-- `res` is what `eventlog_wait_for` gives. -/
def craySlingshotReserved (dumps : List Json → Text) (node : Node) (res : Except WaitError (Option Json))
    (env : Environment) : Rc × Environment :=
  match res with
  | .error _ => (.fatal, env)
  | .ok none => (.nonFatal, env)
  | .ok (some res) =>
    match res.get? keyVnis with
    | none => (.fatal, env)
    | some vnis =>
      match node.addDevices vnis with
      | none => (.fatal, env)
      | some (devices, cxiSvc, tcmask) =>
        setVars node.calls (reservationVars dumps vnis devices cxiSvc tcmask) env

inductive GetenvError | EPERM | ENOSYS | other
  deriving DecidableEq

/-- What the broker answers of the variables that were asked for. -/
abbrev Getenv := Except GetenvError (Text → Option Text)

def inheritedVars (broker : Text → Option Text) : List (Text × Text) :=
  slingshotVars.filterMap fun name => (broker name).map fun value => (name, value)

def craySlingshotInherit (c : Calls) (getenv : Getenv) (env : Environment) : Rc × Environment :=
  match getenv with
  | .error e => if e ≠ .EPERM ∧ e ≠ .ENOSYS then (.fatal, env) else (.nonFatal, env)
  | .ok broker =>
    match broker varVnis with
    | none => (.nonFatal, env)
    | some _ => setVars c (inheritedVars broker) env

/-- `shell.post-init`. -/
def shellPostInitCb (dumps : List Json → Text) (node : Node) (getenv : Getenv) (res : Except WaitError (Option Json))
    (env : Environment) : Rc × Environment :=
  match craySlingshotInherit node.calls getenv env with
  | (.nonFatal, env) =>
    match craySlingshotReserved dumps node res env with
    | (.nonFatal, env) => (.success, env)
    | done => done
  | done => done

/-- The options of `-o cray-slingshot`: whether the plugin is off, or an error. -/
def craySlingshotParseArgs : Except Unit (Option ShellOptions) → Option Bool
  | .error () => none
  | .ok none => some false
  | .ok (some (.string s)) => if s = "off" then some true else none
  | .ok (some (.object .absent)) => some false
  | .ok (some (.object (.integer _))) => some false
  | .ok (some (.object .other)) => none
  | .ok (some .other) => none

/-- The plugin in a shell: its initialization, and `shell.post-init` if it is not off. -/
def runPlugin (dumps : List Json → Text) (node : Node) (options : Except Unit (Option ShellOptions)) (getenv : Getenv)
    (res : Except WaitError (Option Json)) (env : Environment) : Rc × Environment :=
  match craySlingshotParseArgs options with
  | none => (.fatal, env)
  | some true => (.success, env)
  | some false => shellPostInitCb dumps node getenv res (slingshotVars.foldl unsetenv env)

/-! ### What is set -/

section Setting
variable {c : Calls} {env env' : Environment} {rc : Rc}

theorem setVars_ne_nonFatal (vars : List (Text × Text)) (env : Environment) : (setVars c vars env).1 ≠ .nonFatal := by
  show (if (setenvs c.setenv vars env).1 then Rc.success else .fatal) ≠ .nonFatal
  split <;> exact nofun

theorem setVars_success {vars : List (Text × Text)} (h : setVars c vars env = (.success, env')) :
    setenvs c.setenv vars env = (true, env') := by
  unfold setVars at h
  rcases hset : setenvs c.setenv vars env with ⟨done, env⟩
  rw [hset] at h
  cases done <;> cases h
  rfl

/-! ### The inherited variables -/

theorem mem_inheritedVars {broker : Text → Option Text} {name value : Text} :
    (name, value) ∈ inheritedVars broker ↔ name ∈ slingshotVars ∧ broker name = some value := by
  simp only [inheritedVars, List.mem_filterMap, Option.map_eq_some_iff, Prod.mk.injEq]
  constructor
  · rintro ⟨name, hname, value, hvalue, rfl, rfl⟩
    exact ⟨hname, hvalue⟩
  · rintro ⟨hname, hvalue⟩
    exact ⟨name, hname, value, hvalue, rfl, rfl⟩

theorem inheritedVars_nodup (broker : Text → Option Text) : ((inheritedVars broker).map Prod.fst).Nodup := by
  refine List.Nodup.sublist ?_ slingshotVars_nodup
  have hsub (names : List Text) :
      ((names.filterMap fun name => (broker name).map fun value => (name, value)).map Prod.fst).Sublist names := by
    induction names with
    | nil => exact List.Sublist.slnil
    | cons name rest ih =>
      cases hname : broker name with
      | none => simpa [hname] using ih.cons name
      | some value => simpa [hname] using ih.cons_cons name
  exact hsub slingshotVars

theorem valueOf_inheritedVars {broker : Text → Option Text} {name : Text} (h : name ∈ slingshotVars) :
    valueOf (inheritedVars broker) name = broker name := by
  refine Option.ext fun value => ?_
  rw [valueOf_eq_some (inheritedVars_nodup broker), mem_inheritedVars, and_iff_right h]

/-! ### The variables of a reservation -/

variable {dumps : List Json → Text} {node : Node} {vnis : Json} {devices : List Text} {cxiSvc : List Int} {tcmask : Nat}

theorem reservationVars_names :
    ((reservationVars dumps vnis devices cxiSvc tcmask).map Prod.fst).Sublist slingshotVars := by
  unfold reservationVars setenvJsonIntArray setenvJsonStringArray slingshotVars
  by_cases hv : (elements vnis).length = 0 <;> by_cases hd : devices.length = 0 <;>
    by_cases hs : (cxiSvc.map fun id => Json.integer (BitVec.ofInt 64 id)).length = 0 <;>
    simp only [hv, hd, hs, if_true, if_false, List.map_append, List.map_cons, List.map_nil] <;> simp

theorem valueOf_reservationVars (dumps : List Json → Text) (vnis : Json) (devices : List Text) (cxiSvc : List Int)
    (tcmask : Nat) :
    valueOf (reservationVars dumps vnis devices cxiSvc tcmask) varVnis =
        (if elements vnis = [] then none else some (dumps (elements vnis))) ∧
      valueOf (reservationVars dumps vnis devices cxiSvc tcmask) varDevices =
        (if devices = [] then none else some (stringifyJsonStringArray devices)) ∧
      valueOf (reservationVars dumps vnis devices cxiSvc tcmask) varSvcIds =
        (if cxiSvc = [] then none else some (dumps (cxiSvc.map fun id => .integer (BitVec.ofInt 64 id)))) ∧
      valueOf (reservationVars dumps vnis devices cxiSvc tcmask) varTcs = some (hex tcmask) := by
  have hne : varVnis ≠ varDevices ∧ varVnis ≠ varSvcIds ∧ varVnis ≠ varTcs ∧ varDevices ≠ varSvcIds ∧
      varDevices ≠ varTcs ∧ varSvcIds ≠ varTcs := by decide
  obtain ⟨h₁, h₂, h₃, h₄, h₅, h₆⟩ := hne
  unfold valueOf reservationVars setenvJsonIntArray setenvJsonStringArray
  refine ⟨?_, ?_, ?_, ?_⟩ <;> cases hv : elements vnis <;> cases devices <;> cases cxiSvc <;>
    simp [*, h₁.symm, h₂.symm, h₃.symm, h₄.symm, h₅.symm, h₆.symm]

end Setting

/-! ### One source -/

/-- The broker has no VNIs to pass on, and none is an error. -/
def NotInherited : Getenv → Prop
  | .error e => e = .EPERM ∨ e = .ENOSYS
  | .ok broker => broker varVnis = none

/-- The variables are those of the broker, of the reservation, or unset; all else is as it was. -/
structure OneSource (dumps : List Json → Text) (node : Node) (getenv : Getenv) (res : Except WaitError (Option Json))
    (before after : Environment) : Prop where
  others : ∀ name ∉ slingshotVars, after.get? name = before.get? name
  inherited : ∀ broker, getenv = .ok broker → broker varVnis ≠ none →
    ∀ name ∈ slingshotVars, after.get? name = broker name
  reserved : NotInherited getenv → ∀ obj, res = .ok (some obj) → ∃ vnis devices cxiSvc tcmask,
    obj.get? keyVnis = some vnis ∧ node.addDevices vnis = some (devices, cxiSvc, tcmask) ∧
      ∀ name ∈ slingshotVars, after.get? name = valueOf (reservationVars dumps vnis devices cxiSvc tcmask) name
  cleared : NotInherited getenv → res = .ok none → ∀ name ∈ slingshotVars, after.get? name = none

section Plugin
variable {dumps : List Json → Text} {node : Node} {getenv : Getenv} {res : Except WaitError (Option Json)}
  {env env' : Environment} {rc : Rc}

theorem inherit_cases (c : Calls) (getenv : Getenv) (env : Environment) :
    (NotInherited getenv ∧ craySlingshotInherit c getenv env = (.nonFatal, env)) ∨
      (¬ NotInherited getenv ∧ ∃ broker, getenv = .ok broker ∧ broker varVnis ≠ none ∧
        craySlingshotInherit c getenv env = setVars c (inheritedVars broker) env) ∨
      (¬ NotInherited getenv ∧ getenv = .error .other ∧ craySlingshotInherit c getenv env = (.fatal, env)) := by
  cases getenv with
  | error e =>
    cases e with
    | other => exact .inr (.inr ⟨by simp [NotInherited], rfl, rfl⟩)
    | _ => exact .inl ⟨by simp [NotInherited], rfl⟩
  | ok broker =>
    unfold craySlingshotInherit NotInherited
    cases hvnis : broker varVnis with
    | none => exact .inl ⟨hvnis, by simp only [hvnis]⟩
    | some vnis => exact .inr (.inl ⟨by simp [hvnis], broker, rfl, by simp [hvnis], by simp only [hvnis]⟩)

/-- The reservation gives nothing, ends the shell, or sets its variables. -/
theorem reserved_cases (dumps : List Json → Text) (node : Node) (res : Except WaitError (Option Json))
    (env : Environment) :
    (res = .ok none ∧ craySlingshotReserved dumps node res env = (.nonFatal, env)) ∨
      (res ≠ .ok none ∧ craySlingshotReserved dumps node res env = (.fatal, env)) ∨
      ∃ obj vnis devices cxiSvc tcmask, res = .ok (some obj) ∧ obj.get? keyVnis = some vnis ∧
        node.addDevices vnis = some (devices, cxiSvc, tcmask) ∧ craySlingshotReserved dumps node res env =
          setVars node.calls (reservationVars dumps vnis devices cxiSvc tcmask) env := by
  unfold craySlingshotReserved
  cases res with
  | error e => exact .inr (.inl ⟨nofun, rfl⟩)
  | ok obj =>
    cases obj with
    | none => exact .inl ⟨rfl, rfl⟩
    | some obj =>
      dsimp only
      cases hvnis : obj.get? keyVnis with
      | none => exact .inr (.inl ⟨nofun, rfl⟩)
      | some vnis =>
        dsimp only
        cases hadd : node.addDevices vnis with
        | none => exact .inr (.inl ⟨nofun, rfl⟩)
        | some added => exact .inr (.inr ⟨obj, vnis, added.1, added.2.1, added.2.2, rfl, hvnis, hadd, rfl⟩)

/-- Variables set over cleared ones. -/
theorem get?_over_cleared {c : Calls} {vars : List (Text × Text)} (hnodup : (vars.map Prod.fst).Nodup)
    (h : setVars c vars (slingshotVars.foldl unsetenv env) = (.success, env')) :
    ∀ name ∈ slingshotVars, env'.get? name = valueOf vars name := by
  intro name hname
  rw [get?_setenvs hnodup (setVars_success h), get?_unset_of_mem hname, Option.or_none]

/-- A result of setting variables is the callback's. -/
theorem setVars_match {c : Calls} {vars : List (Text × Text)} (next : Environment → Rc × Environment) :
    (match setVars c vars env with
      | (.nonFatal, env) => next env
      | done => done) = setVars c vars env := by
  have hne := setVars_ne_nonFatal (c := c) vars env
  split
  · simp_all
  · rfl

theorem shellPostInitCb_cases (dumps : List Json → Text) (node : Node) (getenv : Getenv)
    (res : Except WaitError (Option Json)) (env : Environment) :
    (NotInherited getenv ∧ res = .ok none ∧ shellPostInitCb dumps node getenv res env = (.success, env)) ∨
      (∃ broker, getenv = .ok broker ∧ broker varVnis ≠ none ∧
        shellPostInitCb dumps node getenv res env = setVars node.calls (inheritedVars broker) env) ∨
      (NotInherited getenv ∧ ∃ obj vnis devices cxiSvc tcmask, res = .ok (some obj) ∧ obj.get? keyVnis = some vnis ∧
        node.addDevices vnis = some (devices, cxiSvc, tcmask) ∧ shellPostInitCb dumps node getenv res env =
          setVars node.calls (reservationVars dumps vnis devices cxiSvc tcmask) env) ∨
      shellPostInitCb dumps node getenv res env = (.fatal, env) := by
  unfold shellPostInitCb
  obtain ⟨hnot, hinherit⟩ | ⟨-, broker, hgetenv, hvnis, hinherit⟩ | ⟨-, -, hinherit⟩ :=
    inherit_cases node.calls getenv env
  · rw [hinherit]
    dsimp only
    obtain ⟨hnone, hres⟩ | ⟨-, hres⟩ | ⟨obj, vnis, devices, cxiSvc, tcmask, hobj, hvnis, hadd, hres⟩ :=
      reserved_cases dumps node res env
    · exact .inl ⟨hnot, hnone, by rw [hres]⟩
    · exact .inr (.inr (.inr (by rw [hres])))
    · refine .inr (.inr (.inl ⟨hnot, obj, vnis, devices, cxiSvc, tcmask, hobj, hvnis, hadd, ?_⟩))
      rw [hres]
      exact setVars_match fun env => (.success, env)
  · refine .inr (.inl ⟨broker, hgetenv, hvnis, ?_⟩)
    rw [hinherit]
    exact setVars_match _
  · exact .inr (.inr (.inr (by rw [hinherit])))

theorem shellPostInitCb_others {name : Text} (h : name ∉ slingshotVars) :
    (shellPostInitCb dumps node getenv res env).2.get? name = env.get? name := by
  obtain ⟨-, -, hcb⟩ | ⟨broker, -, -, hcb⟩ | ⟨-, obj, vnis, devices, cxiSvc, tcmask, -, -, -, hcb⟩ | hcb :=
    shellPostInitCb_cases dumps node getenv res env
  · rw [hcb]
  · rw [hcb]
    refine get?_setenvs_other (fun hmem => h ?_) env
    obtain ⟨var, hvar, rfl⟩ := List.mem_map.mp hmem
    exact (mem_inheritedVars.mp hvar).1
  · rw [hcb]
    exact get?_setenvs_other (fun hmem => h (reservationVars_names.subset hmem)) env
  · rw [hcb]

/-- A shell with the plugin goes by what its callback makes of the cleared variables. -/
theorem runPlugin_on {options : Except Unit (Option ShellOptions)} (hon : craySlingshotParseArgs options = some false) :
    runPlugin dumps node options getenv res env =
      shellPostInitCb dumps node getenv res (slingshotVars.foldl unsetenv env) := by
  rw [runPlugin, hon]

theorem get?_others (hrun : shellPostInitCb dumps node getenv res (slingshotVars.foldl unsetenv env) = (rc, env'))
    {name : Text} (hname : name ∉ slingshotVars) : env'.get? name = env.get? name := by
  have hsame : (shellPostInitCb dumps node getenv res (slingshotVars.foldl unsetenv env)).2.get? name =
      (slingshotVars.foldl unsetenv env).get? name := shellPostInitCb_others hname
  rw [hrun] at hsame
  rw [hsame, get?_unset_of_notMem hname]

theorem shellPostInitCb_ne_nonFatal : (shellPostInitCb dumps node getenv res env).1 ≠ .nonFatal := by
  obtain ⟨-, -, hcb⟩ | ⟨broker, -, -, hcb⟩ | ⟨-, obj, vnis, devices, cxiSvc, tcmask, -, -, -, hcb⟩ | hcb :=
    shellPostInitCb_cases dumps node getenv res env <;> rw [hcb]
  · exact nofun
  · exact setVars_ne_nonFatal _ _
  · exact setVars_ne_nonFatal _ _
  · exact nofun

theorem oneSource
    (hrun : shellPostInitCb dumps node getenv res (slingshotVars.foldl unsetenv env) = (.success, env')) :
    OneSource dumps node getenv res env env' := by
  have hothers : ∀ name ∉ slingshotVars, env'.get? name = env.get? name := fun name hname => get?_others hrun hname
  obtain ⟨hnot, hnone, hcb⟩ | ⟨broker, rfl, hvnis, hcb⟩ |
      ⟨hnot, obj, vnis, devices, cxiSvc, tcmask, hobj, hkey, hadd, hcb⟩ | hcb :=
    shellPostInitCb_cases dumps node getenv res (slingshotVars.foldl unsetenv env) <;> rw [hrun] at hcb
  · obtain ⟨-, rfl⟩ := Prod.mk.inj hcb
    refine ⟨hothers, ?_, ?_, fun _ _ name hname => get?_unset_of_mem hname env⟩
    · rintro broker rfl hvnis
      exact absurd hnot hvnis
    · intro _ obj hobj
      rw [hnone] at hobj
      cases hobj
  · refine ⟨hothers, ?_, fun hnot => absurd hnot hvnis, fun hnot => absurd hnot hvnis⟩
    rintro broker' hbroker - name hname
    obtain rfl := Except.ok.inj hbroker
    rw [get?_over_cleared (inheritedVars_nodup broker) hcb.symm name hname, valueOf_inheritedVars hname]
  · refine ⟨hothers, ?_, ?_, ?_⟩
    · rintro broker rfl hvnis
      exact absurd hnot hvnis
    · intro _ obj' hobj'
      rw [hobj] at hobj'
      obtain rfl := Option.some.inj (Except.ok.inj hobj')
      refine ⟨vnis, devices, cxiSvc, tcmask, hkey, hadd, ?_⟩
      exact get?_over_cleared (slingshotVars_nodup.sublist reservationVars_names) hcb.symm
    · intro _ hnone
      rw [hobj] at hnone
      cases hnone
  · cases (Prod.mk.inj hcb).1

/-- **The Slingshot environment has one source**: a shell that goes on has the four variables of its
broker, of the reservation, or none of them, and no shell touches another variable. -/
theorem shell_environment (dumps : List Json → Text) (node : Node) (options : Except Unit (Option ShellOptions))
    (getenv : Getenv) (res : Except WaitError (Option Json)) (env env' : Environment) (rc : Rc)
    (hon : craySlingshotParseArgs options = some false)
    (hrun : runPlugin dumps node options getenv res env = (rc, env')) :
    rc ≠ .nonFatal ∧ (∀ name ∉ slingshotVars, env'.get? name = env.get? name) ∧
      (rc = .success → OneSource dumps node getenv res env env') := by
  rw [runPlugin_on hon] at hrun
  refine ⟨?_, fun name hname => get?_others hrun hname, ?_⟩
  · rintro rfl
    exact shellPostInitCb_ne_nonFatal (congrArg Prod.fst hrun)
  · rintro rfl
    exact oneSource hrun

end Plugin

/-! ### Instances in jobs -/

/-- A job of an instance, whose brokers run in a job themselves: the node it runs on, what its shell
is told, and the environment it is submitted with. -/
structure Level where
  node : Node
  options : Except Unit (Option ShellOptions)
  res : Except WaitError (Option Json)
  env : Environment

/-- The broker answers from the environment it runs in. -/
def Level.run (dumps : List Json → Text) (level : Level) (broker : Environment) : Rc × Environment :=
  runPlugin dumps level.node level.options (.ok broker.get?) level.res level.env

/-- The environment of the innermost job, if no shell ends. -/
def nested (dumps : List Json → Text) : List Level → Environment → Option Environment
  | [], env => some env
  | level :: rest, env =>
    match level.run dumps env with
    | (.success, env) => nested dumps rest env
    | _ => none

/-- **Nested instances pass the Slingshot environment on**: at any depth a job has the variables of
the outermost job, whatever it is submitted with and whatever its own instance reserved. -/
theorem nested_environment (dumps : List Json → Text) (levels : List Level) (outer inner : Environment)
    (hvnis : outer.get? varVnis ≠ none)
    (hon : ∀ level ∈ levels, craySlingshotParseArgs level.options = some false)
    (hnested : nested dumps levels outer = some inner) :
    slingshotVars.map inner.get? = slingshotVars.map outer.get? := by
  induction levels generalizing outer with
  | nil =>
    obtain rfl := Option.some.inj hnested
    rfl
  | cons level rest ih =>
    rw [nested] at hnested
    split at hnested
    · rename_i env hrun
      rw [Level.run, runPlugin_on (hon level List.mem_cons_self)] at hrun
      have hsame := (oneSource hrun).inherited outer.get? rfl hvnis
      have hkeep : env.get? varVnis ≠ none := by rwa [hsame varVnis List.mem_cons_self]
      rw [ih env hkeep (fun level hl => hon level (List.mem_cons_of_mem _ hl)) hnested]
      exact List.map_congr_left hsame
    · cases hnested

/-! ### A job on two devices, one of which has its service -/

def printIntegers (values : List Json) : Text :=
  Argz.stringify ',' (values.map fun
    | .integer n => decimal n.toInt
    | _ => [])

def jobSvc : CxiSvcDesc := {firstJob.job.desc (cassini 0) with svcId := 3}

theorem jobSvc_nodup : ([systemSvc, jobSvc].map CxiSvcDesc.svcId).Nodup := by decide

theorem otherSvc_nodup : ([systemSvc, otherSvc].map CxiSvcDesc.svcId).Nodup := by decide

def jobNode : Node where
  deviceName := fun devId => ['c', 'x', 'i'] ++ Nat.toDigits 10 devId
  devices := [⟨cassini 0, [systemSvc, jobSvc], jobSvc_nodup⟩, ⟨cassini 1, [systemSvc, otherSvc], otherSvc_nodup⟩]

def jobVnis : List (BitVec 64) := [11, 12]

def jobObj : Json := .object [(keyVnis, .array (jobVnis.map .integer))]

/-- A job in an instance that runs in the job, which reserved nothing for it. -/
def innerLevel : Level := ⟨jobNode, .ok none, .ok none, .empty⟩

def jobEnvironment : Environment :=
  (runPlugin printIntegers jobNode (.ok none) (.error .ENOSYS) (.ok (some jobObj)) .empty).2

theorem jobNode_oneSource : Rc.success ≠ .nonFatal ∧
    (∀ name ∉ slingshotVars, jobEnvironment.get? name = (Dict.empty : Environment).get? name) ∧
    (Rc.success = .success →
      OneSource printIntegers jobNode (.error .ENOSYS) (.ok (some jobObj)) .empty jobEnvironment) :=
  shell_environment printIntegers jobNode (.ok none) (.error .ENOSYS) (.ok (some jobObj)) .empty jobEnvironment .success
    rfl rfl

theorem innerLevels_nested :
    slingshotVars.map ((nested printIntegers [innerLevel, innerLevel] jobEnvironment).getD .empty).get? =
      slingshotVars.map jobEnvironment.get? :=
  nested_environment printIntegers [innerLevel, innerLevel] jobEnvironment _ (by decide) (by decide) rfl

end FluxCoral2.Slingshot.Shell
