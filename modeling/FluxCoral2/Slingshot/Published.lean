import FluxCoral2.Slingshot.ShellPlugin

/-! What the variables of a reservation say (`cray-slingshot.c` of the shell).

The shell looks on each device of the node for the first service that is enabled, is no system
service and has the VNIs of the reservation. The ids of these are in one variable and the names
of the devices in another, so that they stand at the same places: `services_published`. -/
namespace FluxCoral2.Slingshot.Shell
open Library Eventlog Environ
open IntString (decimal comma_notMem_decimal hex)

/-! ### The service of a device -/

/-- The VNIs that a descriptor lists. -/
def listed (desc : CxiSvcDesc) : List Int := (desc.vnis.toList.take desc.numVldVnis).map fun vni => (vni.toNat : Int)

theorem matchCxiService_iff {flags : Flags} {desc : CxiSvcDesc} {vnis : List Int} (h : vnis.length ≤ cxiSvcMaxVnis) :
    matchCxiService flags desc vnis = true ↔
      flags.enable = true ∧ desc.isSystemSvc = false ∧ desc.numVldVnis = vnis.length ∧ listed desc = vnis := by
  unfold matchCxiService
  cases flags.enable with
  | false => simp
  | true =>
    cases desc.isSystemSvc with
    | true => simp
    | false =>
      by_cases hlen : desc.numVldVnis = vnis.length
      · simp only [hlen, Bool.not_true, Bool.or_self, Bool.false_eq_true, if_false, ne_eq, not_true_eq_false,
          List.all_eq_true, List.mem_range, decide_eq_true_eq, true_and, listed]
        have hroom : vnis.length ≤ desc.vnis.toList.length := by simpa using h
        constructor
        · intro hall
          refine List.ext_getElem (by simpa using h) fun i hi hi' => ?_
          have hentry := hall i hi'
          rw [List.getD_eq_getElem _ _ (by omega), List.getD_eq_getElem _ _ hi'] at hentry
          simpa using hentry
        · intro heq i hi
          have hget : ((desc.vnis.toList.take vnis.length).map fun vni => (vni.toNat : Int))[i]? = vnis[i]? :=
            congrArg (fun l : List Int => l[i]?) heq
          rw [List.getElem?_map, List.getElem?_take_of_lt hi, List.getElem?_eq_getElem (by omega),
            List.getElem?_eq_getElem hi, Option.map_some, Option.some.injEq] at hget
          rw [List.getD_eq_getElem _ _ (by omega), List.getD_eq_getElem _ _ hi]
          exact hget
      · simp [hlen]

theorem tcmaskFromDesc_testBit (tcs : TrafficClass → Bool) (tc : TrafficClass) :
    (tcmaskFromDesc tcs).testBit tc.bit = tcs tc := by
  cases ha : tcs .dedicatedAccess <;> cases hb : tcs .lowLatency <;> cases hc : tcs .bulkData <;>
    cases hd : tcs .bestEffort <;> cases tc <;>
    simp [tcmaskFromDesc, trafficClasses, TrafficClass.bit, ha, hb, hc, hd] <;> decide

/-- The id that is put in the array for a device. -/
def serviceId (driver : Driver) (vnis : List Int) (dev : CxilDev) : Int :=
  match findService driver vnis dev with
  | some desc => desc.svcId
  | none => -1

def deviceTcmask (driver : Driver) (vnis : List Int) (dev : CxilDev) : Nat :=
  match findService driver vnis dev with
  | some desc => tcmaskFromDesc (tcs (driver dev.info.devId desc.svcId) desc)
  | none => tcmaskDefault

section Devices
variable {c : Calls} {driver : Driver} {deviceName : Nat → Text} {vnis : List Int}

theorem appendCxiServiceMatch_some {dev : CxilDev} {svcs : List Int} {tcmask : Nat} {done : List Int × Nat}
    (h : appendCxiServiceMatch c driver vnis dev svcs tcmask = some done) :
    done = (svcs ++ [serviceId driver vnis dev], tcmask &&& deviceTcmask driver vnis dev) := by
  unfold appendCxiServiceMatch at h
  unfold serviceId deviceTcmask
  split at h
  · cases h
  · split at h
    · cases h
    · cases hfind : findService driver vnis dev <;> rw [hfind] at h <;> exact (Option.some.inj h).symm

theorem addDevicesLoop_some {devices : List CxilDev} {devs devs' : List Text} {svcs svcs' : List Int}
    {tcmask tcmask' : Nat}
    (h : addDevicesLoop c driver deviceName vnis devices devs svcs tcmask = some (devs', svcs', tcmask')) :
    devs' = devs ++ devices.map (fun dev => deviceName dev.info.devId) ∧
      svcs' = svcs ++ devices.map (serviceId driver vnis) ∧
      tcmask' = devices.foldl (fun mask dev => mask &&& deviceTcmask driver vnis dev) tcmask := by
  induction devices generalizing devs svcs tcmask with
  | nil =>
    obtain ⟨rfl, rfl, rfl⟩ : devs = devs' ∧ svcs = svcs' ∧ tcmask = tcmask' := by simpa [addDevicesLoop] using h
    simp
  | cons dev rest ih =>
    rw [addDevicesLoop] at h
    cases happend : appendCxiServiceMatch c driver vnis dev svcs tcmask with
    | none => simp [happend] at h
    | some done =>
      rw [happend, appendCxiServiceMatch_some happend] at h
      obtain ⟨rfl, rfl, rfl⟩ := ih h
      simp

theorem testBit_foldl_and (mask : CxilDev → Nat) (devices : List CxilDev) (m i : Nat) :
    (devices.foldl (fun m dev => m &&& mask dev) m).testBit i =
      (m.testBit i && devices.all fun dev => (mask dev).testBit i) := by
  induction devices generalizing m with
  | nil => simp
  | cons dev rest ih => rw [List.foldl_cons, ih, Nat.testBit_and, List.all_cons, Bool.and_assoc]

end Devices

/-- An array of integers is printed as their decimals between commas. -/
def DumpsIntegers (dumps : List Json → Text) : Prop :=
  ∀ ns : List (BitVec 64), dumps (ns.map .integer) = Argz.stringify ',' (ns.map fun n => decimal n.toInt)

/-- What a task finds in the variables: the VNIs, the devices, and for each device its first service
for the VNIs. A traffic class is left if all of these services permit it. -/
structure Published (node : Node) (vnis : List Int) (env : Environment) : Prop where
  reserved : (env.get? varVnis).map (·.splitOn ',') = some (vnis.map decimal)
  devices : (env.get? varDevices).map (·.splitOn ',') =
    some (node.devices.map fun dev => node.deviceName dev.info.devId)
  services : (env.get? varSvcIds).map (·.splitOn ',') =
    some (node.devices.map fun dev => decimal (serviceId node.driver vnis dev))
  classes : ∃ tcmask, env.get? varTcs = some (hex tcmask) ∧ ∀ tc : TrafficClass, tcmask.testBit tc.bit = true ↔
    ∀ dev ∈ node.devices, ∀ desc, findService node.driver vnis dev = some desc →
      tcs (node.driver dev.info.devId desc.svcId) desc tc = true
  found : ∀ dev ∈ node.devices, ∀ desc, findService node.driver vnis dev = some desc → desc ∈ dev.svcs ∧
    (node.driver dev.info.devId desc.svcId).enable = true ∧ desc.isSystemSvc = false ∧ listed desc = vnis
  missing : ∀ dev ∈ node.devices, findService node.driver vnis dev = none → ∀ desc ∈ dev.svcs,
    (node.driver dev.info.devId desc.svcId).enable = true → desc.isSystemSvc = false →
      desc.numVldVnis = vnis.length → listed desc ≠ vnis

theorem tcmaskDefault_testBit (tc : TrafficClass) : tcmaskDefault.testBit tc.bit = true := by
  cases tc <;> decide

theorem deviceTcmask_testBit (driver : Driver) (vnis : List Int) (dev : CxilDev) (tc : TrafficClass) :
    (deviceTcmask driver vnis dev).testBit tc.bit = true ↔ ∀ desc, findService driver vnis dev = some desc →
      tcs (driver dev.info.devId desc.svcId) desc tc = true := by
  unfold deviceTcmask
  cases findService driver vnis dev with
  | none => exact iff_of_true (tcmaskDefault_testBit tc) nofun
  | some desc =>
    dsimp only
    rw [tcmaskFromDesc_testBit]
    exact ⟨fun h desc' heq => Option.some.inj heq ▸ h, fun h => h desc rfl⟩

/-- **A job is told its services**: for each device of the node, the first that has exactly the VNIs
of the reservation, and the traffic classes that all of these permit. -/
theorem services_published (dumps : List Json → Text) (node : Node) (options : Except Unit (Option ShellOptions))
    (getenv : Getenv) (obj : Json) (ns : List (BitVec 64)) (env env' : Environment) (hdumps : DumpsIntegers dumps)
    (hon : craySlingshotParseArgs options = some false) (hnot : NotInherited getenv)
    (hvnis : obj.get? keyVnis = some (.array (ns.map .integer))) (hne : ns ≠ []) (hlength : ns.length ≤ cxiSvcMaxVnis)
    (hcxi : node.haveCxi = true) (hdevices : node.devices ≠ [])
    (hnames : ∀ dev ∈ node.devices, ',' ∉ node.deviceName dev.info.devId)
    (hids : ∀ dev ∈ node.devices, ∀ desc ∈ dev.svcs, desc.svcId < 2 ^ 31)
    (hrun : runPlugin dumps node options getenv (.ok (some obj)) env = (.success, env')) :
    Published node (ns.map BitVec.toInt) env' := by
  rw [runPlugin_on hon] at hrun
  obtain ⟨vnis, devices, cxiSvc, tcmask, hkey, hadd, hvalues⟩ := (oneSource hrun).reserved hnot obj rfl
  rw [hvnis] at hkey
  obtain rfl := Option.some.inj hkey
  have hints : (elements (.array (ns.map Json.integer))).map (fun v => (toEntry v).value) = ns.map BitVec.toInt := by
    simp [elements, toEntry, Entry.value]
  rw [Node.addDevices, if_pos hcxi, hints, addDevices] at hadd
  split at hadd
  · cases hadd
  · obtain ⟨hdevs, hsvcs, hmask⟩ := addDevicesLoop_some hadd
    obtain ⟨hv, hd, hs, ht⟩ := valueOf_reservationVars dumps (.array (ns.map Json.integer)) devices cxiSvc tcmask
    simp only [List.nil_append] at hdevs hsvcs
    have hdevsne : devices ≠ [] := by simpa [hdevs] using hdevices
    have hsvcsne : cxiSvc ≠ [] := by simpa [hsvcs] using hdevices
    refine ⟨?_, ?_, ?_, ?_, ?_, ?_⟩
    · have hnonempty : elements (.array (ns.map Json.integer)) ≠ [] := by simpa [elements] using hne
      rw [hvalues varVnis (by decide), hv, if_neg hnonempty, Option.map_some, elements, hdumps ns,
        Argz.splitOn_stringify (by simp [comma_notMem_decimal]) (by simpa using hne), List.map_map]
      rfl
    · rw [hvalues varDevices (by decide), hd, if_neg hdevsne, Option.map_some, stringifyJsonStringArray,
        Argz.splitOn_stringify (by simpa [hdevs] using hnames) hdevsne, hdevs]
    · have hid : ∀ dev ∈ node.devices, (BitVec.ofInt 64 (serviceId node.driver (ns.map BitVec.toInt) dev)).toInt =
          serviceId node.driver (ns.map BitVec.toInt) dev := by
        intro dev hdev
        have hbound : -1 ≤ serviceId node.driver (ns.map BitVec.toInt) dev ∧
            serviceId node.driver (ns.map BitVec.toInt) dev < 2 ^ 31 := by
          unfold serviceId
          cases hfind : findService node.driver (ns.map BitVec.toInt) dev with
          | none => simp
          | some desc =>
            have hlt := hids dev hdev desc (List.mem_of_find?_eq_some hfind)
            dsimp only
            omega
        rw [BitVec.toInt_ofInt]
        exact Int.bmod_eq_of_le (by omega) (by omega)
      rw [hvalues varSvcIds (by decide), hs, if_neg hsvcsne, Option.map_some]
      have hdump := hdumps (cxiSvc.map (BitVec.ofInt 64))
      rw [List.map_map] at hdump
      have hfun : (fun id => Json.integer (BitVec.ofInt 64 id)) = Json.integer ∘ BitVec.ofInt 64 := rfl
      rw [hfun, hdump, Argz.splitOn_stringify (by simp [comma_notMem_decimal]) (by simpa using hsvcsne), hsvcs]
      simp only [List.map_map, Option.some.injEq, List.map_inj_left, Function.comp_apply]
      exact fun dev hdev => congrArg decimal (hid dev hdev)
    · refine ⟨tcmask, by rw [hvalues varTcs (by decide), ht], fun tc => ?_⟩
      rw [hmask, testBit_foldl_and, tcmaskDefault_testBit, Bool.true_and, List.all_eq_true]
      exact forall₂_congr fun dev _ => deviceTcmask_testBit node.driver (ns.map BitVec.toInt) dev tc
    · intro dev _ desc hfind
      have hmatch : matchCxiService (node.driver dev.info.devId desc.svcId) desc (ns.map BitVec.toInt) = true := by
        simpa using List.find?_some hfind
      obtain ⟨henable, hsystem, -, hlisted⟩ := (matchCxiService_iff (by simpa using hlength)).mp hmatch
      exact ⟨List.mem_of_find?_eq_some hfind, henable, hsystem, hlisted⟩
    · intro dev _ hfind desc hdesc henable hsystem hnum hlisted
      refine List.find?_eq_none.mp hfind desc hdesc ?_
      exact (matchCxiService_iff (by simpa using hlength)).mpr ⟨henable, hsystem, hnum, hlisted⟩

theorem printIntegers_dumps : DumpsIntegers printIntegers := fun ns => by
  rw [printIntegers, List.map_map]
  rfl

theorem jobNode_published : Published jobNode (jobVnis.map BitVec.toInt)
    (runPlugin printIntegers jobNode (.ok none) (.error .ENOSYS) (.ok (some jobObj)) .empty).2 :=
  services_published printIntegers jobNode (.ok none) (.error .ENOSYS) jobObj jobVnis .empty _ printIntegers_dumps rfl
    (.inr rfl) rfl (by decide) (by decide) rfl (by decide) (by decide) (by decide) rfl

end FluxCoral2.Slingshot.Shell
