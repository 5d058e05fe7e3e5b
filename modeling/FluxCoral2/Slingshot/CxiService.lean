import Mathlib.Algebra.GroupWithZero.Nat
import Mathlib.Data.List.GetD
import Mathlib.Data.List.Nodup
import Mathlib.Order.Lattice.Nat
import FluxCoral2.Slingshot.VniPool

/-! The CXI services of a job (`flux-slingshot.c`).

The prolog allocates a service for the job on every CXI device, and the epilog destroys
it. Nothing is kept between the two: the epilog knows the service by what its descriptor
says, the job's user and its VNIs. `destroy_inverts_allocate`: it destroys the service
the prolog allocated for the job, on every device, and no other one.

A device keeps a list of service descriptors. Which calls of libcxi fail, and the ids it
gives to services, are the arguments (`Libcxi`) of each command. The warning about a service
that cannot be destroyed is given its id in the place of a string: the command crashes. -/
namespace FluxCoral2.Slingshot

/-! ### Reservations -/

/-- An entry of a JSON array. -/
inductive Entry
  | integer (n : Int)
  | other
  deriving DecidableEq

/-- The `vnis` member of a reservation, by its JSON type. -/
inductive VnisField
  | array (entries : List Entry)
  | other
  deriving DecidableEq

/-- 16-bit values, less the two of the default service. -/
def isVni (n : Int) : Bool := !(n < 0 || n = 1 || n = 10 || n > 65535)

def Entry.isVni : Entry → Bool
  | .integer n => Slingshot.isVni n
  | .other => false

/-- What is no array has no entries to be refused. -/
def parseReservationVnis : Option VnisField → Option VnisField
  | none => none
  | some (.array entries) =>
    if entries.length > cxiSvcMaxVnis then none
    else if entries.all Entry.isVni then some (.array entries)
    else none
  | some .other => some .other

/-- The reader's rule is the writer's. -/
theorem isVni_iff (v : Nat) : isVni v = true ↔ v ∈ validVnis := by
  simp only [isVni, validVnis, Bool.not_eq_true', Bool.or_eq_false_iff, decide_eq_false_iff_not,
    Finset.mem_union, Finset.mem_singleton, Finset.mem_Icc]
  omega

theorem parseReservationVnis_integers {vnis : List Int} (hlength : vnis.length ≤ cxiSvcMaxVnis)
    (hvalid : ∀ v ∈ vnis, isVni v = true) :
    parseReservationVnis (some (.array (vnis.map .integer))) = some (.array (vnis.map .integer)) := by
  have hall : (vnis.map Entry.integer).all Entry.isVni = true := by
    rw [List.all_map]
    exact List.all_eq_true.mpr hvalid
  unfold parseReservationVnis
  dsimp only
  rw [List.length_map, if_neg (Nat.not_lt.mpr hlength), if_pos hall]

/-! ### Devices -/

inductive MemberType | ignore | uid | other
  deriving DecidableEq

structure Member where
  type : MemberType := .ignore
  uid : BitVec 32 := 0
  deriving DecidableEq

structure Limit where
  max : BitVec 16 := 0
  res : BitVec 16 := 0
  deriving DecidableEq

structure Limits where
  txqs : Limit := {}
  tgqs : Limit := {}
  eqs : Limit := {}
  cts : Limit := {}
  tles : Limit := {}
  ptes : Limit := {}
  les : Limit := {}
  acs : Limit := {}
  deriving DecidableEq

/-- `struct cxi_svc_desc`, with the fields in use; `{}` is the descriptor with all of
them zero. -/
structure CxiSvcDesc where
  svcId : Nat := 0
  isSystemSvc : Bool := false
  restrictedMembers : Bool := false
  restrictedVnis : Bool := false
  restrictedTcs : Bool := false
  resourceLimits : Bool := false
  members : Vector Member 2 := Vector.replicate 2 {}
  numVldVnis : Nat := 0
  vnis : Vector (BitVec 16) cxiSvcMaxVnis := Vector.replicate cxiSvcMaxVnis 0
  limits : Limits := {}
  tcBestEffort : Bool := false
  tcLowLatency : Bool := false
  deriving DecidableEq

/-- What a device has of each resource. -/
structure DevInfo where
  devId : Nat
  numTxqs : Nat
  numTgqs : Nat
  numEqs : Nat
  numCts : Nat
  numTles : Nat
  numPtes : Nat
  numLes : Nat
  numAcs : Nat
  deriving DecidableEq

/-- A device and its services, which have ids of their own. -/
structure CxilDev where
  info : DevInfo
  svcs : List CxiSvcDesc
  nodup : (svcs.map CxiSvcDesc.svcId).Nodup

inductive SvcError | EBUSY | other
  deriving DecidableEq

/-- Which calls of libcxi fail while a command runs, by device, and the ids of the
services it allocates. -/
structure Libcxi where
  getDeviceList : Bool := true
  openDevice : Nat → Bool := fun _ => true
  getSvcList : Nat → Bool := fun _ => true
  allocSvc : Nat → Bool := fun _ => true
  destroySvc : Nat → Nat → Option SvcError := fun _ _ => none
  freshId : Nat → List Nat → Nat
  fresh : ∀ devId used, freshId devId used ∉ used

def CxilDev.append (dev : CxilDev) (desc : CxiSvcDesc) (id : Nat) (h : id ∉ dev.svcs.map CxiSvcDesc.svcId) :
    CxilDev where
  info := dev.info
  svcs := dev.svcs ++ [{desc with svcId := id}]
  nodup := by
    rw [List.map_append, List.nodup_append]
    refine ⟨dev.nodup, List.nodup_singleton _, fun a ha b hb => ?_⟩
    rw [List.map_singleton, List.mem_singleton] at hb
    subst hb
    exact fun hab => h (hab ▸ ha)

def CxilDev.remove (dev : CxilDev) (id : Nat) : CxilDev where
  info := dev.info
  svcs := dev.svcs.filter fun desc => desc.svcId ≠ id
  nodup := dev.nodup.sublist (List.filter_sublist.map _)

/-- A service with this descriptor, under an id that no service of the device has. -/
def Libcxi.append (c : Libcxi) (dev : CxilDev) (desc : CxiSvcDesc) : CxilDev :=
  dev.append desc (c.freshId dev.info.devId (dev.svcs.map CxiSvcDesc.svcId)) (c.fresh _ _)

def cxilAllocSvc (c : Libcxi) (dev : CxilDev) (desc : CxiSvcDesc) : Option CxilDev :=
  if c.allocSvc dev.info.devId then some (c.append dev desc) else none

def cxilDestroySvc (c : Libcxi) (dev : CxilDev) (svcId : Nat) : Except SvcError CxilDev :=
  match c.destroySvc dev.info.devId svcId with
  | some e => .error e
  | none => .ok (dev.remove svcId)

/-! ### Destroying services -/

/-- The VNIs are those of a reservation, as many as a descriptor has room for. -/
def matchReservation (uid : BitVec 32) (vnis : List Int) (desc : CxiSvcDesc) : Bool :=
  if desc.isSystemSvc then false
  else if !desc.restrictedMembers || desc.members[0].type ≠ .uid || desc.members[0].uid ≠ uid then false
  else if !desc.restrictedVnis || desc.numVldVnis ≠ vnis.length then false
  else (List.range desc.numVldVnis).all fun i => ((desc.vnis.toList.getD i 0).toNat : Int) = vnis.getD i 0

/-- How a command ends before its time: it exits with an error, or it crashes. -/
inductive Stop | error | crash
  deriving DecidableEq

/-- The loop of `destroy_cxi_service_device` over the services that were listed, with
how many matched and how many of these are busy so far. -/
def destroyLoop (c : Libcxi) (dryRun all : Bool) (matchfun : CxiSvcDesc → Bool) :
    List CxiSvcDesc → CxilDev → (matchcount busycount : Nat) → Except Stop Nat × CxilDev
  | [], dev, _, busycount => (.ok busycount, dev)
  | desc :: rest, dev, matchcount, busycount =>
    if all || matchcount = 0 then
      if matchfun desc then
        if dryRun then destroyLoop c dryRun all matchfun rest dev (matchcount + 1) busycount
        else
          match cxilDestroySvc c dev desc.svcId with
          -- the warning prints `svc_id` with `%s`, before the error is compared with EBUSY
          | .error _ => (.error .crash, dev)
          | .ok dev => destroyLoop c dryRun all matchfun rest dev (matchcount + 1) busycount
      else destroyLoop c dryRun all matchfun rest dev matchcount busycount
    else (.ok busycount, dev)

def destroyCxiServiceDevice (c : Libcxi) (dryRun all : Bool) (matchfun : CxiSvcDesc → Bool) (dev : CxilDev) :
    Except Stop Nat × CxilDev :=
  if c.getSvcList dev.info.devId then destroyLoop c dryRun all matchfun dev.svcs dev 0 0 else (.ok 0, dev)

/-- A device in the loop of `destroy_cxi_service`. -/
def destroyOn (c : Libcxi) (dryRun all : Bool) (matchfun : CxiSvcDesc → Bool) (dev : CxilDev) :
    Except Stop Nat × CxilDev :=
  if c.openDevice dev.info.devId then destroyCxiServiceDevice c dryRun all matchfun dev else (.ok 0, dev)

/-- That loop; it ends where the command does. -/
def destroyDevices (c : Libcxi) (dryRun all : Bool) (matchfun : CxiSvcDesc → Bool) :
    List CxilDev → Except Stop Nat × List CxilDev
  | [] => (.ok 0, [])
  | dev :: rest =>
    match destroyOn c dryRun all matchfun dev with
    | (.error stop, dev) => (.error stop, dev :: rest)
    | (.ok busycount, dev) =>
      let others := destroyDevices c dryRun all matchfun rest
      (others.1.map (busycount + ·), dev :: others.2)

/-- The count of services that are busy. -/
def destroyCxiService (c : Libcxi) (dryRun all : Bool) (matchfun : CxiSvcDesc → Bool) (devs : List CxilDev) :
    Except Stop Nat × List CxilDev :=
  if c.getDeviceList then destroyDevices c dryRun all matchfun devs else (.error .error, devs)

/-! ### Allocating services -/

/-- A limit of the least of two bounds, with a share of it reserved. -/
def limit (bound available share : Nat) : Limit :=
  let max := BitVec.ofNat 16 (min bound available)
  {max := max, res := BitVec.ofNat 16 (min share max.toNat)}

def serviceLimits (info : DevInfo) (ncores : Nat) : Limits where
  txqs := limit 2048 info.numTxqs (2 * ncores)
  tgqs := limit 1024 info.numTgqs (1 * ncores)
  eqs := limit 2047 info.numEqs (2 * ncores)
  cts := limit 2047 info.numCts (1 * ncores)
  tles := limit (1 * ncores) info.numTles (1 * ncores)
  ptes := limit 2048 info.numPtes (6 * ncores)
  les := limit 16384 info.numLes (16 * ncores)
  acs := limit 1022 info.numAcs (2 * ncores)

/-- The descriptor that `allocate_cxi_service_device` fills in. -/
def serviceDesc (info : DevInfo) (uid : BitVec 32) (vnis : List Int) (ncores : Nat) : CxiSvcDesc where
  restrictedVnis := true
  numVldVnis := vnis.length
  vnis := Vector.ofFn fun i => BitVec.ofInt 16 (vnis.getD i 0)
  restrictedMembers := true
  members := #v[{type := .uid, uid := uid}, {type := .ignore}]
  resourceLimits := true
  limits := serviceLimits info ncores
  restrictedTcs := true
  tcBestEffort := true
  tcLowLatency := true

/-- None is a command that exits with an error. -/
def allocateCxiServiceDevice (c : Libcxi) (dryRun : Bool) (uid : BitVec 32) (vnis : List Int) (ncores : Nat)
    (dev : CxilDev) : Option CxilDev :=
  if dryRun then some dev else cxilAllocSvc c dev (serviceDesc dev.info uid vnis ncores)

/-- The loop of `allocate_cxi_service` over the devices; it ends where the command does. -/
def allocateDevices (c : Libcxi) (dryRun : Bool) (uid : BitVec 32) (vnis : List Int) (ncores : Nat) :
    List CxilDev → (count : Nat) → Option Nat × List CxilDev
  | [], count => (some count, [])
  | dev :: rest, count =>
    if c.openDevice dev.info.devId then
      match allocateCxiServiceDevice c dryRun uid vnis ncores dev with
      | none => (none, dev :: rest)
      | some dev =>
        let others := allocateDevices c dryRun uid vnis ncores rest (count + 1)
        (others.1, dev :: others.2)
    else
      let others := allocateDevices c dryRun uid vnis ncores rest count
      (others.1, dev :: others.2)

/-- The count of devices that have the service. -/
def allocateCxiService (c : Libcxi) (dryRun : Bool) (uid : BitVec 32) (vnis : List Int) (ncores : Nat)
    (devs : List CxilDev) : Option Nat × List CxilDev :=
  if c.getDeviceList then allocateDevices c dryRun uid vnis ncores devs 0 else (none, devs)

/-! ### The service of a job -/

/-- A job with its reservation, as `parse_reservation_vnis` accepts it, that is not empty. -/
structure Job where
  uid : BitVec 32
  vnis : List Int
  ncores : Nat
  ne_nil : vnis ≠ []
  length_le : vnis.length ≤ cxiSvcMaxVnis
  valid : ∀ v ∈ vnis, isVni v = true

def Job.desc (job : Job) (info : DevInfo) : CxiSvcDesc := serviceDesc info job.uid job.vnis job.ncores

def Job.accepts (job : Job) (desc : CxiSvcDesc) : Bool := matchReservation job.uid job.vnis desc

/-- A VNI is kept by the 16 bits it is stored in. -/
theorem toNat_ofInt_of_isVni {v : Int} (h : isVni v = true) : ((BitVec.ofInt 16 v).toNat : Int) = v := by
  have hv : 0 ≤ v ∧ v ≤ 65535 := by
    simp only [isVni, Bool.not_eq_true', Bool.or_eq_false_iff, decide_eq_false_iff_not] at h
    omega
  rw [BitVec.toNat_ofInt]
  omega

/-- The entries of the array of a descriptor that its count covers. -/
theorem vnis_serviceDesc (job : Job) (info : DevInfo) {i : Nat} (hi : i < job.vnis.length) :
    (((job.desc info).vnis.toList.getD i 0).toNat : Int) = job.vnis.getD i 0 := by
  have hlt : i < cxiSvcMaxVnis := Nat.lt_of_lt_of_le hi job.length_le
  have hget : (job.desc info).vnis.toList.getD i 0 = BitVec.ofInt 16 (job.vnis.getD i 0) := by
    rw [List.getD_eq_getElem?_getD, List.getElem?_eq_getElem (by simpa using hlt), Option.getD_some,
      Vector.getElem_toList]
    exact Vector.getElem_ofFn hlt
  rw [hget, List.getD_eq_getElem _ _ hi]
  exact toNat_ofInt_of_isVni (job.valid _ (List.getElem_mem hi))

/-- The service of a job is accepted for a user and VNIs exactly when they are the job's. -/
theorem matchReservation_desc (job : Job) (info : DevInfo) (uid : BitVec 32) (vnis : List Int) :
    matchReservation uid vnis (job.desc info) = true ↔ job.uid = uid ∧ job.vnis = vnis := by
  show (if (false || decide (MemberType.uid ≠ MemberType.uid) || decide (job.uid ≠ uid)) = true then false
    else if (false || decide (job.vnis.length ≠ vnis.length)) = true then false
    else (List.range job.vnis.length).all fun i =>
      (((job.desc info).vnis.toList.getD i 0).toNat : Int) = vnis.getD i 0) = true ↔ _
  by_cases hu : job.uid = uid
  · by_cases hlen : job.vnis.length = vnis.length
    · simp only [hu, hlen, ne_eq, not_true_eq_false, decide_false, Bool.or_false, Bool.false_eq_true,
        if_false, List.all_eq_true, List.mem_range, decide_eq_true_eq, true_and]
      constructor
      · intro h
        refine List.ext_getElem hlen fun i hi hi' => ?_
        have hentry := (vnis_serviceDesc job info hi).symm.trans (h i hi')
        rwa [List.getD_eq_getElem _ _ hi, List.getD_eq_getElem _ _ hi'] at hentry
      · rintro rfl i hi
        exact vnis_serviceDesc job info hi
    · have hne : job.vnis ≠ vnis := fun h => hlen (congrArg List.length h)
      simp [hu, hlen, hne]
  · simp [hu]

/-- Jobs that share no VNI have services of their own. -/
theorem accepts_desc_of_disjoint {job job' : Job} (h : ∀ v ∈ job.vnis, v ∉ job'.vnis) (info : DevInfo) :
    job.accepts (job'.desc info) = false := by
  rw [← Bool.not_eq_true]
  intro ha
  have heq : job'.vnis = job.vnis := ((matchReservation_desc job' info job.uid job.vnis).mp ha).2
  obtain ⟨v, hv⟩ := List.exists_mem_of_ne_nil _ job.ne_nil
  exact h v hv (heq ▸ hv)

theorem accepts_desc_self (job : Job) (info : DevInfo) : job.accepts (job.desc info) = true :=
  (matchReservation_desc job info job.uid job.vnis).mpr ⟨rfl, rfl⟩

/-! ### Commands whose calls succeed -/

structure Libcxi.Works (c : Libcxi) : Prop where
  deviceList : c.getDeviceList = true
  opens : ∀ devId, c.openDevice devId = true
  lists : ∀ devId, c.getSvcList devId = true
  allocates : ∀ devId, c.allocSvc devId = true
  destroys : ∀ devId svcId, c.destroySvc devId svcId = none

section Commands
variable {c : Libcxi} {matchfun : CxiSvcDesc → Bool}

theorem allocateDevices_works (hc : c.Works) (uid : BitVec 32) (vnis : List Int) (ncores : Nat)
    (devs : List CxilDev) (count : Nat) : allocateDevices c false uid vnis ncores devs count =
      (some (count + devs.length), devs.map fun dev => c.append dev (serviceDesc dev.info uid vnis ncores)) := by
  induction devs generalizing count with
  | nil => rfl
  | cons dev rest ih =>
    have hdev : allocateCxiServiceDevice c false uid vnis ncores dev =
        some (c.append dev (serviceDesc dev.info uid vnis ncores)) := by
      rw [allocateCxiServiceDevice, if_neg Bool.false_ne_true, cxilAllocSvc, if_pos (hc.allocates _)]
    rw [allocateDevices, if_pos (hc.opens _), hdev]
    dsimp only
    rw [ih, List.length_cons, List.map_cons, Nat.add_right_comm, Nat.add_assoc]

/-- Without `all`, nothing is destroyed after the first match. -/
theorem destroyLoop_matched (dryRun : Bool) (descs : List CxiSvcDesc) (dev : CxilDev) (matchcount busycount : Nat) :
    destroyLoop c dryRun false matchfun descs dev (matchcount + 1) busycount = (.ok busycount, dev) := by
  cases descs with
  | nil => rfl
  | cons desc rest =>
    rw [destroyLoop]
    simp

theorem destroyLoop_none {descs : List CxiSvcDesc} (h : ∀ desc ∈ descs, matchfun desc = false) (dev : CxilDev) :
    destroyLoop c false false matchfun descs dev 0 0 = (.ok 0, dev) := by
  induction descs with
  | nil => rfl
  | cons desc rest ih =>
    rw [destroyLoop, h desc List.mem_cons_self]
    exact ih fun d hd => h d (List.mem_cons_of_mem desc hd)

/-- All that is done is the attempt on the first match. -/
theorem destroyLoop_first {l₁ l₂ : List CxiSvcDesc} {e : CxiSvcDesc}
    (h₁ : ∀ desc ∈ l₁, matchfun desc = false) (he : matchfun e = true) (dev : CxilDev) :
    destroyLoop c false false matchfun (l₁ ++ e :: l₂) dev 0 0 =
      match cxilDestroySvc c dev e.svcId with
      | .ok dev' => (.ok 0, dev')
      | .error _ => (.error .crash, dev) := by
  induction l₁ with
  | nil =>
    rw [List.nil_append, destroyLoop, he]
    cases cxilDestroySvc c dev e.svcId with
    | ok dev' => exact destroyLoop_matched false l₂ dev' 0 0
    | error error => rfl
  | cons desc rest ih =>
    rw [List.cons_append, destroyLoop, h₁ desc List.mem_cons_self]
    exact ih fun d hd => h₁ d (List.mem_cons_of_mem desc hd)

/-- Nothing is ever counted as busy. -/
theorem destroyLoop_cases (dryRun all : Bool) (descs : List CxiSvcDesc) (dev : CxilDev) (matchcount busycount : Nat) :
    (destroyLoop c dryRun all matchfun descs dev matchcount busycount).1 = .ok busycount ∨
      (destroyLoop c dryRun all matchfun descs dev matchcount busycount).1 = .error .crash := by
  induction descs generalizing dev matchcount with
  | nil => exact .inl rfl
  | cons desc rest ih =>
    rw [destroyLoop]
    split
    · split
      · split
        · exact ih _ _
        · split
          · exact .inr rfl
          · exact ih _ _
      · exact ih _ _
    · exact .inl rfl

theorem destroyOn_cases (c : Libcxi) (dryRun all : Bool) (matchfun : CxiSvcDesc → Bool) (dev : CxilDev) :
    (destroyOn c dryRun all matchfun dev).1 = .ok 0 ∨ (destroyOn c dryRun all matchfun dev).1 = .error .crash := by
  unfold destroyOn destroyCxiServiceDevice
  split
  · split
    · exact destroyLoop_cases dryRun all dev.svcs dev 0 0
    · exact .inl rfl
  · exact .inl rfl

/-- The devices are gone over by themselves if none of them crashes the command. -/
theorem destroyDevices_ok {dryRun all : Bool} {devs : List CxilDev}
    (h : ∀ dev ∈ devs, (destroyOn c dryRun all matchfun dev).1 = .ok 0) :
    destroyDevices c dryRun all matchfun devs =
      (.ok 0, devs.map fun dev => (destroyOn c dryRun all matchfun dev).2) := by
  induction devs with
  | nil => rfl
  | cons dev rest ih =>
    obtain ⟨hdev, hrest⟩ := List.forall_mem_cons.mp h
    have hpair : destroyOn c dryRun all matchfun dev = (.ok 0, (destroyOn c dryRun all matchfun dev).2) :=
      Prod.ext hdev rfl
    rw [destroyDevices, hpair, ih hrest]
    rfl

/-- One of them that does ends it. -/
theorem destroyDevices_crash {dryRun all : Bool} {devs : List CxilDev}
    (h : ¬ ∀ dev ∈ devs, (destroyOn c dryRun all matchfun dev).1 = .ok 0) :
    (destroyDevices c dryRun all matchfun devs).1 = .error .crash := by
  induction devs with
  | nil => exact absurd nofun h
  | cons dev rest ih =>
    rw [destroyDevices]
    rcases destroyOn_cases c dryRun all matchfun dev with hdev | hdev
    · have hrest := ih fun hall => h (List.forall_mem_cons.mpr ⟨hdev, hall⟩)
      have hpair : destroyOn c dryRun all matchfun dev = (.ok 0, (destroyOn c dryRun all matchfun dev).2) :=
        Prod.ext hdev rfl
      rw [hpair]
      dsimp only
      rw [hrest]
      rfl
    · have hpair : destroyOn c dryRun all matchfun dev = (.error .crash, (destroyOn c dryRun all matchfun dev).2) :=
        Prod.ext hdev rfl
      rw [hpair]

/-- The ids tell the services of a device apart. -/
theorem CxilDev.svcs_remove {dev : CxilDev} {l₁ l₂ : List CxiSvcDesc} {e : CxiSvcDesc}
    (h : dev.svcs = l₁ ++ e :: l₂) : (dev.remove e.svcId).svcs = l₁ ++ l₂ := by
  have hnodup := dev.nodup
  rw [h, List.map_append, List.map_cons, List.nodup_middle, List.nodup_cons, List.mem_append] at hnodup
  have hother {l : List CxiSvcDesc} (hl : e.svcId ∉ l.map CxiSvcDesc.svcId) :
      l.filter (fun desc => desc.svcId ≠ e.svcId) = l := by
    refine List.filter_eq_self.mpr fun desc hd => decide_eq_true fun hid => hl ?_
    exact hid ▸ List.mem_map_of_mem hd
  show dev.svcs.filter (fun desc => desc.svcId ≠ e.svcId) = l₁ ++ l₂
  rw [h, List.filter_append, List.filter_cons_of_neg (by simp), hother fun h => hnodup.1 (.inl h),
    hother fun h => hnodup.1 (.inr h)]

/-- The first match goes, and what stands before and after it stays. -/
theorem destroyOn_first (hc : c.Works) {dev : CxilDev} {l₁ l₂ : List CxiSvcDesc} {e : CxiSvcDesc}
    (h : dev.svcs = l₁ ++ e :: l₂) (h₁ : ∀ desc ∈ l₁, matchfun desc = false) (he : matchfun e = true) :
    (destroyOn c false false matchfun dev).1 = .ok 0 ∧
      (destroyOn c false false matchfun dev).2.svcs = l₁ ++ l₂ := by
  have hdestroy : cxilDestroySvc c dev e.svcId = .ok (dev.remove e.svcId) := by
    rw [cxilDestroySvc, hc.destroys]
  rw [destroyOn, if_pos (hc.opens _), destroyCxiServiceDevice, if_pos (hc.lists _), h, destroyLoop_first h₁ he,
    hdestroy]
  exact ⟨rfl, CxilDev.svcs_remove h⟩

end Commands

/-! ### The services of several jobs -/

/-- The prolog of a job, and what the calls it makes give. -/
structure Allocation where
  job : Job
  calls : Libcxi

def Allocation.run (devs : List CxilDev) (a : Allocation) : List CxilDev :=
  (allocateCxiService a.calls false a.job.uid a.job.vnis a.job.ncores devs).2

def allocateAll (allocations : List Allocation) (devs : List CxilDev) : List CxilDev :=
  allocations.foldl Allocation.run devs

def CxilDev.allocate (dev : CxilDev) (a : Allocation) : CxilDev := a.calls.append dev (a.job.desc dev.info)

/-- Each device is served by itself. -/
theorem allocateAll_works {allocations : List Allocation} (h : ∀ a ∈ allocations, a.calls.Works)
    (devs : List CxilDev) :
    allocateAll allocations devs = devs.map fun dev => allocations.foldl CxilDev.allocate dev := by
  induction allocations generalizing devs with
  | nil => exact (List.map_id devs).symm
  | cons a rest ih =>
    have hrun : a.run devs = devs.map fun dev => dev.allocate a := by
      have hc := h a List.mem_cons_self
      rw [Allocation.run, allocateCxiService, if_pos hc.deviceList, allocateDevices_works hc]
      rfl
    show allocateAll rest (a.run devs) = _
    rw [hrun, ih fun x hx => h x (List.mem_cons_of_mem a hx), List.map_map]
    rfl

/-- The descriptors with which `created` were allocated: their ids came after. -/
def givenDescs (created : List CxiSvcDesc) : List CxiSvcDesc := created.map fun desc => {desc with svcId := 0}

/-- On each device a service of each job stands after what was there. -/
theorem svcs_allocate (allocations : List Allocation) (dev : CxilDev) : ∃ created,
    (allocations.foldl CxilDev.allocate dev).svcs = dev.svcs ++ created ∧
      givenDescs created = allocations.map fun a => a.job.desc dev.info := by
  induction allocations generalizing dev with
  | nil => exact ⟨[], (List.append_nil _).symm, rfl⟩
  | cons a rest ih =>
    obtain ⟨created, hsvcs, hdescs⟩ := ih (dev.allocate a)
    obtain ⟨desc, hdesc, hgiven⟩ : ∃ desc, (dev.allocate a).svcs = dev.svcs ++ [desc] ∧
        {desc with svcId := 0} = a.job.desc dev.info := ⟨_, rfl, rfl⟩
    refine ⟨desc :: created, ?_, ?_⟩
    · rw [List.foldl_cons, hsvcs, hdesc, List.append_assoc]
      rfl
    · rw [givenDescs, List.map_cons, hgiven, List.map_cons]
      exact congrArg (a.job.desc dev.info :: ·) hdescs

/-- The epilog of a job accepts the service created for it, and for no other job. -/
theorem accepts_created {info : DevInfo} {allocations : List Allocation} {created : List CxiSvcDesc}
    (h : givenDescs created = allocations.map fun a => a.job.desc info) {i : Nat} {a : Allocation}
    (ha : allocations[i]? = some a) (job : Job) {desc : CxiSvcDesc} (hd : created[i]? = some desc) :
    job.accepts desc = job.accepts (a.job.desc info) := by
  have hi := congrArg (fun l : List CxiSvcDesc => l[i]?) h
  unfold givenDescs at hi
  simp only [List.getElem?_map, hd, ha, Option.map_some, Option.some.injEq] at hi
  rw [← hi]
  rfl

theorem eq_take_append_drop {α : Type} {l : List α} {k : Nat} {e : α} (h : l[k]? = some e) :
    l = l.take k ++ e :: l.drop (k + 1) := by
  obtain ⟨hlt, rfl⟩ := List.getElem?_eq_some_iff.mp h
  rw [List.cons_getElem_drop_succ, List.take_append_drop]

/-- One device: what the epilog of a job leaves of what the prologs made. -/
theorem destroy_created {c : Libcxi} (hc : c.Works) {allocations : List Allocation} {k : Nat} {a : Allocation}
    (hapart : allocations.Pairwise fun x y => ∀ v ∈ x.job.vnis, v ∉ y.job.vnis) (hk : allocations[k]? = some a)
    {dev before : CxilDev} {created : List CxiSvcDesc} (hnone : ∀ desc ∈ dev.svcs, a.job.accepts desc = false)
    (hsvcs : before.svcs = dev.svcs ++ created)
    (hdescs : givenDescs created = allocations.map fun x => x.job.desc dev.info) :
    (destroyOn c false false a.job.accepts before).1 = .ok 0 ∧
      (destroyOn c false false a.job.accepts before).2.svcs = dev.svcs ++ created.eraseIdx k := by
  have hlength : created.length = allocations.length := by
    simpa [givenDescs] using congrArg List.length hdescs
  obtain ⟨hlt, -⟩ := List.getElem?_eq_some_iff.mp hk
  have he : created[k]? = some created[k] := List.getElem?_eq_getElem (hlength ▸ hlt)
  have hsplit : before.svcs = (dev.svcs ++ created.take k) ++ created[k] :: created.drop (k + 1) := by
    rw [hsvcs, List.append_assoc, ← eq_take_append_drop he]
  have hmatch : a.job.accepts created[k] = true := by
    rw [accepts_created hdescs hk a.job he]
    exact accepts_desc_self a.job dev.info
  have hbefore : ∀ desc ∈ dev.svcs ++ created.take k, a.job.accepts desc = false := by
    intro desc hd
    rcases List.mem_append.mp hd with hd | hd
    · exact hnone desc hd
    · obtain ⟨i, hi, rfl⟩ := List.mem_take_iff_getElem.mp hd
      have hik : i < k := by omega
      have hix : i < allocations.length := by omega
      rw [accepts_created hdescs (List.getElem?_eq_getElem hix) a.job (List.getElem?_eq_getElem (by omega))]
      refine accepts_desc_of_disjoint (fun v hv hv' => ?_) dev.info
      have hdisjoint := List.pairwise_iff_getElem.mp hapart i k hix hlt hik
      rw [List.getElem?_eq_some_iff.mp hk |>.2] at hdisjoint
      exact hdisjoint v hv' hv
  rw [List.eraseIdx_eq_take_drop_succ, ← List.append_assoc]
  exact destroyOn_first hc hsplit hbefore hmatch

/-- **Create and destroy are inverse and local**: after the prologs of jobs that share no VNI, in
any order, on devices without a service that the epilog of one of them would take for its own,
the epilog of a job destroys on every device the service created for it and no other one. -/
theorem destroy_inverts_allocate (devs : List CxilDev) (allocations : List Allocation) (c : Libcxi) (k : Nat)
    (a : Allocation) (hworks : ∀ x ∈ allocations, x.calls.Works) (hc : c.Works)
    (hapart : allocations.Pairwise fun x y => ∀ v ∈ x.job.vnis, v ∉ y.job.vnis)
    (hnone : ∀ dev ∈ devs, ∀ desc ∈ dev.svcs, ∀ x ∈ allocations, matchReservation x.job.uid x.job.vnis desc = false)
    (hk : allocations[k]? = some a) :
    (destroyCxiService c false false (matchReservation a.job.uid a.job.vnis) (allocateAll allocations devs)).1 =
        .ok 0 ∧
      ∀ (i : Nat) (dev : CxilDev), devs[i]? = some dev → ∃ (created : List CxiSvcDesc) (before after : CxilDev),
        givenDescs created = (allocations.map fun x => x.job.desc dev.info) ∧
        (allocateAll allocations devs)[i]? = some before ∧ before.svcs = dev.svcs ++ created ∧
        (destroyCxiService c false false (matchReservation a.job.uid a.job.vnis)
          (allocateAll allocations devs)).2[i]? = some after ∧ after.svcs = dev.svcs ++ created.eraseIdx k := by
  have hnone' {dev : CxilDev} (hdev : dev ∈ devs) : ∀ desc ∈ dev.svcs, a.job.accepts desc = false :=
    fun desc hd => hnone dev hdev desc hd a (List.mem_of_getElem? hk)
  have hok : ∀ dev ∈ devs.map (fun dev => allocations.foldl CxilDev.allocate dev),
      (destroyOn c false false a.job.accepts dev).1 = .ok 0 := by
    intro before hbefore
    obtain ⟨dev, hdev, rfl⟩ := List.mem_map.mp hbefore
    obtain ⟨created, hsvcs, hdescs⟩ := svcs_allocate allocations dev
    exact (destroy_created hc hapart hk (hnone' hdev) hsvcs hdescs).1
  rw [destroyCxiService, if_pos hc.deviceList, allocateAll_works hworks]
  rw [show matchReservation a.job.uid a.job.vnis = a.job.accepts from rfl, destroyDevices_ok hok]
  refine ⟨rfl, fun i dev hi => ?_⟩
  obtain ⟨created, hsvcs, hdescs⟩ := svcs_allocate allocations dev
  refine ⟨created, _, _, hdescs, ?_, hsvcs, ?_,
    (destroy_created hc hapart hk (hnone' (List.mem_of_getElem? hi)) hsvcs hdescs).2⟩
  · rw [List.getElem?_map, hi]
    rfl
  · dsimp only
    rw [List.map_map, List.getElem?_map, hi]
    rfl

/-! ### Two jobs of one user on two devices -/

/-- No call fails, and ids grow. -/
def nextLibcxi : Libcxi where
  freshId := fun _ used => used.toFinset.sup Nat.succ
  fresh := fun _ _ h => Nat.not_succ_le_self _ (Finset.le_sup (f := Nat.succ) (List.mem_toFinset.mpr h))

theorem nextLibcxi_works : nextLibcxi.Works := ⟨rfl, fun _ => rfl, fun _ => rfl, fun _ => rfl, fun _ _ => rfl⟩

def cassini (devId : Nat) : DevInfo := ⟨devId, 2048, 1024, 2047, 2047, 2048, 2048, 16384, 1022⟩

def systemSvc : CxiSvcDesc where
  svcId := 1
  isSystemSvc := true

/-- A service of the user that is not restricted to any VNI. -/
def otherSvc : CxiSvcDesc where
  svcId := 2
  restrictedMembers := true
  members := #v[{type := .uid, uid := 1001}, {type := .ignore}]

def twoDevices : List CxilDev :=
  [⟨cassini 0, [systemSvc], List.nodup_singleton 1⟩, ⟨cassini 1, [systemSvc, otherSvc], by decide⟩]

def firstJob : Allocation := ⟨⟨1001, [11, 12], 4, by decide, by decide, by decide⟩, nextLibcxi⟩

def secondJob : Allocation := ⟨⟨1001, [13], 2, by decide, by decide, by decide⟩, nextLibcxi⟩

theorem firstJob_destroyed :
    (destroyCxiService nextLibcxi false false (matchReservation 1001 [11, 12])
      (allocateAll [secondJob, firstJob] twoDevices)).1 = .ok 0 ∧
      ∀ (i : Nat) (dev : CxilDev), twoDevices[i]? = some dev →
        ∃ (created : List CxiSvcDesc) (before after : CxilDev),
          givenDescs created = ([secondJob, firstJob].map fun x => x.job.desc dev.info) ∧
          (allocateAll [secondJob, firstJob] twoDevices)[i]? = some before ∧ before.svcs = dev.svcs ++ created ∧
          (destroyCxiService nextLibcxi false false (matchReservation 1001 [11, 12])
            (allocateAll [secondJob, firstJob] twoDevices)).2[i]? = some after ∧
          after.svcs = dev.svcs ++ created.eraseIdx 1 :=
  destroy_inverts_allocate twoDevices [secondJob, firstJob] nextLibcxi 1 firstJob
    (by simp [firstJob, secondJob, nextLibcxi_works]) nextLibcxi_works (by decide) (by decide) rfl

end FluxCoral2.Slingshot
