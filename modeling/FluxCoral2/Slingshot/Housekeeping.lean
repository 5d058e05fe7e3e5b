import Mathlib.Data.Rat.Defs
import Mathlib.Algebra.Order.Ring.Unbundled.Rat
import FluxCoral2.Slingshot.CxiService

/-! Housekeeping after a job (`cmd_epilog` of `flux-slingshot.c`).

With `--retry-busy`, the epilog is to go over the devices again until no service of the job
was found busy, or the time is over. Its exit status is all that the node's housekeeping
sees: the node is drained, or handed to the next job. A destroy that fails crashes the
command, so nothing is tried twice; a device that cannot be opened or listed is logged and
passed over. `housekeeping_iff` says what that leaves open, in a build with libcxi. -/
namespace FluxCoral2.Slingshot

/-! ### The command -/

/-- What the eventlog says of the reservation; waiting for it may end the command. -/
inductive Lookup
  | fatal
  | absent
  | found (vnis : Option VnisField)

/-- The command line and what is looked up. A duration that does not parse is `none`. -/
structure EpilogArgs where
  freeArguments : Bool := false
  uid : Option (BitVec 32)
  retryBusy : Option (Option ℚ) := none
  dryRun : Bool := false
  broker : Bool := true
  reservation : Lookup

/-- One round of the retry loop: the devices listed, how the calls of libcxi end, and the
milliseconds since the first round. -/
structure Round where
  calls : Libcxi
  listed : Nat → Bool := fun _ => true
  elapsed : ℚ := 0

/-- The devices after those that are listed have become `done`. -/
def relist (listed : CxilDev → Bool) : List CxilDev → List CxilDev → List CxilDev
  | dev :: rest, done =>
    if listed dev then
      match done with
      | new :: done => new :: relist listed rest done
      | [] => dev :: rest
    else dev :: relist listed rest done
  | [], _ => []

def Round.isListed (round : Round) (dev : CxilDev) : Bool := round.listed dev.info.devId

/-- `destroy_cxi_service` in a round, of all services that match or of the first on each device;
what is not listed stays as it is. -/
def Round.destroyCxiService (round : Round) (dryRun all : Bool) (matchfun : CxiSvcDesc → Bool) (devs : List CxilDev) :
    Except Stop Nat × List CxilDev :=
  let done := Slingshot.destroyCxiService round.calls dryRun all matchfun (devs.filter round.isListed)
  (done.1, relist round.isListed devs done.2)

/-- `running` is a command that has not ended in the rounds given. -/
inductive Exit
  | running
  | code (n : Nat)
  | crashed
  deriving DecidableEq

/-- The retry loop of `cmd_epilog` and `cmd_clean`, and how the command ends after it. -/
def retryLoop (dryRun all : Bool) (matchfun : CxiSvcDesc → Bool) (timeout : ℚ) :
    List Round → List CxilDev → Exit × List CxilDev
  | [], devs => (.running, devs)
  | round :: rest, devs =>
    match round.destroyCxiService dryRun all matchfun devs with
    | (.error .error, devs) => (.code 1, devs)
    | (.error .crash, devs) => (.crashed, devs)
    | (.ok busycount, devs) =>
      if 0 < busycount ∧ 0 < timeout ∧ round.elapsed < timeout * 1000 then
        retryLoop dryRun all matchfun timeout rest devs
      else (.code (if 0 < busycount ∧ 0 < timeout then 1 else 0), devs)

def Entry.value : Entry → Int
  | .integer n => n
  | .other => 0

def VnisField.entries : VnisField → List Entry
  | .array entries => entries
  | .other => []

abbrev matchEntries (uid : BitVec 32) (entries : List Entry) : CxiSvcDesc → Bool :=
  matchReservation uid (entries.map Entry.value)

/-- `cmd_epilog`, with the rounds of its loop. An error it cannot go on from is status 1. -/
def cmdEpilog (args : EpilogArgs) (rounds : List Round) (devs : List CxilDev) : Exit × List CxilDev :=
  if args.freeArguments then (.code 1, devs)
  else
    match args.uid, args.retryBusy.getD (some (-1)) with
    | none, _ => (.code 1, devs)
    | _, none => (.code 1, devs)
    | some uid, some timeout =>
      if !args.broker then (.code 1, devs)
      else
        match args.reservation with
        | .fatal => (.code 1, devs)
        | .absent => (.code 0, devs)
        | .found res =>
          match parseReservationVnis res with
          | none => (.code 1, devs)
          | some vnis =>
            if vnis.entries.length = 0 then (.code 0, devs)
            else
              retryLoop args.dryRun false (matchEntries uid vnis.entries) timeout rounds devs

/-! ### One device in one round -/

/-- No service of the device is the job's. -/
def Gone (matchfun : CxiSvcDesc → Bool) (dev : CxilDev) : Prop := ∀ desc ∈ dev.svcs, matchfun desc = false

def OneMatch (matchfun : CxiSvcDesc → Bool) (dev : CxilDev) : Prop := (dev.svcs.filter matchfun).length ≤ 1

/-- The device opens, and its services are listed. -/
def Libcxi.Reaches (c : Libcxi) (dev : CxilDev) : Prop :=
  c.openDevice dev.info.devId = true ∧ c.getSvcList dev.info.devId = true

section Device
variable {c : Libcxi} {matchfun : CxiSvcDesc → Bool} {dev : CxilDev}

theorem OneMatch.split (h : OneMatch matchfun dev) : Gone matchfun dev ∨
    ∃ l₁ e l₂, dev.svcs = l₁ ++ e :: l₂ ∧ matchfun e = true ∧ ∀ desc ∈ l₁ ++ l₂, matchfun desc = false := by
  by_cases hgone : Gone matchfun dev
  · exact .inl hgone
  · simp only [Gone, not_forall, Bool.not_eq_false] at hgone
    obtain ⟨e, he, hmatch⟩ := hgone
    obtain ⟨l₁, l₂, hsvcs⟩ := List.append_of_mem he
    refine .inr ⟨l₁, e, l₂, hsvcs, hmatch, fun desc hdesc => ?_⟩
    rw [OneMatch, hsvcs, List.filter_append, List.filter_cons_of_pos hmatch, List.length_append, List.length_cons] at h
    have hnone : (l₁ ++ l₂).filter matchfun = [] := by
      rw [List.filter_append, ← List.length_eq_zero_iff, List.length_append]
      omega
    exact Bool.eq_false_iff.mpr (List.filter_eq_nil_iff.mp hnone desc hdesc)

theorem destroyOn_unreached {dryRun all : Bool} (h : ¬ c.Reaches dev) :
    destroyOn c dryRun all matchfun dev = (.ok 0, dev) := by
  unfold destroyOn destroyCxiServiceDevice
  by_cases hopen : c.openDevice dev.info.devId = true
  · rw [if_pos hopen, if_neg fun hlist => h ⟨hopen, hlist⟩]
  · rw [if_neg hopen]

theorem destroyOn_reached {dryRun all : Bool} (h : c.Reaches dev) :
    destroyOn c dryRun all matchfun dev = destroyLoop c dryRun all matchfun dev.svcs dev 0 0 := by
  rw [destroyOn, if_pos h.1, destroyCxiServiceDevice, if_pos h.2]

theorem destroyOn_gone (h : Gone matchfun dev) : destroyOn c false false matchfun dev = (.ok 0, dev) := by
  by_cases hreach : c.Reaches dev
  · rw [destroyOn_reached hreach, destroyLoop_none h]
  · exact destroyOn_unreached hreach

/-- A device that does not crash the command has no service of the job left, unless it had one and
was not reached. -/
theorem gone_iff_reached (hone : OneMatch matchfun dev) (hok : (destroyOn c false false matchfun dev).1 = .ok 0) :
    Gone matchfun (destroyOn c false false matchfun dev).2 ↔ (¬ Gone matchfun dev → c.Reaches dev) := by
  rcases hone.split with hgone | ⟨l₁, e, l₂, hsvcs, he, hnone⟩
  · rw [destroyOn_gone hgone]
    exact iff_of_true hgone fun hnot => absurd hgone hnot
  · have hleft : ¬ Gone matchfun dev := fun hgone => by
      rw [hgone e (hsvcs ▸ List.mem_append_right l₁ List.mem_cons_self)] at he
      cases he
    by_cases hreach : c.Reaches dev
    · refine iff_of_true ?_ fun _ => hreach
      rw [destroyOn_reached hreach, hsvcs,
        destroyLoop_first (fun desc hd => hnone desc (List.mem_append_left l₂ hd)) he] at hok ⊢
      unfold cxilDestroySvc at hok ⊢
      cases hdestroy : c.destroySvc dev.info.devId e.svcId with
      | none =>
        dsimp only
        rw [Gone, CxilDev.svcs_remove hsvcs]
        exact hnone
      | some error =>
        rw [hdestroy] at hok
        cases hok
    · rw [destroyOn_unreached hreach]
      exact iff_of_false hleft fun h => hreach (h hleft)

end Device

/-! ### A round, and a run -/

/-- What becomes of one device in a round. -/
def Round.one (round : Round) (dryRun all : Bool) (matchfun : CxiSvcDesc → Bool) (dev : CxilDev) : CxilDev :=
  if round.isListed dev then (destroyOn round.calls dryRun all matchfun dev).2 else dev

theorem relist_map (listed : CxilDev → Bool) (f : CxilDev → CxilDev) (devs : List CxilDev) :
    relist listed devs ((devs.filter listed).map f) = devs.map fun dev => if listed dev then f dev else dev := by
  induction devs with
  | nil => rfl
  | cons dev rest ih =>
    unfold relist
    rw [List.map_cons]
    by_cases h : listed dev = true
    · rw [if_pos h, if_pos h, List.filter_cons_of_pos h, List.map_cons]
      exact congrArg _ ih
    · rw [if_neg h, if_neg h, List.filter_cons_of_neg h, ih]

/-- How a command ends that makes this round: it cannot list the devices, it has gone over each of
them by itself, or one of them has crashed it. -/
inductive Round.Ends (round : Round) (dryRun all : Bool) (matchfun : CxiSvcDesc → Bool) (devs : List CxilDev) :
    Exit × List CxilDev → Prop
  | unlisted (h : round.calls.getDeviceList = false) : round.Ends dryRun all matchfun devs (.code 1, devs)
  | done (h : round.calls.getDeviceList = true)
    (hok : ∀ dev ∈ devs, round.isListed dev = true → (destroyOn round.calls dryRun all matchfun dev).1 = .ok 0) :
    round.Ends dryRun all matchfun devs (.code 0, devs.map (round.one dryRun all matchfun))
  | crashed (h : round.calls.getDeviceList = true)
    (hcrash : ∃ dev ∈ devs, round.isListed dev = true ∧
      (destroyOn round.calls dryRun all matchfun dev).1 = .error .crash) (devs' : List CxilDev) :
    round.Ends dryRun all matchfun devs (.crashed, devs')

section Run
variable {timeout : ℚ}

/-- Nothing is ever tried again. -/
theorem retryLoop_ends (dryRun all : Bool) (matchfun : CxiSvcDesc → Bool) (timeout : ℚ) (round : Round)
    (rest : List Round) (devs : List CxilDev) :
    round.Ends dryRun all matchfun devs (retryLoop dryRun all matchfun timeout (round :: rest) devs) := by
  rw [retryLoop, Round.destroyCxiService, destroyCxiService]
  cases hlist : round.calls.getDeviceList with
  | false =>
    have hsame := relist_map round.isListed id devs
    simp only [List.map_id_fun, id_eq, ite_self, List.map_id_fun'] at hsame
    simp only [Bool.false_eq_true, if_false, hsame]
    exact .unlisted hlist
  | true =>
    simp only [if_true]
    by_cases hok : ∀ dev ∈ devs.filter round.isListed, (destroyOn round.calls dryRun all matchfun dev).1 = .ok 0
    · rw [destroyDevices_ok hok]
      dsimp only
      rw [relist_map, if_neg fun h => Nat.lt_irrefl 0 h.1, if_neg fun h => Nat.lt_irrefl 0 h.1]
      exact .done hlist fun dev hdev hlisted => hok dev (List.mem_filter.mpr ⟨hdev, hlisted⟩)
    · have hcrash := destroyDevices_crash hok
      rw [hcrash]
      push Not at hok
      obtain ⟨dev, hdev, hnot⟩ := hok
      obtain ⟨hmem, hlisted⟩ := List.mem_filter.mp hdev
      exact .crashed hlist ⟨dev, hmem, hlisted,
        (destroyOn_cases round.calls dryRun all matchfun dev).resolve_left hnot⟩ _

/-- With a reservation that is not empty, the command is its loop. -/
theorem cmdEpilog_loop {args : EpilogArgs} {uid : BitVec 32} {entries : List Entry} (huid : args.uid = some uid)
    (hretry : args.retryBusy = some (some timeout)) (hdry : args.dryRun = false)
    (hres : args.reservation = .found (some (.array entries))) (hne : entries ≠ []) :
    (∀ rounds devs, cmdEpilog args rounds devs = (.code 1, devs)) ∨ ∀ rounds devs,
      cmdEpilog args rounds devs = retryLoop false false (matchEntries uid entries) timeout rounds devs := by
  unfold cmdEpilog
  rw [huid, hretry, hres, hdry]
  dsimp only [Option.getD_some, parseReservationVnis]
  cases args.freeArguments with
  | true => exact .inl fun _ _ => rfl
  | false =>
    cases args.broker with
    | false => exact .inl fun _ _ => rfl
    | true =>
      simp only [Bool.false_eq_true, if_false, Bool.not_true]
      split
      · exact .inl fun _ _ => rfl
      · rename_i vnis hvnis
        have hvnis : vnis = .array entries := by
          split at hvnis
          · cases hvnis
          · split at hvnis
            · exact (Option.some.inj hvnis).symm
            · cases hvnis
        subst hvnis
        exact .inr fun _ _ => if_neg fun hzero => hne (List.length_eq_zero_iff.mp hzero)

/-- A command that succeeds has gone over each device by itself, in its first round. -/
theorem cmdEpilog_succeeds {args : EpilogArgs} {uid : BitVec 32} {entries : List Entry} (huid : args.uid = some uid)
    (hretry : args.retryBusy = some (some timeout)) (hdry : args.dryRun = false)
    (hres : args.reservation = .found (some (.array entries))) (hne : entries ≠ []) {rounds : List Round}
    {devs devs' : List CxilDev} (h : cmdEpilog args rounds devs = (.code 0, devs')) :
    ∃ round rest, rounds = round :: rest ∧ devs' = devs.map (round.one false false (matchEntries uid entries)) ∧
      ∀ dev ∈ devs, round.isListed dev = true →
        (destroyOn round.calls false false (matchEntries uid entries) dev).1 = .ok 0 := by
  have hloop := (cmdEpilog_loop huid hretry hdry hres hne).resolve_left fun hfatal => by
    rw [hfatal] at h
    cases (Prod.mk.inj h).1
  rw [hloop] at h
  cases rounds with
  | nil => cases (Prod.mk.inj h).1
  | cons round rest =>
    have hends := retryLoop_ends false false (matchEntries uid entries) timeout round rest devs
    rw [h] at hends
    cases hends with
    | done _ hok => exact ⟨round, rest, rfl, rfl, hok⟩

/-- **Housekeeping** that succeeds has destroyed the job's services on the devices that are listed
exactly when all of these that had one were opened and their services listed. -/
theorem housekeeping_iff {args : EpilogArgs} {uid : BitVec 32} {entries : List Entry} {round : Round}
    {rest : List Round} {devs devs' : List CxilDev} (huid : args.uid = some uid)
    (hretry : args.retryBusy = some (some timeout)) (hdry : args.dryRun = false)
    (hres : args.reservation = .found (some (.array entries))) (hne : entries ≠ [])
    (hone : ∀ dev ∈ devs, OneMatch (matchEntries uid entries) dev)
    (h : cmdEpilog args (round :: rest) devs = (.code 0, devs')) :
    (∀ (i : Nat) (dev dev' : CxilDev), devs[i]? = some dev → devs'[i]? = some dev' →
      round.isListed dev = true → Gone (matchEntries uid entries) dev') ↔
    ∀ dev ∈ devs, round.isListed dev = true → ¬ Gone (matchEntries uid entries) dev → round.calls.Reaches dev := by
  obtain ⟨_, _, heq, rfl, hok⟩ := cmdEpilog_succeeds huid hretry hdry hres hne h
  obtain ⟨rfl, rfl⟩ := List.cons.inj heq
  have hiff {dev : CxilDev} (hdev : dev ∈ devs) (hlisted : round.isListed dev = true) :
      Gone (matchEntries uid entries) (round.one false false (matchEntries uid entries) dev) ↔
        (¬ Gone (matchEntries uid entries) dev → round.calls.Reaches dev) := by
    rw [Round.one, if_pos hlisted]
    exact gone_iff_reached (hone dev hdev) (hok dev hdev hlisted)
  constructor
  · intro hgone dev hdev hlisted
    obtain ⟨i, hi⟩ := List.mem_iff_getElem?.mp hdev
    exact (hiff hdev hlisted).mp (hgone i dev _ hi (by rw [List.getElem?_map, hi]; rfl) hlisted)
  · intro hreaches i dev dev' hi hi' hlisted
    rw [List.getElem?_map, hi] at hi'
    obtain rfl := Option.some.inj hi'
    exact (hiff (List.mem_of_getElem? hi) hlisted).mpr (hreaches dev (List.mem_of_getElem? hi) hlisted)

end Run

/-! ### A device that cannot be opened -/

/-- A device with a service of the job of user 1001 with the VNIs 11 and 12. -/
def jobDevice : CxilDev :=
  ⟨cassini 0, [systemSvc, {serviceDesc (cassini 0) 1001 [11, 12] 4 with svcId := 2}], by decide⟩

def retryArgs : EpilogArgs where
  uid := some 1001
  retryBusy := some (some 30)
  reservation := .found (some (.array [.integer 11, .integer 12]))

/-- Every attempt to destroy a service ends so. -/
def destroying (e : Option SvcError) : Round where
  calls := {nextLibcxi with destroySvc := fun _ _ => e}

/-- No device can be opened. -/
def unopened : Round where
  calls := {nextLibcxi with openDevice := fun _ => false}

theorem jobDevice_oneMatch : OneMatch (matchEntries 1001 [.integer 11, .integer 12]) jobDevice := by
  unfold OneMatch
  decide

theorem jobDevice_destroyed :
    (∀ (i : Nat) (dev dev' : CxilDev), [jobDevice][i]? = some dev → [jobDevice.remove 2][i]? = some dev' →
      (destroying none).isListed dev = true → Gone (matchEntries 1001 [.integer 11, .integer 12]) dev') ↔
    ∀ dev ∈ [jobDevice], (destroying none).isListed dev = true →
      ¬ Gone (matchEntries 1001 [.integer 11, .integer 12]) dev → (destroying none).calls.Reaches dev := by
  have hrun : cmdEpilog retryArgs [destroying none] [jobDevice] = (.code 0, [jobDevice.remove 2]) := rfl
  exact housekeeping_iff rfl rfl rfl rfl (by simp)
    (fun _ hdev => List.mem_singleton.mp hdev ▸ jobDevice_oneMatch) hrun

/-- The service on a device that cannot be opened is left, and the command succeeds. -/
theorem unopened_left : cmdEpilog retryArgs [unopened] [jobDevice] = (.code 0, [jobDevice]) ∧
    unopened.isListed jobDevice = true ∧ OneMatch (matchEntries 1001 [.integer 11, .integer 12]) jobDevice ∧
    ¬ Gone (matchEntries 1001 [.integer 11, .integer 12]) jobDevice :=
  ⟨rfl, rfl, jobDevice_oneMatch, by unfold Gone; decide⟩

/-- A busy service crashes the command, and is not tried again. -/
example : cmdEpilog retryArgs [destroying (some .EBUSY), destroying none] [jobDevice] = (.crashed, [jobDevice]) := rfl

end FluxCoral2.Slingshot
