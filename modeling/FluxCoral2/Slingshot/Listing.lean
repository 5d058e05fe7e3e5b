import FluxCoral2.Library.Grouping
import FluxCoral2.Slingshot.ShellPlugin

/-! The list of CXI services (`cmd_list` of `flux-slingshot.c`).

The services of all devices are put on lines, those that are equal on one line with their
devices. Two entries are compared by what is shown of them: a restriction counts only where
there is one. `services_listed`: every service of a device that can be listed is on one line,
and a line has exactly the devices that have the service, each once. -/
namespace FluxCoral2.Slingshot
open Library Eventlog

/-- `struct service_entry`, less its devices. -/
structure ServiceEntry where
  svcId : Nat
  enable : Bool
  isSystemSvc : Bool
  restrictedMembers : Bool := false
  restrictedVnis : Bool := false
  resourceLimits : Bool
  uid : BitVec 32 := 0
  vnis : Idset := ∅
  limits : Limits

/-- The devices are not looked at. -/
def serviceEntryEqual (e1 e2 : ServiceEntry) : Bool :=
  if e1.svcId ≠ e2.svcId ∨ e1.isSystemSvc ≠ e2.isSystemSvc ∨ e1.restrictedMembers ≠ e2.restrictedMembers ∨
      e1.restrictedVnis ≠ e2.restrictedVnis ∨ e1.resourceLimits ≠ e2.resourceLimits ∨ e1.enable ≠ e2.enable then false
  else if e1.restrictedMembers = true ∧ e1.uid ≠ e2.uid then false
  else if e1.restrictedVnis = true ∧ e1.vnis ≠ e2.vnis then false
  else if e1.resourceLimits = true ∧ e1.limits ≠ e2.limits then false
  else true

/-- Of the members only the first that is a user is kept, if there is one. -/
def serviceEntryCreate (flags : Shell.Flags) (desc : CxiSvcDesc) : ServiceEntry where
  svcId := desc.svcId
  enable := flags.enable
  isSystemSvc := desc.isSystemSvc
  restrictedMembers := desc.restrictedMembers && (desc.members.toList.find? fun m => m.type = .uid).isSome
  uid :=
    if desc.restrictedMembers then ((desc.members.toList.find? fun m => m.type = .uid).map Member.uid).getD 0 else 0
  restrictedVnis := desc.restrictedVnis
  vnis :=
    if desc.restrictedVnis then
      ((List.range desc.numVldVnis).map fun i => (desc.vnis.toList.getD i 0).toNat).toFinset
    else ∅
  resourceLimits := desc.resourceLimits
  limits := desc.limits

abbrev Lines := List (ServiceEntry × List Text)

/-- An entry joins the first line with an equal one, or is put behind the others. -/
def insertServicesEntry (services : Lines) (entry : ServiceEntry × Text) : Lines :=
  Grouping.insert serviceEntryEqual entry.1 entry.2 services

/-- What a list is made of: how the calls end, the flags of the services and the names of devices. -/
structure ListArgs where
  calls : Shell.Calls := {}
  driver : Shell.Driver := fun _ _ => {}
  deviceName : Nat → Text

/-- A device that cannot be opened, or whose services cannot be had, is passed over. -/
def ListArgs.shows (args : ListArgs) (dev : CxilDev) : Bool :=
  args.calls.openDevice dev.info.devId && args.calls.getSvcList dev.info.devId

def ListArgs.entry (args : ListArgs) (dev : CxilDev) (desc : CxiSvcDesc) : ServiceEntry :=
  serviceEntryCreate (args.driver dev.info.devId desc.svcId) desc

def ListArgs.name (args : ListArgs) (dev : CxilDev) : Text := args.deviceName dev.info.devId

/-- The lines that are printed; none is a command that ends with an error. -/
def cmdList (args : ListArgs) (devs : List CxilDev) : Option Lines :=
  if !args.calls.getDeviceList then none
  else
    some (devs.foldl (fun services dev =>
      if args.shows dev then
        dev.svcs.foldl (fun services desc => insertServicesEntry services (args.entry dev desc, args.name dev)) services
      else services) [])

/-! ### Equal entries -/

/-- What is compared of an entry. -/
structure Shown where
  svcId : Nat
  enable : Bool
  isSystemSvc : Bool
  uid : Option (BitVec 32)
  vnis : Option Idset
  limits : Option Limits

def ServiceEntry.shown (e : ServiceEntry) : Shown where
  svcId := e.svcId
  enable := e.enable
  isSystemSvc := e.isSystemSvc
  uid := if e.restrictedMembers then some e.uid else none
  vnis := if e.restrictedVnis then some e.vnis else none
  limits := if e.resourceLimits then some e.limits else none

theorem serviceEntryEqual_iff {e1 e2 : ServiceEntry} : serviceEntryEqual e1 e2 = true ↔ e1.shown = e2.shown := by
  unfold serviceEntryEqual ServiceEntry.shown
  simp only [Shown.mk.injEq]
  cases h₁ : e1.restrictedMembers <;> cases h₂ : e2.restrictedMembers <;>
    cases h₃ : e1.restrictedVnis <;> cases h₄ : e2.restrictedVnis <;>
    cases h₅ : e1.resourceLimits <;> cases h₆ : e2.resourceLimits <;> simp <;> tauto

theorem serviceEntryEqual_equivalence : Equivalence fun e1 e2 => serviceEntryEqual e1 e2 = true where
  refl := fun _ => serviceEntryEqual_iff.mpr rfl
  symm := fun h => serviceEntryEqual_iff.mpr (serviceEntryEqual_iff.mp h).symm
  trans := fun h h' => serviceEntryEqual_iff.mpr ((serviceEntryEqual_iff.mp h).trans (serviceEntryEqual_iff.mp h'))

/-! ### The lines -/

/-- A line is for a service, and its devices are those that have the service. -/
structure Listed (args : ListArgs) (devs : List CxilDev) (lines : Lines) : Prop where
  apart : (lines.map Prod.fst).Pairwise fun e e' => serviceEntryEqual e e' = false
  devices : ∀ line ∈ lines, line.2 = ((devs.filter args.shows).filter fun dev =>
    dev.svcs.any fun desc => serviceEntryEqual line.1 (args.entry dev desc)).map args.name
  inhabited : ∀ line ∈ lines, line.2 ≠ []
  every : ∀ dev ∈ devs, args.shows dev = true → ∀ desc ∈ dev.svcs,
    ∃! line, line ∈ lines ∧ serviceEntryEqual line.1 (args.entry dev desc) = true ∧ args.name dev ∈ line.2

section Lines
variable {args : ListArgs} {devs : List CxilDev}

/-- The entries of a device, each with its name. -/
def ListArgs.entries (args : ListArgs) (dev : CxilDev) : List (ServiceEntry × Text) :=
  dev.svcs.map fun desc => (args.entry dev desc, args.name dev)

def ListArgs.allEntries (args : ListArgs) (devs : List CxilDev) : List (ServiceEntry × Text) :=
  (devs.filter args.shows).flatMap args.entries

theorem cmdList_eq (args : ListArgs) (devs : List CxilDev) : cmdList args devs =
    if !args.calls.getDeviceList then none else some (Grouping.group serviceEntryEqual (args.allEntries devs)) := by
  have hdev (dev : CxilDev) (services : Lines) :
      dev.svcs.foldl (fun services desc => insertServicesEntry services (args.entry dev desc, args.name dev)) services =
        (args.entries dev).foldl (fun services x => insertServicesEntry services x) services := by
    rw [ListArgs.entries, List.foldl_map]
  have hall (services : Lines) : devs.foldl (fun services dev =>
      if args.shows dev then
        dev.svcs.foldl (fun services desc => insertServicesEntry services (args.entry dev desc, args.name dev)) services
      else services) services =
        (args.allEntries devs).foldl (fun services x => insertServicesEntry services x) services := by
    induction devs generalizing services with
    | nil => rfl
    | cons dev rest ih =>
      rw [List.foldl_cons, ih]
      by_cases hshows : args.shows dev = true
      · rw [if_pos hshows, hdev, ListArgs.allEntries, ListArgs.allEntries, List.filter_cons_of_pos hshows,
          List.flatMap_cons, List.foldl_append]
      · rw [if_neg hshows, ListArgs.allEntries, ListArgs.allEntries, List.filter_cons_of_neg hshows]
  unfold cmdList
  rw [hall]
  rfl

/-- A device has one entry at most that is equal to a given one, for their ids are different. -/
theorem itemsOf_entries (args : ListArgs) (e : ServiceEntry) (dev : CxilDev) :
    Grouping.itemsOf serviceEntryEqual e (args.entries dev) =
      if dev.svcs.any fun desc => serviceEntryEqual e (args.entry dev desc) then [args.name dev] else [] := by
  have hnodup := dev.nodup
  unfold Grouping.itemsOf ListArgs.entries
  rw [List.filter_map, List.map_map]
  generalize dev.svcs = svcs at hnodup ⊢
  induction svcs with
  | nil => rfl
  | cons desc rest ih =>
    rw [List.map_cons, List.nodup_cons] at hnodup
    have hrest := ih hnodup.2
    by_cases he : serviceEntryEqual e (args.entry dev desc) = true
    · -- no other service has the id of this one
      have hnone : rest.any (fun desc => serviceEntryEqual e (args.entry dev desc)) = false := by
        rw [← Bool.not_eq_true]
        intro hany
        obtain ⟨d, hd, hed⟩ := List.any_eq_true.mp hany
        have hid := congrArg Shown.svcId ((serviceEntryEqual_iff.mp he).symm.trans (serviceEntryEqual_iff.mp hed))
        have hsame : desc.svcId = d.svcId := hid
        exact hnodup.1 (hsame ▸ List.mem_map_of_mem hd)
      rw [hnone] at hrest
      simp only [List.any_cons, he, Bool.true_or, if_true]
      rw [List.filter_cons_of_pos (by simpa using he), List.map_cons]
      simpa using hrest
    · rw [List.filter_cons_of_neg (by simpa using he)]
      simpa [he] using hrest

theorem itemsOf_allEntries (args : ListArgs) (e : ServiceEntry) (devs : List CxilDev) :
    Grouping.itemsOf serviceEntryEqual e (args.allEntries devs) = ((devs.filter args.shows).filter fun dev =>
      dev.svcs.any fun desc => serviceEntryEqual e (args.entry dev desc)).map args.name := by
  unfold ListArgs.allEntries
  induction devs.filter args.shows with
  | nil => rfl
  | cons dev rest ih =>
    have hdev := itemsOf_entries args e dev
    unfold Grouping.itemsOf at hdev ih ⊢
    rw [List.flatMap_cons, List.filter_append, List.map_append, hdev, ih]
    by_cases hany : (dev.svcs.any fun desc => serviceEntryEqual e (args.entry dev desc)) = true
    · rw [if_pos hany, List.filter_cons, if_pos hany, List.map_cons]
      rfl
    · rw [if_neg hany, List.filter_cons, if_neg hany]
      rfl

/-- **Services are listed once**: each service of a device that can be listed is on one line, and
the devices of a line are those that have its service, in their order. -/
theorem services_listed (args : ListArgs) (devs : List CxilDev) (lines : Lines) (h : cmdList args devs = some lines) :
    Listed args devs lines := by
  rw [cmdList_eq] at h
  split at h
  · cases h
  obtain rfl := Option.some.inj h
  have hgrouped := Grouping.grouped serviceEntryEqual_equivalence (args.allEntries devs)
  have hdevices := fun line hline => (hgrouped.items line hline).trans (itemsOf_allEntries args line.1 devs)
  refine ⟨hgrouped.apart, hdevices, fun line hline hnil => ?_, fun dev hdev hshows desc hdesc => ?_⟩
  · obtain ⟨x, hx, hkey⟩ := hgrouped.key line hline
    have hitem : x.2 ∈ Grouping.itemsOf serviceEntryEqual line.1 (args.allEntries devs) := by
      refine List.mem_map_of_mem (List.mem_filter.mpr ⟨hx, ?_⟩)
      rw [hkey]
      exact serviceEntryEqual_equivalence.refl line.1
    rw [← hgrouped.items line hline, hnil] at hitem
    cases hitem
  · have hshown : dev ∈ devs.filter args.shows := List.mem_filter.mpr ⟨hdev, hshows⟩
    have hentry : (args.entry dev desc, args.name dev) ∈ args.allEntries devs :=
      List.mem_flatMap.mpr ⟨dev, hshown, List.mem_map_of_mem hdesc⟩
    obtain ⟨line, hline, hequal⟩ := hgrouped.all _ hentry
    refine ⟨line, ⟨hline, hequal, ?_⟩, fun line' ⟨hline', hequal', _⟩ =>
      hgrouped.unique serviceEntryEqual_equivalence hline' hline hequal' hequal⟩
    rw [hdevices line hline]
    exact List.mem_map_of_mem (List.mem_filter.mpr ⟨hshown, List.any_eq_true.mpr ⟨desc, hdesc, hequal⟩⟩)

end Lines

/-! ### Two devices with the same default service -/

def listArgs : ListArgs where
  deviceName := fun devId => ['c', 'x', 'i'] ++ Nat.toDigits 10 devId

theorem twoDevices_listed : Listed listArgs twoDevices ((cmdList listArgs twoDevices).getD []) :=
  services_listed listArgs twoDevices _ rfl

/-- The service that both have is on a line with both. -/
example : ((cmdList listArgs twoDevices).getD []).map (fun line => (line.1.svcId, line.2.length)) =
    [(1, 2), (2, 1)] := by
  decide

end FluxCoral2.Slingshot
