import FluxCoral2.Slingshot.Housekeeping
import FluxCoral2.Slingshot.Reservation

/-! The commands that make and destroy CXI services (`flux-slingshot.c`).

The prolog makes the services of a job, and the epilog and `clean` destroy services. `Grown`
is what the first may do to a device, whatever calls fail, and `Shrunk` what the others may
do. -/
namespace FluxCoral2.Slingshot

/-! ### The prolog -/

/-- The entries of `R_lite`, ranks and cores, of which some may not be decoded: the cores of a rank, or
none where the command ends with an error. -/
def ncoresFromR (rank : Nat) : List (Option (Idset × Idset)) → (ncores : Nat) → Option Nat
  | [], ncores => some ncores
  | none :: _, _ => none
  | some (ranks, cores) :: rest, ncores =>
    let ncores := if rank ∈ ranks then cores.card else ncores
    if 0 < ncores then some ncores else ncoresFromR rank rest ncores

/-- The command line, and what is looked up; an `R` that cannot be had is `none`. -/
structure PrologArgs where
  freeArguments : Bool := false
  uid : Option (BitVec 32)
  dryRun : Bool := false
  broker : Bool := true
  reservation : Lookup
  rank : Nat
  rLite : Option (List (Option (Idset × Idset)))

def cmdProlog (args : PrologArgs) (c : Libcxi) (devs : List CxilDev) : Exit × List CxilDev :=
  if args.freeArguments then (.code 1, devs)
  else
    match args.uid with
    | none => (.code 1, devs)
    | some uid =>
      if !args.broker then (.code 1, devs)
      else
        match args.reservation with
        | .fatal => (.code 1, devs)
        | .absent => (.code 0, devs)
        | .found res =>
          match parseReservationVnis res with
          | none => (.code 1, devs)
          | some vnis =>
            if vnis.entries.length = 0 then (.code 0, devs)
            else
              match args.rLite.bind fun rLite => ncoresFromR args.rank rLite 0 with
              | none => (.code 1, devs)
              | some ncores =>
                match allocateCxiService c args.dryRun uid (vnis.entries.map Entry.value) ncores devs with
                | (none, devs) => (.code 1, devs)
                | (some _, devs) => (.code 0, devs)

/-! ### What becomes of a device -/

/-- Some services that match are gone, and the others are as they were. -/
structure Shrunk (matchfun : CxiSvcDesc → Bool) (dev dev' : CxilDev) : Prop where
  info : dev'.info = dev.info
  sublist : dev'.svcs.Sublist dev.svcs
  matched : ∀ desc ∈ dev.svcs, desc ∉ dev'.svcs → matchfun desc = true

/-- A service may have come to the others. -/
def Grown (c : Libcxi) (desc : DevInfo → CxiSvcDesc) (dev dev' : CxilDev) : Prop :=
  dev' = dev ∨ dev' = c.append dev (desc dev.info)

section Devices
variable {c : Libcxi} {matchfun : CxiSvcDesc → Bool} {dev dev' dev'' : CxilDev}

theorem Shrunk.refl (dev : CxilDev) : Shrunk matchfun dev dev := ⟨rfl, .refl _, fun _ h hnot => absurd h hnot⟩

theorem Shrunk.trans (h : Shrunk matchfun dev dev') (h' : Shrunk matchfun dev' dev'') : Shrunk matchfun dev dev'' where
  info := h'.info.trans h.info
  sublist := h'.sublist.trans h.sublist
  matched := fun desc hdesc hnot => by
    by_cases hmid : desc ∈ dev'.svcs
    · exact h'.matched desc hmid hnot
    · exact h.matched desc hdesc hmid

/-- Ids are of one service. -/
theorem CxilDev.desc_inj {desc desc' : CxiSvcDesc} (h : desc ∈ dev.svcs) (h' : desc' ∈ dev.svcs)
    (hid : desc.svcId = desc'.svcId) : desc = desc' := List.inj_on_of_nodup_map dev.nodup h h' hid

theorem shrunk_remove {desc : CxiSvcDesc} (h : desc ∈ dev.svcs) (hmatch : matchfun desc = true) :
    Shrunk matchfun dev (dev.remove desc.svcId) where
  info := rfl
  sublist := List.filter_sublist
  matched := fun desc' hdesc' hnot => by
    by_cases hid : desc'.svcId = desc.svcId
    · rwa [CxilDev.desc_inj hdesc' h hid]
    · exact absurd (List.mem_filter.mpr ⟨hdesc', decide_eq_true hid⟩) hnot

/-- Removing what is not there is nothing. -/
theorem CxilDev.remove_eq_self {id : Nat} (h : ∀ desc ∈ dev.svcs, desc.svcId ≠ id) : (dev.remove id).svcs = dev.svcs :=
  List.filter_eq_self.mpr fun desc hdesc => decide_eq_true (h desc hdesc)

/-- The listed services are those of the device at the start; some of them are gone by now. -/
theorem destroyLoop_shrunk (dryRun all : Bool) {descs : List CxiSvcDesc} (hdescs : ∀ desc ∈ descs, desc ∈ dev.svcs)
    (hnow : Shrunk matchfun dev dev') (matchcount busycount : Nat) :
    Shrunk matchfun dev (destroyLoop c dryRun all matchfun descs dev' matchcount busycount).2 := by
  induction descs generalizing dev' matchcount busycount with
  | nil => exact hnow
  | cons desc rest ih =>
    have hrest : ∀ desc ∈ rest, desc ∈ dev.svcs := fun d hd => hdescs d (List.mem_cons_of_mem desc hd)
    rw [destroyLoop]
    split
    · split
      · rename_i hmatch
        split
        · exact ih hrest hnow _ _
        · unfold cxilDestroySvc
          cases c.destroySvc dev'.info.devId desc.svcId with
          | some e => exact hnow
          | none =>
            refine ih hrest ?_ _ _
            have hstart : desc ∈ dev.svcs := hdescs desc List.mem_cons_self
            by_cases hthere : desc ∈ dev'.svcs
            · exact hnow.trans (shrunk_remove hthere hmatch)
            · -- it is gone already, and no other service has its id
              have hother : ∀ d ∈ dev'.svcs, d.svcId ≠ desc.svcId := fun d hd hid =>
                hthere (CxilDev.desc_inj (hnow.sublist.subset hd) hstart hid ▸ hd)
              have hsame : (dev'.remove desc.svcId).svcs = dev'.svcs := CxilDev.remove_eq_self hother
              exact ⟨hnow.info, hsame ▸ hnow.sublist, hsame ▸ hnow.matched⟩
      · exact ih hrest hnow _ _
    · exact hnow

theorem destroyOn_shrunk (dryRun all : Bool) (dev : CxilDev) :
    Shrunk matchfun dev (destroyOn c dryRun all matchfun dev).2 := by
  unfold destroyOn destroyCxiServiceDevice
  split
  · split
    · exact destroyLoop_shrunk dryRun all (fun _ h => h) (.refl dev) 0 0
    · exact .refl dev
  · exact .refl dev

end Devices

/-! ### What becomes of the devices -/

/-- Device by device. -/
abbrev AllShrunk (matchfun : CxiSvcDesc → Bool) : List CxilDev → List CxilDev → Prop := List.Forall₂ (Shrunk matchfun)

section Commands
variable {matchfun : CxiSvcDesc → Bool} {dryRun all : Bool} {devs devs' : List CxilDev} {timeout : ℚ}

theorem AllShrunk.refl (devs : List CxilDev) : AllShrunk matchfun devs devs := by
  induction devs with
  | nil => exact .nil
  | cons dev rest ih => exact .cons (.refl dev) ih

theorem AllShrunk.trans {devs'' : List CxilDev} (h : AllShrunk matchfun devs devs')
    (h' : AllShrunk matchfun devs' devs'') : AllShrunk matchfun devs devs'' := by
  induction h generalizing devs'' with
  | nil =>
    cases h'
    exact .nil
  | cons hdev _ ih =>
    cases h' with
    | cons hdev' hrest' => exact .cons (hdev.trans hdev') (ih hrest')

theorem destroyDevices_shrunk (c : Libcxi) (dryRun all : Bool) (devs : List CxilDev) :
    AllShrunk matchfun devs (destroyDevices c dryRun all matchfun devs).2 := by
  induction devs with
  | nil => exact .nil
  | cons dev rest ih =>
    have hdev : Shrunk matchfun dev (destroyOn c dryRun all matchfun dev).2 := destroyOn_shrunk dryRun all dev
    rw [destroyDevices]
    split
    · rename_i hpair
      rw [hpair] at hdev
      exact .cons hdev (AllShrunk.refl rest)
    · rename_i hpair
      rw [hpair] at hdev
      exact .cons hdev ih

/-- What is not listed stays as it is. -/
theorem allShrunk_relist {listed : CxilDev → Bool} {done : List CxilDev}
    (h : AllShrunk matchfun (devs.filter listed) done) : AllShrunk matchfun devs (relist listed devs done) := by
  induction devs generalizing done with
  | nil => exact .nil
  | cons dev rest ih =>
    unfold relist
    by_cases hlisted : listed dev = true
    · rw [List.filter_cons_of_pos hlisted] at h
      rw [if_pos hlisted]
      cases h with
      | cons hdev hrest => exact .cons hdev (ih hrest)
    · rw [List.filter_cons_of_neg hlisted] at h
      rw [if_neg hlisted]
      exact .cons (.refl dev) (ih h)

theorem Round.destroyCxiService_shrunk (round : Round) (dryRun all : Bool) (devs : List CxilDev) :
    AllShrunk matchfun devs (round.destroyCxiService dryRun all matchfun devs).2 := by
  unfold Round.destroyCxiService Slingshot.destroyCxiService
  split
  · exact allShrunk_relist (destroyDevices_shrunk _ _ _ _)
  · exact allShrunk_relist (.refl _)

theorem retryLoop_shrunk (rounds : List Round) (devs : List CxilDev) :
    AllShrunk matchfun devs (retryLoop dryRun all matchfun timeout rounds devs).2 := by
  induction rounds generalizing devs with
  | nil => exact .refl devs
  | cons round rest ih =>
    have hround : AllShrunk matchfun devs (round.destroyCxiService dryRun all matchfun devs).2 :=
      round.destroyCxiService_shrunk dryRun all devs
    rw [retryLoop]
    split
    · rename_i hpair
      rwa [hpair] at hround
    · rename_i hpair
      rwa [hpair] at hround
    · rename_i hpair
      rw [hpair] at hround
      split
      · exact hround.trans (ih _)
      · exact hround

/-- Each device has come to have the service, or is as it was. -/
theorem allocateDevices_grown {c : Libcxi} (uid : BitVec 32) (vnis : List Int) (ncores : Nat) (devs : List CxilDev)
    (count : Nat) : List.Forall₂ (Grown c fun info => serviceDesc info uid vnis ncores) devs
      (allocateDevices c dryRun uid vnis ncores devs count).2 := by
  have hrefl (devs : List CxilDev) :
      List.Forall₂ (Grown c fun info => serviceDesc info uid vnis ncores) devs devs := by
    induction devs with
    | nil => exact .nil
    | cons dev rest ih => exact .cons (.inl rfl) ih
  induction devs generalizing count with
  | nil => exact .nil
  | cons dev rest ih =>
    rw [allocateDevices]
    split
    · unfold allocateCxiServiceDevice cxilAllocSvc
      cases dryRun with
      | true => exact .cons (.inl rfl) (ih _)
      | false =>
        by_cases halloc : c.allocSvc dev.info.devId = true
        · simp only [Bool.false_eq_true, if_false, halloc, if_true]
          exact .cons (.inr rfl) (ih _)
        · simp only [Bool.false_eq_true, if_false, halloc]
          exact hrefl (dev :: rest)
    · exact .cons (.inl rfl) (ih _)

theorem allocateCxiService_grown {c : Libcxi} (dryRun : Bool) (uid : BitVec 32) (vnis : List Int) (ncores : Nat)
    (devs : List CxilDev) : List.Forall₂ (Grown c fun info => serviceDesc info uid vnis ncores) devs
      (allocateCxiService c dryRun uid vnis ncores devs).2 := by
  unfold allocateCxiService
  split
  · exact allocateDevices_grown uid vnis ncores devs 0
  · induction devs with
    | nil => exact .nil
    | cons dev rest ih => exact .cons (.inl rfl) ih

end Commands

end FluxCoral2.Slingshot
