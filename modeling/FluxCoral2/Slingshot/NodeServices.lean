import Mathlib.Data.List.Find
import FluxCoral2.Slingshot.Clean
import FluxCoral2.Slingshot.Published

/-! The services on a node, of all jobs over time (`cray-slingshot.c`, `flux-slingshot.c`).

The job manager reserves and releases VNIs, and on a node of the jobs prologs make services,
epilogs and `clean` destroy them, and shells look for them by their VNIs alone: none of these
knows which service is whose. `own_services`: in any order of these steps, whatever calls
fail, the services that the shell of a running job may take are those made for the job, unless
one made for another job that has released one of its VNIs is still there.

`maker` is a history of which job a service was made for. -/
namespace FluxCoral2.Slingshot
open Library

/-! ### The system -/

structure System where
  plugin : Plugin := {}
  devs : List CxilDev
  /-- The job a service was made for, by the place of its device and its id. -/
  maker : Nat → Nat → Option (BitVec 64) := fun _ _ => none
  /-- The jobs whose prolog was run. -/
  served : List (BitVec 64) := []

inductive Step
  | plugin (op : PluginOp)
  | prolog (id : BitVec 64) (dryRun : Bool) (reservation : Lookup) (rank : Nat)
      (rLite : Option (List (Option (Idset × Idset)))) (calls : Libcxi)
  | epilog (id : BitVec 64) (dryRun : Bool) (reservation : Lookup) (retryBusy : Option (Option ℚ))
      (rounds : List Round)
  | clean (args : CleanArgs) (rounds : List Round)

/-- What a command may find of the event of a job. A wait that fails is fatal. -/
def Plugin.Tells (s : Plugin) (id : BitVec 64) : Lookup → Prop
  | .fatal => True
  | .absent => s.posted id = []
  | .found vnis => ∃ context ∈ s.posted id, vnis = some context.field

/-- A prolog is run once, and a job's commands find the event that was posted. -/
def Step.Enabled (s : System) : Step → Prop
  | .plugin op => op.Enabled s.plugin
  | .prolog id _ reservation _ _ _ => id ∉ s.served ∧ s.plugin.Tells id reservation
  | .epilog id _ reservation _ _ => s.plugin.Tells id reservation
  | .clean _ _ => True

def CxilDev.hasId (dev : CxilDev) (svcId : Nat) : Bool := dev.svcs.any fun desc => desc.svcId = svcId

/-- The services that were not there before are the job's. -/
def mark (id : BitVec 64) (before after : List CxilDev) (maker : Nat → Nat → Option (BitVec 64)) :
    Nat → Nat → Option (BitVec 64) := fun i svcId =>
  if after[i]?.any (·.hasId svcId) && !before[i]?.any (·.hasId svcId) then some id else maker i svcId

section System
variable (X : Externals) (users : BitVec 64 → BitVec 32)

def Step.next (s : System) : Step → System
  | .plugin op => {s with plugin := op.next X s.plugin}
  | .prolog id dryRun reservation rank rLite calls =>
    let args : PrologArgs := {uid := some (users id), dryRun, reservation, rank, rLite}
    let devs := (cmdProlog args calls s.devs).2
    {s with devs := devs, maker := mark id s.devs devs s.maker, served := id :: s.served}
  | .epilog id dryRun reservation retryBusy rounds =>
    let args : EpilogArgs := {uid := some (users id), dryRun, reservation, retryBusy}
    {s with devs := (cmdEpilog args rounds s.devs).2}
  | .clean args rounds => {s with devs := (cmdClean X args rounds s.devs).2}

def slingshotMachine (boot : List CxilDev) : Machine System Step := ⟨{devs := boot}, Step.Enabled, Step.next X users⟩

/-- A configuration adds no VNI to the universe that a job still holds. -/
def Step.Uncontested (s : System) : Step → Prop
  | .plugin (.confUpdate (.ok conf)) =>
    Slingshot.Uncontested X s.plugin.ctx.vnipool (.configure (conf.vniPool.getD vniPoolDefault))
  | _ => True

end System

/-! ### What is promised -/

/-- The services that a node has at the start list no VNI that can be reserved. -/
def Booted (boot : List CxilDev) : Prop := ∀ dev ∈ boot, ∀ desc ∈ dev.svcs, desc.isSystemSvc = false →
  ∀ v ∈ validVnis, (v : Int) ∉ Shell.listed desc

/-- The VNIs of an event. -/
def Context.ints (context : Context) : List Int := context.vnis.map Int.ofNat

/-- The services on a node of the jobs that run. -/
structure OwnServices (users : BitVec 64 → BitVec 32) (s : System) : Prop where
  /-- What the shell looks for is what was made for the job, if no service with a VNI of the job is
  left of another one. -/
  found : ∀ id ∈ s.plugin.ran, id ∉ s.plugin.cleaned → ∀ context ∈ s.plugin.posted id, context.vnis ≠ [] →
    ∀ i dev, s.devs[i]? = some dev →
      (∀ desc ∈ dev.svcs, ∀ v ∈ Shell.listed desc, v ∈ context.ints →
        ∀ id', s.maker i desc.svcId = some id' → id' ∉ s.plugin.cleaned) →
      ∀ driver : Shell.Driver, Shell.findService driver context.ints dev =
        dev.svcs.find? fun desc =>
          decide (s.maker i desc.svcId = some id) && (driver dev.info.devId desc.svcId).enable
  /-- A job has one service at most on a device, for its user and VNIs. -/
  own : ∀ i dev, s.devs[i]? = some dev → ∀ desc ∈ dev.svcs, ∀ id, s.maker i desc.svcId = some id →
    (∃ context ∈ s.plugin.posted id, matchReservation (users id) context.ints desc = true) ∧
      ∀ desc' ∈ dev.svcs, s.maker i desc'.svcId = some id → desc' = desc
  /-- Services of two jobs that have a VNI in common are not both of jobs that run. -/
  apart : ∀ i dev, s.devs[i]? = some dev → ∀ desc ∈ dev.svcs, ∀ desc' ∈ dev.svcs, ∀ id id',
    s.maker i desc.svcId = some id → s.maker i desc'.svcId = some id' → id ≠ id' →
      ∀ v ∈ Shell.listed desc, v ∈ Shell.listed desc' → id ∈ s.plugin.cleaned ∨ id' ∈ s.plugin.cleaned

/-! ### The plugin's part -/

section Plugin
variable {X : Externals} {s : Plugin} {op : PluginOp}

/-- What was posted stays posted. -/
theorem mem_posted_next {id : BitVec 64} {context : Context} (h : context ∈ s.posted id) :
    context ∈ (op.next X s).posted id := by
  cases op with
  | run pick post id' options jerror =>
    show context ∈ (s.calls ++ [_]).filterMap (Call.posts id)
    rw [List.filterMap_append]
    exact List.mem_append_left _ h
  | _ => exact h

/-- A job that enters RUN leaves the pool alone, reserves, or reserves and releases. -/
theorem jobStateRunCb_pool (pick : Pick) (post : Post) (ctx : CraySlingshot) (id : BitVec 64)
    (options : Except String (Option ShellOptions)) (jerror : String) :
    (jobStateRunCb X pick post ctx id options jerror).1.vnipool = ctx.vnipool ∨ ∃ vnicount : Int,
      (jobStateRunCb X pick post ctx id options jerror).1.vnipool =
          (vnipoolReserve X {} pick ctx.vnipool id.toNat vnicount).1 ∨
        (jobStateRunCb X pick post ctx id options jerror).1.vnipool =
          (vnipoolRelease X (vnipoolReserve X {} pick ctx.vnipool id.toNat vnicount).1 id.toNat).1 := by
  unfold jobStateRunCb
  cases options with
  | error text => exact .inl rfl
  | ok options =>
    dsimp only
    cases shellRequest options with
    | off => exact .inl rfl
    | malformed => exact .inl rfl
    | count n =>
      dsimp only
      generalize (if n = -1 then ctx.vnisPerJob else n) = vnicount
      by_cases hcount : vnicount = 0
      · rw [if_pos hcount]
        exact .inl rfl
      rw [if_neg hcount]
      refine .inr ⟨vnicount, ?_⟩
      cases hr : vnipoolReserve X {} pick ctx.vnipool id.toNat vnicount with
      | mk vp result =>
        cases result with
        | error e => exact .inl rfl
        | ok vnis =>
          cases post with
          | posted => exact .inl rfl
          | _ => exact .inr rfl

theorem isolated_plugin (h : Isolated s.ctx.vnipool) (hu : Step.Uncontested X {plugin := s, devs := []} (.plugin op)) :
    Isolated (op.next X s).ctx.vnipool := by
  cases op with
  | confUpdate conf =>
    show Isolated (confUpdateCb X s.ctx conf).1.vnipool
    unfold confUpdateCb
    cases conf with
    | error text => exact h
    | ok conf =>
      dsimp only
      split
      · exact h
      · exact (isolated_configure_iff X _ _ h).mpr hu
  | run pick post id options jerror =>
    show Isolated (jobStateRunCb X pick post s.ctx id options jerror).1.vnipool
    obtain hsame | ⟨vnicount, hreserve | hrelease⟩ := jobStateRunCb_pool (X := X) pick post s.ctx id options jerror
    · rw [hsame]
      exact h
    · rw [hreserve]
      exact isolated_reserve X _ _ _ _ _ h
    · rw [hrelease]
      exact isolated_release X _ _ (isolated_reserve X _ _ _ _ _ h)
  | cleanup id =>
    show Isolated (jobStateCleanupCb X s.ctx (some id)).1.vnipool
    have hpool : (jobStateCleanupCb X s.ctx (some id)).1.vnipool = (vnipoolRelease X s.ctx.vnipool id.toNat).1 := by
      unfold jobStateCleanupCb
      dsimp only
      split <;> rename_i hr <;> rw [hr]
    rw [hpool]
    exact isolated_release X _ _ h

/-- The VNIs in the event of a job that runs are reserved for it. -/
theorem Consistent.granted (h : Consistent X s) {id : BitVec 64} (hran : id ∈ s.ran) (hcleaned : id ∉ s.cleaned)
    {context : Context} (hc : context ∈ s.posted id) (hne : context.vnis ≠ []) :
    s.reservation X id = some context.vnis ∧ s.posted id = [context] ∧ context.vnis.length ≤ cxiSvcMaxVnis ∧
      ∀ v ∈ context.vnis, v ∈ validVnis := by
  cases h.running id hran hcleaned with
  | silent hr hp => simp [hp] at hc
  | empty emptyReason hr hp =>
    rw [hp, List.mem_singleton] at hc
    subst hc
    exact absurd rfl hne
  | granted hr hp _ hlength _ hvalid =>
    rw [hp, List.mem_singleton] at hc
    subst hc
    exact ⟨hr, hp, hlength, hvalid⟩

/-- Jobs that run and have a VNI in common are one job. -/
theorem Consistent.same_job (hX : DistinctIds X) (h : Consistent X s) (hi : Isolated s.ctx.vnipool)
    {id id' : BitVec 64} {context context' : Context} (hran : id ∈ s.ran) (hcleaned : id ∉ s.cleaned)
    (hc : context ∈ s.posted id) (hran' : id' ∈ s.ran) (hcleaned' : id' ∉ s.cleaned) (hc' : context' ∈ s.posted id')
    {v : Nat} (hv : v ∈ context.vnis) (hv' : v ∈ context'.vnis) : id = id' := by
  obtain ⟨hr, -⟩ := h.granted hran hcleaned hc (List.ne_nil_of_mem hv)
  obtain ⟨hr', -⟩ := h.granted hran' hcleaned' hc' (List.ne_nil_of_mem hv')
  exact hX (hi.apart _ _ v ⟨_, hr, hv⟩ ⟨_, hr', hv'⟩)

theorem Consistent.ran_of_posted (h : Consistent X s) {id : BitVec 64} {context : Context}
    (hc : context ∈ s.posted id) : id ∈ s.ran := by
  by_contra hnot
  rw [h.unposted id hnot] at hc
  cases hc

end Plugin

/-! ### The node's part -/

/-- Whether it is the service that was there at the start, or made for which job. -/
inductive Origin (users : BitVec 64 → BitVec 32) (boot : List CxilDev) (s : System) (i : Nat) (dev : CxilDev)
    (desc : CxiSvcDesc) : Prop
  | boot {bootDev : CxilDev} (hmaker : s.maker i desc.svcId = none) (hdev : bootDev ∈ boot)
    (hdesc : desc ∈ bootDev.svcs)
  | made {id : BitVec 64} {context : Context} (job : Job) (hmaker : s.maker i desc.svcId = some id)
    (hserved : id ∈ s.served) (hposted : context ∈ s.plugin.posted id) (huid : job.uid = users id)
    (hvnis : job.vnis = context.ints) (hdesc : {desc with svcId := 0} = job.desc dev.info)

structure Kept (X : Externals) (users : BitVec 64 → BitVec 32) (boot : List CxilDev) (s : System) : Prop where
  consistent : Consistent X s.plugin
  isolated : Isolated s.plugin.ctx.vnipool
  origin : ∀ i dev, s.devs[i]? = some dev → ∀ desc ∈ dev.svcs, Origin users boot s i dev desc
  single : ∀ i dev, s.devs[i]? = some dev → ∀ desc ∈ dev.svcs, ∀ desc' ∈ dev.svcs, ∀ id,
    s.maker i desc.svcId = some id → s.maker i desc'.svcId = some id → desc' = desc

section Node
variable {X : Externals} {users : BitVec 64 → BitVec 32} {boot devs devs' : List CxilDev} {s : System}

/-- The VNIs of a job's service, as they are listed. -/
theorem listed_desc (job : Job) {info : DevInfo} {desc : CxiSvcDesc} (h : {desc with svcId := 0} = job.desc info) :
    Shell.listed desc = job.vnis := by
  have hlisted : Shell.listed desc = Shell.listed (job.desc info) := by rw [← h]; rfl
  have hroom : (job.desc info).vnis.toList.length = cxiSvcMaxVnis := by simp
  have hlength := job.length_le
  rw [hlisted]
  refine List.ext_getElem ?_ fun i hi hi' => ?_
  · show (((job.desc info).vnis.toList.take job.vnis.length).map fun vni => (vni.toNat : Int)).length = _
    rw [List.length_map, List.length_take, hroom]
    omega
  · have hentry := vnis_serviceDesc job info hi'
    rw [List.getD_eq_getElem _ _ (by omega), List.getD_eq_getElem _ _ hi'] at hentry
    rw [← hentry]
    simp [Shell.listed, Job.desc, serviceDesc]

theorem matchReservation_made (job : Job) {info : DevInfo} {desc : CxiSvcDesc}
    (h : {desc with svcId := 0} = job.desc info) : matchReservation job.uid job.vnis desc = true := by
  have hsame : matchReservation job.uid job.vnis desc = matchReservation job.uid job.vnis (job.desc info) := by
    rw [← h]
    rfl
  rw [hsame]
  exact (matchReservation_desc job info job.uid job.vnis).mpr ⟨rfl, rfl⟩

/-- A device after a destroying command is one before it, with fewer services. -/
theorem getElem?_of_allShrunk {matchfun : CxiSvcDesc → Bool} (h : AllShrunk matchfun devs devs') {i : Nat}
    {dev' : CxilDev} (hdev : devs'[i]? = some dev') :
    ∃ dev, devs[i]? = some dev ∧ dev'.info = dev.info ∧ ∀ desc ∈ dev'.svcs, desc ∈ dev.svcs := by
  induction h generalizing i with
  | nil => simp at hdev
  | cons hone _ ih =>
    cases i with
    | zero =>
      obtain rfl := Option.some.inj hdev
      exact ⟨_, rfl, hone.info, fun desc hdesc => hone.sublist.subset hdesc⟩
    | succ i => exact ih hdev

theorem cmdEpilog_shrunk (args : EpilogArgs) (rounds : List Round) (devs : List CxilDev) :
    ∃ matchfun, AllShrunk matchfun devs (cmdEpilog args rounds devs).2 := by
  unfold cmdEpilog
  repeat' split
  all_goals first
    | exact ⟨fun _ => false, .refl devs⟩
    | exact ⟨_, retryLoop_shrunk _ devs⟩

theorem cmdClean_shrunk (args : CleanArgs) (rounds : List Round) (devs : List CxilDev) :
    ∃ matchfun, AllShrunk matchfun devs (cmdClean X args rounds devs).2 := by
  unfold cmdClean
  repeat' split
  all_goals first
    | exact ⟨fun _ => false, .refl devs⟩
    | exact ⟨_, retryLoop_shrunk _ devs⟩

theorem parseReservationVnis_some {entries : List Slingshot.Entry} {vnis : VnisField}
    (h : parseReservationVnis (some (.array entries)) = some vnis) :
    vnis = .array entries ∧ entries.length ≤ cxiSvcMaxVnis ∧ entries.all Entry.isVni = true := by
  unfold parseReservationVnis at h
  dsimp only at h
  split at h
  · cases h
  · rename_i hlength
    split at h
    · exact ⟨(Option.some.inj h).symm, Nat.le_of_not_lt hlength, ‹_›⟩
    · cases h

/-- The VNIs of an event, as the reader of the event takes them, are those of a job. -/
theorem exists_job {context : Context} {vnis : VnisField} (h : parseReservationVnis (some context.field) = some vnis)
    (hne : vnis.entries.length ≠ 0) (uid : BitVec 32) (ncores : Nat) :
    vnis.entries.map Entry.value = context.ints ∧
      ∃ job : Job, job.uid = uid ∧ job.vnis = context.ints ∧ job.ncores = ncores := by
  obtain ⟨rfl, hlength, hvalid⟩ := parseReservationVnis_some h
  simp only [VnisField.entries, List.length_map] at hne hlength
  refine ⟨by simp [VnisField.entries, Context.ints, Entry.value], ?_⟩
  refine ⟨⟨uid, context.ints, ncores, ?_, ?_, ?_⟩, rfl, rfl, rfl⟩
  · exact List.ne_nil_of_length_pos (by simpa [Context.ints] using Nat.pos_of_ne_zero hne)
  · simpa [Context.ints] using hlength
  · intro v hv
    exact List.all_eq_true.mp hvalid (.integer v) (List.mem_map_of_mem hv)

/-- A prolog that finds the event of its job makes services of the job, on the devices that it can. -/
theorem cmdProlog_grown (args : PrologArgs) (c : Libcxi) (devs : List CxilDev) {uid : BitVec 32} {s : Plugin}
    {id : BitVec 64} (huid : args.uid = some uid) (htells : s.Tells id args.reservation) :
    (cmdProlog args c devs).2 = devs ∨ ∃ (job : Job), ∃ context ∈ s.posted id, job.uid = uid ∧
      job.vnis = context.ints ∧ List.Forall₂ (Grown c job.desc) devs (cmdProlog args c devs).2 := by
  unfold cmdProlog
  split
  · exact .inl rfl
  · rw [huid]
    dsimp only
    split
    · exact .inl rfl
    · cases hres : args.reservation with
      | fatal => exact .inl rfl
      | absent => exact .inl rfl
      | found res =>
        rw [hres] at htells
        obtain ⟨context, hposted, rfl⟩ := htells
        dsimp only
        split
        · exact .inl rfl
        · rename_i vnis hparse
          split
          · exact .inl rfl
          · rename_i hne
            split
            · exact .inl rfl
            · rename_i ncores _
              obtain ⟨hentries, job, hjob, hvnis, hncores⟩ := exists_job hparse hne uid ncores
              have hgrown := allocateCxiService_grown (c := c) args.dryRun uid context.ints ncores devs
              rw [← hjob, ← hvnis, ← hncores] at hgrown
              refine .inr ⟨job, context, hposted, hjob, hvnis, ?_⟩
              rw [hentries, ← hjob, ← hvnis, ← hncores]
              split <;> rename_i heq <;> rw [heq] at hgrown <;> exact hgrown

/-- A device after a prolog has what it had, and the new service is marked as the job's. -/
theorem getElem?_of_grown {c : Libcxi} {desc : DevInfo → CxiSvcDesc} (h : List.Forall₂ (Grown c desc) devs devs')
    {i : Nat} {dev' : CxilDev} (hdev : devs'[i]? = some dev') : ∃ dev, devs[i]? = some dev ∧ Grown c desc dev dev' := by
  induction h generalizing i with
  | nil => simp at hdev
  | cons hone _ ih =>
    cases i with
    | zero =>
      obtain rfl := Option.some.inj hdev
      exact ⟨_, rfl, hone⟩
    | succ i => exact ih hdev

theorem mark_old {id : BitVec 64} {maker : Nat → Nat → Option (BitVec 64)} {i : Nat} {dev : CxilDev}
    (hdev : devs[i]? = some dev) {desc : CxiSvcDesc} (hdesc : desc ∈ dev.svcs) :
    mark id devs devs' maker i desc.svcId = maker i desc.svcId := by
  have hthere : dev.hasId desc.svcId = true := List.any_eq_true.mpr ⟨desc, hdesc, by simp⟩
  simp [mark, hdev, hthere]

theorem mark_new {id : BitVec 64} {maker : Nat → Nat → Option (BitVec 64)} {i : Nat} {dev dev' : CxilDev}
    (hdev : devs[i]? = some dev) (hdev' : devs'[i]? = some dev') {desc : CxiSvcDesc} (hdesc : desc ∈ dev'.svcs)
    (hnew : desc.svcId ∉ dev.svcs.map CxiSvcDesc.svcId) : mark id devs devs' maker i desc.svcId = some id := by
  have hthere : dev'.hasId desc.svcId = true := List.any_eq_true.mpr ⟨desc, hdesc, by simp⟩
  have hbefore : dev.hasId desc.svcId = false := by
    rw [← Bool.not_eq_true]
    intro h
    obtain ⟨d, hd, hid⟩ := List.any_eq_true.mp h
    exact hnew (decide_eq_true_iff.mp hid ▸ List.mem_map_of_mem hd)
  simp [mark, hdev, hdev', hthere, hbefore]

theorem Origin.mono {s' : System} {i : Nat} {dev dev' : CxilDev} {desc : CxiSvcDesc}
    (h : Origin users boot s i dev desc) (hmaker : s'.maker i desc.svcId = s.maker i desc.svcId)
    (hserved : ∀ id ∈ s.served, id ∈ s'.served)
    (hposted : ∀ id, ∀ context ∈ s.plugin.posted id, context ∈ s'.plugin.posted id) (hinfo : dev'.info = dev.info) :
    Origin users boot s' i dev' desc := by
  cases h with
  | boot hm hdev hdesc => exact .boot (hmaker.trans hm) hdev hdesc
  | made job hm hs hp huid hvnis hdesc =>
    exact .made job (hmaker.trans hm) (hserved _ hs) (hposted _ _ hp) huid hvnis (by rw [hinfo]; exact hdesc)

theorem Origin.served {i : Nat} {dev : CxilDev} {desc : CxiSvcDesc} (h : Origin users boot s i dev desc)
    {id : BitVec 64} (hm : s.maker i desc.svcId = some id) : id ∈ s.served := by
  cases h with
  | boot hnone => simp [hnone] at hm
  | made job hmaker hserved =>
    rw [hmaker] at hm
    exact Option.some.inj hm ▸ hserved

/-! ### What a step keeps -/

/-- A step that takes services away. -/
theorem Kept.shrunk (h : Kept X users boot s) {matchfun : CxiSvcDesc → Bool}
    (hshrunk : AllShrunk matchfun s.devs devs') : Kept X users boot {s with devs := devs'} where
  consistent := h.consistent
  isolated := h.isolated
  origin := fun i dev' hdev' desc hdesc => by
    obtain ⟨dev, hdev, hinfo, hsub⟩ := getElem?_of_allShrunk hshrunk hdev'
    exact (h.origin i dev hdev desc (hsub desc hdesc)).mono rfl (fun _ h => h) (fun _ _ h => h) hinfo
  single := fun i dev' hdev' desc hdesc desc' hdesc' => by
    obtain ⟨dev, hdev, -, hsub⟩ := getElem?_of_allShrunk hshrunk hdev'
    exact h.single i dev hdev desc (hsub desc hdesc) desc' (hsub desc' hdesc')

/-- What is on a device after the prolog of a job is old, or the one service of the job. -/
theorem grown_cases (id : BitVec 64) (maker : Nat → Nat → Option (BitVec 64)) {c : Libcxi} {job : Job} {i : Nat}
    {dev' : CxilDev} (hgrown : List.Forall₂ (Grown c job.desc) devs devs')
    (hdev' : devs'[i]? = some dev') : ∃ dev new, devs[i]? = some dev ∧ dev'.info = dev.info ∧
      (∀ desc ∈ dev'.svcs, (desc ∈ dev.svcs ∧ mark id devs devs' maker i desc.svcId = maker i desc.svcId) ∨
        (desc = new ∧ mark id devs devs' maker i desc.svcId = some id ∧
          {desc with svcId := 0} = job.desc dev.info)) := by
  obtain ⟨dev, hdev, rfl | rfl⟩ := getElem?_of_grown hgrown hdev'
  · exact ⟨_, {}, hdev, rfl, fun desc hdesc => .inl ⟨hdesc, mark_old hdev hdesc⟩⟩
  · refine ⟨dev, {job.desc dev.info with svcId := c.freshId dev.info.devId (dev.svcs.map CxiSvcDesc.svcId)}, hdev, rfl,
      fun desc hdesc => ?_⟩
    rcases List.mem_append.mp hdesc with hold | hnew
    · exact .inl ⟨hold, mark_old hdev hold⟩
    · obtain rfl := List.mem_singleton.mp hnew
      exact .inr ⟨rfl, mark_new hdev hdev' hdesc (c.fresh _ _), rfl⟩

theorem Kept.prolog (h : Kept X users boot s) {id : BitVec 64} (hid : id ∉ s.served) {c : Libcxi} {job : Job}
    {context : Context} (hposted : context ∈ s.plugin.posted id) (huid : job.uid = users id)
    (hvnis : job.vnis = context.ints) (hgrown : List.Forall₂ (Grown c job.desc) s.devs devs') :
    Kept X users boot {s with devs := devs', maker := mark id s.devs devs' s.maker, served := id :: s.served} where
  consistent := h.consistent
  isolated := h.isolated
  origin := fun i dev' hdev' desc hdesc => by
    obtain ⟨dev, new, hdev, hinfo, hcases⟩ := grown_cases id s.maker hgrown hdev'
    obtain ⟨hold, hmark⟩ | ⟨-, hmark, hdesc⟩ := hcases desc hdesc
    · exact (h.origin i dev hdev desc hold).mono hmark (fun _ h => List.mem_cons_of_mem id h) (fun _ _ h => h) hinfo
    · exact .made job hmark List.mem_cons_self hposted huid hvnis (by rw [hinfo]; exact hdesc)
  single := fun i dev' hdev' desc hdesc desc' hdesc' id' hm hm' => by
    obtain ⟨dev, new, hdev, -, hcases⟩ := grown_cases id s.maker hgrown hdev'
    -- an old service is not the job's
    have hnot {d : CxiSvcDesc} (hd : d ∈ dev.svcs) : s.maker i d.svcId ≠ some id := fun hmaker =>
      hid ((h.origin i dev hdev d hd).served hmaker)
    obtain ⟨hold, hmark⟩ | ⟨rfl, hmark, -⟩ := hcases desc hdesc <;>
      obtain ⟨hold', hmark'⟩ | ⟨rfl, hmark', -⟩ := hcases desc' hdesc'
    · exact h.single i dev hdev desc hold desc' hold' id' (hmark.symm.trans hm) (hmark'.symm.trans hm')
    · obtain rfl := Option.some.inj (hmark'.symm.trans hm')
      exact absurd (hmark.symm.trans hm) (hnot hold)
    · obtain rfl := Option.some.inj (hmark.symm.trans hm)
      exact absurd (hmark'.symm.trans hm') (hnot hold')
    · rfl

theorem mark_same (id : BitVec 64) (maker : Nat → Nat → Option (BitVec 64)) : mark id devs devs maker = maker := by
  funext i svcId
  simp [mark]

theorem kept_step (hX : DistinctIds X) {step : Step} (h : Kept X users boot s) (he : step.Enabled s)
    (hu : step.Uncontested X s) : Kept X users boot (step.next X users s) := by
  cases step with
  | plugin op =>
    refine ⟨consistent_step hX h.consistent he, ?_, fun i dev hdev desc hdesc => ?_, h.single⟩
    · refine isolated_plugin h.isolated ?_
      cases op with
      | confUpdate conf => cases conf <;> exact hu
      | _ => trivial
    · exact (h.origin i dev hdev desc hdesc).mono rfl (fun _ h => h) (fun _ _ h => mem_posted_next h) rfl
  | prolog id dryRun reservation rank rLite calls =>
    obtain ⟨hid, htells⟩ := he
    obtain hsame | ⟨job, context, hposted, huid, hvnis, hgrown⟩ :=
      cmdProlog_grown {uid := some (users id), dryRun, reservation, rank, rLite} calls s.devs rfl htells
    · show Kept X users boot {s with devs := (cmdProlog _ _ _).2, maker := mark _ _ (cmdProlog _ _ _).2 _, served := _}
      rw [hsame, mark_same]
      refine ⟨h.consistent, h.isolated, fun i dev hdev desc hdesc => ?_, h.single⟩
      exact (h.origin i dev hdev desc hdesc).mono rfl (fun _ h => List.mem_cons_of_mem id h) (fun _ _ h => h) rfl
    · exact h.prolog hid hposted huid hvnis hgrown
  | epilog id dryRun reservation retryBusy rounds =>
    obtain ⟨matchfun, hshrunk⟩ :=
      cmdEpilog_shrunk {uid := some (users id), dryRun, reservation, retryBusy} rounds s.devs
    exact h.shrunk hshrunk
  | clean args rounds =>
    obtain ⟨matchfun, hshrunk⟩ := cmdClean_shrunk (X := X) args rounds s.devs
    exact h.shrunk hshrunk

/-! ### What is found -/

/-- The services that have the VNIs of a job that runs. -/
theorem Kept.made_for (hX : DistinctIds X) (h : Kept X users boot s) (hboot : Booted boot) {id : BitVec 64}
    (hran : id ∈ s.plugin.ran) (hcleaned : id ∉ s.plugin.cleaned) {context : Context}
    (hc : context ∈ s.plugin.posted id) (hne : context.vnis ≠ []) {i : Nat} {dev : CxilDev}
    (hdev : s.devs[i]? = some dev) {desc : CxiSvcDesc} (hdesc : desc ∈ dev.svcs) (hsystem : desc.isSystemSvc = false)
    (hlisted : Shell.listed desc = context.ints) :
    ∃ id', s.maker i desc.svcId = some id' ∧ (id' = id ∨ id' ∈ s.plugin.cleaned) := by
  obtain ⟨v, hv⟩ := List.exists_mem_of_ne_nil _ hne
  cases h.origin i dev hdev desc hdesc with
  | boot hm hbootDev hbootDesc =>
    have hvalid := (h.consistent.granted hran hcleaned hc hne).2.2.2 v hv
    refine absurd ?_ (hboot _ hbootDev desc hbootDesc hsystem v hvalid)
    rw [hlisted]
    exact List.mem_map_of_mem hv
  | @made id' context' job hm hserved hposted huid hvnis hd =>
    refine ⟨id', hm, ?_⟩
    by_cases hclean : id' ∈ s.plugin.cleaned
    · exact .inr hclean
    · have hints : context'.ints = context.ints := by rw [← hvnis, ← listed_desc job hd, hlisted]
      have hv' : v ∈ context'.vnis := by
        have hmem : Int.ofNat v ∈ context'.ints := hints ▸ List.mem_map_of_mem hv
        obtain ⟨w, hw, heq⟩ := List.mem_map.mp hmem
        exact Int.ofNat.inj heq ▸ hw
      exact .inl (h.consistent.same_job hX h.isolated (h.consistent.ran_of_posted hposted) hclean hposted hran hcleaned
        hc hv' hv)

/-- A service that was made for a job with the event. -/
theorem Kept.made (h : Kept X users boot s) {i : Nat} {dev : CxilDev} (hdev : s.devs[i]? = some dev)
    {desc : CxiSvcDesc} (hdesc : desc ∈ dev.svcs) {id : BitVec 64} (hm : s.maker i desc.svcId = some id) :
    ∃ (job : Job), ∃ context ∈ s.plugin.posted id, job.uid = users id ∧ job.vnis = context.ints ∧
      {desc with svcId := 0} = job.desc dev.info := by
  cases h.origin i dev hdev desc hdesc with
  | boot hnone => simp [hnone] at hm
  | made job hmaker _ hposted huid hvnis hd =>
    obtain rfl := Option.some.inj (hmaker.symm.trans hm)
    exact ⟨job, _, hposted, huid, hvnis, hd⟩

theorem Kept.ownServices (hX : DistinctIds X) (h : Kept X users boot s) (hboot : Booted boot) :
    OwnServices users s where
  found := by
    intro id hran hcleaned context hc hne i dev hdev hleft driver
    obtain ⟨-, hposted, hlength, -⟩ := h.consistent.granted hran hcleaned hc hne
    have hroom : context.ints.length ≤ cxiSvcMaxVnis := by simpa [Context.ints] using hlength
    have hints : context.ints ≠ [] := fun hnil => hne (List.map_eq_nil_iff.mp hnil)
    obtain ⟨v, hv⟩ := List.exists_mem_of_ne_nil _ hints
    unfold Shell.findService
    refine List.find?_congr fun desc hdesc => ?_
    rw [Bool.eq_iff_iff, Bool.and_eq_true, decide_eq_true_eq, Shell.matchCxiService_iff hroom]
    constructor
    · rintro ⟨henable, hsystem, -, hlisted⟩
      obtain ⟨id', hm, rfl | hclean⟩ := h.made_for hX hboot hran hcleaned hc hne hdev hdesc hsystem hlisted
      · exact ⟨hm, henable⟩
      · exact absurd hclean (hleft desc hdesc v (hlisted ▸ hv) hv id' hm)
    · rintro ⟨hm, henable⟩
      obtain ⟨job, context', hposted', -, hvnis, hd⟩ := h.made hdev hdesc hm
      rw [hposted, List.mem_singleton] at hposted'
      subst hposted'
      have hsystem : desc.isSystemSvc = (job.desc dev.info).isSystemSvc := by rw [← hd]
      have hnum : desc.numVldVnis = (job.desc dev.info).numVldVnis := by rw [← hd]
      exact ⟨henable, hsystem, hnum.trans (congrArg List.length hvnis), (listed_desc job hd).trans hvnis⟩
  own := by
    intro i dev hdev desc hdesc id hm
    obtain ⟨job, context, hposted, huid, hvnis, hd⟩ := h.made hdev hdesc hm
    refine ⟨⟨context, hposted, ?_⟩, fun desc' hdesc' hm' => h.single i dev hdev desc hdesc desc' hdesc' id hm hm'⟩
    rw [← huid, ← hvnis]
    exact matchReservation_made job hd
  apart := by
    intro i dev hdev desc hdesc desc' hdesc' id id' hm hm' hne v hv hv'
    by_contra hrunning
    rw [not_or] at hrunning
    obtain ⟨job, context, hposted, -, hvnis, hd⟩ := h.made hdev hdesc hm
    obtain ⟨job', context', hposted', -, hvnis', hd'⟩ := h.made hdev hdesc' hm'
    rw [listed_desc job hd, hvnis] at hv
    rw [listed_desc job' hd', hvnis'] at hv'
    obtain ⟨w, hw, rfl⟩ := List.mem_map.mp hv
    obtain ⟨w', hw', heq⟩ := List.mem_map.mp hv'
    obtain rfl := Int.ofNat.inj heq
    exact hne (h.consistent.same_job hX h.isolated (h.consistent.ran_of_posted hposted) hrunning.1 hposted
      (h.consistent.ran_of_posted hposted') hrunning.2 hposted' hw hw')

theorem kept_boot (boot : List CxilDev) : Kept X users boot {devs := boot} where
  consistent := .init
  isolated := isolated_create
  origin := fun _ _ hdev _ hdesc => .boot rfl (List.mem_of_getElem? hdev) hdesc
  single := fun _ _ _ _ _ _ _ _ hm => by
    have hnone : (none : Option (BitVec 64)) = some _ := hm
    cases hnone

/-- **The VNIs are enough**: on a node, in every order of the steps of the job manager, the prologs,
the epilogs and the cleaning, the shell of a running job finds the job's own services, as long as
none with a VNI of the job is left of a job that has released it. -/
theorem own_services (X : Externals) (hX : DistinctIds X) (users : BitVec 64 → BitVec 32) (boot : List CxilDev)
    (hboot : Booted boot) (steps : List Step)
    (hlegal : (slingshotMachine X users boot).Legal (Step.Uncontested X) (slingshotMachine X users boot).init steps) :
    (slingshotMachine X users boot).Always (OwnServices users) (slingshotMachine X users boot).init steps :=
  Machine.always_from (Kept X users boot) (fun _ h => h.ownServices hX hboot)
    (fun _ _ h he hu => kept_step hX h he hu) (kept_boot boot) hlegal

end Node

/-! ### A job from its reservation to its epilog -/

def lowPool : Vnipool := ⟨some {2, 3}, some {2, 3}, .empty⟩

/-- A configuration of the pool alone, whose other values are the defaults. -/
theorem confUpdate_pool {X : Externals} {s : Plugin} {vniPool : String} {vp : Vnipool}
    (h : (poolMachine X).next s.ctx.vnipool (.configure vniPool) = vp) :
    PluginOp.next X s (.confUpdate (.ok {vniPool := some vniPool})) =
      {s with ctx := {vnipool := vp, vnisPerJob := 1, vniReserveFatal := true}} := by
  subst h
  rfl

def reservedPool : Vnipool := ⟨some {2, 3}, some {3}, Dict.empty.set (rfcExternals.idf58 8) [2]⟩

theorem reserve_low : vnipoolReserve rfcExternals {} lowest lowPool 8 1 = (reservedPool, .ok [2]) := by
  have halloc : vnipoolAllocArray {} lowest lowPool (1 : Int).toNat = (⟨some {2, 3}, some {3}, .empty⟩, some [2]) := rfl
  unfold vnipoolReserve
  rw [halloc]
  rfl

theorem run_reserved : PluginOp.next rfcExternals
    {ctx := {vnipool := lowPool, vnisPerJob := 1, vniReserveFatal := true}} (.run lowest .posted 8 (.ok none) "") =
    {ctx := {vnipool := reservedPool, vnisPerJob := 1, vniReserveFatal := true}, ran := [8]
     calls := [.eventPost 8 {vnis := [2]}]} := by
  simp [PluginOp.next, jobStateRunCb, shellRequest, reserve_low, postEvent]

/-- The prolog of the job makes its services, and after its cleanup the epilog destroys them. -/
def servedJob : List Step :=
  [.plugin (.confUpdate (.ok {vniPool := some "2-3"})), .plugin (.run lowest .posted 8 (.ok none) ""),
    .prolog 8 false (.found (some (Context.mk [2] none).field)) 0 (some [some ({0}, {0, 1})]) nextLibcxi,
    .plugin (.cleanup 8), .epilog 8 false (.found (some (Context.mk [2] none).field)) none [destroying none]]

theorem servedJob_own : (slingshotMachine rfcExternals (fun _ => 1001) twoDevices).Always
    (OwnServices fun _ => 1001) (slingshotMachine rfcExternals (fun _ => 1001) twoDevices).init servedJob := by
  have hempty : ∀ dev ∈ twoDevices, ∀ desc ∈ dev.svcs, desc.isSystemSvc = false → Shell.listed desc = [] := by decide
  have hboot : Booted twoDevices := fun dev hdev desc hdesc hsystem v _ hmem => by
    rw [hempty dev hdev desc hdesc hsystem] at hmem
    cases hmem
  have hconf : (poolMachine rfcExternals).next vnipoolCreate (.configure "2-3") = lowPool := by
    rw [apply_configure vnipoolCreate {2, 3} decode_low (by decide) (by decide)]
    rfl
  refine own_services rfcExternals rfcExternals_distinctIds (fun _ => 1001) twoDevices hboot servedJob ?_
  refine Machine.Legal.step trivial (uncontested_create rfcExternals (.configure "2-3"))
    (congrArg (fun plugin => System.mk plugin twoDevices (fun _ _ => none) []) (confUpdate_pool (s := {}) hconf)) ?_
  refine Machine.Legal.step ⟨nofun, nofun⟩ trivial
    (congrArg (fun plugin => System.mk plugin twoDevices (fun _ _ => none) []) run_reserved) ?_
  have hposted : Context.mk [2] none ∈ [Call.eventPost 8 {vnis := [2]}].filterMap (Call.posts 8) := by decide
  exact ⟨⟨nofun, _, hposted, rfl⟩, trivial, trivial, trivial, ⟨_, hposted, rfl⟩, trivial, trivial⟩

end FluxCoral2.Slingshot
