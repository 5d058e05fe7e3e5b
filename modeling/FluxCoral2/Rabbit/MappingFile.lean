import FluxCoral2.Library.Prog
import FluxCoral2.Rabbit.Mapping
import FluxCoral2.Rabbit.Storage

/-! The mapping file as it is written (`flux-rabbitmapping.py`).

Beside the capacities (`Mapping.lean`) the file has the rabbit of each compute, and a hostlist
of the computes of each rabbit, in text. What others than jobs have allocated is taken off the
capacities (`capacities_written`). -/
namespace FluxCoral2.Rabbitmapping
open Library

/-! ### Writing the file -/

/-- The hostlist package with `encode`: what it makes of decoded hosts reads back as them. -/
structure HostlistCodec extends Rabbit.HostlistPackage where
  encode : List String → String
  decode_encode : ∀ names hosts, Rabbit.hostlist toHostlistPackage names = some hosts →
    decode (encode (uniq hosts)) = some (uniq hosts)

variable (codec : HostlistCodec)

/-- The hosts of a list of names. -/
abbrev HostlistCodec.hosts (names : List String) : Option (List String) :=
  Rabbit.hostlist codec.toHostlistPackage names

/-- The entries of the rabbits are in two tables: `rabbits` has the capacities. -/
structure MappingFile extends RabbitMapping where
  hostlists : Dict String String

/-- The hostlists of `initialize_from_systemconfig`. -/
def initializeHostlists : List StorageNode → Dict String String → Option (Dict String String)
  | [], hostlists => some hostlists
  | nnf :: rest, hostlists => do
    let hlist ← codec.hosts nnf.computesAccess
    initializeHostlists rest (hostlists.set nnf.name (codec.encode (codec.uniq hlist)))

structure StorageAllocation where
  name : String
  allocationCount : Nat := 1

structure AllocationSet where
  allocationSize : Nat := 0
  storage : List StorageAllocation := []

/-- A Servers resource, with what its spec has of allocations. -/
structure Servers where
  name : String
  allocationSets : List AllocationSet := []

/-- `WorkflowInfo.is_recognized`. -/
def isRecognized (name : String) : Bool := "fluxjob-".toList.isPrefixOf name.toList

/-- The first loop of `reduce_capacity_by_servers`. -/
def allocatedBy (servers : List Servers) : Dict String Nat :=
  servers.foldl (fun allocated server =>
    if isRecognized server.name then allocated
    else server.allocationSets.foldl (fun allocated allocSet =>
      allocSet.storage.foldl (fun allocated storage =>
        allocated.set storage.name
          ((allocated.get? storage.name).getD 0 + allocSet.allocationSize * storage.allocationCount))
        allocated) allocated) .empty

/-- The second loop; a capacity does not get below zero. -/
def reduceCapacityByServers (servers : List Servers) (rabbits : Dict String (Option Nat)) : Dict String (Option Nat) :=
  (allocatedBy servers).entries.foldl (fun rabbits entry =>
    match rabbits.get? entry.1 with
    | some capacity => rabbits.set entry.1 (some (capacity.getD 0 - entry.2))
    | none => rabbits) rabbits

/-- `main`; the servers are those it is to reduce by. -/
def writeMapping (storageNodes : List StorageNode) (storages : List Storage) (servers : Option (List Servers)) :
    Option MappingFile := do
  let hostlists ← initializeHostlists codec storageNodes .empty
  let mapping ← (rabbitMapping storageNodes storages).toOption
  let rabbits := match servers with
    | some servers => reduceCapacityByServers servers mapping.rabbits
    | none => mapping.rabbits
  some {computes := mapping.computes, rabbits := rabbits, hostlists := hostlists}

/-! ### The allocations of others -/

/-- The allocations that are not of workflows of jobs, with their sizes. -/
def allocations (servers : List Servers) : List (String × Nat) :=
  (servers.filter fun server => !isRecognized server.name).flatMap fun server =>
    server.allocationSets.flatMap fun allocSet => allocSet.storage.map fun storage =>
      (storage.name, allocSet.allocationSize * storage.allocationCount)

/-- What these allocations take of a rabbit. -/
def taken (rabbit : String) (allocations : List (String × Nat)) : Nat :=
  allocations.foldr (fun a total => if a.1 = rabbit then a.2 + total else total) 0

/-- One more allocation in the table. -/
def allocate (allocated : Dict String Nat) (a : String × Nat) : Dict String Nat :=
  allocated.set a.1 ((allocated.get? a.1).getD 0 + a.2)

theorem allocatedBy_eq (servers : List Servers) :
    allocatedBy servers = (allocations servers).foldl allocate .empty := by
  unfold allocatedBy
  generalize Dict.empty = allocated
  induction servers generalizing allocated with
  | nil => rfl
  | cons server rest ih =>
    rw [List.foldl_cons, ih]
    unfold allocations
    cases hname : isRecognized server.name with
    | true => rw [List.filter_cons_of_neg (by simp [hname])]; rfl
    | false =>
      rw [List.filter_cons_of_pos (by simp [hname]), List.flatMap_cons, List.foldl_append]
      refine congrArg (fun allocated => List.foldl allocate allocated _) ?_
      rw [if_neg Bool.false_ne_true, List.foldl_flatMap]
      simp only [List.foldl_map]
      rfl

theorem taken_of_notMem {rabbit : String} {l : List (String × Nat)} (h : rabbit ∉ l.map Prod.fst) :
    taken rabbit l = 0 := by
  induction l with
  | nil => rfl
  | cons a rest ih =>
    rw [List.map_cons, List.mem_cons, not_or] at h
    exact (if_neg (Ne.symm h.1)).trans (ih h.2)

theorem get?_allocate (l : List (String × Nat)) (allocated : Dict String Nat) (rabbit : String) :
    (l.foldl allocate allocated).get? rabbit =
      if rabbit ∈ l.map Prod.fst then some ((allocated.get? rabbit).getD 0 + taken rabbit l)
      else allocated.get? rabbit := by
  induction l generalizing allocated with
  | nil => rfl
  | cons a rest ih =>
    rw [List.foldl_cons, ih, allocate, Dict.get?_set]
    by_cases hr : rabbit = a.1
    · subst hr
      by_cases hmem : a.1 ∈ rest.map Prod.fst
      · simp [hmem, taken, Nat.add_assoc]
      · have hrest := taken_of_notMem hmem
        unfold taken at hrest
        simp [hmem, taken, hrest]
    · have htaken : taken rabbit (a :: rest) = taken rabbit rest := if_neg (Ne.symm hr)
      simp only [List.map_cons, List.mem_cons, hr, false_or, if_false, htaken]

/-- The second loop takes from each rabbit what has been allocated of it. -/
theorem get?_reduce {entries : List (String × Nat)} (hn : (entries.map Prod.fst).Nodup)
    (rabbits : Dict String (Option Nat)) (rabbit : String) :
    (entries.foldl (fun rabbits entry =>
      match rabbits.get? entry.1 with
      | some capacity => rabbits.set entry.1 (some (capacity.getD 0 - entry.2))
      | none => rabbits) rabbits).get? rabbit =
      (rabbits.get? rabbit).map fun capacity =>
        match entries.find? fun e => e.1 = rabbit with
        | some e => some (capacity.getD 0 - e.2)
        | none => capacity := by
  induction entries generalizing rabbits with
  | nil => simp
  | cons e rest ih =>
    rw [List.map_cons, List.nodup_cons] at hn
    rw [List.foldl_cons, ih hn.2]
    by_cases hr : e.1 = rabbit
    · subst hr
      have hrest : rest.find? (fun x => x.1 = e.1) = none :=
        List.find?_eq_none.mpr fun x hx hxe => hn.1 ((of_decide_eq_true hxe) ▸ List.mem_map_of_mem hx)
      rw [hrest, List.find?_cons_of_pos (by simp)]
      cases hget : rabbits.get? e.1 with
      | none => simp [hget]
      | some capacity => simp
    · rw [List.find?_cons_of_neg (by simpa using hr)]
      cases rabbits.get? e.1 with
      | none => rfl
      | some capacity => rw [Dict.get?_set_ne _ _ (Ne.symm hr)]

theorem get?_reduceCapacityByServers (servers : List Servers) (rabbits : Dict String (Option Nat)) {rabbit : String}
    {capacity : Nat} (h : rabbits.get? rabbit = some (some capacity)) :
    (reduceCapacityByServers servers rabbits).get? rabbit =
      some (some (capacity - taken rabbit (allocations servers))) := by
  have hget : (allocatedBy servers).get? rabbit = ((allocatedBy servers).entries.find? fun e => e.1 = rabbit).map
      Prod.snd := rfl
  have htotal := get?_allocate (allocations servers) .empty rabbit
  rw [← allocatedBy_eq, hget] at htotal
  rw [reduceCapacityByServers, get?_reduce (allocatedBy servers).nodup, h, Option.map_some]
  cases hfind : (allocatedBy servers).entries.find? fun e => e.1 = rabbit with
  | none =>
    rw [hfind] at htotal
    have hnot : rabbit ∉ (allocations servers).map Prod.fst := by
      intro hmem
      rw [if_pos hmem] at htotal
      cases htotal
    rw [taken_of_notMem hnot]
    rfl
  | some e =>
    rw [hfind] at htotal
    have hmem : rabbit ∈ (allocations servers).map Prod.fst := by
      by_contra hnot
      rw [if_neg hnot] at htotal
      cases htotal
    rw [if_pos hmem, Dict.get?_empty, Option.map_some, Option.getD_none, Nat.zero_add] at htotal
    rw [← Option.some.inj htotal]
    rfl

theorem allocations_perm {servers order : List Servers} (h : order.Perm servers) :
    (allocations order).Perm (allocations servers) := (h.filter _).flatMap_right _

/-- What is taken does not depend on the order. -/
theorem taken_perm (rabbit : String) {l l' : List (String × Nat)} (h : l.Perm l') :
    taken rabbit l = taken rabbit l' := by
  refine h.foldr_eq' (fun a _ b _ total => ?_) 0
  by_cases ha : a.1 = rabbit <;> by_cases hb : b.1 = rabbit <;> simp [ha, hb, Nat.add_left_comm]

/-! ### What is in the file -/

/-- The last storage node that has a compute. -/
def lastRabbit (compute : String) : List StorageNode → Option String
  | [] => none
  | nnf :: rest => (lastRabbit compute rest).or (if compute ∈ nnf.computesAccess then some nnf.name else none)

/-- The storage nodes have names of their own, and so have their computes, which have one rabbit each. -/
structure Plain (storageNodes : List StorageNode) : Prop where
  names : (names storageNodes).Nodup
  rabbit : ∀ nnf ∈ storageNodes, codec.decode nnf.name = some [nnf.name]
  compute : ∀ nnf ∈ storageNodes, ∀ c ∈ nnf.computesAccess, codec.decode c = some [c]
  single : ∀ nnf ∈ storageNodes, ∀ nnf' ∈ storageNodes, ∀ c ∈ nnf.computesAccess, c ∈ nnf'.computesAccess → nnf = nnf'

variable {codec} {storageNodes : List StorageNode}

theorem mem_of_lastRabbit {c r : String} (h : lastRabbit c storageNodes = some r) :
    ∃ nnf ∈ storageNodes, nnf.name = r ∧ c ∈ nnf.computesAccess := by
  induction storageNodes with
  | nil => cases h
  | cons nnf rest ih =>
    rcases Option.or_eq_some_iff.mp h with h | ⟨-, h⟩
    · obtain ⟨nnf', hmem, hspec⟩ := ih h
      exact ⟨nnf', List.mem_cons_of_mem _ hmem, hspec⟩
    · split at h
      · exact ⟨nnf, List.mem_cons_self, Option.some.inj h, ‹_›⟩
      · cases h

theorem lastRabbit_isSome {c : String} {nnf : StorageNode} (hmem : nnf ∈ storageNodes) (hc : c ∈ nnf.computesAccess) :
    (lastRabbit c storageNodes).isSome = true := by
  induction storageNodes with
  | nil => cases hmem
  | cons first rest ih =>
    rw [lastRabbit, Option.isSome_or]
    rcases List.mem_cons.mp hmem with rfl | hmem
    · simp [hc]
    · simp [ih hmem]

theorem get?_initialized (c : String) (mapping : RabbitMapping) :
    (storageNodes.foldl (fun mapping nnf =>
      { computes := mapping.computes.setAll nnf.computesAccess nnf.name
        rabbits := mapping.rabbits.set nnf.name none : RabbitMapping }) mapping).computes.get? c =
      (lastRabbit c storageNodes).or (mapping.computes.get? c) := by
  induction storageNodes generalizing mapping with
  | nil => rfl
  | cons nnf rest ih =>
    rw [List.foldl_cons, ih, Dict.get?_setAll, lastRabbit, Option.or_assoc]
    split <;> rfl

theorem computes_populateFromStorage (nnf : Storage) {computes : List String} {acc acc' : RabbitMapping × Nat}
    (h : populateFromStorage nnf computes acc = .ok acc') : acc'.1.computes = acc.1.computes := by
  induction computes generalizing acc with
  | nil => exact congrArg (fun a => a.1.computes) (Except.ok.inj h).symm
  | cons compute rest ih =>
    unfold populateFromStorage at h
    dsimp only at h
    split at h
    · cases h
    · split at h
      · cases h
      · exact (ih h).trans rfl

theorem computes_populateFromStorages {storages : List Storage} {acc acc' : RabbitMapping × Nat}
    (h : populateFromStorages storages acc = .ok acc') : acc'.1.computes = acc.1.computes := by
  induction storages generalizing acc with
  | nil => exact congrArg (fun a => a.1.computes) (Except.ok.inj h).symm
  | cons nnf rest ih =>
    rw [populateFromStorages] at h
    split at h
    · cases h
    · obtain ⟨next, hnext, h⟩ := Prog.bind_ok h
      exact (ih h).trans (computes_populateFromStorage nnf hnext)

theorem computes_fillIn {maxCapacity : Nat} {mapping mapping' : RabbitMapping}
    (h : fillIn maxCapacity storageNodes mapping = .ok mapping') : mapping'.computes = mapping.computes := by
  induction storageNodes generalizing mapping with
  | nil => exact congrArg RabbitMapping.computes (Except.ok.inj h).symm
  | cons nnf rest ih =>
    unfold fillIn at h
    split at h
    · cases h
    · exact (ih h).trans rfl
    · exact ih h

/-- The passes over the Storages leave the table of the computes alone. -/
theorem computes_rabbitMapping {storages : List Storage} {mapping : RabbitMapping}
    (h : rabbitMapping storageNodes storages = .ok mapping) (c : String) :
    mapping.computes.get? c = lastRabbit c storageNodes := by
  obtain ⟨⟨populated, maxCapacity⟩, hpopulate, hfill⟩ := Prog.bind_ok h
  have hcomputes := (computes_fillIn hfill).trans (computes_populateFromStorages hpopulate)
  rw [hcomputes]
  refine (get?_initialized c _).trans ?_
  rw [Dict.get?_empty, Option.or_none]

theorem hosts_of_plain (h : Plain codec storageNodes) {nnf : StorageNode} (hmem : nnf ∈ storageNodes) :
    codec.hosts nnf.computesAccess = some nnf.computesAccess :=
  Rabbit.hostlist_of_plain (h.compute nnf hmem)

/-- The hostlists can be written. -/
theorem initializeHostlists_isSome (h : Plain codec storageNodes) (hostlists : Dict String String) :
    ∃ hostlists', initializeHostlists codec storageNodes hostlists = some hostlists' := by
  have hall : ∀ nnf ∈ storageNodes, codec.hosts nnf.computesAccess = some nnf.computesAccess :=
    fun nnf hmem => hosts_of_plain h hmem
  clear h
  induction storageNodes generalizing hostlists with
  | nil => exact ⟨hostlists, rfl⟩
  | cons nnf rest ih =>
    rw [initializeHostlists, hall nnf List.mem_cons_self]
    exact ih _ fun nnf' hmem => hall nnf' (List.mem_cons_of_mem _ hmem)

theorem get?_hostlists_of_notMem {hostlists hostlists' : Dict String String} {r : String}
    (h : initializeHostlists codec storageNodes hostlists = some hostlists') (hr : r ∉ names storageNodes) :
    hostlists'.get? r = hostlists.get? r := by
  induction storageNodes generalizing hostlists with
  | nil => rw [Option.some.inj h]
  | cons nnf rest ih =>
    obtain ⟨hlist, -, h⟩ := Option.bind_eq_some_iff.mp h
    rw [names, List.map_cons, List.mem_cons, not_or] at hr
    rw [ih h hr.2, Dict.get?_set_ne _ _ hr.1]

theorem get?_hostlists {hostlists hostlists' : Dict String String} (hnames : (names storageNodes).Nodup)
    (h : initializeHostlists codec storageNodes hostlists = some hostlists') {nnf : StorageNode}
    (hmem : nnf ∈ storageNodes) : ∃ hlist, codec.hosts nnf.computesAccess = some hlist ∧
      hostlists'.get? nnf.name = some (codec.encode (codec.uniq hlist)) := by
  induction storageNodes generalizing hostlists with
  | nil => cases hmem
  | cons first rest ih =>
    obtain ⟨hlist, hhosts, h⟩ := Option.bind_eq_some_iff.mp h
    rw [names, List.map_cons, List.nodup_cons] at hnames
    rcases List.mem_cons.mp hmem with rfl | hmem
    · refine ⟨hlist, hhosts, ?_⟩
      rw [get?_hostlists_of_notMem h hnames.1, Dict.get?_set_self]
    · exact ih hnames.2 h hmem

/-- What the lookups need of the file. -/
structure MappingFile.Of (codec : HostlistCodec) (storageNodes : List StorageNode) (file : MappingFile) : Prop where
  computes : ∀ c, file.computes.get? c = lastRabbit c storageNodes
  hostlists : ∀ nnf ∈ storageNodes, file.hostlists.get? nnf.name = some (codec.encode (codec.uniq nnf.computesAccess))

theorem of_writeMapping (h : Plain codec storageNodes) {storages : List Storage} {servers : Option (List Servers)}
    {file : MappingFile} (hfile : writeMapping codec storageNodes storages servers = some file) :
    file.Of codec storageNodes := by
  obtain ⟨hostlists, hhostlists, hfile⟩ := Option.bind_eq_some_iff.mp hfile
  obtain ⟨mapping, hmapping, hfile⟩ := Option.bind_eq_some_iff.mp hfile
  obtain rfl := Option.some.inj hfile
  refine ⟨fun c => ?_, fun nnf hmem => ?_⟩
  · cases hm : rabbitMapping storageNodes storages with
    | error e =>
      rw [hm] at hmapping
      cases hmapping
    | ok mapping' =>
      rw [hm] at hmapping
      obtain rfl := Option.some.inj hmapping
      exact computes_rabbitMapping hm c
  · obtain ⟨hlist, hhosts, hget⟩ := get?_hostlists h.names hhostlists hmem
    rw [hosts_of_plain h hmem] at hhosts
    obtain rfl := Option.some.inj hhosts
    exact hget

/-- The capacities in the file, in whatever order the Servers are listed: what others have
allocated is taken off. -/
theorem capacities_written (h : Plain codec storageNodes) {storages : List Storage}
    (hc : Consistent storageNodes storages) (haccess : Accessible storages) {servers order : List Servers}
    (hp : order.Perm servers) : ∃ file,
      writeMapping codec storageNodes storages (some order) = some file ∧ ∀ nnf ∈ storageNodes,
        file.rabbits.get? nnf.name =
          some (some (capacityAfter storages nnf.name - taken nnf.name (allocations servers))) := by
  obtain ⟨mapping, hmapping, hcapacity⟩ := rabbitMapping_ok hc haccess
  obtain ⟨hostlists, hhostlists⟩ := initializeHostlists_isSome h .empty
  refine ⟨⟨⟨mapping.computes, reduceCapacityByServers order mapping.rabbits⟩, hostlists⟩, ?_, fun nnf hmem => ?_⟩
  · unfold writeMapping
    rw [hhostlists, hmapping]
    rfl
  · refine (get?_reduceCapacityByServers order mapping.rabbits (hcapacity nnf hmem)).trans ?_
    rw [taken_perm nnf.name (allocations_perm hp)]

/-- A compute has the rabbit of the one storage node that has it. -/
theorem MappingFile.Of.computes_iff (h : Plain codec storageNodes) {file : MappingFile}
    (hfile : file.Of codec storageNodes) (c r : String) :
    file.computes.get? c = some r ↔ ∃ nnf ∈ storageNodes, nnf.name = r ∧ c ∈ nnf.computesAccess := by
  rw [hfile.computes]
  refine ⟨mem_of_lastRabbit, fun ⟨nnf, hmem, hname, hc⟩ => ?_⟩
  obtain ⟨r', hr'⟩ := Option.isSome_iff_exists.mp (lastRabbit_isSome hmem hc)
  obtain ⟨nnf', hmem', hname', hc'⟩ := mem_of_lastRabbit hr'
  rw [hr', ← hname', h.single nnf' hmem' nnf hmem c hc' hc, hname]

end FluxCoral2.Rabbitmapping
