import Mathlib.Data.List.Perm.Basic
import Mathlib.Order.Nat
import FluxCoral2.Library.Dict
import FluxCoral2.Library.Prog

/-! The capacities of the rabbits in the mapping file (`flux-rabbitmapping.py`).

The SystemConfiguration says which rabbits there are. A pass over the Storage resources gives
the rabbits with computes their capacities, with the maximum so far for one that is zero, and
a second pass gives what is missing the maximum. `capacities_right_iff`: the capacities are
those of the Storages, or else the maximum, in every order of the list, exactly if all Storages
have an access, none with computes reports zero while another reports more, and the maximum is
right for the rabbits that are left to the second pass. -/
namespace FluxCoral2.Rabbitmapping
open Library

/-- A storage node of a SystemConfiguration. -/
structure StorageNode where
  name : String
  computesAccess : List String
  deriving DecidableEq

/-- The status of a Storage; `access` is the list of computes in it, empty if there is none. -/
structure Status where
  access : Option (List String)
  capacity : Nat := 0
  deriving DecidableEq

/-- A Storage resource. One of a rabbit that has not booted yet may lack its status. -/
structure Storage where
  name : String
  status : Option Status
  deriving DecidableEq

/-- `nnf["status"]["access"]`, which raises a KeyError if one of them is missing. -/
def Storage.access (nnf : Storage) : Option (List String) := nnf.status.bind Status.access

def Storage.computes (nnf : Storage) : List String := nnf.access.getD []

/-- `nnf.get("status", {}).get("capacity", 0)`. -/
def Storage.capacity (nnf : Storage) : Nat := (nnf.status.map Status.capacity).getD 0

/-- The capacity of each rabbit, once there is one. The hostlists of the rabbits are left out. -/
structure RabbitMapping where
  computes : Dict String String
  rabbits : Dict String (Option Nat)

inductive Error | runtimeError | keyError

/-! ### The passes -/

def initializeFromSystemconfig (storageNodes : List StorageNode) : RabbitMapping :=
  storageNodes.foldl (fun mapping nnf =>
    { computes := mapping.computes.setAll nnf.computesAccess nnf.name
      rabbits := mapping.rabbits.set nnf.name none }) ⟨.empty, .empty⟩

/-- The loop over the computes of a Storage. -/
def populateFromStorage (nnf : Storage) : List String → RabbitMapping × Nat → Except Error (RabbitMapping × Nat)
  | [], acc => .ok acc
  | computeName :: rest, (mapping, maxCapacity) =>
    if mapping.computes.get? computeName ≠ some nnf.name then .error .runtimeError
    else
      let maxCapacity := max nnf.capacity maxCapacity
      let capacity := if nnf.capacity = 0 then maxCapacity else nnf.capacity
      match mapping.rabbits.get? nnf.name with
      | none => .error .keyError
      | some _ =>
        populateFromStorage nnf rest
          ({mapping with rabbits := mapping.rabbits.set nnf.name (some capacity)}, maxCapacity)

def populateFromStorages : List Storage → RabbitMapping × Nat → Except Error (RabbitMapping × Nat)
  | [], acc => .ok acc
  | nnf :: rest, acc =>
    match nnf.access with
    | none => .error .keyError
    | some computes => do
      let acc ← populateFromStorage nnf computes acc
      populateFromStorages rest acc

/-- The loop of `main` over the SystemConfiguration. -/
def fillIn (maxCapacity : Nat) : List StorageNode → RabbitMapping → Except Error RabbitMapping
  | [], mapping => .ok mapping
  | nnf :: rest, mapping =>
    match mapping.rabbits.get? nnf.name with
    | none => .error .keyError
    | some none => fillIn maxCapacity rest {mapping with rabbits := mapping.rabbits.set nnf.name (some maxCapacity)}
    | some (some _) => fillIn maxCapacity rest mapping

/-- `main`, up to the external allocations. -/
def rabbitMapping (storageNodes : List StorageNode) (storages : List Storage) : Except Error RabbitMapping := do
  let (mapping, maxCapacity) ← populateFromStorages storages (initializeFromSystemconfig storageNodes, 0)
  fillIn maxCapacity storageNodes mapping

/-! ### What the capacities are to be -/

/-- The maximum capacity that is reported. -/
def reported (storages : List Storage) : Nat := (storages.map Storage.capacity).foldr max 0

/-- The capacity a rabbit is to have. -/
def capacityOf (storages : List Storage) (rabbit : String) : Nat :=
  match storages.find? fun nnf => nnf.name = rabbit with
  | some nnf => if 0 < nnf.capacity then nnf.capacity else reported storages
  | none => reported storages

/-- Each rabbit has one Storage at most, whose computes are those of the SystemConfiguration. -/
structure Consistent (storageNodes : List StorageNode) (storages : List Storage) : Prop where
  distinct : (storages.map Storage.name).Nodup
  computes : ∀ nnf ∈ storages, ∀ compute ∈ nnf.computes,
    (initializeFromSystemconfig storageNodes).computes.get? compute = some nnf.name

/-- Every Storage has an access. -/
def Accessible (storages : List Storage) : Prop := ∀ nnf ∈ storages, nnf.access.isSome = true

/-- In every order of the list each rabbit has the capacity it is to have. -/
def CapacitiesRight (storageNodes : List StorageNode) (storages : List Storage) : Prop :=
  ∀ order : List Storage, order.Perm storages → ∃ mapping, rabbitMapping storageNodes order = .ok mapping ∧
    ∀ nnf ∈ storageNodes, mapping.rabbits.get? nnf.name = some (some (capacityOf storages nnf.name))

/-- The Storages that have computes. -/
def connected (storages : List Storage) : List Storage := storages.filter fun nnf => nnf.computes ≠ []

theorem connected_cons_of_nil {nnf : Storage} (h : nnf.computes = []) (rest : List Storage) :
    connected (nnf :: rest) = connected rest := List.filter_cons_of_neg (by simp [h])

theorem connected_cons_of_ne_nil {nnf : Storage} (h : nnf.computes ≠ []) (rest : List Storage) :
    connected (nnf :: rest) = nnf :: connected rest := List.filter_cons_of_pos (by simpa using h)

/-! ### The first pass -/

/-- What a Storage with computes gives its rabbit. -/
def Storage.given (nnf : Storage) (maxCapacity : Nat) : Nat :=
  if nnf.capacity = 0 then max nnf.capacity maxCapacity else nnf.capacity

/-- What the pass gives a rabbit, from a maximum on. -/
def assigned (rabbit : String) : Nat → List Storage → Option Nat
  | _, [] => none
  | maxCapacity, nnf :: rest =>
    if nnf.computes = [] then assigned rabbit maxCapacity rest
    else if nnf.name = rabbit then some (nnf.given maxCapacity)
    else assigned rabbit (max nnf.capacity maxCapacity) rest

section Passes
variable {storageNodes : List StorageNode} {mapping : RabbitMapping} {maxCapacity : Nat}

/-- All computes of a Storage say the same. -/
theorem populateFromStorage_ok (maxCapacity : Nat) {nnf : Storage} {compute : String} {rest : List String}
    (hcomputes : ∀ c ∈ compute :: rest, mapping.computes.get? c = some nnf.name)
    (hrabbit : (mapping.rabbits.get? nnf.name).isSome = true) :
    ∃ rabbits, populateFromStorage nnf (compute :: rest) (mapping, maxCapacity) =
        .ok ({mapping with rabbits := rabbits}, max nnf.capacity maxCapacity) ∧
      ∀ r, rabbits.get? r = if r = nnf.name then some (some (nnf.given maxCapacity)) else mapping.rabbits.get? r := by
  obtain ⟨old, hold⟩ := Option.isSome_iff_exists.mp hrabbit
  induction rest generalizing compute mapping maxCapacity old with
  | nil =>
    rw [populateFromStorage, if_neg (by simp [hcomputes]), hold]
    exact ⟨_, rfl, fun r => Dict.get?_set _ _ _ _⟩
  | cons next rest ih =>
    obtain ⟨hfirst, hrest⟩ := List.forall_mem_cons.mp hcomputes
    rw [populateFromStorage, if_neg (by simp [hfirst]), hold]
    have hset := Dict.get?_set_self mapping.rabbits nnf.name (some (nnf.given maxCapacity))
    let given : RabbitMapping := {mapping with rabbits := mapping.rabbits.set nnf.name (some (nnf.given maxCapacity))}
    have hcomputes : ∀ c ∈ next :: rest, given.computes.get? c = some nnf.name := hrest
    have hrabbit : (given.rabbits.get? nnf.name).isSome = true := by
      rw [hset]
      rfl
    obtain ⟨rabbits, hpopulate, hget⟩ := ih (max nnf.capacity maxCapacity) hcomputes hrabbit _ hset
    have hmax : max nnf.capacity (max nnf.capacity maxCapacity) = max nnf.capacity maxCapacity :=
      Nat.max_eq_right (Nat.le_max_left _ _)
    have hgiven : nnf.given (max nnf.capacity maxCapacity) = nnf.given maxCapacity := by
      rw [Storage.given, hmax]
      rfl
    rw [hmax] at hpopulate
    refine ⟨rabbits, hpopulate, fun r => ?_⟩
    rw [hget r, hgiven, Dict.get?_set]
    split <;> rfl

theorem assigned_eq_none {rabbit : String} {storages : List Storage}
    (h : ∀ nnf ∈ connected storages, nnf.name ≠ rabbit) (maxCapacity : Nat) :
    assigned rabbit maxCapacity storages = none := by
  induction storages generalizing maxCapacity with
  | nil => rfl
  | cons nnf rest ih =>
    rw [assigned]
    by_cases hc : nnf.computes = []
    · rw [if_pos hc]
      exact ih (connected_cons_of_nil hc rest ▸ h) maxCapacity
    · rw [connected_cons_of_ne_nil hc, List.forall_mem_cons] at h
      rw [if_neg hc, if_neg h.1]
      exact ih h.2 _

theorem access_eq {nnf : Storage} (h : nnf.access.isSome = true) : nnf.access = some nnf.computes := by
  obtain ⟨computes, hcomputes⟩ := Option.isSome_iff_exists.mp h
  rw [Storage.computes, hcomputes]
  rfl

/-- The pass ends at a Storage without an access. -/
theorem accessible_of_ok {storages : List Storage} {acc acc' : RabbitMapping × Nat}
    (h : populateFromStorages storages acc = .ok acc') : Accessible storages := by
  induction storages generalizing acc with
  | nil => exact nofun
  | cons nnf rest ih =>
    rw [populateFromStorages] at h
    cases haccess : nnf.access with
    | none =>
      rw [haccess] at h
      cases h
    | some computes =>
      rw [haccess] at h
      obtain ⟨next, -, h⟩ := Prog.bind_ok h
      exact List.forall_mem_cons.mpr ⟨by rw [haccess]; rfl, ih h⟩

theorem populateFromStorages_ok (maxCapacity : Nat) {storages : List Storage} (haccess : Accessible storages)
    (hdistinct : (storages.map Storage.name).Nodup)
    (hcomputes : ∀ nnf ∈ storages, ∀ c ∈ nnf.computes, mapping.computes.get? c = some nnf.name)
    (hrabbits : ∀ nnf ∈ connected storages, (mapping.rabbits.get? nnf.name).isSome = true) :
    ∃ rabbits, populateFromStorages storages (mapping, maxCapacity) =
        .ok ({mapping with rabbits := rabbits}, max (reported (connected storages)) maxCapacity) ∧
      ∀ r, rabbits.get? r = (mapping.rabbits.get? r).map fun old => (assigned r maxCapacity storages).or old := by
  induction storages generalizing mapping maxCapacity with
  | nil =>
    refine ⟨mapping.rabbits, ?_, fun r => ?_⟩
    · rw [populateFromStorages, show reported (connected []) = 0 from rfl, Nat.zero_max]
    · simp [assigned]
  | cons nnf rest ih =>
    obtain ⟨hnew, hdistinct⟩ := List.nodup_cons.mp hdistinct
    obtain ⟨hfirst, hrest⟩ := List.forall_mem_cons.mp hcomputes
    obtain ⟨hnnf, haccess⟩ := List.forall_mem_cons.mp haccess
    rw [populateFromStorages, access_eq hnnf]
    cases hc : nnf.computes with
    | nil =>
      rw [connected_cons_of_nil hc] at hrabbits ⊢
      obtain ⟨rabbits, hpopulate, hget⟩ := ih maxCapacity haccess hdistinct hrest hrabbits
      refine ⟨rabbits, hpopulate, fun r => ?_⟩
      rw [hget r, assigned, if_pos hc]
    | cons compute others =>
      have hne : nnf.computes ≠ [] := by simp [hc]
      rw [connected_cons_of_ne_nil hne, List.forall_mem_cons] at hrabbits
      rw [hc] at hfirst
      obtain ⟨rabbits, hstorage, hset⟩ := populateFromStorage_ok maxCapacity hfirst hrabbits.1
      have hold : ∀ s ∈ connected rest, (rabbits.get? s.name).isSome = true := by
        intro s hs
        rw [hset]
        split
        · rfl
        · exact hrabbits.2 s hs
      let populated : RabbitMapping := {mapping with rabbits := rabbits}
      have hcomputes : ∀ s ∈ rest, ∀ c ∈ s.computes, populated.computes.get? c = some s.name := hrest
      obtain ⟨rabbits', hpopulate, hget⟩ := ih (max nnf.capacity maxCapacity) haccess hdistinct hcomputes hold
      refine ⟨rabbits', ?_, fun r => ?_⟩
      · have hreported : max (reported (nnf :: connected rest)) maxCapacity =
            max (reported (connected rest)) (max nnf.capacity maxCapacity) := by
          show max (max nnf.capacity (reported (connected rest))) maxCapacity = _
          omega
        rw [connected_cons_of_ne_nil hne, hreported]
        dsimp only
        rw [hstorage]
        exact hpopulate
      · rw [hget r, assigned, if_neg hne]
        show Option.map _ (rabbits.get? r) = _
        rw [hset]
        by_cases hr : r = nnf.name
        · subst hr
          have hnone : assigned nnf.name (max nnf.capacity maxCapacity) rest = none :=
            assigned_eq_none (fun s hs hname => hnew (List.mem_map.mpr ⟨s, (List.mem_filter.mp hs).1, hname⟩)) _
          obtain ⟨old, hsome⟩ := Option.isSome_iff_exists.mp hrabbits.1
          rw [if_pos rfl, if_pos rfl, hnone, hsome]
          rfl
        · rw [if_neg hr, if_neg (Ne.symm hr)]

/-- The names of the storage nodes. -/
def names (storageNodes : List StorageNode) : List String := storageNodes.map StorageNode.name

theorem fillIn_ok (maxCapacity : Nat) (h : ∀ nnf ∈ storageNodes, (mapping.rabbits.get? nnf.name).isSome = true) :
    ∃ filled, fillIn maxCapacity storageNodes mapping = .ok filled ∧ ∀ r, filled.rabbits.get? r =
      if r ∈ names storageNodes then (mapping.rabbits.get? r).map fun old => some (old.getD maxCapacity)
      else mapping.rabbits.get? r := by
  induction storageNodes generalizing mapping with
  | nil => exact ⟨mapping, rfl, fun r => rfl⟩
  | cons nnf rest ih =>
    obtain ⟨hfirst, hrest⟩ := List.forall_mem_cons.mp h
    obtain ⟨old, hold⟩ := Option.isSome_iff_exists.mp hfirst
    rw [fillIn, hold]
    cases old with
    | some capacity =>
      obtain ⟨filled, hfill, hget⟩ := ih hrest
      refine ⟨filled, hfill, fun r => ?_⟩
      rw [hget r]
      by_cases hr : r = nnf.name
      · subst hr
        simp [names, hold]
      · simp [names, hr]
    | none =>
      have hset : ∀ r, (mapping.rabbits.set nnf.name (some maxCapacity)).get? r =
          if r = nnf.name then some (some maxCapacity) else mapping.rabbits.get? r := fun r => Dict.get?_set _ _ _ _
      let given : RabbitMapping := {mapping with rabbits := mapping.rabbits.set nnf.name (some maxCapacity)}
      have hgiven : ∀ s ∈ rest, (given.rabbits.get? s.name).isSome = true := by
        intro s hs
        rw [hset]
        split
        · rfl
        · exact hrest s hs
      obtain ⟨filled, hfill, hget⟩ := ih hgiven
      refine ⟨filled, hfill, fun r => ?_⟩
      rw [hget r]
      show (if _ then Option.map _ (Dict.get? _ _) else Dict.get? _ _) = _
      rw [hset]
      by_cases hr : r = nnf.name
      · subst hr
        simp [names, hold]
      · simp [names, hr]

theorem initialize_get (storageNodes : List StorageNode) (mapping : RabbitMapping) :
    let initialized := storageNodes.foldl (fun mapping nnf =>
      { computes := mapping.computes.setAll nnf.computesAccess nnf.name
        rabbits := mapping.rabbits.set nnf.name none : RabbitMapping }) mapping
    (∀ r, initialized.rabbits.get? r = if r ∈ names storageNodes then some none else mapping.rabbits.get? r) ∧
      ∀ compute rabbit, initialized.computes.get? compute = some rabbit →
        rabbit ∈ names storageNodes ∨ mapping.computes.get? compute = some rabbit := by
  induction storageNodes generalizing mapping with
  | nil => exact ⟨fun r => rfl, fun _ _ => .inr⟩
  | cons nnf rest ih =>
    obtain ⟨hrabbits, hcomputes⟩ := ih
      ⟨mapping.computes.setAll nnf.computesAccess nnf.name, mapping.rabbits.set nnf.name none⟩
    refine ⟨fun r => (hrabbits r).trans ?_, fun compute rabbit h => ?_⟩
    · show (if _ then _ else Dict.get? _ _) = _
      rw [Dict.get?_set]
      by_cases hr : r = nnf.name <;> simp [names, hr]
    · rcases hcomputes compute rabbit h with hmem | hget
      · exact .inl (List.mem_cons_of_mem _ hmem)
      · rw [Dict.get?_setAll] at hget
        split at hget
        · exact .inl (Option.some.inj hget ▸ List.mem_cons_self)
        · exact .inr hget

/-- A Storage with computes is that of a storage node. -/
theorem name_of_connected {storages : List Storage} (h : Consistent storageNodes storages) {nnf : Storage}
    (hnnf : nnf ∈ connected storages) : nnf.name ∈ names storageNodes := by
  obtain ⟨hmem, hne⟩ := List.mem_filter.mp hnnf
  obtain ⟨compute, rest, hc⟩ := List.exists_cons_of_ne_nil (of_decide_eq_true hne)
  have hget := h.computes nnf hmem compute (hc ▸ List.mem_cons_self)
  exact ((initialize_get storageNodes ⟨.empty, .empty⟩).2 compute nnf.name hget).resolve_right nofun

/-- What both passes give a rabbit. -/
def capacityAfter (storages : List Storage) (rabbit : String) : Nat :=
  (assigned rabbit 0 storages).getD (reported (connected storages))

theorem rabbitMapping_ok {storages : List Storage} (h : Consistent storageNodes storages)
    (haccess : Accessible storages) :
    ∃ mapping, rabbitMapping storageNodes storages = .ok mapping ∧ ∀ nnf ∈ storageNodes,
      mapping.rabbits.get? nnf.name = some (some (capacityAfter storages nnf.name)) := by
  have hrabbits : ∀ r ∈ names storageNodes, (initializeFromSystemconfig storageNodes).rabbits.get? r = some none :=
    fun r hr => ((initialize_get storageNodes ⟨.empty, .empty⟩).1 r).trans (if_pos hr)
  obtain ⟨rabbits, hpopulate, hget⟩ := populateFromStorages_ok 0 haccess h.distinct h.computes
    fun nnf hnnf => by rw [hrabbits _ (name_of_connected h hnnf)]; rfl
  have hpopulated : ∀ r ∈ names storageNodes, rabbits.get? r = some (assigned r 0 storages) := by
    intro r hr
    rw [hget, hrabbits r hr, Option.map_some, Option.or_none]
  rw [Nat.max_zero] at hpopulate
  let populated : RabbitMapping := {initializeFromSystemconfig storageNodes with rabbits := rabbits}
  have hsome : ∀ nnf ∈ storageNodes, (populated.rabbits.get? nnf.name).isSome = true := by
    intro nnf hnnf
    rw [hpopulated _ (List.mem_map_of_mem hnnf)]
    rfl
  obtain ⟨mapping, hfill, hfilled⟩ := fillIn_ok (reported (connected storages)) hsome
  refine ⟨mapping, ?_, fun nnf hnnf => ?_⟩
  · rw [rabbitMapping, hpopulate]
    exact hfill
  · have hmem : nnf.name ∈ names storageNodes := List.mem_map_of_mem hnnf
    rw [hfilled, if_pos hmem]
    show Option.map _ (Dict.get? _ _) = _
    rw [hpopulated _ hmem]
    rfl

end Passes

/-! ### The order of the Storages -/

section Order
variable {storageNodes : List StorageNode} {storages order : List Storage} {nnf : Storage}

theorem reported_perm (h : order.Perm storages) : reported order = reported storages :=
  (h.map Storage.capacity).foldr_eq 0

theorem find_name (hdistinct : (storages.map Storage.name).Nodup) (h : nnf ∈ storages) :
    (storages.find? fun s => s.name = nnf.name) = some nnf := by
  induction storages with
  | nil => cases h
  | cons first rest ih =>
    obtain ⟨hnew, hdistinct⟩ := List.nodup_cons.mp hdistinct
    rcases List.mem_cons.mp h with rfl | h
    · exact List.find?_cons_of_pos (by simp)
    · have hne : first.name ≠ nnf.name := fun heq => hnew (heq ▸ List.mem_map_of_mem h)
      rw [List.find?_cons_of_neg (by simpa using hne)]
      exact ih hdistinct h

/-- A Storage with computes gives its own capacity, or the maximum up to it. -/
theorem assigned_of_mem (hdistinct : (storages.map Storage.name).Nodup) (h : nnf ∈ connected storages)
    (maxCapacity : Nat) : ∃ m ≤ max maxCapacity (reported storages),
      assigned nnf.name maxCapacity storages = some (nnf.given m) := by
  induction storages generalizing maxCapacity with
  | nil => cases h
  | cons first rest ih =>
    obtain ⟨hnew, hdistinct⟩ := List.nodup_cons.mp hdistinct
    rw [assigned]
    by_cases hc : first.computes = []
    · rw [connected_cons_of_nil hc] at h
      obtain ⟨m, hm, hassigned⟩ := ih hdistinct h maxCapacity
      rw [if_pos hc]
      refine ⟨m, hm.trans ?_, hassigned⟩
      show _ ≤ max maxCapacity (max first.capacity (reported rest))
      omega
    · rw [connected_cons_of_ne_nil hc] at h
      rw [if_neg hc]
      rcases List.mem_cons.mp h with rfl | h
      · rw [if_pos rfl]
        exact ⟨maxCapacity, Nat.le_max_left _ _, rfl⟩
      · have hne : first.name ≠ nnf.name := fun heq =>
          hnew (heq ▸ List.mem_map_of_mem (List.mem_filter.mp h).1)
        obtain ⟨m, hm, hassigned⟩ := ih hdistinct h (max first.capacity maxCapacity)
        rw [if_neg hne]
        refine ⟨m, hm.trans ?_, hassigned⟩
        show _ ≤ max maxCapacity (max first.capacity (reported rest))
        omega

theorem Consistent.perm (h : Consistent storageNodes storages) (hp : order.Perm storages) :
    Consistent storageNodes order :=
  ⟨(hp.map Storage.name).nodup_iff.mpr h.distinct, fun nnf hnnf => h.computes nnf (hp.mem_iff.mp hnnf)⟩

theorem Accessible.perm (h : Accessible storages) (hp : order.Perm storages) : Accessible order :=
  fun nnf hnnf => h nnf (hp.mem_iff.mp hnnf)

theorem CapacitiesRight.accessible (h : CapacitiesRight storageNodes storages) : Accessible storages := by
  obtain ⟨mapping, hmapping, -⟩ := h storages (.refl _)
  obtain ⟨acc, hpopulate, -⟩ := Prog.bind_ok hmapping
  exact accessible_of_ok hpopulate

theorem capacitiesRight_iff (h : Consistent storageNodes storages) (haccess : Accessible storages) :
    CapacitiesRight storageNodes storages ↔ ∀ order : List Storage, order.Perm storages →
      ∀ nnf ∈ storageNodes, capacityAfter order nnf.name = capacityOf storages nnf.name := by
  refine forall₂_congr fun order hp => ?_
  obtain ⟨mapping, hmapping, hget⟩ := rabbitMapping_ok (h.perm hp) (haccess.perm hp)
  constructor
  · rintro ⟨mapping', hmapping', hright⟩ nnf hnnf
    rw [hmapping] at hmapping'
    have hsome := (hget nnf hnnf).symm.trans (Except.ok.inj hmapping' ▸ hright nnf hnnf)
    exact Option.some.inj (Option.some.inj hsome)
  · intro hright
    exact ⟨mapping, hmapping, fun nnf hnnf => (hget nnf hnnf).trans (by rw [hright nnf hnnf])⟩

/-! ### The result -/

/-- A Storage with computes that reports zero is one of Storages that all do. -/
def ZeroIsAll (storages : List Storage) : Prop :=
  ∀ nnf ∈ connected storages, nnf.capacity = 0 → reported storages = 0

/-- For each rabbit without a Storage that has computes, the maximum of those that have some is
the capacity that it is to have. -/
def FilledRight (storageNodes : List StorageNode) (storages : List Storage) : Prop :=
  ∀ nnf ∈ storageNodes, (∀ s ∈ connected storages, s.name ≠ nnf.name) →
    reported (connected storages) = capacityOf storages nnf.name

/-- **The capacities are right in every order** exactly if all Storages have an access, none is
asked for the maximum before it is known, and the second pass has the right one. -/
theorem capacities_right_iff (h : Consistent storageNodes storages) :
    CapacitiesRight storageNodes storages ↔
      Accessible storages ∧ ZeroIsAll storages ∧ FilledRight storageNodes storages := by
  suffices hiff : Accessible storages → (CapacitiesRight storageNodes storages ↔
      ZeroIsAll storages ∧ FilledRight storageNodes storages) from
    ⟨fun hright => ⟨hright.accessible, (hiff hright.accessible).mp hright⟩, fun hall => (hiff hall.1).mpr hall.2⟩
  intro haccess
  rw [capacitiesRight_iff h haccess]
  constructor
  · intro hright
    refine ⟨fun nnf hnnf hzero => ?_, fun nnf hnnf hnone => ?_⟩
    · -- the Storage is listed first
      obtain ⟨hmem, hne⟩ := List.mem_filter.mp hnnf
      obtain ⟨node, hnode, hname⟩ := List.mem_map.mp (name_of_connected h hnnf)
      have hcapacity := hright (nnf :: storages.erase nnf) (List.perm_cons_erase hmem).symm node hnode
      rw [hname, capacityAfter, assigned, if_neg (of_decide_eq_true hne), if_pos rfl, capacityOf,
        find_name h.distinct hmem] at hcapacity
      simpa [Storage.given, hzero] using hcapacity.symm
    · have hcapacity := hright storages (.refl _) nnf hnnf
      rwa [capacityAfter, assigned_eq_none hnone] at hcapacity
  · rintro ⟨hzero, hfilled⟩ order hp node hnode
    have hconnected := hp.filter fun nnf => nnf.computes ≠ []
    by_cases hnone : ∀ nnf ∈ connected storages, nnf.name ≠ node.name
    · have hnone' : ∀ nnf ∈ connected order, nnf.name ≠ node.name := fun nnf hnnf =>
        hnone nnf (hconnected.mem_iff.mp hnnf)
      rw [capacityAfter, assigned_eq_none hnone']
      exact (reported_perm hconnected).trans (hfilled node hnode hnone)
    · push Not at hnone
      obtain ⟨nnf, hnnf, hname⟩ := hnone
      obtain ⟨m, hm, hassigned⟩ := assigned_of_mem (h.perm hp).distinct (hconnected.mem_iff.mpr hnnf) 0
      rw [← hname, capacityAfter, hassigned, capacityOf, find_name h.distinct (List.mem_filter.mp hnnf).1]
      show nnf.given m = if 0 < nnf.capacity then nnf.capacity else reported storages
      rw [reported_perm hp] at hm
      rw [Storage.given]
      by_cases hz : nnf.capacity = 0
      · have hall := hzero nnf hnnf hz
        rw [if_pos hz, if_neg (by omega)]
        omega
      · rw [if_neg hz, if_pos (Nat.pos_of_ne_zero hz)]

end Order

def twoRabbits : List StorageNode := [⟨"rabbit1", ["node1"]⟩, ⟨"rabbit2", ["node2"]⟩]

/-- A rabbit that reports zero is listed before the one that does not. -/
def zeroFirst : List Storage :=
  [⟨"rabbit1", some ⟨some ["node1"], 0⟩⟩, ⟨"rabbit2", some ⟨some ["node2"], 5⟩⟩]

theorem zeroFirst_wrong : Consistent twoRabbits zeroFirst ∧ ¬ CapacitiesRight twoRabbits zeroFirst := by
  refine ⟨⟨by decide, by decide⟩, fun h => ?_⟩
  obtain ⟨mapping, hmapping, hright⟩ := h zeroFirst (.refl _)
  have hzero : (rabbitMapping twoRabbits zeroFirst).toOption.map (fun m => m.rabbits.get? "rabbit1") =
      some (some (some 0)) := by decide
  rw [hmapping] at hzero
  have hcapacity := (hright ⟨"rabbit1", ["node1"]⟩ (by decide)).symm.trans (Option.some.inj hzero)
  exact absurd hcapacity (by decide)

def bothReport : List Storage :=
  [⟨"rabbit1", some ⟨some ["node1"], 4⟩⟩, ⟨"rabbit2", some ⟨some ["node2"], 5⟩⟩]

theorem bothReport_right : CapacitiesRight twoRabbits bothReport :=
  (capacities_right_iff ⟨by decide, by decide⟩).mpr
    ⟨by unfold Accessible; decide, by unfold ZeroIsAll; decide, by unfold FilledRight; decide⟩

/-- No mapping is written while a rabbit has no status. -/
example : (rabbitMapping twoRabbits [⟨"rabbit1", some ⟨some ["node1"], 4⟩⟩, ⟨"rabbit2", none⟩]).toOption = none := by
  decide

end FluxCoral2.Rabbitmapping
