import Mathlib.Data.Finset.Basic
import Mathlib.Order.Interval.Finset.Nat
import FluxCoral2.Library.Machine
import FluxCoral2.Library.Dict

/-! The VNI pool of the cray-slingshot jobtap plugin (`vnipool.c`).

A pool is a universe of configured VNIs, the subset of them that is free, and a
table of reservations by job. `vnipoolConfigure` replaces the universe and
recomputes the free set from the old universe and the old free set;
`vnipoolReserve` takes VNIs out of the free set one at a time and puts them back
if it cannot get them all; `vnipoolRelease` puts back the ones still configured.

Idsets are finite sets. Which member `idset_alloc` hands out is up to libidset, so
every reservation brings its own choice function (`Pick`), and every JSON
allocation it makes may fail (`Malloc`). An array of VNIs is a value: where the source
goes on with one that was freed, it finds nothing in it. -/
namespace FluxCoral2.Slingshot
open Library

abbrev Idset := Finset Nat

/-! ### The libraries below -/

/-- 16-bit values, less 1 and 10, which are reserved for the default CXI service. -/
def vniValidSet : String := "0,2-9,11-65535"

def validVnis : Idset := {0} ∪ Finset.Icc 2 9 ∪ Finset.Icc 11 65535

/-- What the plugin uses of libidset and libflux: decoding an RFC 22 string (or an
error text), the capacity of an idset, and the printed form of a job id. -/
structure Externals where
  decode : String → Except String Idset
  universeSize : Idset → Nat
  idf58 : Nat → String
  lt_universeSize : ∀ s, ∀ v ∈ s, v < universeSize s
  decode_valid : decode vniValidSet = .ok validVnis

/-- The member that `idset_alloc` chooses. -/
structure Pick where
  choose : Idset → Nat
  choose_mem : ∀ s, s.Nonempty → choose s ∈ s

/-- Which JSON allocations of one reservation succeed; the integers and appends by
the round of the loop that makes them. -/
structure Malloc where
  jsonArray : Bool := true
  jsonInteger : Nat → Bool := fun _ => true
  arrayAppend : Nat → Bool := fun _ => true
  objectSet : Bool := true

/-- A null idset has no members. -/
def ids (o : Option Idset) : Idset := o.getD ∅

@[simp] theorem ids_some (s : Idset) : ids (some s) = s := rfl
@[simp] theorem ids_none : ids none = ∅ := rfl

def idsetTest (o : Option Idset) (id : Nat) : Bool := id ∈ ids o

/-- Putting back an id that is already there fails, and changes nothing. -/
def idsetFree (o : Option Idset) (id : Nat) : Option Idset := o.map (insert id)

def idsetAlloc (pick : Pick) (o : Option Idset) : Option (Nat × Idset) :=
  match o with
  | none => none
  | some s => if s = ∅ then none else some (pick.choose s, s.erase (pick.choose s))

theorem idsetAlloc_some {pick : Pick} {o : Option Idset} {vni : Nat} {rest : Idset}
    (h : idsetAlloc pick o = some (vni, rest)) : vni ∈ ids o ∧ rest = (ids o).erase vni := by
  unfold idsetAlloc at h
  split at h
  · cases h
  · split at h
    · cases h
    · rename_i s hs
      cases h
      exact ⟨pick.choose_mem s (Finset.nonempty_iff_ne_empty.mpr hs), rfl⟩

/-! ### The pool -/

inductive Errno | EINVAL | ENOSPC | ENOMEM | ENOENT
  deriving DecidableEq

structure FluxError where
  errno : Errno
  text : String
  deriving DecidableEq

/-- Both idsets are null until the first configuration; `jobs` maps a printed job id
to the VNIs reserved for the job. -/
structure Vnipool where
  universeSet : Option Idset
  pool : Option Idset
  jobs : Dict String (List Nat)

def vnipoolCreate : Vnipool := ⟨none, none, .empty⟩

def isSubsetOf (a b : Idset) : Bool := a ∩ b = a

/-- Put VNIs back in the pool, except those no longer in the universe. -/
def vnipoolFreeArray (vp : Vnipool) (vnis : List Nat) : Vnipool :=
  vnis.foldl (fun vp id =>
    if idsetTest vp.universeSet id then {vp with pool := idsetFree vp.pool id} else vp) vp

/-- The loop of `vnipool_alloc_array` from round `i`, with `vnis` the array so far. A
VNI whose JSON value cannot be made goes back and its round is lost. -/
def allocLoop (m : Malloc) (pick : Pick) (vp : Vnipool) (vnis : List Nat) (i : Nat) :
    Nat → Vnipool × Option (List Nat)
  | 0 => (vp, some vnis)
  | n + 1 =>
    match idsetAlloc pick vp.pool with
    | none => (vnipoolFreeArray vp vnis, none)
    | some (vni, rest) =>
      if m.jsonInteger i && m.arrayAppend i then
        allocLoop m pick {vp with pool := some rest} (vnis ++ [vni]) (i + 1) n
      else allocLoop m pick {vp with pool := idsetFree (some rest) vni} vnis (i + 1) n

def vnipoolAllocArray (m : Malloc) (pick : Pick) (vp : Vnipool) (count : Nat) :
    Vnipool × Option (List Nat) :=
  if m.jsonArray then allocLoop m pick vp [] 0 count else (vp, none)

/-- The most VNIs a CXI service can carry. -/
def cxiSvcMaxVnis : Nat := 4

variable (X : Externals)

def vnipoolReserve (m : Malloc) (pick : Pick) (vp : Vnipool) (id : Nat) (vnicount : Int) :
    Vnipool × Except FluxError (List Nat) :=
  if vnicount < 0 || vnicount > cxiSvcMaxVnis then
    (vp, .error ⟨.EINVAL, "VNI count must be within 1-" ++ toString cxiSvcMaxVnis⟩)
  else
    match vnipoolAllocArray m pick vp vnicount.toNat with
    | (vp, none) =>
      (vp, .error ⟨.ENOSPC, "failed to reserve " ++ toString vnicount ++ " VNI" ++
        (if vnicount > 1 then "s" else "") ++ " (" ++ toString (ids vp.pool).card ++ " available)"⟩)
    | (vp, some vnis) =>
      if m.objectSet then ({vp with jobs := vp.jobs.set (X.idf58 id) vnis}, .ok vnis)
      else
        -- the failed json_object_set_new has freed the array: vnipool_free_array finds no VNI in it
        (vp, .error ⟨.ENOMEM, "out of memory saving VNI reservation"⟩)

def vnipoolLookup (vp : Vnipool) (id : Nat) : Except FluxError (List Nat) :=
  match vp.jobs.get? (X.idf58 id) with
  | none => .error ⟨.ENOENT, "unknown job " ++ X.idf58 id⟩
  | some vnis => .ok vnis

def vnipoolRelease (vp : Vnipool) (id : Nat) : Vnipool × Except FluxError Unit :=
  match vnipoolLookup X vp id with
  | .error e => (vp, .error e)
  | .ok vnis =>
    let vp := vnipoolFreeArray vp vnis
    ({vp with jobs := vp.jobs.del (X.idf58 id)}, .ok ())

/-! ### Configuration -/

def decodeVnipool (s valid : String) : Except FluxError Idset :=
  match X.decode s with
  | .error text => .error ⟨.EINVAL, "decode error: " ++ text⟩
  | .ok new =>
    match X.decode valid with
    | .error text => .error ⟨.EINVAL, "internal error decoding " ++ valid ++ ": " ++ text⟩
    | .ok validIds =>
      if isSubsetOf new validIds then .ok new
      else .error ⟨.EINVAL, s ++ " contains invalid VNIs, must be a subset of " ++ valid⟩

/-- A full pool of the new universe's size, less the ids outside the new universe and
less those that were in the old universe and not in the old pool. -/
def createVnipool (newUniverse : Idset) (oldUniverse oldPool : Option Idset) : Idset :=
  let poolSize := X.universeSize newUniverse
  (List.range poolSize).foldl (fun pool id =>
    if id ∉ newUniverse ∨ (idsetTest oldUniverse id && !idsetTest oldPool id) then pool.erase id
    else pool) (Finset.range poolSize)

def vnipoolConfigure (vp : Vnipool) (vniPool : String) : Vnipool × Except FluxError Unit :=
  match decodeVnipool X vniPool vniValidSet with
  | .error e => (vp, .error e)
  | .ok newUniverse =>
    if vp.universeSet = some newUniverse then (vp, .ok ())
    else
      let newPool := createVnipool X newUniverse vp.universeSet vp.pool
      ({vp with universeSet := some newUniverse, pool := some newPool}, .ok ())

/-! ### The pool as a machine -/

inductive Op
  | configure (vniPool : String)
  | reserve (m : Malloc) (pick : Pick) (id : Nat) (vnicount : Int)
  | release (id : Nat)

/-- A job reserves at most once before it releases. -/
def Op.Enabled (vp : Vnipool) : Op → Prop
  | .reserve _ _ id _ => vp.jobs.get? (X.idf58 id) = none
  | _ => True

def Op.apply (vp : Vnipool) : Op → Vnipool
  | .configure s => (vnipoolConfigure X vp s).1
  | .reserve m pick id vnicount => (vnipoolReserve X m pick vp id vnicount).1
  | .release id => (vnipoolRelease X vp id).1

def poolMachine : Machine Vnipool Op := ⟨vnipoolCreate, Op.Enabled X, Op.apply X⟩

/-! ### What each operation does -/

/-- The job filed under `key` has `v` in its reservation. -/
def Vnipool.Holds (vp : Vnipool) (key : String) (v : Nat) : Prop :=
  ∃ vnis, vp.jobs.get? key = some vnis ∧ v ∈ vnis

theorem mem_idsetFree (o : Option Idset) (id v : Nat) :
    v ∈ ids (idsetFree o id) ↔ v ∈ ids o ∨ (v = id ∧ o ≠ none) := by
  cases o with
  | none => simp [idsetFree]
  | some s => simp [idsetFree, or_comm]

/-- Freeing touches the pool only, and adds the VNIs that the universe has. -/
theorem vnipoolFreeArray_spec (vp : Vnipool) (vnis : List Nat) :
    (vnipoolFreeArray vp vnis).universeSet = vp.universeSet ∧
      (vnipoolFreeArray vp vnis).jobs = vp.jobs ∧
      ((vnipoolFreeArray vp vnis).pool = none ↔ vp.pool = none) ∧
      ∀ v, v ∈ ids (vnipoolFreeArray vp vnis).pool ↔
        v ∈ ids vp.pool ∨ (v ∈ vnis ∧ v ∈ ids vp.universeSet ∧ vp.pool ≠ none) := by
  induction vnis generalizing vp with
  | nil => simp [vnipoolFreeArray]
  | cons id rest ih =>
    have hcons : vnipoolFreeArray vp (id :: rest) = vnipoolFreeArray
        (if idsetTest vp.universeSet id then {vp with pool := idsetFree vp.pool id} else vp) rest := rfl
    rw [hcons]
    by_cases hid : id ∈ ids vp.universeSet
    · have ht : idsetTest vp.universeSet id = true := by simpa [idsetTest] using hid
      rw [if_pos ht]
      obtain ⟨hu, hj, hn, hp⟩ := ih {vp with pool := idsetFree vp.pool id}
      have hnull : idsetFree vp.pool id = none ↔ vp.pool = none := by simp [idsetFree]
      refine ⟨hu, hj, hn.trans hnull, fun v => ?_⟩
      rw [hp v, mem_idsetFree]
      simp only [ne_eq, hnull, List.mem_cons]
      constructor
      · rintro ((h | ⟨rfl, h⟩) | ⟨h, hv, hne⟩)
        · exact .inl h
        · exact .inr ⟨.inl rfl, hid, h⟩
        · exact .inr ⟨.inr h, hv, hne⟩
      · rintro (h | ⟨rfl | h, hv, hne⟩)
        · exact .inl (.inl h)
        · exact .inl (.inr ⟨rfl, hne⟩)
        · exact .inr ⟨h, hv, hne⟩
    · have ht : ¬ idsetTest vp.universeSet id = true := by simpa [idsetTest] using hid
      rw [if_neg ht]
      obtain ⟨hu, hj, hn, hp⟩ := ih vp
      refine ⟨hu, hj, hn, fun v => ?_⟩
      rw [hp v, List.mem_cons]
      constructor
      · rintro (h | ⟨h, hv, hne⟩)
        · exact .inl h
        · exact .inr ⟨.inr h, hv, hne⟩
      · rintro (h | ⟨rfl | h, hv, hne⟩)
        · exact .inl h
        · exact absurd hv hid
        · exact .inr ⟨h, hv, hne⟩

/-- `vp'` is `vp` with the distinct VNIs `new` taken out of its pool. -/
structure Took (vp vp' : Vnipool) (new : List Nat) : Prop where
  universeSet : vp'.universeSet = vp.universeSet
  jobs : vp'.jobs = vp.jobs
  null : vp'.pool = none ↔ vp.pool = none
  nodup : new.Nodup
  free : ∀ v ∈ new, v ∈ ids vp.pool
  pool : ∀ v, v ∈ ids vp'.pool ↔ v ∈ ids vp.pool ∧ v ∉ new

theorem Took.refl (vp : Vnipool) : Took vp vp [] :=
  ⟨rfl, rfl, Iff.rfl, List.nodup_nil, by simp, by simp⟩

/-- Taking one VNI and then others. -/
theorem Took.cons {vp vp' : Vnipool} {vni : Nat} {rest : Idset} {new : List Nat} {pick : Pick}
    (ha : idsetAlloc pick vp.pool = some (vni, rest))
    (h : Took {vp with pool := some rest} vp' new) : Took vp vp' (vni :: new) := by
  obtain ⟨hmem, hrest⟩ := idsetAlloc_some ha
  have hr : ∀ v, v ∈ rest ↔ v ≠ vni ∧ v ∈ ids vp.pool := by simp [hrest]
  have hnn : vp.pool ≠ none := by
    intro hn
    simp [idsetAlloc, hn] at ha
  refine ⟨h.universeSet, h.jobs, ⟨fun hn => ?_, fun hn => absurd hn hnn⟩, ?_, ?_, fun v => ?_⟩
  · exact absurd (h.null.mp hn) (by simp)
  · exact List.nodup_cons.mpr ⟨fun hv => ((hr vni).mp (h.free vni hv)).1 rfl, h.nodup⟩
  · intro v hv
    rcases List.mem_cons.mp hv with rfl | hv
    · exact hmem
    · exact ((hr v).mp (h.free v hv)).2
  · rw [h.pool v, List.mem_cons, ids_some, hr v]
    tauto

/-- A VNI taken and put straight back leaves the pool as it was. -/
theorem pool_put_back {vp : Vnipool} {vni : Nat} {rest : Idset} {pick : Pick}
    (ha : idsetAlloc pick vp.pool = some (vni, rest)) :
    idsetFree (some rest) vni = vp.pool := by
  obtain ⟨hmem, hrest⟩ := idsetAlloc_some ha
  cases hp : vp.pool with
  | none => simp [idsetAlloc, hp] at ha
  | some s =>
    rw [hp] at hmem hrest
    simp only [ids_some] at hmem hrest
    simp [idsetFree, hrest, Finset.insert_erase hmem]

/-- The loop either takes distinct VNIs out of the pool, or frees all it had taken. -/
theorem allocLoop_spec (m : Malloc) (pick : Pick) (n : Nat) (vp : Vnipool) (vnis : List Nat)
    (i : Nat) : ∃ mid new, Took vp mid new ∧
      (allocLoop m pick vp vnis i n = (mid, some (vnis ++ new)) ∨
        allocLoop m pick vp vnis i n = (vnipoolFreeArray mid (vnis ++ new), none)) := by
  induction n generalizing vp vnis i with
  | zero => exact ⟨vp, [], Took.refl vp, .inl (by simp [allocLoop])⟩
  | succ n ih =>
    cases ha : idsetAlloc pick vp.pool with
    | none => exact ⟨vp, [], Took.refl vp, .inr (by simp [allocLoop, ha])⟩
    | some taken =>
      obtain ⟨vni, rest⟩ := taken
      by_cases hm : (m.jsonInteger i && m.arrayAppend i) = true
      · obtain ⟨mid, new, ht, h⟩ := ih {vp with pool := some rest} (vnis ++ [vni]) (i + 1)
        refine ⟨mid, vni :: new, ht.cons ha, ?_⟩
        simpa only [allocLoop, ha, hm, if_true, List.append_assoc, List.singleton_append] using h
      · obtain ⟨mid, new, ht, h⟩ := ih vp vnis (i + 1)
        refine ⟨mid, new, ht, ?_⟩
        have hback : {vp with pool := idsetFree (some rest) vni} = vp := by rw [pool_put_back ha]
        simpa only [allocLoop, ha, hm, Bool.false_eq_true, if_false, hback] using h

/-- A reservation that is refused leaves the pool untouched but for VNIs taken and freed
again, one that cannot be filed loses the VNIs it took, and one that is granted files them. -/
theorem vnipoolReserve_spec (m : Malloc) (pick : Pick) (vp : Vnipool) (id : Nat) (vnicount : Int) :
    ∃ mid new, Took vp mid new ∧
      ((vnipoolReserve X m pick vp id vnicount).1 = vnipoolFreeArray mid new ∨
        (m.objectSet = false ∧ (vnipoolReserve X m pick vp id vnicount).1 = mid) ∨
        (vnipoolReserve X m pick vp id vnicount).1 =
          {mid with jobs := mid.jobs.set (X.idf58 id) new}) := by
  unfold vnipoolReserve vnipoolAllocArray
  have untouched : vnipoolFreeArray vp [] = vp := rfl
  split
  · exact ⟨vp, [], Took.refl vp, .inl untouched.symm⟩
  · cases m.jsonArray
    · exact ⟨vp, [], Took.refl vp, .inl untouched.symm⟩
    · obtain ⟨mid, new, ht, h | h⟩ := allocLoop_spec m pick vnicount.toNat vp [] 0
      · refine ⟨mid, new, ht, ?_⟩
        simp only [if_true, h, List.nil_append]
        cases m.objectSet
        · exact .inr (.inl ⟨rfl, rfl⟩)
        · exact .inr (.inr rfl)
      · refine ⟨mid, new, ht, .inl ?_⟩
        simp only [if_true, h, List.nil_append]

/-- Without failures the loop gives as many VNIs as it has rounds. -/
theorem allocLoop_length {m : Malloc} (hm : ∀ i, (m.jsonInteger i && m.arrayAppend i) = true) {pick : Pick}
    {n : Nat} {vp vp' : Vnipool} {vnis out : List Nat} {i : Nat}
    (h : allocLoop m pick vp vnis i n = (vp', some out)) : out.length = vnis.length + n := by
  induction n generalizing vp vnis i with
  | zero =>
    obtain ⟨-, rfl⟩ := Prod.mk.inj h |>.imp_right Option.some.inj
    rfl
  | succ n ih =>
    rw [allocLoop] at h
    cases ha : idsetAlloc pick vp.pool with
    | none =>
      rw [ha] at h
      cases h
    | some taken =>
      rw [ha] at h
      dsimp only at h
      rw [if_pos (hm i)] at h
      rw [ih h, List.length_append, List.length_singleton]
      omega

/-- A reservation that is granted takes as many VNIs as it says, and is filed. -/
theorem vnipoolReserve_ok {m : Malloc} (hm : ∀ i, (m.jsonInteger i && m.arrayAppend i) = true) {pick : Pick}
    {vp vp' : Vnipool} {id : Nat} {vnicount : Int} {vnis : List Nat}
    (h : vnipoolReserve X m pick vp id vnicount = (vp', .ok vnis)) :
    (vnis.length : Int) = vnicount ∧ vnis.length ≤ cxiSvcMaxVnis ∧
      ∃ mid, Took vp mid vnis ∧ vp' = {mid with jobs := mid.jobs.set (X.idf58 id) vnis} := by
  unfold vnipoolReserve vnipoolAllocArray at h
  split at h
  · cases h
  rename_i hrange
  rw [Bool.or_eq_true, not_or, decide_eq_true_eq, decide_eq_true_eq] at hrange
  cases hj : m.jsonArray with
  | false =>
    rw [hj] at h
    cases h
  | true =>
    rw [hj, if_pos rfl] at h
    obtain ⟨mid, new, ht, ha | ha⟩ := allocLoop_spec m pick vnicount.toNat vp [] 0
    · have hlength := allocLoop_length hm ha
      rw [ha] at h
      dsimp only at h
      split at h
      · obtain ⟨rfl, hnew⟩ := Prod.mk.inj h
        obtain rfl := Except.ok.inj hnew
        rw [List.nil_append] at hlength ⊢
        rw [List.length_nil, Nat.zero_add] at hlength
        refine ⟨by omega, by omega, mid, ht, rfl⟩
      · cases h
    · rw [ha] at h
      cases h

/-- A reservation that is refused files nothing. -/
theorem vnipoolReserve_error {m : Malloc} {pick : Pick} {vp vp' : Vnipool} {id : Nat} {vnicount : Int}
    {e : FluxError} (h : vnipoolReserve X m pick vp id vnicount = (vp', .error e)) : vp'.jobs = vp.jobs := by
  unfold vnipoolReserve vnipoolAllocArray at h
  split at h
  · obtain ⟨rfl, -⟩ := Prod.mk.inj h
    rfl
  cases hj : m.jsonArray with
  | false =>
    rw [hj] at h
    obtain ⟨rfl, -⟩ := Prod.mk.inj h
    rfl
  | true =>
    rw [hj, if_pos rfl] at h
    obtain ⟨mid, new, ht, ha | ha⟩ := allocLoop_spec m pick vnicount.toNat vp [] 0 <;> rw [ha] at h
    · dsimp only at h
      split at h
      · cases h
      · obtain ⟨rfl, -⟩ := Prod.mk.inj h
        exact ht.jobs
    · obtain ⟨rfl, -⟩ := Prod.mk.inj h
      exact (vnipoolFreeArray_spec mid _).2.1.trans ht.jobs

/-- Releasing an unknown job does nothing; otherwise its VNIs are freed and its entry
removed. -/
theorem vnipoolRelease_spec (vp : Vnipool) (id : Nat) :
    (vp.jobs.get? (X.idf58 id) = none ∧ (vnipoolRelease X vp id).1 = vp) ∨
      ∃ vnis, vp.jobs.get? (X.idf58 id) = some vnis ∧ (vnipoolRelease X vp id).1 =
        {vnipoolFreeArray vp vnis with
          jobs := (vnipoolFreeArray vp vnis).jobs.del (X.idf58 id)} := by
  unfold vnipoolRelease vnipoolLookup
  cases h : vp.jobs.get? (X.idf58 id) with
  | none => exact .inl ⟨rfl, rfl⟩
  | some vnis => exact .inr ⟨vnis, rfl, rfl⟩

/-- A release removes the entry of the job and no other. -/
theorem get?_vnipoolRelease (vp : Vnipool) (id : Nat) (k : String) :
    (vnipoolRelease X vp id).1.jobs.get? k = if k = X.idf58 id then none else vp.jobs.get? k := by
  rcases vnipoolRelease_spec X vp id with ⟨hnone, hr⟩ | ⟨vnis, -, hr⟩
  · rw [hr]
    split
    · rename_i hk
      rw [hk, hnone]
    · rfl
  · rw [hr]
    dsimp only
    rw [(vnipoolFreeArray_spec vp vnis).2.1, Dict.get?_del]

theorem foldl_erase (p : Nat → Prop) [DecidablePred p] (l : List Nat) (s : Idset) (v : Nat) :
    v ∈ l.foldl (fun s id => if p id then s.erase id else s) s ↔ v ∈ s ∧ ¬ (v ∈ l ∧ p v) := by
  induction l generalizing s with
  | nil => simp
  | cons id rest ih =>
    rw [List.foldl_cons, ih]
    by_cases hp : p id
    · simp only [hp, if_true, Finset.mem_erase, List.mem_cons]
      constructor
      · rintro ⟨⟨hne, hs⟩, h⟩
        exact ⟨hs, fun ⟨hv, hpv⟩ => hv.elim hne fun hv => h ⟨hv, hpv⟩⟩
      · rintro ⟨hs, h⟩
        exact ⟨⟨fun he => h ⟨.inl he, he ▸ hp⟩, hs⟩, fun ⟨hv, hpv⟩ => h ⟨.inr hv, hpv⟩⟩
    · simp only [hp, if_false, List.mem_cons]
      refine and_congr_right fun _ => not_congr ?_
      exact ⟨fun ⟨hv, hpv⟩ => ⟨.inr hv, hpv⟩,
        fun ⟨hv, hpv⟩ => ⟨hv.resolve_left fun he => hp (he ▸ hpv), hpv⟩⟩

/-- The pool of a new universe: its members, less those the old pool had handed out. -/
theorem mem_createVnipool (newUniverse : Idset) (oldUniverse oldPool : Option Idset) (v : Nat) :
    v ∈ createVnipool X newUniverse oldUniverse oldPool ↔
      v ∈ newUniverse ∧ (v ∈ ids oldUniverse → v ∈ ids oldPool) := by
  unfold createVnipool
  rw [foldl_erase (fun id => id ∉ newUniverse ∨ (idsetTest oldUniverse id && !idsetTest oldPool id))]
  simp only [Finset.mem_range, List.mem_range, idsetTest, Bool.and_eq_true, Bool.not_eq_true',
    decide_eq_true_eq, decide_eq_false_iff_not]
  constructor
  · rintro ⟨hlt, h⟩
    have hn := not_or.mp fun hor => h ⟨hlt, hor⟩
    exact ⟨not_not.mp hn.1, fun ho => not_not.mp fun hp => hn.2 ⟨ho, hp⟩⟩
  · rintro ⟨hv, h⟩
    refine ⟨X.lt_universeSize _ v hv, ?_⟩
    rintro ⟨-, hn | ⟨ho, hp⟩⟩
    · exact hn hv
    · exact hp (h ho)

theorem decodeVnipool_ok {s : String} {new : Idset} (h : decodeVnipool X s vniValidSet = .ok new) :
    new ⊆ validVnis := by
  unfold decodeVnipool at h
  rw [X.decode_valid] at h
  split at h
  · cases h
  · simp only at h
    split at h
    · rename_i hsub
      cases h
      exact Finset.inter_eq_left.mp (by simpa [isSubsetOf] using hsub)
    · cases h

/-- A configuration that is refused, or that names the universe in force, does
nothing; otherwise the universe and the pool are replaced. -/
theorem vnipoolConfigure_spec (vp : Vnipool) (s : String) :
    (vnipoolConfigure X vp s).1 = vp ∧
        (∀ new, decodeVnipool X s vniValidSet = .ok new → vp.universeSet = some new) ∨
      ∃ new, decodeVnipool X s vniValidSet = .ok new ∧ vp.universeSet ≠ some new ∧
        (vnipoolConfigure X vp s).1 = {vp with
          universeSet := some new, pool := some (createVnipool X new vp.universeSet vp.pool)} := by
  unfold vnipoolConfigure
  cases hd : decodeVnipool X s vniValidSet with
  | error e => exact .inl ⟨rfl, fun new h => by cases h⟩
  | ok new =>
    by_cases hu : vp.universeSet = some new
    · exact .inl ⟨by simp [hu], fun new' h => by cases h; exact hu⟩
    · exact .inr ⟨new, rfl, hu, by simp [hu]⟩

theorem jobs_vnipoolConfigure (vp : Vnipool) (s : String) : (vnipoolConfigure X vp s).1.jobs = vp.jobs := by
  rcases vnipoolConfigure_spec X vp s with ⟨hsame, -⟩ | ⟨new, -, -, hchanged⟩
  · rw [hsame]
  · rw [hchanged]

end FluxCoral2.Slingshot
