import Mathlib.Data.Finset.Max
import Mathlib.Order.Lattice.Nat
import FluxCoral2.Slingshot.VniPool
import FluxCoral2.Library.IdsetString

/-! Isolation and conservation of VNIs over whole histories of the pool.

`Isolated`: no VNI is reserved for two jobs, and none that is reserved is free. A
reservation or a release keeps it. A configuration keeps it exactly when the
universe gains no VNI that some job still holds: `create_vnipool` subtracts what
the *old universe* had handed out, so a VNI that left the universe while reserved
comes back free. `isolated_iff_uncontested` says so for every history.

`Configured`: free VNIs are configured and configured ones are valid, after every history.
`Conserved`: besides, every configured VNI is free or reserved, after every history in which
a granted reservation could be filed. -/
namespace FluxCoral2.Slingshot
open Library

/-! ### Who holds what -/

theorem holds_of_jobs_eq {vp vp' : Vnipool} (h : vp'.jobs = vp.jobs) (k : String) (v : Nat) :
    vp'.Holds k v ↔ vp.Holds k v := by
  unfold Vnipool.Holds
  rw [h]

theorem holds_set (vp : Vnipool) (key : String) (new : List Nat) (k : String) (v : Nat) :
    {vp with jobs := vp.jobs.set key new}.Holds k v ↔
      (k = key ∧ v ∈ new) ∨ (k ≠ key ∧ vp.Holds k v) := by
  unfold Vnipool.Holds
  by_cases hk : k = key
  · simp [hk]
  · simp [hk]

theorem holds_del (vp : Vnipool) (key k : String) (v : Nat) :
    {vp with jobs := vp.jobs.del key}.Holds k v ↔ k ≠ key ∧ vp.Holds k v := by
  unfold Vnipool.Holds
  by_cases hk : k = key
  · simp [hk]
  · simp [hk]

/-- VNIs taken and freed again add nothing to the pool. -/
theorem Took.pool_freed {vp mid : Vnipool} {new : List Nat} (ht : Took vp mid new) {v : Nat}
    (h : v ∈ ids (vnipoolFreeArray mid new).pool) : v ∈ ids vp.pool := by
  rcases ((vnipoolFreeArray_spec mid new).2.2.2 v).mp h with hm | hn
  · exact ((ht.pool v).mp hm).1
  · exact ht.free v hn.1

/-! ### Isolation -/

structure Isolated (vp : Vnipool) : Prop where
  apart : ∀ k k' v, vp.Holds k v → vp.Holds k' v → k = k'
  taken : ∀ k v, vp.Holds k v → v ∉ ids vp.pool

theorem Isolated.of_jobs_eq {vp vp' : Vnipool} (h : Isolated vp) (hj : vp'.jobs = vp.jobs)
    (hp : ∀ v, v ∈ ids vp'.pool → v ∈ ids vp.pool) : Isolated vp' := by
  refine ⟨fun k k' v hk hk' => ?_, fun k v hk hv => ?_⟩
  · rw [holds_of_jobs_eq hj] at hk hk'
    exact h.apart k k' v hk hk'
  · rw [holds_of_jobs_eq hj] at hk
    exact h.taken k v hk (hp v hv)

variable (X : Externals)

/-- A configuration adds no VNI to the universe that some job still holds. -/
def Uncontested (vp : Vnipool) : Op → Prop
  | .configure s => ∀ new, decodeVnipool X s vniValidSet = .ok new →
      ∀ v ∈ new, v ∉ ids vp.universeSet → ∀ k, ¬ vp.Holds k v
  | _ => True

theorem isolated_create : Isolated vnipoolCreate where
  apart := fun k k' v ⟨vnis, h, _⟩ => by simp [vnipoolCreate] at h
  taken := fun k v ⟨vnis, h, _⟩ => by simp [vnipoolCreate] at h

/-- No job holds anything before the first reservation. -/
theorem uncontested_create (op : Op) : Uncontested X vnipoolCreate op := by
  cases op with
  | configure s =>
    rintro new - v - - k ⟨vnis, hget, -⟩
    cases hget
  | _ => trivial

theorem isolated_reserve (m : Malloc) (pick : Pick) (vp : Vnipool) (id : Nat) (vnicount : Int)
    (h : Isolated vp) : Isolated (vnipoolReserve X m pick vp id vnicount).1 := by
  obtain ⟨mid, new, ht, hr | ⟨-, hr⟩ | hr⟩ := vnipoolReserve_spec X m pick vp id vnicount
  · rw [hr]
    exact h.of_jobs_eq ((vnipoolFreeArray_spec mid new).2.1.trans ht.jobs) fun v hv => ht.pool_freed hv
  · rw [hr]
    exact h.of_jobs_eq ht.jobs fun v hv => ((ht.pool v).mp hv).1
  · -- what the job now holds was free, so nobody else held it
    have hfree : ∀ k v, v ∈ new → ¬ mid.Holds k v := fun k v hv hk =>
      h.taken k v ((holds_of_jobs_eq ht.jobs k v).mp hk) (ht.free v hv)
    rw [hr]
    refine ⟨fun k k' v hk hk' => ?_, fun k v hk hv => ?_⟩
    · rcases (holds_set mid _ new k v).mp hk with ⟨rfl, hv⟩ | ⟨_, hold⟩ <;>
        rcases (holds_set mid _ new k' v).mp hk' with ⟨rfl, hv'⟩ | ⟨_, hold'⟩
      · rfl
      · exact absurd hold' (hfree k' v hv)
      · exact absurd hold (hfree k v hv')
      · exact h.apart k k' v ((holds_of_jobs_eq ht.jobs k v).mp hold)
          ((holds_of_jobs_eq ht.jobs k' v).mp hold')
    · obtain ⟨hpool, hout⟩ := (ht.pool v).mp hv
      rcases (holds_set mid _ new k v).mp hk with ⟨_, hnew⟩ | ⟨_, hold⟩
      · exact hout hnew
      · exact h.taken k v ((holds_of_jobs_eq ht.jobs k v).mp hold) hpool

theorem isolated_release (vp : Vnipool) (id : Nat) (h : Isolated vp) :
    Isolated (vnipoolRelease X vp id).1 := by
  rcases vnipoolRelease_spec X vp id with ⟨_, hr⟩ | ⟨vnis, hget, hr⟩
  · rw [hr]
    exact h
  · obtain ⟨_, hjobs, _, hpool⟩ := vnipoolFreeArray_spec vp vnis
    rw [hr]
    refine ⟨fun k k' v hk hk' => ?_, fun k v hk hv => ?_⟩
    · have hold := (holds_of_jobs_eq hjobs k v).mp ((holds_del _ _ k v).mp hk).2
      have hold' := (holds_of_jobs_eq hjobs k' v).mp ((holds_del _ _ k' v).mp hk').2
      exact h.apart k k' v hold hold'
    · obtain ⟨hne, hk⟩ := (holds_del _ _ k v).mp hk
      have hold := (holds_of_jobs_eq hjobs k v).mp hk
      rcases (hpool v).mp hv with hp | ⟨hv, _⟩
      · exact h.taken k v hold hp
      · exact hne (h.apart k _ v hold ⟨vnis, hget, hv⟩)

/-- The one step that can break isolation, and when it does not. -/
theorem isolated_configure_iff (vp : Vnipool) (s : String) (h : Isolated vp) :
    Isolated (vnipoolConfigure X vp s).1 ↔ Uncontested X vp (.configure s) := by
  rcases vnipoolConfigure_spec X vp s with ⟨hsame, hcur⟩ | ⟨new, hnew, _, hchanged⟩
  · rw [hsame]
    refine ⟨fun _ new hd v hv hout => ?_, fun _ => h⟩
    rw [hcur new hd] at hout
    exact absurd hv hout
  · rw [hchanged]
    refine ⟨fun hiso new' hd v hv hout k hk => ?_, fun hu => ⟨h.apart, fun k v hk hv => ?_⟩⟩
    · obtain rfl : new = new' := by simpa [hnew] using hd
      refine hiso.taken k v hk ?_
      rw [ids_some, mem_createVnipool]
      exact ⟨hv, fun hold => absurd hold hout⟩
    · rw [ids_some, mem_createVnipool] at hv
      by_cases hold : v ∈ ids vp.universeSet
      · exact h.taken k v hk (hv.2 hold)
      · exact hu new hnew v hv.1 hold k hk

theorem isolated_apply_iff (vp : Vnipool) (op : Op) (h : Isolated vp) :
    Isolated (op.apply X vp) ↔ Uncontested X vp op := by
  cases op with
  | configure s => exact isolated_configure_iff X vp s h
  | reserve m pick id vnicount => exact ⟨fun _ => trivial, fun _ => isolated_reserve X m pick vp id vnicount h⟩
  | release id => exact ⟨fun _ => trivial, fun _ => isolated_release X vp id h⟩

/-- **When VNIs isolate jobs**: in every history, every state reached is isolated
exactly when no configuration brings in a VNI that a job still holds. -/
theorem isolated_iff_uncontested (ops : List Op)
    (hp : (poolMachine X).Possible vnipoolCreate ops) :
    (poolMachine X).Always Isolated vnipoolCreate ops ↔
      (poolMachine X).Legal (Uncontested X) vnipoolCreate ops :=
  Machine.always_iff_legal (fun _ => True) (fun _ _ _ _ _ => trivial)
    (fun vp op _ h _ => isolated_apply_iff X vp op h) trivial isolated_create hp

/-! ### A universe that moves away and back -/

def base58 : List Char := "123456789ABCDEFGHJKLMNPQRSTUVWXYZabcdefghijkmnopqrstuvwxyz".toList

/-- Base 58 digits, most significant first; eleven are enough for 64 bits. -/
def f58Digits : Nat → Nat → List Char → List Char
  | 0, _, acc => acc
  | fuel + 1, n, acc =>
    if n < 58 then base58.getD n '1' :: acc
    else f58Digits fuel (n / 58) (base58.getD (n % 58) '1' :: acc)

/-- RFC 22 decoding, idsets no larger than they need be, and F58 job ids. -/
def rfcExternals : Externals where
  decode := fun s => match IdsetString.decode s with
    | some ids => .ok ids
    | none => .error "parse error"
  universeSize := fun s => s.sup Nat.succ
  idf58 := fun id => String.ofList ('ƒ' :: f58Digits 11 id [])
  lt_universeSize := fun s v hv => Nat.lt_of_succ_le (Finset.le_sup (f := Nat.succ) hv)
  decode_valid := by
    have hp : IdsetString.parseRanges vniValidSet.toList = some [(0, 0), (2, 9), (11, 65535)] := by
      decide
    rw [IdsetString.decode_eq hp (t := validVnis) fun v => by simp [validVnis]]

theorem decodeVnipool_rfc {s : String} (ranges : List (Nat × Nat)) {new : Idset}
    (hp : IdsetString.parseRanges s.toList = some ranges)
    (hn : ∀ v, v ∈ new ↔ ∃ r ∈ ranges, r.1 ≤ v ∧ v ≤ r.2) (hv : new ⊆ validVnis) :
    decodeVnipool rfcExternals s vniValidSet = .ok new := by
  have hdec : rfcExternals.decode s = .ok new := by
    show (match IdsetString.decode s with | some ids => Except.ok ids | none => .error "parse error") = _
    rw [IdsetString.decode_eq hp hn]
  have hsub : isSubsetOf new validVnis = true := by
    simpa [isSubsetOf] using Finset.inter_eq_left.mpr hv
  simp [decodeVnipool, hdec, rfcExternals.decode_valid, hsub]

/-- The lowest free VNI. -/
def lowest : Pick where
  choose := fun s => if h : s.Nonempty then s.min' h else 0
  choose_mem := fun s h => by simpa [h] using s.min'_mem h

theorem decode_low : decodeVnipool rfcExternals "2-3" vniValidSet = .ok {2, 3} :=
  decodeVnipool_rfc [(2, 3)] (by decide) (fun v => by simp; omega)
    (fun v => by simp [validVnis]; omega)

theorem decode_high : decodeVnipool rfcExternals "4-5" vniValidSet = .ok {4, 5} :=
  decodeVnipool_rfc [(4, 5)] (by decide) (fun v => by simp; omega)
    (fun v => by simp [validVnis]; omega)

/-- A job reserves a VNI, the universe moves away and back, another job reserves one. -/
def moveAndBack : List Op :=
  [.configure "2-3", .reserve {} lowest 1 1, .configure "4-5", .configure "2-3", .reserve {} lowest 2 1]

theorem apply_configure {X : Externals} {s : String} {new : Idset} (vp : Vnipool) (pool : Idset)
    (hd : decodeVnipool X s vniValidSet = .ok new) (hu : vp.universeSet ≠ some new)
    (hp : createVnipool X new vp.universeSet vp.pool = pool) :
    (poolMachine X).next vp (.configure s) = {vp with universeSet := some new, pool := some pool} := by
  simp [poolMachine, Op.apply, vnipoolConfigure, hd, hu, hp]

theorem apply_reserve {X : Externals} {m : Malloc} {pick : Pick} {vp : Vnipool} {id : Nat} (n : Nat)
    (vp' : Vnipool) (vnis : List Nat) (hn : n ≤ cxiSvcMaxVnis) (hm : m.objectSet = true)
    (ha : vnipoolAllocArray m pick vp n = (vp', some vnis)) :
    (poolMachine X).next vp (.reserve m pick id n) = {vp' with jobs := vp'.jobs.set (X.idf58 id) vnis} := by
  have hin : ¬ ((n : Int) < 0 ∨ cxiSvcMaxVnis < n) := by omega
  simp [poolMachine, Op.apply, vnipoolReserve, hin, ha, hm]

/-- Two jobs reserve VNI 2, the second after the universe moved away and back. -/
theorem moveAndBack_reaches : (poolMachine rfcExternals).Reaches vnipoolCreate moveAndBack
    ⟨some {2, 3}, some {3},
      (Dict.empty.set (rfcExternals.idf58 1) [2]).set (rfcExternals.idf58 2) [2]⟩ := by
  have hother : rfcExternals.idf58 2 ≠ rfcExternals.idf58 1 := by decide
  refine .step trivial (apply_configure _ {2, 3} decode_low (by decide) (by decide)) ?_
  refine .step rfl (apply_reserve 1 ⟨some {2, 3}, some {3}, .empty⟩ [2] (by decide) rfl rfl) ?_
  refine .step trivial (apply_configure _ {4, 5} decode_high (by decide) (by decide)) ?_
  refine .step trivial (apply_configure _ {2, 3} decode_low (by decide) (by decide)) ?_
  refine .step (Dict.get?_set_ne _ _ hother) (apply_reserve 1
    ⟨some {2, 3}, some {3}, Dict.empty.set (rfcExternals.idf58 1) [2]⟩ [2] (by decide) rfl rfl) ?_
  exact .nil _

/-- Both jobs hold VNI 2. -/
theorem moveAndBack_shares : (poolMachine rfcExternals).Possible vnipoolCreate moveAndBack ∧
    ((poolMachine rfcExternals).run vnipoolCreate moveAndBack).Holds (rfcExternals.idf58 1) 2 ∧
    ((poolMachine rfcExternals).run vnipoolCreate moveAndBack).Holds (rfcExternals.idf58 2) 2 ∧
    rfcExternals.idf58 1 ≠ rfcExternals.idf58 2 := by
  have hother : rfcExternals.idf58 1 ≠ rfcExternals.idf58 2 := by decide
  rw [moveAndBack_reaches.2]
  refine ⟨moveAndBack_reaches.1, ⟨[2], ?_, by decide⟩, ⟨[2], ?_, by decide⟩, hother⟩
  · rw [Dict.get?_set_ne _ _ hother, Dict.get?_set_self]
  · rw [Dict.get?_set_self]

/-- A universe configured once never takes a VNI back: every state is isolated. -/
theorem reserved_once_isolated : (poolMachine rfcExternals).Always Isolated vnipoolCreate
    [.configure "2-3", .reserve {} lowest 1 1] := by
  have hconf := apply_configure vnipoolCreate {2, 3} decode_low (by decide) (by decide)
  have hfresh := uncontested_create rfcExternals (.configure "2-3")
  refine (isolated_iff_uncontested rfcExternals _ ?_).mpr ?_
  · exact Machine.Legal.step trivial trivial hconf (Machine.Legal.step rfl trivial rfl trivial)
  · exact Machine.Legal.step trivial hfresh hconf (Machine.Legal.step rfl trivial rfl trivial)

/-! ### Configured VNIs -/

structure Configured (vp : Vnipool) : Prop where
  configured : ids vp.pool ⊆ ids vp.universeSet
  valid : ids vp.universeSet ⊆ validVnis
  null : vp.pool = none ↔ vp.universeSet = none

theorem configured_create : Configured vnipoolCreate where
  configured := by simp [vnipoolCreate]
  valid := by simp [vnipoolCreate]
  null := Iff.rfl

theorem Took.configured {vp mid : Vnipool} {new : List Nat} (ht : Took vp mid new) (h : Configured vp) :
    Configured mid := by
  refine ⟨fun v hv => ?_, ?_, ?_⟩
  · rw [ht.universeSet]
    exact h.configured ((ht.pool v).mp hv).1
  · rw [ht.universeSet]
    exact h.valid
  · rw [ht.null, ht.universeSet, h.null]

/-- Only configured VNIs are put back. -/
theorem configured_freed {vp : Vnipool} (vnis : List Nat) (h : Configured vp) :
    Configured (vnipoolFreeArray vp vnis) := by
  obtain ⟨hu, _, hn, hpool⟩ := vnipoolFreeArray_spec vp vnis
  refine ⟨fun v hv => ?_, ?_, ?_⟩
  · rw [hu]
    rcases (hpool v).mp hv with hp | ⟨_, hin, _⟩
    · exact h.configured hp
    · exact hin
  · rw [hu]
    exact h.valid
  · rw [hn, hu, h.null]

theorem Configured.with_jobs {vp : Vnipool} (h : Configured vp) (jobs : Dict String (List Nat)) :
    Configured {vp with jobs := jobs} :=
  ⟨h.configured, h.valid, h.null⟩

theorem configured_reserve (m : Malloc) (pick : Pick) (vp : Vnipool) (id : Nat) (vnicount : Int)
    (h : Configured vp) : Configured (vnipoolReserve X m pick vp id vnicount).1 := by
  obtain ⟨mid, new, ht, hr | ⟨-, hr⟩ | hr⟩ := vnipoolReserve_spec X m pick vp id vnicount
  · rw [hr]
    exact configured_freed new (ht.configured h)
  · rw [hr]
    exact ht.configured h
  · rw [hr]
    exact (ht.configured h).with_jobs _

theorem configured_release (vp : Vnipool) (id : Nat) (h : Configured vp) :
    Configured (vnipoolRelease X vp id).1 := by
  rcases vnipoolRelease_spec X vp id with ⟨_, hr⟩ | ⟨vnis, _, hr⟩
  · rw [hr]
    exact h
  · rw [hr]
    exact (configured_freed vnis h).with_jobs _

theorem configured_configure (vp : Vnipool) (s : String) (h : Configured vp) :
    Configured (vnipoolConfigure X vp s).1 := by
  rcases vnipoolConfigure_spec X vp s with ⟨hsame, _⟩ | ⟨new, hnew, _, hchanged⟩
  · rw [hsame]
    exact h
  · rw [hchanged]
    refine ⟨fun v hv => ?_, decodeVnipool_ok X hnew, by simp⟩
    rw [ids_some, mem_createVnipool] at hv
    exact hv.1

theorem configured_apply {vp : Vnipool} (op : Op) (h : Configured vp) : Configured (op.apply X vp) := by
  cases op with
  | configure s => exact configured_configure X vp s h
  | reserve m pick id vnicount => exact configured_reserve X m pick vp id vnicount h
  | release id => exact configured_release X vp id h

/-! ### Conservation -/

structure Conserved (vp : Vnipool) : Prop extends Configured vp where
  accounted : ∀ v ∈ ids vp.universeSet, v ∈ ids vp.pool ∨ ∃ k, vp.Holds k v

/-- `json_object_set_new` succeeds. -/
def Op.Filed : Op → Prop
  | .reserve m _ _ _ => m.objectSet = true
  | _ => True

theorem conserved_create : Conserved vnipoolCreate where
  toConfigured := configured_create
  accounted := by simp [vnipoolCreate]

/-- What is configured while the pool exists goes back when freed. -/
theorem mem_freed {vp : Vnipool} {vnis : List Nat} {v : Nat} (hu : v ∈ ids vp.universeSet)
    (hn : vp.pool = none ↔ vp.universeSet = none) (h : v ∈ ids vp.pool ∨ v ∈ vnis) :
    v ∈ ids (vnipoolFreeArray vp vnis).pool := by
  rw [(vnipoolFreeArray_spec vp vnis).2.2.2 v]
  have hne : vp.pool ≠ none := fun hnone => by simp [hn.mp hnone] at hu
  rcases h with hp | hv
  · exact .inl hp
  · exact .inr ⟨hv, hu, hne⟩

/-- The VNIs that were taken go back, all of which are configured. -/
theorem mem_put_back {vp mid : Vnipool} {new : List Nat} (h : Configured vp) (ht : Took vp mid new) {v : Nat}
    (hv : v ∈ ids vp.pool) : v ∈ ids (vnipoolFreeArray mid new).pool := by
  refine mem_freed (by rw [ht.universeSet]; exact h.configured hv) (ht.configured h).null ?_
  by_cases hin : v ∈ new
  · exact .inr hin
  · exact .inl ((ht.pool v).mpr ⟨hv, hin⟩)

theorem conserved_reserve {m : Malloc} (hm : m.objectSet = true) (pick : Pick) (vp : Vnipool) (id : Nat)
    (vnicount : Int) (he : vp.jobs.get? (X.idf58 id) = none) (h : Conserved vp) :
    Conserved (vnipoolReserve X m pick vp id vnicount).1 := by
  refine ⟨configured_reserve X m pick vp id vnicount h.toConfigured, fun v hv => ?_⟩
  obtain ⟨mid, new, ht, hr | ⟨hlost, -⟩ | hr⟩ := vnipoolReserve_spec X m pick vp id vnicount
  · obtain ⟨hu, hj, _, _⟩ := vnipoolFreeArray_spec mid new
    rw [hr] at hv ⊢
    rw [hu, ht.universeSet] at hv
    rcases h.accounted v hv with hp | ⟨k, hk⟩
    · exact .inl (mem_put_back h.toConfigured ht hp)
    · exact .inr ⟨k, (holds_of_jobs_eq (hj.trans ht.jobs) k v).mpr hk⟩
  · rw [hm] at hlost
    cases hlost
  · rw [hr] at hv ⊢
    have hv' : v ∈ ids vp.universeSet := by rw [← ht.universeSet]; exact hv
    rcases h.accounted v hv' with hp | ⟨k, vnis, hget, hk⟩
    · by_cases hin : v ∈ new
      · exact .inr ⟨X.idf58 id, (holds_set mid _ new _ v).mpr (.inl ⟨rfl, hin⟩)⟩
      · exact .inl ((ht.pool v).mpr ⟨hp, hin⟩)
    · -- the job had no reservation, so the holder is another one and keeps its entry
      have hne : k ≠ X.idf58 id := fun hkey => by
        rw [hkey, he] at hget
        cases hget
      have hold : mid.Holds k v := (holds_of_jobs_eq ht.jobs k v).mpr ⟨vnis, hget, hk⟩
      exact .inr ⟨k, (holds_set mid _ new k v).mpr (.inr ⟨hne, hold⟩)⟩

theorem conserved_release (vp : Vnipool) (id : Nat) (h : Conserved vp) :
    Conserved (vnipoolRelease X vp id).1 := by
  refine ⟨configured_release X vp id h.toConfigured, fun v hv => ?_⟩
  rcases vnipoolRelease_spec X vp id with ⟨_, hr⟩ | ⟨vnis, hget, hr⟩
  · rw [hr] at hv ⊢
    exact h.accounted v hv
  · obtain ⟨hu, hj, _, _⟩ := vnipoolFreeArray_spec vp vnis
    rw [hr] at hv ⊢
    have hv' : v ∈ ids vp.universeSet := by rw [← hu]; exact hv
    rcases h.accounted v hv' with hp | ⟨k, hk⟩
    · exact .inl (mem_freed hv' h.null (.inl hp))
    · by_cases hkey : k = X.idf58 id
      · obtain ⟨vnis', hget', hv''⟩ := hk
        obtain rfl : vnis = vnis' := by rw [hkey, hget] at hget'; exact Option.some.inj hget'
        exact .inl (mem_freed hv' h.null (.inr hv''))
      · exact .inr ⟨k, (holds_del _ _ k v).mpr ⟨hkey, (holds_of_jobs_eq hj k v).mpr hk⟩⟩

theorem conserved_configure (vp : Vnipool) (s : String) (h : Conserved vp) :
    Conserved (vnipoolConfigure X vp s).1 := by
  refine ⟨configured_configure X vp s h.toConfigured, fun v hv => ?_⟩
  rcases vnipoolConfigure_spec X vp s with ⟨hsame, _⟩ | ⟨new, _, _, hchanged⟩
  · rw [hsame] at hv ⊢
    exact h.accounted v hv
  · rw [hchanged] at hv ⊢
    by_cases hp : v ∈ ids vp.universeSet → v ∈ ids vp.pool
    · exact .inl (by rw [ids_some, mem_createVnipool]; exact ⟨hv, hp⟩)
    · -- handed out under the old universe: its holder is still in the table
      rw [Classical.not_imp] at hp
      exact .inr ((h.accounted v hp.1).resolve_left hp.2)

theorem conserved_apply {vp : Vnipool} {op : Op} (h : Conserved vp) (he : op.Enabled X vp) (hf : op.Filed) :
    Conserved (op.apply X vp) := by
  cases op with
  | configure s => exact conserved_configure X vp s h
  | reserve m pick id vnicount => exact conserved_reserve X hf pick vp id vnicount he h
  | release id => exact conserved_release X vp id h

/-- **No VNI is leaked**: after every history whose reservations can be filed, free VNIs are
configured, configured VNIs are valid, and each of them is free or reserved. -/
theorem no_vni_leaked (ops : List Op) (hp : (poolMachine X).Possible vnipoolCreate ops)
    (hf : ∀ op ∈ ops, op.Filed) : Conserved ((poolMachine X).run vnipoolCreate ops) := by
  have hl := Machine.legal_of_possible hp hf
  exact Machine.invariant_from Conserved (fun _ _ h he hf => conserved_apply X h he hf) conserved_create hl

theorem moveAndBack_conserved : Conserved ((poolMachine rfcExternals).run vnipoolCreate moveAndBack) :=
  no_vni_leaked rfcExternals moveAndBack moveAndBack_reaches.1 (by simp [moveAndBack, Op.Filed])

end FluxCoral2.Slingshot
