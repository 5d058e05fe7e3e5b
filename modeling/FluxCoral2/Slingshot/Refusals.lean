import FluxCoral2.Slingshot.Reservation

/-! What the plugin does when it refuses (`cray-slingshot.c`, `vnipool.c`).

A configuration is refused for its types, for a `vnis-per-job` out of range or by
`vnipool_configure`, which decodes the pool and builds the new sets before it touches the
old. The callback, though, stores the other two values first, and keeps them when the pool
is refused: `conf_update_atomic_iff`.

A reservation is refused when VNIs or memory run out, and then has no effect. When the JSON
value of one VNI cannot be made, though, the VNI goes back and the rest is granted: the job
gets fewer VNIs than it asked for. And when the array cannot be filed under the job, it is
gone before its VNIs are put back: `reserves_exact_iff`. -/
namespace FluxCoral2.Slingshot
open Library

/-! ### A refused configuration -/

/-- An RFC 22 idset of valid VNIs. -/
def AcceptedPool (X : Externals) (vniPool : String) : Prop :=
  ∃ universeSet, X.decode vniPool = .ok universeSet ∧ universeSet ⊆ validVnis

def Conf.vnisPerJobValue (conf : Conf) : Int := (conf.vnisPerJob.map unpackInt).getD vnisPerJobDefault

/-- The values stored before the pool is looked at are those in force, or nothing refuses
them any more. -/
def StoredSafely (X : Externals) (ctx : CraySlingshot) : Except String Conf → Prop
  | .error _ => True
  | .ok conf => conf.vnisPerJobValue < 0 ∨ 4 < conf.vnisPerJobValue ∨
      AcceptedPool X (conf.vniPool.getD vniPoolDefault) ∨
      (conf.vnisPerJobValue = ctx.vnisPerJob ∧
        conf.vniReserveFatal.getD vniReserveFatalDefault = ctx.vniReserveFatal)

section Configuration
variable (X : Externals)

theorem decodeVnipool_accepts (s : String) :
    (∃ universeSet, decodeVnipool X s vniValidSet = .ok universeSet) ↔ AcceptedPool X s := by
  unfold decodeVnipool AcceptedPool
  rw [X.decode_valid]
  cases X.decode s with
  | error text => simp
  | ok ids =>
    by_cases hsub : ids ⊆ validVnis <;> simp [isSubsetOf, hsub]

/-- A pool that is refused is left as it was. -/
theorem vnipoolConfigure_cases (vp : Vnipool) (s : String) :
    (AcceptedPool X s ∧ (vnipoolConfigure X vp s).2 = .ok ()) ∨
      (¬ AcceptedPool X s ∧ ∃ e, vnipoolConfigure X vp s = (vp, .error e)) := by
  rw [← decodeVnipool_accepts]
  unfold vnipoolConfigure
  cases decodeVnipool X s vniValidSet with
  | error e => exact .inr ⟨by simp, e, rfl⟩
  | ok universeSet =>
    refine .inl ⟨⟨universeSet, rfl⟩, ?_⟩
    dsimp only
    split <;> rfl

/-- **A refused configuration changes nothing** exactly when the values stored before the pool
is refused are those in force. -/
theorem conf_update_atomic_iff (ctx : CraySlingshot) (conf : Except String Conf) :
    (∀ text, (confUpdateCb X ctx conf).2 = .error text → (confUpdateCb X ctx conf).1 = ctx) ↔
      StoredSafely X ctx conf := by
  cases conf with
  | error text => exact iff_of_true (fun _ _ => rfl) trivial
  | ok conf =>
    show _ ↔ conf.vnisPerJobValue < 0 ∨ _
    have hcb : confUpdateCb X ctx (.ok conf) =
        if conf.vnisPerJobValue < 0 || conf.vnisPerJobValue > 4 then
          (ctx, .error "cray-slingshot: cray-slingshot.vnis-per-job value out of range (0-4)")
        else
          ({vnipool := (vnipoolConfigure X ctx.vnipool (conf.vniPool.getD vniPoolDefault)).1
            vnisPerJob := conf.vnisPerJobValue
            vniReserveFatal := conf.vniReserveFatal.getD vniReserveFatalDefault},
            (vnipoolConfigure X ctx.vnipool (conf.vniPool.getD vniPoolDefault)).2.mapError FluxError.text) := rfl
    rw [hcb]
    split
    · rename_i hrange
      rw [Bool.or_eq_true, decide_eq_true_eq, decide_eq_true_eq] at hrange
      exact iff_of_true (fun _ _ => rfl) (hrange.imp_right .inl)
    · rename_i hrange
      rw [Bool.or_eq_true, decide_eq_true_eq, decide_eq_true_eq, not_or] at hrange
      rw [or_iff_right hrange.1, or_iff_right hrange.2]
      rcases vnipoolConfigure_cases X ctx.vnipool (conf.vniPool.getD vniPoolDefault) with ⟨hpool, hok⟩ | ⟨hpool, e, he⟩
      · rw [hok]
        exact iff_of_true (fun text h => by cases h) (.inl hpool)
      · rw [he, or_iff_right hpool]
        constructor
        · intro h
          have hsame := h e.text rfl
          exact ⟨congrArg CraySlingshot.vnisPerJob hsame, congrArg CraySlingshot.vniReserveFatal hsame⟩
        · rintro ⟨hjobs, hfatal⟩ text -
          rw [hjobs, hfatal]

end Configuration

/-- After the default configuration, one of two VNIs for each job and a pool that is no idset. -/
theorem refused_conf_stored :
    ¬ ∀ text, (confUpdateCb rfcExternals (confUpdateCb rfcExternals {} (.ok {})).1
        (.ok {vniPool := some "x", vnisPerJob := some 2})).2 = .error text →
      (confUpdateCb rfcExternals (confUpdateCb rfcExternals {} (.ok {})).1
        (.ok {vniPool := some "x", vnisPerJob := some 2})).1 = (confUpdateCb rfcExternals {} (.ok {})).1 := by
  intro h
  have hpool : ¬ AcceptedPool rfcExternals "x" := by
    rintro ⟨universeSet, hdecode, -⟩
    have hnone : rfcExternals.decode "x" = .error "parse error" := by
      have hparse : IdsetString.parseRanges "x".toList = none := by decide
      simp only [rfcExternals, IdsetString.decode, hparse, Option.map_none]
    rw [hnone] at hdecode
    cases hdecode
  have hrefused := (vnipoolConfigure_cases rfcExternals
    (confUpdateCb rfcExternals {} (.ok {})).1.vnipool "x").resolve_left fun haccepted => hpool haccepted.1
  obtain ⟨-, e, he⟩ := hrefused
  have hsame := congrArg CraySlingshot.vnisPerJob (h e.text (congrArg (fun r => r.2.mapError FluxError.text) he))
  exact absurd hsame (by decide)

/-! ### Rounds that are lost -/

/-- The round `i` of the loop makes the JSON value of its VNI. -/
def Malloc.keeps (m : Malloc) (i : Nat) : Bool := m.jsonInteger i && m.arrayAppend i

/-- How many of the `n` rounds from `i` do. -/
def Malloc.kept (m : Malloc) : Nat → Nat → Nat
  | _, 0 => 0
  | i, n + 1 => (if m.keeps i then 1 else 0) + m.kept (i + 1) n

theorem Malloc.kept_le (m : Malloc) (i n : Nat) : m.kept i n ≤ n := by
  induction n generalizing i with
  | zero => exact Nat.le_refl 0
  | succ n ih =>
    have hrest := ih (i + 1)
    rw [Malloc.kept]
    split <;> omega

theorem Malloc.kept_eq_iff (m : Malloc) (i n : Nat) : m.kept i n = n ↔ ∀ j < n, m.keeps (i + j) = true := by
  induction n generalizing i with
  | zero => simp [Malloc.kept]
  | succ n ih =>
    have hle := m.kept_le (i + 1) n
    have hsplit : (∀ j < n + 1, m.keeps (i + j) = true) ↔ m.keeps i = true ∧ ∀ j < n, m.keeps (i + 1 + j) = true := by
      simp only [Nat.forall_lt_succ_left, Nat.add_zero, Nat.add_right_comm i 1, Nat.add_assoc]
    rw [hsplit, ← ih, Malloc.kept]
    cases m.keeps i with
    | true =>
      simp only [if_true, true_and]
      omega
    | false =>
      simp only [Bool.false_eq_true, if_false, false_and, iff_false]
      omega

theorem Malloc.kept_eq_zero_iff (m : Malloc) (i n : Nat) :
    m.kept i n = 0 ↔ ∀ j < n, m.keeps (i + j) = false := by
  induction n generalizing i with
  | zero => simp [Malloc.kept]
  | succ n ih =>
    have hsplit : (∀ j < n + 1, m.keeps (i + j) = false) ↔
        m.keeps i = false ∧ ∀ j < n, m.keeps (i + 1 + j) = false := by
      simp only [Nat.forall_lt_succ_left, Nat.add_zero, Nat.add_right_comm i 1, Nat.add_assoc]
    rw [hsplit, ← ih, Malloc.kept]
    cases m.keeps i with
    | true =>
      simp only [if_true, Bool.true_eq_false, false_and, iff_false]
      omega
    | false => simp

theorem card_taken {pick : Pick} {o : Option Idset} {vni : Nat} {rest : Idset}
    (h : idsetAlloc pick o = some (vni, rest)) : rest.card + 1 = (ids o).card := by
  obtain ⟨hmem, rfl⟩ := idsetAlloc_some h
  exact Finset.card_erase_add_one hmem

theorem idsetAlloc_none {pick : Pick} {o : Option Idset} (h : idsetAlloc pick o = none) : (ids o).card = 0 := by
  unfold idsetAlloc at h
  split at h
  · rfl
  · split at h
    · rename_i hempty
      rw [ids_some, hempty]
      rfl
    · cases h

/-- A VNI for each round that is kept. -/
theorem allocLoop_kept {m : Malloc} {pick : Pick} {n : Nat} {vp vp' : Vnipool} {vnis out : List Nat} {i : Nat}
    (h : allocLoop m pick vp vnis i n = (vp', some out)) : out.length = vnis.length + m.kept i n := by
  induction n generalizing vp vnis i with
  | zero =>
    obtain ⟨-, rfl⟩ := Prod.mk.inj h |>.imp_right Option.some.inj
    rfl
  | succ n ih =>
    rw [allocLoop] at h
    split at h
    · cases h
    · rw [Malloc.kept, Malloc.keeps]
      split at h
      · rename_i hkeeps
        rw [ih h, if_pos hkeeps, List.length_append, List.length_singleton, Nat.add_assoc]
      · rename_i hkeeps
        rw [ih h, if_neg hkeeps, Nat.zero_add]

/-- The pool runs out in the last round at the latest. -/
theorem allocLoop_some_iff (m : Malloc) (pick : Pick) (n : Nat) (vp : Vnipool) (vnis : List Nat) (i : Nat) :
    (allocLoop m pick vp vnis i (n + 1)).2.isSome = true ↔ m.kept i n < (ids vp.pool).card := by
  induction n generalizing vp vnis i with
  | zero =>
    rw [allocLoop]
    split
    · rename_i hnone
      rw [idsetAlloc_none hnone]
      simp
    · rename_i vni rest htaken
      have hcard := card_taken htaken
      refine iff_of_true ?_ (show 0 < _ by omega)
      split <;> rfl
  | succ n ih =>
    rw [allocLoop]
    split
    · rename_i hnone
      rw [idsetAlloc_none hnone]
      simp
    · rename_i vni rest htaken
      have hcard := card_taken htaken
      rw [Malloc.kept, Malloc.keeps]
      split
      · rw [ih, ids_some]
        omega
      · rw [ih, pool_put_back htaken, Nat.zero_add]

/-! ### A refused reservation -/

theorem pool_ext {o o' : Option Idset} (hnull : o' = none ↔ o = none) (hmem : ∀ v, v ∈ ids o' ↔ v ∈ ids o) :
    o' = o := by
  cases o with
  | none => exact hnull.mpr rfl
  | some s =>
    cases o' with
    | none => exact absurd (hnull.mp rfl) (Option.some_ne_none s)
    | some t => exact congrArg some (Finset.ext hmem)

theorem vnipool_ext {vp vp' : Vnipool} (hu : vp'.universeSet = vp.universeSet) (hj : vp'.jobs = vp.jobs)
    (hnull : vp'.pool = none ↔ vp.pool = none) (hmem : ∀ v, v ∈ ids vp'.pool ↔ v ∈ ids vp.pool) : vp' = vp := by
  have hpool := pool_ext hnull hmem
  cases vp
  cases vp'
  dsimp only at hu hj hpool
  rw [hu, hj, hpool]

/-- What was taken and freed again was never gone. -/
theorem freeArray_took {vp mid : Vnipool} {new : List Nat} (hc : Configured vp) (ht : Took vp mid new) :
    vnipoolFreeArray mid new = vp := by
  obtain ⟨huniverse, hjobs, hnull, -⟩ := vnipoolFreeArray_spec mid new
  refine vnipool_ext (huniverse.trans ht.universeSet) (hjobs.trans ht.jobs) (hnull.trans ht.null) fun v => ?_
  exact ⟨ht.pool_freed, mem_put_back hc ht⟩

/-- A pool is as it was when nothing was taken. -/
theorem Took.eq_iff {vp mid : Vnipool} {new : List Nat} (ht : Took vp mid new) : mid = vp ↔ new.length = 0 := by
  constructor
  · rintro rfl
    refine List.length_eq_zero_iff.mpr (List.eq_nil_iff_forall_not_mem.mpr fun v hv => ?_)
    exact ((ht.pool v).mp (ht.free v hv)).2 hv
  · intro hnone
    rw [List.length_eq_zero_iff] at hnone
    subst hnone
    exact vnipool_ext ht.universeSet ht.jobs ht.null fun v => (ht.pool v).trans (and_iff_left List.not_mem_nil)

section Reserve
variable (X : Externals)

/-- The VNIs granted to a job: as many as it asked for, free before and now its own. -/
structure ReservedExactly (vp vp' : Vnipool) (id : Nat) (vnicount : Int) (vnis : List Nat) : Prop where
  exact : (vnis.length : Int) = vnicount
  nodup : vnis.Nodup
  free : ∀ v ∈ vnis, v ∈ ids vp.pool
  taken : ∀ v ∈ vnis, v ∉ ids vp'.pool
  recorded : vp'.jobs.get? (X.idf58 id) = some vnis
  alone : ∀ v ∈ vnis, ∀ k, vp'.Holds k v → k = X.idf58 id
  others : ∀ v ∉ vnis, v ∈ ids vp'.pool ↔ v ∈ ids vp.pool
  jobs : ∀ k ≠ X.idf58 id, vp'.jobs.get? k = vp.jobs.get? k

def ExactOrNothing (m : Malloc) (pick : Pick) (vp : Vnipool) (id : Nat) (vnicount : Int) : Prop :=
  match vnipoolReserve X m pick vp id vnicount with
  | (vp', .ok vnis) => ReservedExactly X vp vp' id vnicount vnis
  | (vp', .error _) => vp' = vp

/-- The reservation is refused before it is filed; or it can be filed and no round of it is
lost; or it cannot, and every round is lost before. -/
def NothingLost (m : Malloc) (vp : Vnipool) (vnicount : Int) : Prop :=
  m.jsonArray = false ∨ (ids vp.pool).card ≤ m.kept 0 (vnicount.toNat - 1) ∨
    ∀ i < vnicount.toNat, m.keeps i = m.objectSet

/-- The exits of `vnipool_reserve`, for a count in range. -/
theorem vnipoolReserve_cases (m : Malloc) (pick : Pick) (vp : Vnipool) (id : Nat) {vnicount : Int}
    (hpos : 1 ≤ vnicount) (hle : vnicount ≤ cxiSvcMaxVnis) :
    (∃ mid new e, Took vp mid new ∧
        vnipoolReserve X m pick vp id vnicount = (vnipoolFreeArray mid new, .error e) ∧
        (m.jsonArray = false ∨ (ids vp.pool).card ≤ m.kept 0 (vnicount.toNat - 1))) ∨
      ∃ mid new, Took vp mid new ∧ new.length = m.kept 0 vnicount.toNat ∧
        m.jsonArray = true ∧ m.kept 0 (vnicount.toNat - 1) < (ids vp.pool).card ∧
        ((m.objectSet = true ∧ vnipoolReserve X m pick vp id vnicount =
            ({mid with jobs := mid.jobs.set (X.idf58 id) new}, .ok new)) ∨
          (m.objectSet = false ∧ ∃ e, vnipoolReserve X m pick vp id vnicount = (mid, .error e))) := by
  have hrange : ¬ (decide (vnicount < 0) || decide (vnicount > cxiSvcMaxVnis)) = true := by
    rw [Bool.or_eq_true, decide_eq_true_eq, decide_eq_true_eq]
    omega
  obtain ⟨n, rfl⟩ : ∃ n : Nat, vnicount = n + 1 := ⟨vnicount.toNat - 1, by omega⟩
  unfold vnipoolReserve vnipoolAllocArray
  rw [if_neg hrange]
  have hn : ((n : Int) + 1).toNat = n + 1 := by omega
  rw [hn, Nat.add_sub_cancel]
  have hsome := allocLoop_some_iff m pick n vp [] 0
  cases m.jsonArray with
  | false => exact .inl ⟨vp, [], _, Took.refl vp, rfl, .inl rfl⟩
  | true =>
    obtain ⟨mid, new, ht, h | h⟩ := allocLoop_spec m pick (n + 1) vp [] 0
    · have hkept := allocLoop_kept h
      rw [h] at hsome
      rw [if_pos rfl, h]
      rw [List.nil_append] at hkept ⊢
      dsimp only
      refine .inr ⟨mid, new, ht, by simpa using hkept, rfl, hsome.mp rfl, ?_⟩
      cases m.objectSet with
      | false => exact .inr ⟨rfl, _, rfl⟩
      | true => exact .inl ⟨rfl, rfl⟩
    · rw [h] at hsome
      rw [if_pos rfl, h]
      exact .inl ⟨mid, new, _, ht, rfl, .inr (Nat.le_of_not_lt fun hlt => by simpa using hsome.mpr hlt)⟩

variable {X} {m : Malloc} {pick : Pick} {vp : Vnipool} {id : Nat} {vnicount : Int}

/-- What is granted was free, so no other job has it. -/
theorem reservedExactly_iff {mid : Vnipool} {new : List Nat} (hi : Isolated vp) (ht : Took vp mid new) :
    ReservedExactly X vp {mid with jobs := mid.jobs.set (X.idf58 id) new} id vnicount new ↔
      (new.length : Int) = vnicount := by
  refine ⟨ReservedExactly.exact, fun hlength => ⟨hlength, ht.nodup, ht.free, fun v hv hmem => ?_, ?_, ?_, ?_, ?_⟩⟩
  · exact ((ht.pool v).mp hmem).2 hv
  · exact Dict.get?_set_self _ _ _
  · intro v hv k hk
    rcases (holds_set mid _ new k v).mp hk with ⟨rfl, -⟩ | ⟨-, hold⟩
    · rfl
    · exact absurd (ht.free v hv) (hi.taken k v ((holds_of_jobs_eq ht.jobs k v).mp hold))
  · intro v hv
    exact (ht.pool v).trans (and_iff_left hv)
  · intro k hk
    exact (Dict.get?_set_ne _ _ hk).trans (by rw [ht.jobs])

theorem exactOrNothing_iff (hi : Isolated vp) (hc : Configured vp) (hpos : 1 ≤ vnicount)
    (hle : vnicount ≤ cxiSvcMaxVnis) : ExactOrNothing X m pick vp id vnicount ↔ NothingLost m vp vnicount := by
  unfold ExactOrNothing NothingLost
  have hkept := m.kept_eq_iff 0 vnicount.toNat
  have hnone := m.kept_eq_zero_iff 0 vnicount.toNat
  simp only [Nat.zero_add] at hkept hnone
  rcases vnipoolReserve_cases X m pick vp id hpos hle with ⟨mid, new, e, ht, hr, hwhy⟩ |
    ⟨mid, new, ht, hlength, harray, hcard, ⟨hset, hr⟩ | ⟨hset, e, hr⟩⟩
  · rw [hr]
    exact iff_of_true (freeArray_took hc ht) (hwhy.imp_right .inl)
  · rw [hr, harray, hset, or_iff_right Bool.noConfusion, or_iff_right (Nat.not_le_of_lt hcard), ← hkept]
    refine (reservedExactly_iff hi ht).trans ?_
    rw [hlength]
    omega
  · rw [hr, harray, hset, or_iff_right Bool.noConfusion, or_iff_right (Nat.not_le_of_lt hcard), ← hnone]
    exact ht.eq_iff.trans (by rw [hlength])

end Reserve

/-- **Reservations are exact or have no effect** in every state of a run whose configurations
bring in no VNI that a job still holds, exactly when no round of the loop and no array is lost. -/
theorem reserves_exact_iff (X : Externals) (ops : List Op)
    (hu : (poolMachine X).Legal (Uncontested X) (poolMachine X).init ops) :
    (poolMachine X).Always (fun vp => ∀ (m : Malloc) (pick : Pick) (id : Nat) (vnicount : Int),
      1 ≤ vnicount → vnicount ≤ 4 → vp.jobs.get? (X.idf58 id) = none →
      (ExactOrNothing X m pick vp id vnicount ↔ NothingLost m vp vnicount)) (poolMachine X).init ops := by
  refine Machine.always_from (fun vp => Isolated vp ∧ Configured vp) ?_ ?_ ⟨isolated_create, configured_create⟩ hu
  · rintro vp ⟨hi, hc⟩ m pick id vnicount hpos hle -
    exact exactOrNothing_iff hi hc hpos hle
  · rintro vp op ⟨hi, hc⟩ - hu
    exact ⟨(isolated_apply_iff X vp op hi).mpr hu, configured_apply X op hc⟩

theorem lowPool_reaches : (poolMachine rfcExternals).Reaches vnipoolCreate [.configure "2-3"]
    ⟨some {2, 3}, some {2, 3}, .empty⟩ :=
  .step trivial (apply_configure _ {2, 3} decode_low (by decide) (by decide)) (.nil _)

theorem lowPool_exact_iff : (poolMachine rfcExternals).Always (fun vp =>
    ∀ (m : Malloc) (pick : Pick) (id : Nat) (vnicount : Int), 1 ≤ vnicount → vnicount ≤ 4 →
      vp.jobs.get? (rfcExternals.idf58 id) = none →
      (ExactOrNothing rfcExternals m pick vp id vnicount ↔ NothingLost m vp vnicount))
    vnipoolCreate [.configure "2-3"] :=
  reserves_exact_iff rfcExternals [.configure "2-3"]
    ⟨trivial, uncontested_create rfcExternals (.configure "2-3"), trivial⟩

/-- The first of two JSON integers cannot be made: the job gets one VNI of two. -/
theorem lostRound_inexact : (poolMachine rfcExternals).Possible vnipoolCreate [.configure "2-3"] ∧
    ((poolMachine rfcExternals).run vnipoolCreate [.configure "2-3"]).jobs.get? (rfcExternals.idf58 1) = none ∧
    ¬ ExactOrNothing rfcExternals {jsonInteger := fun i => i ≠ 0} lowest
      ((poolMachine rfcExternals).run vnipoolCreate [.configure "2-3"]) 1 2 := by
  rw [lowPool_reaches.2]
  refine ⟨lowPool_reaches.1, rfl, fun h => ?_⟩
  have hlength : (((1 : Nat) : Int)) = 2 := h.exact
  cases hlength

end FluxCoral2.Slingshot
