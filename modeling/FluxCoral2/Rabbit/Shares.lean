import Mathlib.Algebra.BigOperators.Ring.List
import FluxCoral2.Library.Deal
import FluxCoral2.Rabbit.Placement

/-! How allocations are shared out (`build_allocation_sets`).

Where an allocation set asks for a number of allocations, the rabbits get them in turn, those
with the most nodes of the job first (`placement_balanced`). However they are shared out, they
are no smaller than what was asked for, and larger by less than a byte each unless the minimum
size makes them so (`allocations_cover`). -/
namespace FluxCoral2.Breakdown
open Library

variable {nodesPerNnf : Dict String Nat} {allocSets : List AllocSet} {allocSet : AllocSet}

/-! ### The order of the rabbits -/

/-- The rabbits of a job, those with the most nodes first. -/
def ranking (nodesPerNnf : Dict String Nat) : List String :=
  (nodesPerNnf.entries.insertionSort fun a b => b.2 ≤ a.2).map Prod.fst

theorem mostCommon_eq (nodesPerNnf : Dict String Nat) (count : Nat) :
    mostCommon nodesPerNnf count = (ranking nodesPerNnf).take count := List.map_take

theorem mem_ranking {rabbit : String} : rabbit ∈ ranking nodesPerNnf ↔ rabbit ∈ nodesPerNnf.keys :=
  ((List.perm_insertionSort _ nodesPerNnf.entries).map Prod.fst).mem_iff

theorem nodup_ranking (nodesPerNnf : Dict String Nat) : (ranking nodesPerNnf).Nodup :=
  ((List.perm_insertionSort _ nodesPerNnf.entries).map Prod.fst).nodup_iff.mpr nodesPerNnf.nodup

/-- A rabbit with more nodes comes before one with fewer. -/
theorem idxOf_ranking_le {a b : String} {m n : Nat} (ha : nodesPerNnf.get? a = some m)
    (hb : nodesPerNnf.get? b = some n) (hlt : n < m) :
    (ranking nodesPerNnf).idxOf a ≤ (ranking nodesPerNnf).idxOf b := by
  obtain ⟨sorted, hsorted⟩ : ∃ sorted, sorted = nodesPerNnf.entries.insertionSort fun a b => b.2 ≤ a.2 := ⟨_, rfl⟩
  have hperm : sorted.Perm nodesPerNnf.entries := hsorted ▸ List.perm_insertionSort _ _
  have hpairwise : sorted.Pairwise fun a b => b.2 ≤ a.2 := by
    have : Std.Total fun a b : String × Nat => b.2 ≤ a.2 := ⟨fun a b => Nat.le_total b.2 a.2⟩
    have : IsTrans (String × Nat) fun a b => b.2 ≤ a.2 := ⟨fun _ _ _ hab hbc => Nat.le_trans hbc hab⟩
    exact hsorted ▸ List.pairwise_insertionSort _ _
  have hnodup := nodup_ranking nodesPerNnf
  unfold ranking at hnodup ⊢
  rw [← hsorted] at hnodup ⊢
  obtain ⟨before, after, hsplit⟩ := List.append_of_mem (hperm.mem_iff.mpr ((nodesPerNnf.get?_eq_some a m).mp ha))
  have hmem := hperm.mem_iff.mpr ((nodesPerNnf.get?_eq_some b n).mp hb)
  rw [hsplit] at hpairwise hmem hnodup ⊢
  -- nothing before `a` has fewer nodes than `a`
  have hbefore : (b, n) ∉ before := fun h =>
    absurd ((List.pairwise_append.mp hpairwise).2.2 _ h _ List.mem_cons_self) (Nat.not_le.mpr hlt)
  rw [List.map_append, List.map_cons] at hnodup ⊢
  have ha' : a ∉ before.map Prod.fst := fun h =>
    (List.nodup_append.mp hnodup).2.2 a h a List.mem_cons_self rfl
  have hb' : b ∉ before.map Prod.fst := by
    intro h
    obtain ⟨e, he, rfl⟩ := List.mem_map.mp h
    have hentry := hperm.mem_iff.mp (hsplit ▸ List.mem_append_left _ he)
    have hvalue := nodesPerNnf.entries_inj hentry ((nodesPerNnf.get?_eq_some e.1 n).mp hb)
    exact hbefore (hvalue ▸ he)
  rw [List.idxOf_append_of_notMem ha', List.idxOf_append_of_notMem hb', List.idxOf_cons_self]
  exact Nat.add_le_add_left (Nat.zero_le _) _

/-! ### The rounds -/

/-- A round over as many rabbits as are asked for at most. -/
theorem placeRound_eq {names : List String} {d : Dict String Nat} {count : Nat} (h : names.length ≤ count) :
    placeRound names (d, count) = (names.foldl increment d, count - names.length) := by
  induction names generalizing d count with
  | nil => rfl
  | cons name rest ih =>
    rw [List.length_cons] at h
    rw [placeRound]
    show (if count - 1 = 0 then (increment d name, count - 1) else placeRound rest (increment d name, count - 1)) = _
    rw [List.foldl_cons, List.length_cons, ← Nat.sub_sub, Nat.sub_right_comm]
    split
    · obtain rfl := List.length_eq_zero_iff.mp (by omega : rest.length = 0)
      rfl
    · rw [ih (by omega), Nat.sub_right_comm]

/-- What a placement makes of what the rabbits have: they are dealt the allocations. -/
theorem place_spec (hne : nodesPerNnf.keys ≠ []) {fuel count : Nat} {d : Dict String Nat} (hfuel : count ≤ fuel)
    (hd : Hands (ranking nodesPerNnf) d) : ∃ d', place nodesPerNnf fuel (d, count) = .ok d' ∧
      Hands (ranking nodesPerNnf) d' ∧ handed d' = handed d + count ∧
      ∀ rabbit ∈ ranking nodesPerNnf, tally d' rabbit =
        tally d rabbit + dealt (ranking nodesPerNnf).length count ((ranking nodesPerNnf).idxOf rabbit) := by
  have hpos : 0 < (ranking nodesPerNnf).length := by
    obtain ⟨rabbit, hrabbit⟩ := List.exists_mem_of_ne_nil _ hne
    exact List.length_pos_of_mem (mem_ranking.mpr hrabbit)
  induction fuel generalizing count d with
  | zero =>
    obtain rfl := Nat.le_zero.mp hfuel
    exact ⟨d, by rw [place, if_pos rfl], hd, rfl, fun rabbit _ => by rw [dealt_zero, Nat.add_zero]⟩
  | succ fuel ih =>
    by_cases hzero : count = 0
    · subst hzero
      exact ⟨d, by rw [place, if_pos rfl], hd, rfl, fun rabbit _ => by rw [dealt_zero, Nat.add_zero]⟩
    have hlength : ((ranking nodesPerNnf).take count).length = min count (ranking nodesPerNnf).length :=
      List.length_take
    have hround := placeRound_eq (d := d) (hlength.trans_le (Nat.min_le_left _ _))
    rw [hlength] at hround
    have hhands := hd.foldl (List.take_subset count (ranking nodesPerNnf))
    have hless : count - min count (ranking nodesPerNnf).length ≤ fuel := by omega
    obtain ⟨d', hplace, hhands', htotal, htally⟩ := ih hless hhands
    refine ⟨d', ?_, hhands', ?_, fun rabbit hrabbit => ?_⟩
    · rw [place, if_neg hzero, mostCommon_eq, hround]
      exact hplace
    · rw [htotal, handed_foldl_increment, hlength]
      omega
    · rw [htally rabbit hrabbit, tally_foldl_increment ((nodup_ranking nodesPerNnf).sublist (List.take_sublist _ _)),
        dealt_round (List.idxOf_lt_length_of_mem hrabbit) count, Nat.add_assoc]
      simp only [List.mem_take_iff_idxOf_lt hrabbit]

/-! ### What a rabbit gets -/

/-- The allocations on a rabbit. -/
def countOn (storage : List Storage) (rabbit : String) : Nat :=
  ((storage.filter fun e => e.name = rabbit).map Storage.allocationCount).sum

/-- Storage with an entry for each rabbit of a dictionary. -/
theorem countOn_map (d : Dict String Nat) (share : Nat → Nat) (rabbit : String) :
    countOn (d.entries.map fun e => ⟨share e.2, e.1⟩) rabbit = ((d.get? rabbit).map share).getD 0 := by
  unfold countOn
  rw [List.filter_map, List.map_map]
  show ((d.entries.filter fun e => e.1 = rabbit).map fun e => share e.2).sum = _
  cases h : d.get? rabbit with
  | none =>
    have hnil : d.entries.filter (fun e => e.1 = rabbit) = [] := by
      refine List.filter_eq_nil_iff.mpr fun e he hrabbit => (d.get?_eq_none rabbit).mp h ?_
      exact List.mem_map.mpr ⟨e, he, by simpa using hrabbit⟩
    rw [hnil]
    rfl
  | some n =>
    rw [d.filter_entries h]
    simp

/-! ### A number of allocations -/

/-- The allocation set asks for so many allocations. -/
structure AllocSet.Counted (allocSet : AllocSet) (count : Nat) : Prop where
  strategy : allocSet.allocationStrategy ≠ .perCompute
  required : allocSet.requiredCount = some count
  positive : 1 ≤ count

/-- `count` allocations on the rabbits of a job: in equal shares as far as that goes, and no
less on a rabbit with more nodes. -/
structure Balanced (nodesPerNnf : Dict String Nat) (count : Nat) (storage : List Storage) : Prop where
  distinct : (storage.map Storage.name).Nodup
  known : ∀ e ∈ storage, e.name ∈ nodesPerNnf.keys
  positive : ∀ e ∈ storage, 1 ≤ e.allocationCount
  exact : (storage.map Storage.allocationCount).sum = count
  even : ∀ a ∈ nodesPerNnf.keys, ∀ b ∈ nodesPerNnf.keys, countOn storage a ≤ countOn storage b + 1
  favours : ∀ a b m n, nodesPerNnf.get? a = some m → nodesPerNnf.get? b = some n → n < m →
    countOn storage b ≤ countOn storage a

theorem place_balanced (hne : nodesPerNnf.keys ≠ []) {fuel count : Nat} (hfuel : count ≤ fuel) :
    ∃ counts, place nodesPerNnf fuel (.empty, count) = .ok counts ∧
      Balanced nodesPerNnf count (counts.entries.map fun e => ⟨e.2, e.1⟩) := by
  obtain ⟨counts, hplace, hhands, htotal, htally⟩ := place_spec hne hfuel (hands_empty _)
  have hcount (rabbit : String) : countOn (counts.entries.map fun e => ⟨e.2, e.1⟩) rabbit = tally counts rabbit := by
    rw [countOn_map counts fun n => n, Option.map_id']
    rfl
  have hdealt (rabbit : String) (h : rabbit ∈ nodesPerNnf.keys) : tally counts rabbit =
      dealt (ranking nodesPerNnf).length count ((ranking nodesPerNnf).idxOf rabbit) := by
    rw [htally rabbit (mem_ranking.mpr h)]
    exact Nat.zero_add _
  refine ⟨counts, hplace, ?_, fun e he => ?_, fun e he => ?_, ?_, fun a ha b hb => ?_, fun a b m n ha hb hlt => ?_⟩
  · rw [List.map_map]
    exact counts.nodup
  · obtain ⟨entry, hentry, rfl⟩ := List.mem_map.mp he
    exact mem_ranking.mp (hhands.players _ (List.mem_map_of_mem hentry))
  · obtain ⟨entry, hentry, rfl⟩ := List.mem_map.mp he
    exact hhands.positive _ _ ((counts.get?_eq_some _ _).mpr hentry)
  · rw [List.map_map]
    exact htotal.trans (Nat.zero_add count)
  · rw [hcount, hcount, hdealt a ha, hdealt b hb]
    exact dealt_le_succ ..
  · rw [hcount, hcount, hdealt a ((nodesPerNnf.mem_keys a).mpr ⟨m, ha⟩),
      hdealt b ((nodesPerNnf.mem_keys b).mpr ⟨n, hb⟩)]
    exact dealt_antitone _ _ (idxOf_ranking_le ha hb hlt)

/-- More rounds give the same. -/
theorem place_fuel {fuel fuel' : Nat} (hle : fuel ≤ fuel') {placed : Dict String Nat × Nat} {counts : Dict String Nat}
    (h : place nodesPerNnf fuel placed = .ok counts) : place nodesPerNnf fuel' placed = .ok counts := by
  induction fuel generalizing fuel' placed with
  | zero =>
    unfold place at h ⊢
    split at h
    · rw [if_pos ‹_›]
      exact h
    · cases h
  | succ fuel ih =>
    obtain ⟨fuel', rfl⟩ := Nat.exists_eq_add_of_le' (Nat.le_trans (Nat.succ_le_succ (Nat.zero_le fuel)) hle)
    rw [place] at h ⊢
    split at h
    · rw [if_pos ‹_›]
      exact h
    · rw [if_neg ‹_›]
      exact ih (Nat.le_of_succ_le_succ hle) h

theorem AllocSet.Counted.storageField {count : Nat} (h : allocSet.Counted count) (fuel computeNodeCount : Nat) :
    storageField fuel allocSet nodesPerNnf computeNodeCount =
      (place nodesPerNnf fuel (.empty, count)).map fun counts =>
        (allocSet.minimumCapacity ⌈/⌉ count, counts.entries.map fun e => ⟨e.2, e.1⟩) :=
  storageField_counted h.strategy h.required (Nat.one_le_iff_ne_zero.mp h.positive)

theorem AllocSet.Counted.serverAllocSet {count : Nat} (h : allocSet.Counted count) (hne : nodesPerNnf.keys ≠ [])
    {fuel : Nat} (hfuel : count ≤ fuel) (computeNodeCount minAllocSize : Nat) : ∃ server,
    serverAllocSet fuel nodesPerNnf computeNodeCount minAllocSize allocSet = .ok server := by
  obtain ⟨counts, hplace, -⟩ := place_balanced hne hfuel
  rw [Breakdown.serverAllocSet, h.storageField, hplace]
  exact ⟨_, rfl⟩

/-- The allocations of a set that asks for a number of them, wherever there is a result. -/
theorem AllocSet.Counted.storage {count fuel computeNodeCount allocationSize : Nat} {storage : List Storage}
    (h : allocSet.Counted count) (hne : nodesPerNnf.keys ≠ [])
    (hfield : Breakdown.storageField fuel allocSet nodesPerNnf computeNodeCount = .ok (allocationSize, storage)) :
    allocationSize = allocSet.minimumCapacity ⌈/⌉ count ∧ Balanced nodesPerNnf count storage := by
  obtain ⟨counts, hplace, hbalanced⟩ := place_balanced hne (Nat.le_max_left count fuel)
  rw [h.storageField] at hfield
  cases hrun : place nodesPerNnf fuel (.empty, count) with
  | error e =>
    rw [hrun] at hfield
    cases hfield
  | ok counts' =>
    obtain rfl := Except.ok.inj (hplace.symm.trans (place_fuel (Nat.le_max_right count fuel) hrun))
    rw [hrun] at hfield
    obtain ⟨rfl, rfl⟩ := Prod.mk.inj (Except.ok.inj hfield)
    exact ⟨rfl, hbalanced⟩

/-- **Counted placement** is exact and balanced, and favours the rabbits with the most nodes, in
every call; and an allocation set that asks for a number of allocations gets them. -/
theorem placement_balanced (hne : nodesPerNnf.keys ≠ []) (computeNodeCount minAllocSize : Nat) :
    (∀ allocSet count fuel, allocSet.Counted count → count ≤ fuel → ∃ server,
      buildAllocationSets fuel [allocSet] nodesPerNnf computeNodeCount minAllocSize = .ok [server]) ∧
    ∀ fuel allocSets servers,
      buildAllocationSets fuel allocSets nodesPerNnf computeNodeCount minAllocSize = .ok servers →
      List.Forall₂ (fun allocSet server => ∀ count, allocSet.Counted count →
        Balanced nodesPerNnf count server.storage) allocSets servers := by
  constructor
  · intro allocSet count fuel h hfuel
    obtain ⟨server, hserver⟩ := h.serverAllocSet hne hfuel computeNodeCount minAllocSize
    exact ⟨server, Prog.mapM_eq_ok.mpr (.cons hserver .nil)⟩
  · intro fuel allocSets servers hservers
    refine (Prog.mapM_eq_ok.mp hservers).imp fun allocSet server hserver count h => ?_
    obtain ⟨⟨size, storage⟩, hfield, hok⟩ := Prog.bind_ok hserver
    obtain rfl := Except.ok.inj hok
    exact (h.storage hne hfield).2

/-- Three rabbits, of which the last has the most nodes of the job. -/
def threeRabbits : Dict String Nat := ((Dict.empty.set "rabbit1" 1).set "rabbit2" 1).set "rabbit3" 2

/-- Of five allocations the last rabbit and the first get two. -/
theorem threeRabbits_balanced :
    (∀ allocSet count fuel, allocSet.Counted count → count ≤ fuel → ∃ server,
      buildAllocationSets fuel [allocSet] threeRabbits 4 0 = .ok [server]) ∧
    ∀ fuel allocSets servers, buildAllocationSets fuel allocSets threeRabbits 4 0 = .ok servers →
      List.Forall₂ (fun allocSet server => ∀ count, allocSet.Counted count →
        Balanced threeRabbits count server.storage) allocSets servers :=
  placement_balanced (by decide) 4 0

example : buildAllocationSets 5 [⟨.mdt, .acrossServers, 5 * gib, some 5⟩] threeRabbits 4 0 =
    .ok [⟨gib, .mdt, [⟨2, "rabbit3"⟩, ⟨2, "rabbit1"⟩, ⟨1, "rabbit2"⟩]⟩] := by decide

/-- Allocations per compute are as many as there are nodes, whatever count is asked for. -/
theorem perCompute_not_balanced :
    buildAllocationSets 0 [⟨.xfs, .perCompute, gib, some 3⟩] threeRabbits 4 0 =
        .ok [⟨gib, .xfs, [⟨1, "rabbit1"⟩, ⟨1, "rabbit2"⟩, ⟨2, "rabbit3"⟩]⟩] ∧
      ¬ Balanced threeRabbits 3 [⟨1, "rabbit1"⟩, ⟨1, "rabbit2"⟩, ⟨2, "rabbit3"⟩] :=
  ⟨by decide, fun h => absurd h.exact (by decide)⟩

/-! ### What all allocations come to -/

/-- The number of allocations of a set. -/
def ServerAllocSet.allocations (server : ServerAllocSet) : Nat := (server.storage.map Storage.allocationCount).sum

/-- Their bytes. -/
def ServerAllocSet.bytes (server : ServerAllocSet) : Nat :=
  (server.storage.map fun e => server.allocationSize * e.allocationCount).sum

theorem bytes_eq (server : ServerAllocSet) : server.bytes = server.allocationSize * server.allocations := by
  rw [ServerAllocSet.bytes, ServerAllocSet.allocations, ← List.sum_map_mul_left]

/-- What an allocation set comes to: an allocation for each node, or as many bytes as are asked
for, and at most a byte too many in each allocation if the minimum size is not in force. -/
structure Covers (nodesPerNnf : Dict String Nat) (computeNodeCount minAllocSize fuel : Nat) (allocSet : AllocSet)
    (server : ServerAllocSet) : Prop where
  perCompute : allocSet.allocationStrategy = .perCompute →
    server.allocationSize = max allocSet.minimumCapacity (minAllocSize * gib) ∧
      ∀ rabbit nodecount, nodesPerNnf.get? rabbit = some nodecount → countOn server.storage rabbit = nodecount
  enough : allocSet.allocationStrategy ≠ .perCompute → allocSet.minimumCapacity ≤ server.bytes
  tight : allocSet.allocationStrategy ≠ .perCompute → ∀ size storage,
    storageField fuel allocSet nodesPerNnf computeNodeCount = .ok (size, storage) → minAllocSize * gib ≤ size →
    server.bytes < allocSet.minimumCapacity + server.allocations
  proportional : allocSet.allocationStrategy = .acrossServers → allocSet.count = none →
    ∀ a b m n, nodesPerNnf.get? a = some m → nodesPerNnf.get? b = some n →
      1 ≤ countOn server.storage a ∧ countOn server.storage a * n = countOn server.storage b * m

theorem mul_ceilDiv_lt (n : Nat) {d : Nat} (hd : 0 < d) : d * (n ⌈/⌉ d) < n + d := by
  rw [Nat.ceilDiv_eq_add_pred_div]
  have hle := Nat.mul_div_le (n + d - 1) d
  omega

theorem mul_ceilDiv_mul {g d : Nat} (hg : 0 < g) (hd : 0 < d) (n : Nat) : (g * n) ⌈/⌉ (g * d) = n ⌈/⌉ d := by
  refine eq_of_forall_ge_iff fun m => ?_
  rw [ceilDiv_le_iff_le_mul (Nat.mul_pos hg hd), ceilDiv_le_iff_le_mul hd, Nat.mul_assoc]
  exact ⟨fun h => Nat.le_of_mul_le_mul_left h hg, fun h => Nat.mul_le_mul_left g h⟩

/-- So many allocations of the capacity divided by their number, rounded up. -/
structure Split (allocSet : AllocSet) (size : Nat) (storage : List Storage) : Prop where
  positive : 0 < (storage.map Storage.allocationCount).sum
  size_eq : size = allocSet.minimumCapacity ⌈/⌉ (storage.map Storage.allocationCount).sum

theorem Split.enough {size : Nat} {storage : List Storage} (h : Split allocSet size storage) (minimum : Nat)
    (label : Label) : allocSet.minimumCapacity ≤ ServerAllocSet.bytes ⟨max size minimum, label, storage⟩ := by
  rw [bytes_eq]
  calc allocSet.minimumCapacity
      ≤ (storage.map Storage.allocationCount).sum * size := by
        rw [h.size_eq]
        exact (ceilDiv_le_iff_le_mul h.positive).mp le_rfl
    _ = size * (storage.map Storage.allocationCount).sum := Nat.mul_comm _ _
    _ ≤ max size minimum * (storage.map Storage.allocationCount).sum := Nat.mul_le_mul_right _ (le_max_left _ _)

theorem Split.tight {size minimum : Nat} {storage : List Storage} (h : Split allocSet size storage)
    (hle : minimum ≤ size) (label : Label) : ServerAllocSet.bytes ⟨max size minimum, label, storage⟩ <
      allocSet.minimumCapacity + ServerAllocSet.allocations ⟨max size minimum, label, storage⟩ := by
  rw [bytes_eq, ServerAllocSet.allocations]
  dsimp only
  rw [max_eq_left hle, Nat.mul_comm, h.size_eq]
  exact mul_ceilDiv_lt _ h.positive

theorem handed_pos (hne : nodesPerNnf.keys ≠ [])
    (hnodes : ∀ rabbit nodecount, nodesPerNnf.get? rabbit = some nodecount → 1 ≤ nodecount) :
    0 < handed nodesPerNnf := by
  obtain ⟨rabbit, hrabbit⟩ := List.exists_mem_of_ne_nil _ hne
  obtain ⟨nodecount, hget⟩ := (nodesPerNnf.mem_keys rabbit).mp hrabbit
  have hmem := List.mem_map_of_mem (f := Prod.snd) ((nodesPerNnf.get?_eq_some rabbit nodecount).mp hget)
  exact (hnodes rabbit nodecount hget).trans (List.le_sum_of_mem hmem)

/-- The shares of `nodecountGcd` nodes each. -/
theorem sum_shares (nodesPerNnf : Dict String Nat) :
    nodecountGcd nodesPerNnf * (nodesPerNnf.entries.map fun e => e.2 / nodecountGcd nodesPerNnf).sum =
      handed nodesPerNnf := by
  rw [← List.sum_map_mul_left, handed]
  refine congrArg List.sum (List.map_congr_left fun e he => ?_)
  exact Nat.mul_div_cancel' (nodecountGcd_dvd ((nodesPerNnf.get?_eq_some e.1 e.2).mpr he))

/-- Every set that is not per compute is split, over its count or over the nodes. -/
theorem split_of_ok {fuel size : Nat} {storage : List Storage} (hne : nodesPerNnf.keys ≠ [])
    (hnot : allocSet.allocationStrategy ≠ .perCompute)
    (h : storageField fuel allocSet nodesPerNnf (handed nodesPerNnf) = .ok (size, storage)) :
    Split allocSet size storage := by
  cases hrequired : allocSet.requiredCount with
  | some count =>
    have hfield := h
    rw [storageField, if_neg hnot, hrequired] at hfield
    obtain ⟨quotient, hquotient, -⟩ := Prog.bind_ok hfield
    have hcounted : allocSet.Counted count := ⟨hnot, hrequired, (ceilOfQuotient_ok hquotient).1⟩
    obtain ⟨hsize, hbalanced⟩ := hcounted.storage hne h
    rw [← hbalanced.exact] at hcounted hsize
    exact ⟨hcounted.positive, hsize⟩
  | none =>
    obtain ⟨-, hpos, rfl, rfl⟩ := storageField_across hnot hrequired h
    have hshares := sum_shares nodesPerNnf
    have hsum : ((nodesPerNnf.entries.map fun e =>
        (⟨e.2 / nodecountGcd nodesPerNnf, e.1⟩ : Storage)).map Storage.allocationCount).sum =
        (nodesPerNnf.entries.map fun e => e.2 / nodecountGcd nodesPerNnf).sum := by
      rw [List.map_map]
      rfl
    rw [← hshares] at hpos
    have hgcd := Nat.pos_of_mul_pos_right hpos
    have hallocations := Nat.pos_of_mul_pos_left hpos
    refine ⟨hsum ▸ hallocations, ?_⟩
    rw [hsum, ← hshares, mul_ceilDiv_mul hgcd hallocations]

/-- The shares are in proportion to the nodes. -/
theorem shares_proportional (hnodes : ∀ rabbit nodecount, nodesPerNnf.get? rabbit = some nodecount → 1 ≤ nodecount)
    {a b : String} {m n : Nat} (ha : nodesPerNnf.get? a = some m) (hb : nodesPerNnf.get? b = some n) :
    1 ≤ m / nodecountGcd nodesPerNnf ∧ m / nodecountGcd nodesPerNnf * n = n / nodecountGcd nodesPerNnf * m := by
  obtain ⟨k, hk⟩ := nodecountGcd_dvd ha
  obtain ⟨l, hl⟩ := nodecountGcd_dvd hb
  have hm := hnodes a m ha
  rw [hk] at hm
  have hgcd := Nat.pos_of_mul_pos_right hm
  rw [hk, hl, Nat.mul_div_cancel_left _ hgcd, Nat.mul_div_cancel_left _ hgcd]
  exact ⟨Nat.pos_of_mul_pos_left hm, Nat.mul_left_comm .. |>.trans (by rw [Nat.mul_comm k l, Nat.mul_left_comm])⟩

theorem covers_of_ok {fuel minAllocSize : Nat} {server : ServerAllocSet} (hne : nodesPerNnf.keys ≠ [])
    (hnodes : ∀ rabbit nodecount, nodesPerNnf.get? rabbit = some nodecount → 1 ≤ nodecount)
    (h : serverAllocSet fuel nodesPerNnf (handed nodesPerNnf) minAllocSize allocSet = .ok server) :
    Covers nodesPerNnf (handed nodesPerNnf) minAllocSize fuel allocSet server := by
  obtain ⟨⟨size, storage⟩, hfield, hok⟩ := Prog.bind_ok h
  obtain rfl := Except.ok.inj hok
  refine ⟨fun hper => ?_, fun hnot => ?_, fun hnot size' storage' hfield' hle => ?_,
    fun hacross hnone a b m n ha hb => ?_⟩
  · rw [storageField, if_pos hper] at hfield
    obtain ⟨rfl, rfl⟩ := Prod.mk.inj (Except.ok.inj hfield)
    refine ⟨rfl, fun rabbit nodecount hget => (countOn_map nodesPerNnf (fun n => n) rabbit).trans ?_⟩
    rw [hget]
    rfl
  · exact (split_of_ok hne hnot hfield).enough _ _
  · obtain ⟨rfl, rfl⟩ := Prod.mk.inj (Except.ok.inj (hfield.symm.trans hfield'))
    exact (split_of_ok hne hnot hfield).tight hle _
  · obtain ⟨-, -, -, rfl⟩ :=
      storageField_across (hacross ▸ by decide) ((requiredCount_across hacross).trans hnone) hfield
    have hcount {rabbit : String} {nodecount : Nat} (hget : nodesPerNnf.get? rabbit = some nodecount) :
        countOn (nodesPerNnf.entries.map fun e => ⟨e.2 / nodecountGcd nodesPerNnf, e.1⟩) rabbit =
          nodecount / nodecountGcd nodesPerNnf := by
      rw [countOn_map nodesPerNnf fun n => n / nodecountGcd nodesPerNnf, hget]
      rfl
    dsimp only
    rw [hcount ha, hcount hb]
    exact shares_proportional hnodes ha hb

theorem serverAllocSet_ok {fuel : Nat} (hne : nodesPerNnf.keys ≠ [])
    (hnodes : ∀ rabbit nodecount, nodesPerNnf.get? rabbit = some nodecount → 1 ≤ nodecount)
    (hpositive : allocSet.CountPositive) (hfuel : allocSet.requiredCount.getD 0 ≤ fuel) (minAllocSize : Nat) :
    ∃ server, serverAllocSet fuel nodesPerNnf (handed nodesPerNnf) minAllocSize allocSet = .ok server := by
  by_cases hper : allocSet.allocationStrategy = .perCompute
  · rw [serverAllocSet, storageField, if_pos hper]
    exact ⟨_, rfl⟩
  cases hrequired : allocSet.requiredCount with
  | some count =>
    have hcounted : allocSet.Counted count :=
      ⟨hper, hrequired, Nat.one_le_iff_ne_zero.mpr (requiredCount_pos hpositive hrequired)⟩
    rw [hrequired] at hfuel
    exact hcounted.serverAllocSet hne hfuel _ _
  | none =>
    have hquotient (n : Nat) : ceilOfQuotient .exact n (handed nodesPerNnf) = .ok (n ⌈/⌉ handed nodesPerNnf) :=
      ceilOfQuotient_exact n (Nat.pos_iff_ne_zero.mp (handed_pos hne hnodes))
    rw [serverAllocSet, storageField, if_neg hper, hrequired]
    cases hcounts : nodesPerNnf.entries.map Prod.snd with
    | nil =>
      have hempty := List.map_eq_nil_iff.mp hcounts
      exact absurd (by rw [Dict.keys, hempty, List.map_nil]) hne
    | cons first rest =>
      simp only [reduceGcd, hquotient]
      exact ⟨_, rfl⟩

/-- **Allocations cover the request** without waste, in every call; and every call for sets whose
counts are not zero returns. -/
theorem allocations_cover (hne : nodesPerNnf.keys ≠ [])
    (hnodes : ∀ rabbit nodecount, nodesPerNnf.get? rabbit = some nodecount → 1 ≤ nodecount) (minAllocSize : Nat) :
    (∀ allocSets : List AllocSet, (∀ a ∈ allocSets, a.CountPositive) → ∃ rounds, ∀ fuel, rounds ≤ fuel → ∃ servers,
      buildAllocationSets fuel allocSets nodesPerNnf (handed nodesPerNnf) minAllocSize = .ok servers) ∧
    ∀ fuel allocSets servers,
      buildAllocationSets fuel allocSets nodesPerNnf (handed nodesPerNnf) minAllocSize = .ok servers →
      List.Forall₂ (Covers nodesPerNnf (handed nodesPerNnf) minAllocSize fuel) allocSets servers := by
  constructor
  · intro allocSets hpositive
    refine ⟨(allocSets.map fun a => a.requiredCount.getD 0).sum, fun fuel hfuel => ?_⟩
    have hok (a : AllocSet) (ha : a ∈ allocSets) : ∃ server,
        serverAllocSet fuel nodesPerNnf (handed nodesPerNnf) minAllocSize a = .ok server := by
      refine serverAllocSet_ok hne hnodes (hpositive a ha) (Nat.le_trans ?_ hfuel) minAllocSize
      exact List.le_sum_of_mem (List.mem_map_of_mem (f := fun a => a.requiredCount.getD 0) ha)
    exact Prog.mapM_isOk.mpr hok
  · intro fuel allocSets servers hservers
    exact (Prog.mapM_eq_ok.mp hservers).imp fun allocSet server hserver => covers_of_ok hne hnodes hserver

theorem threeRabbits_pos (rabbit : String) (nodecount : Nat) (h : threeRabbits.get? rabbit = some nodecount) :
    1 ≤ nodecount := by
  have hmem := (threeRabbits.get?_eq_some rabbit nodecount).mp h
  have hall : ∀ e ∈ threeRabbits.entries, 1 ≤ e.2 := by decide
  exact hall _ hmem

/-- A request of a GiB on four nodes. -/
theorem threeRabbits_cover :
    (∀ allocSets : List AllocSet, (∀ a ∈ allocSets, a.CountPositive) → ∃ rounds, ∀ fuel, rounds ≤ fuel → ∃ servers,
      buildAllocationSets fuel allocSets threeRabbits (handed threeRabbits) 0 = .ok servers) ∧
    ∀ fuel allocSets servers, buildAllocationSets fuel allocSets threeRabbits (handed threeRabbits) 0 = .ok servers →
      List.Forall₂ (Covers threeRabbits (handed threeRabbits) 0 fuel) allocSets servers :=
  allocations_cover (by decide) threeRabbits_pos 0

example : buildAllocationSets 0 [⟨.ost, .acrossServers, 10, none⟩] threeRabbits (handed threeRabbits) 0 =
    .ok [⟨3, .ost, [⟨1, "rabbit1"⟩, ⟨1, "rabbit2"⟩, ⟨2, "rabbit3"⟩]⟩] := by decide

end FluxCoral2.Breakdown
