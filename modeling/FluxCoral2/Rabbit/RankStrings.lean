import Mathlib.Data.Finset.Sort
import FluxCoral2.Library.IntString
import FluxCoral2.Rabbit.Ranks

/-! The rank strings of R (`flux-dws2jgf.py`).

R gives the ranks of an entry as an idset string. `get_node_properties` has `IDset` decode
such strings; `get_node_children` reads them by hand, as an integer or as two with a dash
between them. That is what R has as long as all the nodes are alike: with lists of ranks,
or brackets, the call fails, though `IDset` takes the same strings: `ranks_decoded_iff`. -/
namespace FluxCoral2.Dws2jgf
open Library Library.IntString

/-! ### Reading an entry -/

/-- `range(low, high + 1)`. -/
def intRange (low high : Int) : List Int := (List.range (high + 1 - low).toNat).map fun (i : Nat) => low + i

/-- The keys that an entry is stored under; none for a ValueError. -/
def entryRanks (rank : List Char) : Option (List Int) :=
  match parseInt rank with
  | some rank => some [rank]
  | none =>
    match rank.splitOn '-' with
    | [low, high] => do
      let low ← parseInt low
      let high ← parseInt high
      some (intRange low high)
    | _ => none

/-- `get_node_children`, of entries with their rank strings. -/
def getNodeChildrenOf : List (String × Children) → Dict Int Children → Option (Dict Int Children)
  | [], rankToChildren => some rankToChildren
  | entry :: rest, rankToChildren => do
    let ranks ← entryRanks entry.1.toList
    getNodeChildrenOf rest (rankToChildren.setAll ranks entry.2)

/-- `get_node_properties`, of idset strings, with what `IDset` makes of them. -/
def getNodePropertiesOf (idset : String → Option (Finset Nat)) (properties : Dict String String) :
    Option (Dict Nat (Dict String String)) :=
  properties.entries.foldlM (fun rankToProperty e => do
    let ids ← idset e.2
    some ((ids.sort (· ≤ ·)).foldl (fun d rank => d.set rank (((d.get? rank).getD .empty).set e.1 "")) rankToProperty))
    .empty

/-! ### Single ids and ranges -/

/-- One id or one range, without brackets. -/
structure Single (s : String) : Prop where
  nonempty : s.toList ≠ []
  comma : ',' ∉ s.toList
  bracket : '[' ∉ s.toList

theorem mem_intRange (low high : Nat) (k : Int) :
    k ∈ intRange low high ↔ ∃ rank : Nat, (low ≤ rank ∧ rank ≤ high) ∧ k = rank := by
  rw [intRange, List.mem_map]
  constructor
  · rintro ⟨i, hi, rfl⟩
    rw [List.mem_range] at hi
    exact ⟨low + i, by omega, by omega⟩
  · rintro ⟨rank, hrank, rfl⟩
    exact ⟨rank - low, List.mem_range.mpr (by omega), by omega⟩

/-- A piece of a text has the text's own characters. -/
theorem splitOn_pair {cs a b : List Char} {c : Char} (h : cs.splitOn c = [a, b]) : cs = a ++ c :: b := by
  have hjoin : [c].intercalate (cs.splitOn c) = cs := List.intercalate_splitOn c
  rw [h] at hjoin
  simpa [List.intercalate] using hjoin.symm

/-- Neither of the two readings takes a comma or a bracket. -/
theorem entryRanks_eq_none {cs : List Char} {c : Char} (hc : c ∈ cs) (h : Foreign c) : entryRanks cs = none := by
  rw [entryRanks, parseInt_eq_none hc h]
  dsimp only
  split
  · rename_i a b hsplit
    rw [splitOn_pair hsplit, List.mem_append, List.mem_cons] at hc
    rcases hc with hc | rfl | hc
    · rw [parseInt_eq_none hc h]
      rfl
    · exact absurd rfl h.sign.1
    · rw [parseInt_eq_none hc h]
      cases parseInt a <;> rfl
  · rfl

/-- What an idset string says when it has no commas and no brackets. -/
theorem decode_single {s : String} (h : Single s) :
    IdsetString.decode s = (IdsetString.parseRange s.toList).map fun r => IdsetString.cover [r] := by
  have hunbracket : IdsetString.unbracket s.toList = s.toList := by
    refine if_neg fun hends => h.bracket ?_
    exact List.mem_of_mem_head? (by rw [hends.1]; rfl)
  have hranges : IdsetString.parseRanges s.toList = (IdsetString.parseRange s.toList).map fun r => [r] := by
    rw [IdsetString.parseRanges, hunbracket]
    cases hs : s.toList with
    | nil => exact absurd hs h.nonempty
    | cons c rest =>
      have hcomma := h.comma
      rw [hs] at hcomma
      show List.mapM IdsetString.parseRange ((c :: rest).splitOn ',') = _
      rw [List.splitOn_eq_singleton hcomma]
      cases hrange : IdsetString.parseRange (c :: rest) <;> simp [hrange]
  rw [IdsetString.decode, hranges, Option.map_map]
  rfl

/-- Such a string is read as it is decoded. -/
theorem entryRanks_single {s : String} (h : Single s) {ids : Finset Nat} (hs : IdsetString.decode s = some ids) :
    ∃ ranks, entryRanks s.toList = some ranks ∧ ∀ k : Int, k ∈ ranks ↔ ∃ rank ∈ ids, k = (rank : Int) := by
  rw [decode_single h] at hs
  obtain ⟨⟨low, high⟩, hrange, rfl⟩ := Option.map_eq_some_iff.mp hs
  have hmem (rank : Nat) : rank ∈ IdsetString.cover [(low, high)] ↔ low ≤ rank ∧ rank ≤ high := by
    simp [IdsetString.mem_cover]
  unfold IdsetString.parseRange at hrange
  split at hrange
  · rename_i a hsplit
    obtain ⟨n, hn, hpair⟩ := Option.map_eq_some_iff.mp hrange
    obtain ⟨rfl, rfl⟩ := Prod.mk.inj hpair
    have hjoin : ['-'].intercalate (s.toList.splitOn '-') = s.toList := List.intercalate_splitOn '-'
    rw [hsplit] at hjoin
    have ha : a = s.toList := by simpa [List.intercalate] using hjoin
    rw [ha] at hn
    refine ⟨[(n : Int)], by rw [entryRanks, parseInt_of_parseId hn], fun k => ?_⟩
    simp only [List.mem_singleton, hmem]
    constructor
    · rintro rfl
      exact ⟨n, ⟨le_rfl, le_rfl⟩, rfl⟩
    · rintro ⟨rank, ⟨hlow, hhigh⟩, rfl⟩
      rw [Nat.le_antisymm hhigh hlow]
  · rename_i a b hsplit
    obtain ⟨lo, ha, hrange⟩ := Option.bind_eq_some_iff.mp hrange
    obtain ⟨hi, hb, hrange⟩ := Option.bind_eq_some_iff.mp hrange
    split at hrange
    · obtain ⟨rfl, rfl⟩ := Prod.mk.inj (Option.some.inj hrange)
      refine ⟨intRange lo hi, ?_, fun k => ?_⟩
      · have hnone : parseInt s.toList = none := by
          rw [splitOn_pair hsplit]
          exact parseInt_range ha hb
        rw [entryRanks, hnone]
        dsimp only
        rw [hsplit]
        dsimp only
        rw [parseInt_of_parseId ha, parseInt_of_parseId hb]
        rfl
      · rw [mem_intRange]
        exact exists_congr fun rank => and_congr_left fun _ => (hmem rank).symm
    · cases hrange
  · cases hrange

theorem foreign_comma : Foreign ',' := ⟨by decide, by decide, by decide, by decide⟩

theorem foreign_bracket : Foreign '[' := ⟨by decide, by decide, by decide, by decide⟩

theorem single_of_entryRanks {s : String} (h : (entryRanks s.toList).isSome = true) : Single s := by
  refine ⟨fun hnil => ?_, fun hc => ?_, fun hc => ?_⟩
  · rw [hnil] at h
    exact absurd h (by decide)
  · rw [entryRanks_eq_none hc foreign_comma] at h
    cases h
  · rw [entryRanks_eq_none hc foreign_bracket] at h
    cases h

/-! ### All entries -/

theorem getNodeChildrenOf_isSome (rLite : List (String × Children)) (d : Dict Int Children) :
    (getNodeChildrenOf rLite d).isSome = true ↔ ∀ entry ∈ rLite, (entryRanks entry.1.toList).isSome = true := by
  induction rLite generalizing d with
  | nil => simp [getNodeChildrenOf]
  | cons entry rest ih =>
    rw [List.forall_mem_cons, getNodeChildrenOf]
    cases entryRanks entry.1.toList with
    | none => simp
    | some ranks =>
      rw [Option.isSome_some, and_iff_right rfl]
      exact ih _

/-- The entries have ranks of their own. -/
def RanksApart (idset : String → Option (Finset Nat)) (rLite : List (String × Children)) : Prop :=
  rLite.Pairwise fun a b => ∀ ids ids', idset a.1 = some ids → idset b.1 = some ids' → ∀ rank ∈ ids, rank ∉ ids'

section Entries
variable {idset : String → Option (Finset Nat)}

/-- The rank is in the idset of the entry. -/
def Names (idset : String → Option (Finset Nat)) (entry : String × Children) (k : Int) : Prop :=
  ∃ ids, idset entry.1 = some ids ∧ ∃ rank ∈ ids, k = (rank : Int)

theorem RanksApart.head {first : String × Children} {rest : List (String × Children)}
    (h : RanksApart idset (first :: rest)) {entry : String × Children} (hentry : entry ∈ rest) {k : Int}
    (hk : Names idset first k) : ¬ Names idset entry k := by
  rintro ⟨ids', hids', rank', hrank', heq⟩
  obtain ⟨ids, hids, rank, hrank, rfl⟩ := hk
  obtain rfl := Int.ofNat.inj heq
  exact (List.pairwise_cons.mp h).1 entry hentry ids ids' hids hids' rank hrank hrank'

/-- Where every entry is read as it is decoded, each rank gets the children of its entry. -/
theorem getNodeChildrenOf_get? {rLite : List (String × Children)} {d d' : Dict Int Children}
    (hread : ∀ entry ∈ rLite, ∃ ranks, entryRanks entry.1.toList = some ranks ∧ ∀ k, k ∈ ranks ↔ Names idset entry k)
    (hapart : RanksApart idset rLite) (h : getNodeChildrenOf rLite d = some d') (k : Int) (children : Children) :
    d'.get? k = some children ↔ (∃ entry ∈ rLite, Names idset entry k ∧ entry.2 = children) ∨
      ((∀ entry ∈ rLite, ¬ Names idset entry k) ∧ d.get? k = some children) := by
  induction rLite generalizing d with
  | nil =>
    obtain rfl := Option.some.inj h
    simp
  | cons first rest ih =>
    obtain ⟨hfirst, hrest⟩ := List.forall_mem_cons.mp hread
    obtain ⟨ranks, hranks, hmem⟩ := hfirst
    obtain ⟨ranks', hranks', h⟩ := Option.bind_eq_some_iff.mp h
    obtain rfl := Option.some.inj (hranks.symm.trans hranks')
    rw [ih hrest (List.pairwise_cons.mp hapart).2 h, Dict.get?_setAll, List.exists_mem_cons_iff, List.forall_mem_cons]
    by_cases hk : Names idset first k
    · have hothers : ∀ entry ∈ rest, ¬ Names idset entry k := fun entry hentry => hapart.head hentry hk
      have hnone : ¬ ∃ entry ∈ rest, Names idset entry k ∧ entry.2 = children := by
        rintro ⟨entry, hentry, hnames, -⟩
        exact hothers entry hentry hnames
      rw [if_pos ((hmem k).mpr hk)]
      simp only [hnone, hk, and_iff_right hothers, Option.some.injEq, false_or, or_false, true_and, not_true,
        false_and]
    · rw [if_neg fun hin => hk ((hmem k).mp hin)]
      simp [hk]

theorem mem_keys_foldl_set (name : String) (ranks : List Nat) (d : Dict Nat (Dict String String)) (rank : Nat) :
    rank ∈ (ranks.foldl (fun d rank => d.set rank (((d.get? rank).getD .empty).set name "")) d).keys ↔
      rank ∈ ranks ∨ rank ∈ d.keys := by
  induction ranks generalizing d with
  | nil => simp
  | cons first rest ih =>
    rw [List.foldl_cons, ih, Dict.mem_keys_set, List.mem_cons]
    tauto

/-- The ranks of the properties are those of the idsets. -/
theorem mem_keys_getNodePropertiesOf {properties : Dict String String} {d' : Dict Nat (Dict String String)}
    (h : getNodePropertiesOf idset properties = some d') (rank : Nat) :
    rank ∈ d'.keys ↔ ∃ s ∈ properties.entries.map Prod.snd, ∃ ids, idset s = some ids ∧ rank ∈ ids := by
  have hfold (entries : List (String × String)) (d : Dict Nat (Dict String String))
      (h : entries.foldlM (fun rankToProperty e => do
        let ids ← idset e.2
        some ((ids.sort (· ≤ ·)).foldl
          (fun d rank => d.set rank (((d.get? rank).getD .empty).set e.1 "")) rankToProperty)) d = some d') :
      rank ∈ d'.keys ↔ (∃ s ∈ entries.map Prod.snd, ∃ ids, idset s = some ids ∧ rank ∈ ids) ∨ rank ∈ d.keys := by
    induction entries generalizing d with
    | nil =>
      obtain rfl := Option.some.inj h
      simp
    | cons e rest ih =>
      obtain ⟨next, hnext, h⟩ := Option.bind_eq_some_iff.mp h
      obtain ⟨ids, hids, hnext⟩ := Option.bind_eq_some_iff.mp hnext
      obtain rfl := Option.some.inj hnext
      rw [ih _ h, mem_keys_foldl_set, Finset.mem_sort, List.map_cons, List.exists_mem_cons_iff]
      simp only [hids, Option.some.injEq, exists_eq_left']
      exact or_left_comm.trans or_assoc.symm
  refine (hfold properties.entries .empty h).trans (or_iff_left ?_)
  exact List.not_mem_nil

end Entries

/-- Every rank has the children of its entry, no other key has any, and the properties that
are given for the same strings are of the same ranks. -/
structure DecodesRanks (idset : String → Option (Finset Nat)) (rLite : List (String × Children))
    (rankToChildren : Dict Int Children) : Prop where
  children : ∀ k children, rankToChildren.get? k = some children ↔
    ∃ entry ∈ rLite, Names idset entry k ∧ entry.2 = children
  agrees : ∀ (properties : Dict String String) (rankToProperty : Dict Nat (Dict String String)),
    properties.entries.map Prod.snd = rLite.map Prod.fst → getNodePropertiesOf idset properties = some rankToProperty →
    ∀ k, k ∈ rankToChildren.keys ↔ ∃ rank ∈ rankToProperty.keys, k = (rank : Int)

/-- **Every rank of R is decoded** exactly when each entry is for one rank or for one range. -/
theorem ranks_decoded_iff (idset : String → Option (Finset Nat)) (rLite : List (String × Children))
    (hidset : ∀ entry ∈ rLite, ∃ ids, IdsetString.decode entry.1 = some ids ∧ idset entry.1 = some ids)
    (hapart : RanksApart idset rLite) :
    (∃ rankToChildren, getNodeChildrenOf rLite .empty = some rankToChildren ∧
      DecodesRanks idset rLite rankToChildren) ↔ ∀ entry ∈ rLite, Single entry.1 := by
  constructor
  · rintro ⟨rankToChildren, hcall, -⟩ entry hentry
    have hsome := (getNodeChildrenOf_isSome rLite .empty).mp (by rw [hcall]; rfl)
    exact single_of_entryRanks (hsome entry hentry)
  · intro hsingle
    have hread (entry : String × Children) (hentry : entry ∈ rLite) : ∃ ranks,
        entryRanks entry.1.toList = some ranks ∧ ∀ k, k ∈ ranks ↔ Names idset entry k := by
      obtain ⟨ids, hdecode, hids⟩ := hidset entry hentry
      obtain ⟨ranks, hranks, hmem⟩ := entryRanks_single (hsingle entry hentry) hdecode
      refine ⟨ranks, hranks, fun k => (hmem k).trans ?_⟩
      simp [Names, hids]
    have hsome := (getNodeChildrenOf_isSome rLite .empty).mpr fun entry hentry => by
      obtain ⟨ranks, hranks, -⟩ := hread entry hentry
      rw [hranks]
      rfl
    obtain ⟨rankToChildren, hcall⟩ := Option.isSome_iff_exists.mp hsome
    have hchildren (k : Int) (children : Children) : rankToChildren.get? k = some children ↔
        ∃ entry ∈ rLite, Names idset entry k ∧ entry.2 = children := by
      refine (getNodeChildrenOf_get? hread hapart hcall k children).trans (or_iff_left ?_)
      rintro ⟨-, hempty⟩
      cases hempty
    refine ⟨rankToChildren, hcall, hchildren, fun properties rankToProperty hsame hproperties k => ?_⟩
    rw [Dict.mem_keys]
    simp only [hchildren, mem_keys_getNodePropertiesOf hproperties, hsame]
    constructor
    · rintro ⟨children, entry, hentry, ⟨ids, hids, rank, hrank, rfl⟩, -⟩
      exact ⟨rank, ⟨entry.1, List.mem_map_of_mem hentry, ids, hids, hrank⟩, rfl⟩
    · rintro ⟨rank, ⟨s, hs, ids, hids, hrank⟩, rfl⟩
      obtain ⟨entry, hentry, rfl⟩ := List.mem_map.mp hs
      exact ⟨entry.2, entry, hentry, ⟨ids, hids, rank, hrank, rfl⟩, rfl⟩

def noChildren : Children := ⟨[], List.nodup_nil, nofun⟩

/-- An id and a range: the ranks of a node that is unlike the others, and of the others. -/
def unlikeNodes : List (String × Children) := [("0", noChildren), ("2-3", noChildren)]

theorem decode_zero : IdsetString.decode "0" = some {0} :=
  IdsetString.decode_eq (show IdsetString.parseRanges "0".toList = some [(0, 0)] by decide) fun v => by simp

theorem decode_two_three : IdsetString.decode "2-3" = some {2, 3} :=
  IdsetString.decode_eq (show IdsetString.parseRanges "2-3".toList = some [(2, 3)] by decide) fun v => by
    simp only [Finset.mem_insert, Finset.mem_singleton, List.mem_singleton, exists_eq_left]
    omega

theorem unlikeNodes_decoded_iff :
    (∃ rankToChildren, getNodeChildrenOf unlikeNodes .empty = some rankToChildren ∧
      DecodesRanks IdsetString.decode unlikeNodes rankToChildren) ↔ ∀ entry ∈ unlikeNodes, Single entry.1 := by
  refine ranks_decoded_iff IdsetString.decode unlikeNodes (fun entry hentry => ?_) ?_
  · rcases List.mem_cons.mp hentry with rfl | hentry
    · exact ⟨_, decode_zero, decode_zero⟩
    · obtain rfl := List.mem_singleton.mp hentry
      exact ⟨_, decode_two_three, decode_two_three⟩
  · refine List.pairwise_pair.mpr fun ids ids' h h' => ?_
    obtain rfl := Option.some.inj (decode_zero.symm.trans h)
    obtain rfl := Option.some.inj (decode_two_three.symm.trans h')
    decide

/-- The ranks of nodes that are alike, one of which is missing. -/
theorem missingRank_not_decoded :
    IdsetString.decode "0,2-3" = some {0, 2, 3} ∧
      ¬ ∃ rankToChildren, getNodeChildrenOf [("0,2-3", noChildren)] .empty = some rankToChildren ∧
        DecodesRanks IdsetString.decode [("0,2-3", noChildren)] rankToChildren := by
  constructor
  · refine IdsetString.decode_eq (show IdsetString.parseRanges "0,2-3".toList = some [(0, 0), (2, 3)] by decide)
      fun v => ?_
    simp only [Finset.mem_insert, Finset.mem_singleton, List.mem_cons, List.not_mem_nil, or_false, exists_eq_or_imp,
      exists_eq_left]
    omega
  · rintro ⟨rankToChildren, hcall, -⟩
    have hnone : entryRanks "0,2-3".toList = none := by decide
    rw [getNodeChildrenOf, hnone] at hcall
    cases hcall

/-! ### Decoded ranks -/

/-- How the rank string of an entry reads, of an entry whose idset is decoded. -/
def RankIds.Reads (ranks : RankIds) (s : String) : Prop :=
  match ranks with
  | .other _ => ¬ Single s
  | ranks => entryRanks s.toList = some (ranks.ranks.map fun (rank : Nat) => (rank : Int))

/-- The entries of a graph's R are what is made of their rank strings. -/
theorem getNodeChildrenOf_decoded {strings : List (String × Children)} {rLite : List RLiteEntry}
    (h : List.Forall₂ (fun s entry => entry.rank.Reads s.1 ∧ s.2 = entry.children) strings rLite)
    {d : Dict Int Children} {d' result : Dict Nat Children} (hd : ∀ rank : Nat, d.get? rank = d'.get? rank)
    (hresult : getNodeChildren rLite d' = some result) :
    ∃ result', getNodeChildrenOf strings d = some result' ∧ ∀ rank : Nat, result'.get? rank = result.get? rank := by
  induction h generalizing d d' with
  | nil =>
    obtain rfl := Option.some.inj hresult
    exact ⟨d, rfl, hd⟩
  | @cons s entry strings rLite hreads _ ih =>
    obtain ⟨hreads, hchildren⟩ := hreads
    have hsimple := (getNodeChildren_isSome _ _).mp (Option.isSome_of_mem hresult) entry List.mem_cons_self
    have hranks : entryRanks s.1.toList = some (entry.rank.ranks.map fun (rank : Nat) => (rank : Int)) := by
      cases hrank : entry.rank with
      | other ranks => exact absurd hsimple (by rw [hrank]; exact id)
      | _ => rwa [hrank] at hreads
    rw [getNodeChildren_cons hsimple] at hresult
    rw [getNodeChildrenOf, hranks, hchildren]
    refine ih (fun rank => ?_) hresult
    rw [Dict.get?_setAll, Dict.get?_setAll, hd]
    exact if_congr (List.mem_map_of_injective fun a b h => Int.ofNat.inj h) rfl rfl

end FluxCoral2.Dws2jgf
