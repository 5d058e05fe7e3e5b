import FluxCoral2.Rabbit.Graph

/-! What R says of a rank.

`get_node_children` and `get_node_properties` turn two tables of R, each of which names
ranks, into dictionaries by rank. Both overwrite, so the children are those of the last entry
for the rank; where no rank comes twice it is the only one (`getNodeChildren_get?`). The first
of the two splits the ranks of an entry by hand, and knows a number and a range only
(`getNodeChildren_isSome`). -/
namespace FluxCoral2.Dws2jgf
open Library

/-! ### Children -/

/-- The entry is for one rank or for one range of them. -/
def RankIds.Simple : RankIds → Prop
  | .other _ => False
  | _ => True

/-- What an entry with simple ranks does. -/
theorem getNodeChildren_cons {entry : RLiteEntry} (h : entry.rank.Simple) (rest : List RLiteEntry)
    (d : Dict Nat Children) :
    getNodeChildren (entry :: rest) d = getNodeChildren rest (d.setAll entry.rank.ranks entry.children) := by
  rw [getNodeChildren]
  cases hrank : entry.rank with
  | id rank => rfl
  | range low high => rfl
  | other ranks => exact absurd h (by rw [hrank]; exact id)

theorem getNodeChildren_isSome (rLite : List RLiteEntry) (d : Dict Nat Children) :
    (getNodeChildren rLite d).isSome ↔ ∀ entry ∈ rLite, entry.rank.Simple := by
  induction rLite generalizing d with
  | nil => simp [getNodeChildren]
  | cons entry rest ih =>
    rw [List.forall_mem_cons]
    by_cases h : entry.rank.Simple
    · rw [getNodeChildren_cons h, ih, and_iff_right h]
    · have hnone : getNodeChildren (entry :: rest) d = none := by
        rw [getNodeChildren]
        cases hrank : entry.rank with
        | other ranks => rfl
        | _ => exact absurd (by rw [hrank]; trivial) h
      simp [hnone, h]

/-- The children of a rank that no entry names. -/
theorem getNodeChildren_get?_of_not_mem {rLite : List RLiteEntry} {d d' : Dict Nat Children}
    (h : getNodeChildren rLite d = some d') {rank : Nat}
    (hrank : rank ∉ rLite.flatMap fun entry => entry.rank.ranks) : d'.get? rank = d.get? rank := by
  induction rLite generalizing d with
  | nil =>
    obtain rfl := Option.some.inj h
    rfl
  | cons entry rest ih =>
    have hsimple := (getNodeChildren_isSome _ _).mp (Option.isSome_of_mem h) entry List.mem_cons_self
    rw [getNodeChildren_cons hsimple] at h
    rw [List.flatMap_cons, List.mem_append, not_or] at hrank
    rw [ih h hrank.2, Dict.get?_setAll, if_neg hrank.1]

/-- **The children of a rank** are those of its entry. -/
theorem getNodeChildren_get? {rLite : List RLiteEntry} {d d' : Dict Nat Children}
    (h : getNodeChildren rLite d = some d') (hnodup : (rLite.flatMap fun entry => entry.rank.ranks).Nodup)
    {entry : RLiteEntry} (hentry : entry ∈ rLite) {rank : Nat} (hrank : rank ∈ entry.rank.ranks) :
    d'.get? rank = some entry.children := by
  induction rLite generalizing d with
  | nil => cases hentry
  | cons first rest ih =>
    have hsimple := (getNodeChildren_isSome _ _).mp (Option.isSome_of_mem h) first List.mem_cons_self
    rw [getNodeChildren_cons hsimple] at h
    obtain ⟨-, hrest, hdisjoint⟩ := List.nodup_append'.mp (List.flatMap_cons ▸ hnodup)
    rcases List.mem_cons.mp hentry with rfl | hentry
    · rw [getNodeChildren_get?_of_not_mem h fun hmem => hdisjoint hrank hmem, Dict.get?_setAll, if_pos hrank]
    · exact ih h hrest hentry

/-! ### Properties -/

/-- A property of a rank, if the rank has it. -/
def propertyOf (d : Dict Nat (Dict String String)) (rank : Nat) (name : String) : Option String :=
  ((d.get? rank).getD .empty).get? name

theorem propertyOf_set (d : Dict Nat (Dict String String)) (rank rank' : Nat) (name name' : String) :
    propertyOf (d.set rank' (((d.get? rank').getD .empty).set name' "")) rank name =
      if rank = rank' ∧ name = name' then some "" else propertyOf d rank name := by
  unfold propertyOf
  rw [Dict.get?_set]
  by_cases hrank : rank = rank'
  · subst hrank
    rw [if_pos rfl, Option.getD_some, Dict.get?_set]
    simp
  · rw [if_neg hrank, if_neg fun h => hrank h.1]

theorem propertyOf_foldl (d : Dict Nat (Dict String String)) (ranks : List Nat) (name' : String) (rank : Nat)
    (name : String) :
    propertyOf (ranks.foldl (fun d rank => d.set rank (((d.get? rank).getD .empty).set name' "")) d) rank name =
      if rank ∈ ranks ∧ name = name' then some "" else propertyOf d rank name := by
  induction ranks generalizing d with
  | nil => simp
  | cons rank' rest ih =>
    rw [List.foldl_cons, ih, propertyOf_set]
    by_cases hname : name = name' <;> by_cases hrank : rank = rank' <;> by_cases hrest : rank ∈ rest <;>
      simp [hname, hrank, hrest]

/-- **The properties of a rank** are those whose idset names it. -/
theorem propertyOf_getNodeProperties (properties : Dict String (List Nat)) (rank : Nat) (name : String) :
    propertyOf (getNodeProperties properties) rank name =
      if ∃ e ∈ properties.entries, e.1 = name ∧ rank ∈ e.2 then some "" else none := by
  have hfold (entries : List (String × List Nat)) (d : Dict Nat (Dict String String)) :
      propertyOf (entries.foldl (fun d e =>
        e.2.foldl (fun d rank => d.set rank (((d.get? rank).getD .empty).set e.1 "")) d) d) rank name =
      if ∃ e ∈ entries, e.1 = name ∧ rank ∈ e.2 then some "" else propertyOf d rank name := by
    induction entries generalizing d with
    | nil => simp
    | cons e rest ih =>
      rw [List.foldl_cons, ih, propertyOf_foldl]
      by_cases hrest : ∃ e ∈ rest, e.1 = name ∧ rank ∈ e.2
      · rw [if_pos hrest, if_pos]
        obtain ⟨e', he', h⟩ := hrest
        exact ⟨e', List.mem_cons_of_mem _ he', h⟩
      · rw [if_neg hrest]
        refine if_congr ?_ rfl rfl
        rw [List.exists_mem_cons_iff, or_iff_left hrest, and_comm, eq_comm]
  exact hfold properties.entries .empty

end FluxCoral2.Dws2jgf
