import Mathlib.Algebra.GroupWithZero.Nat
import Mathlib.Data.List.Nodup
import Mathlib.Data.List.Lookmap

/-! Insertion-ordered dictionaries.

The tables the programs keep — Python dictionaries and JSON objects — are lists of
bindings in insertion order. That no key is bound twice is a field, so lookups,
iteration and `keys` cannot disagree. Setting a key that is present keeps its
place; setting a new one appends it; deleting removes the binding. -/
namespace Library

structure Dict (κ ν : Type) where
  entries : List (κ × ν)
  nodup : (entries.map Prod.fst).Nodup

namespace Dict
variable {κ ν : Type}

def empty : Dict κ ν := ⟨[], List.nodup_nil⟩

instance : Inhabited (Dict κ ν) := ⟨empty⟩

def keys (d : Dict κ ν) : List κ := d.entries.map Prod.fst

@[simp] theorem keys_empty : (empty : Dict κ ν).keys = [] := rfl

/-- Two bindings of one key are the same binding. -/
theorem entries_inj (d : Dict κ ν) {k : κ} {v w : ν} (hv : (k, v) ∈ d.entries)
    (hw : (k, w) ∈ d.entries) : v = w := by
  have h := List.inj_on_of_nodup_map d.nodup hv hw rfl
  exact congrArg Prod.snd h

variable [DecidableEq κ]

def get? (d : Dict κ ν) (k : κ) : Option ν :=
  (d.entries.find? fun e => e.1 = k).map Prod.snd

def contains (d : Dict κ ν) (k : κ) : Bool := (d.get? k).isSome

/-- Bindings of other keys are left alone. -/
def replace (k : κ) (v : ν) (e : κ × ν) : κ × ν := if e.1 = k then (k, v) else e

theorem map_replace_fst (k : κ) (v : ν) (l : List (κ × ν)) :
    (l.map (replace k v)).map Prod.fst = l.map Prod.fst := by
  rw [List.map_map]
  apply List.map_congr_left
  intro e _
  by_cases h : e.1 = k <;> simp [replace, h]

def set (d : Dict κ ν) (k : κ) (v : ν) : Dict κ ν :=
  if h : k ∈ d.keys then ⟨d.entries.map (replace k v), by rw [map_replace_fst]; exact d.nodup⟩
  else ⟨d.entries ++ [(k, v)], by
    rw [List.map_append, List.nodup_append]
    refine ⟨d.nodup, by simp, ?_⟩
    intro a ha b hb hab
    simp only [List.map_cons, List.map_nil, List.mem_singleton] at hb
    exact h (hb ▸ hab ▸ ha)⟩

def del (d : Dict κ ν) (k : κ) : Dict κ ν :=
  ⟨d.entries.filter fun e => e.1 ≠ k,
    (List.Sublist.map Prod.fst List.filter_sublist).nodup d.nodup⟩

/-! ### Lookups -/

theorem get?_eq_some (d : Dict κ ν) (k : κ) (v : ν) : d.get? k = some v ↔ (k, v) ∈ d.entries := by
  unfold get?
  constructor
  · intro h
    obtain ⟨e, he, rfl⟩ := Option.map_eq_some_iff.mp h
    have hk : e.1 = k := by simpa using List.find?_some he
    exact hk ▸ List.mem_of_find?_eq_some he
  · intro h
    cases hf : d.entries.find? fun e => e.1 = k with
    | none => exact absurd (List.find?_eq_none.mp hf _ h) (by simp)
    | some e =>
      have hk : e.1 = k := by simpa using List.find?_some hf
      have he : (k, e.2) ∈ d.entries := hk ▸ List.mem_of_find?_eq_some hf
      simp [d.entries_inj he h]

theorem get?_eq_none (d : Dict κ ν) (k : κ) : d.get? k = none ↔ k ∉ d.keys := by
  rw [Option.eq_none_iff_forall_ne_some]
  simp only [ne_eq, get?_eq_some, keys, List.mem_map, not_exists, not_and]
  constructor
  · rintro h ⟨k', v⟩ hm rfl
    exact h v hm
  · intro h v hm
    exact h (k, v) hm rfl

theorem mem_keys (d : Dict κ ν) (k : κ) : k ∈ d.keys ↔ ∃ v, d.get? k = some v := by
  rw [← not_iff_not, ← get?_eq_none, Option.eq_none_iff_forall_ne_some]
  simp

/-- The binding of a key, and the bindings of others around it. -/
theorem entries_split (d : Dict κ ν) {k : κ} {v : ν} (h : d.get? k = some v) :
    ∃ before after, d.entries = before ++ (k, v) :: after ∧ (∀ e ∈ before, e.1 ≠ k) ∧ ∀ e ∈ after, e.1 ≠ k := by
  obtain ⟨before, after, hsplit⟩ := List.append_of_mem ((d.get?_eq_some k v).mp h)
  have hn := d.nodup
  rw [hsplit, List.map_append, List.map_cons, List.nodup_middle, List.nodup_cons, List.mem_append, not_or] at hn
  exact ⟨before, after, hsplit, fun e he hk => hn.1.1 (List.mem_map.mpr ⟨e, he, hk⟩),
    fun e he hk => hn.1.2 (List.mem_map.mpr ⟨e, he, hk⟩)⟩

/-- The entries of a bound key are its binding. -/
theorem filter_entries (d : Dict κ ν) {k : κ} {v : ν} (h : d.get? k = some v) :
    d.entries.filter (fun e => e.1 = k) = [(k, v)] := by
  obtain ⟨before, after, hsplit, hbefore, hafter⟩ := d.entries_split h
  have hout {l : List (κ × ν)} (hl : ∀ e ∈ l, e.1 ≠ k) : l.filter (fun e => e.1 = k) = [] :=
    List.filter_eq_nil_iff.mpr fun e he => by simpa using hl e he
  rw [hsplit, List.filter_append, List.filter_cons_of_pos (by simp), hout hbefore, hout hafter, List.nil_append]

@[simp] theorem get?_empty (k : κ) : (empty : Dict κ ν).get? k = none := rfl

theorem mem_entries_set (d : Dict κ ν) (k : κ) (v : ν) (e : κ × ν) :
    e ∈ (d.set k v).entries ↔ e = (k, v) ∨ (e ∈ d.entries ∧ e.1 ≠ k) := by
  unfold set
  split
  · rename_i h
    obtain ⟨e₀, he₀, hk⟩ := List.mem_map.mp h
    simp only [List.mem_map]
    constructor
    · rintro ⟨x, hx, rfl⟩
      by_cases hxk : x.1 = k
      · exact .inl (by simp [replace, hxk])
      · exact .inr (by simpa [replace, hxk] using hx)
    · rintro (rfl | ⟨hm, hne⟩)
      · exact ⟨e₀, he₀, by simp [replace, hk]⟩
      · exact ⟨e, hm, by simp [replace, hne]⟩
  · rename_i h
    simp only [List.mem_append, List.mem_singleton]
    constructor
    · rintro (hm | rfl)
      · exact .inr ⟨hm, fun hk => h (hk ▸ List.mem_map_of_mem hm)⟩
      · exact .inl rfl
    · rintro (rfl | ⟨hm, -⟩)
      · exact .inr rfl
      · exact .inl hm

@[simp] theorem get?_set_self (d : Dict κ ν) (k : κ) (v : ν) : (d.set k v).get? k = some v := by
  rw [get?_eq_some, mem_entries_set]
  exact .inl rfl

@[simp] theorem get?_set_ne (d : Dict κ ν) {k k' : κ} (v : ν) (h : k' ≠ k) :
    (d.set k v).get? k' = d.get? k' := by
  apply Option.ext
  intro w
  rw [get?_eq_some, get?_eq_some, mem_entries_set]
  simp [h]

theorem get?_set (d : Dict κ ν) (k k' : κ) (v : ν) :
    (d.set k v).get? k' = if k' = k then some v else d.get? k' := by
  by_cases h : k' = k
  · simp [h]
  · simp [h]

@[simp] theorem get?_del_self (d : Dict κ ν) (k : κ) : (d.del k).get? k = none := by
  rw [get?_eq_none]
  simp [keys, del]

@[simp] theorem get?_del_ne (d : Dict κ ν) {k k' : κ} (h : k' ≠ k) :
    (d.del k).get? k' = d.get? k' := by
  apply Option.ext
  intro w
  rw [get?_eq_some, get?_eq_some]
  simp [del, h]

theorem get?_del (d : Dict κ ν) (k k' : κ) :
    (d.del k).get? k' = if k' = k then none else d.get? k' := by
  by_cases h : k' = k
  · simp [h]
  · simp [h]

/-- Deleting a key that is not bound changes nothing. -/
theorem del_of_get?_eq_none (d : Dict κ ν) {k : κ} (h : d.get? k = none) : d.del k = d := by
  have hall : d.entries.filter (fun e => e.1 ≠ k) = d.entries := by
    rw [List.filter_eq_self]
    intro e he
    rw [decide_eq_true_iff]
    intro hk
    exact (d.get?_eq_none k).mp h (hk ▸ List.mem_map_of_mem he)
  cases d with
  | mk entries nodup =>
    unfold del
    congr

theorem mem_keys_set (d : Dict κ ν) (k k' : κ) (v : ν) :
    k' ∈ (d.set k v).keys ↔ k' = k ∨ k' ∈ d.keys := by
  rw [mem_keys, mem_keys, get?_set]
  by_cases h : k' = k <;> simp [h]

/-- Setting a key changes the sum of the values by what it changes of that key. -/
theorem sum_set (d : Dict κ Nat) (k : κ) (v : Nat) :
    ((d.set k v).entries.map Prod.snd).sum + (d.get? k).getD 0 = (d.entries.map Prod.snd).sum + v := by
  by_cases hk : k ∈ d.keys
  · obtain ⟨w, hw⟩ := (d.mem_keys k).mp hk
    obtain ⟨before, after, hsplit, hbefore, hafter⟩ := d.entries_split hw
    have hout {l : List (κ × Nat)} (hl : ∀ e ∈ l, e.1 ≠ k) : l.map (replace k v) = l := by
      refine (List.map_congr_left fun e he => ?_).trans (List.map_id l)
      exact if_neg (hl e he)
    have hin : replace k v (k, w) = (k, v) := if_pos rfl
    rw [set, dif_pos hk, hw]
    dsimp only
    rw [hsplit, List.map_append, List.map_cons, hout hbefore, hout hafter, hin]
    simp
    omega
  · rw [set, dif_neg hk, (d.get?_eq_none k).mpr hk]
    simp

/-! ### Setting several keys -/

def setAll (d : Dict κ ν) (keys : List κ) (v : ν) : Dict κ ν := keys.foldl (fun d k => d.set k v) d

/-- The bindings of `patch` over those of `d`. -/
def merge (d patch : Dict κ ν) : Dict κ ν := patch.entries.foldl (fun d e => d.set e.1 e.2) d

theorem get?_setAll (d : Dict κ ν) (keys : List κ) (v : ν) (k : κ) :
    (d.setAll keys v).get? k = if k ∈ keys then some v else d.get? k := by
  induction keys generalizing d with
  | nil => simp [setAll]
  | cons key rest ih =>
    have hrest := ih (d.set key v)
    rw [get?_set] at hrest
    by_cases hk : k = key <;> by_cases hmem : k ∈ rest <;> simpa [setAll, hk, hmem] using hrest

theorem get?_foldl_set (entries : List (κ × ν)) (hn : (entries.map Prod.fst).Nodup) (d : Dict κ ν)
    (k : κ) : (entries.foldl (fun d e => d.set e.1 e.2) d).get? k =
      ((entries.find? fun e => e.1 = k).map Prod.snd).or (d.get? k) := by
  induction entries generalizing d with
  | nil => rfl
  | cons e rest ih =>
    rw [List.map_cons, List.nodup_cons] at hn
    rw [List.foldl_cons, ih hn.2, get?_set]
    by_cases hk : e.1 = k
    · -- the key does not come again
      have hnone : rest.find? (fun e => e.1 = k) = none := by
        rw [List.find?_eq_none]
        intro x hx hxk
        exact hn.1 (hk.symm ▸ (decide_eq_true_iff.mp hxk) ▸ List.mem_map_of_mem hx)
      simp [hk, hnone]
    · simp [hk, Ne.symm hk]

theorem get?_merge (d patch : Dict κ ν) (k : κ) :
    (d.merge patch).get? k = (patch.get? k).or (d.get? k) :=
  get?_foldl_set patch.entries patch.nodup d k

end Dict
end Library
