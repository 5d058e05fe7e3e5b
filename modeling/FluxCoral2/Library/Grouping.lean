import Mathlib.Data.List.Basic
import Mathlib.Data.List.Induction
import Mathlib.Data.List.Pairwise

/-! Grouping by first fit.

Items come one after the other, each with a key. An item joins the first group whose key is
equivalent to its own, or else founds a group behind the others. `grouped`: the groups are then
the classes of the keys in the order of their first items, and each has its items in the order
in which they came. -/
namespace Library.Grouping
variable {α β : Type}

section Definitions
variable (same : α → α → Bool)

/-- The groups with one more item. -/
def insert (key : α) (item : β) : List (α × List β) → List (α × List β)
  | [] => [(key, [item])]
  | (k, items) :: rest =>
    if same k key then (k, items ++ [item]) :: rest else (k, items) :: insert key item rest

def group (xs : List (α × β)) : List (α × List β) := xs.foldl (fun groups x => insert same x.1 x.2 groups) []

/-- The items whose keys are equivalent to a key. -/
def itemsOf (key : α) (xs : List (α × β)) : List β := (xs.filter fun x => same key x.1).map Prod.snd

end Definitions

/-- The groups are the classes of the keys, each with all of its items. -/
structure Grouped (same : α → α → Bool) (xs : List (α × β)) (groups : List (α × List β)) : Prop where
  apart : (groups.map Prod.fst).Pairwise fun k k' => same k k' = false
  items : ∀ g ∈ groups, g.2 = itemsOf same g.1 xs
  key : ∀ g ∈ groups, ∃ x ∈ xs, x.1 = g.1
  all : ∀ x ∈ xs, ∃ g ∈ groups, same g.1 x.1 = true

section Insertion
variable {same : α → α → Bool} {key : α} {item : β} {groups : List (α × List β)}

theorem insert_of_none (h : ∀ g ∈ groups, same g.1 key = false) :
    insert same key item groups = groups ++ [(key, [item])] := by
  induction groups with
  | nil => rfl
  | cons g rest ih =>
    obtain ⟨hg, hrest⟩ := List.forall_mem_cons.mp h
    rw [insert, hg, ih hrest]
    rfl

theorem insert_of_first {before after : List (α × List β)} {g : α × List β}
    (hbefore : ∀ g ∈ before, same g.1 key = false) (hg : same g.1 key = true) :
    insert same key item (before ++ g :: after) = before ++ (g.1, g.2 ++ [item]) :: after := by
  induction before with
  | nil =>
    rw [List.nil_append, insert, if_pos hg]
    rfl
  | cons b rest ih =>
    obtain ⟨hb, hrest⟩ := List.forall_mem_cons.mp hbefore
    rw [List.cons_append, insert, hb, ih hrest]
    rfl

/-- Either no group fits, or there is a first one. -/
theorem first_fit (same : α → α → Bool) (key : α) (groups : List (α × List β)) :
    (∀ g ∈ groups, same g.1 key = false) ∨ ∃ before g after, groups = before ++ g :: after ∧
      same g.1 key = true ∧ ∀ g ∈ before, same g.1 key = false := by
  induction groups with
  | nil => exact .inl nofun
  | cons g rest ih =>
    cases hg : same g.1 key with
    | true => exact .inr ⟨[], g, rest, rfl, hg, nofun⟩
    | false =>
      obtain hnone | ⟨before, g', after, rfl, hg', hbefore⟩ := ih
      · exact .inl (List.forall_mem_cons.mpr ⟨hg, hnone⟩)
      · exact .inr ⟨g :: before, g', after, rfl, hg', List.forall_mem_cons.mpr ⟨hg, hbefore⟩⟩

end Insertion

theorem itemsOf_append (same : α → α → Bool) (key : α) (xs : List (α × β)) (x : α × β) :
    itemsOf same key (xs ++ [x]) = itemsOf same key xs ++ (if same key x.1 then [x.2] else []) := by
  unfold itemsOf
  rw [List.filter_append, List.map_append]
  cases h : same key x.1 <;> simp [h]

section Equivalence
variable {same : α → α → Bool} {xs : List (α × β)} {groups : List (α × List β)} {x : α × β}

/-- An item that fits in no group founds one. -/
theorem Grouped.found (hsame : Equivalence fun a b => same a b = true) (h : Grouped same xs groups)
    (hnone : ∀ g ∈ groups, same g.1 x.1 = false) : Grouped same (xs ++ [x]) (groups ++ [(x.1, [x.2])]) where
  apart := by
    rw [List.map_append, List.pairwise_append]
    refine ⟨h.apart, List.pairwise_singleton _ _, ?_⟩
    intro k hk k' hk'
    obtain ⟨g, hg, rfl⟩ := List.mem_map.mp hk
    obtain rfl : k' = x.1 := by simpa using hk'
    exact hnone g hg
  items := by
    intro g hg
    rw [itemsOf_append]
    rcases List.mem_append.mp hg with hg | hg
    · rw [hnone g hg, h.items g hg]
      simp
    · obtain rfl := List.mem_singleton.mp hg
      -- an item with such a key would have a group that fits
      have hempty : itemsOf same x.1 xs = [] := by
        refine List.map_eq_nil_iff.mpr (List.filter_eq_nil_iff.mpr fun y hy hkey => ?_)
        obtain ⟨g, hg, hgy⟩ := h.all y hy
        have hgx : same g.1 x.1 = true := hsame.trans hgy (hsame.symm hkey)
        rw [hnone g hg] at hgx
        cases hgx
      have hself : same x.1 x.1 = true := hsame.refl x.1
      rw [hempty, if_pos hself]
      rfl
  key := by
    intro g hg
    rcases List.mem_append.mp hg with hg | hg
    · obtain ⟨y, hy, hkey⟩ := h.key g hg
      exact ⟨y, List.mem_append_left _ hy, hkey⟩
    · obtain rfl := List.mem_singleton.mp hg
      exact ⟨x, List.mem_append_right _ List.mem_cons_self, rfl⟩
  all := by
    intro y hy
    rcases List.mem_append.mp hy with hy | hy
    · obtain ⟨g, hg, hkey⟩ := h.all y hy
      exact ⟨g, List.mem_append_left _ hg, hkey⟩
    · obtain rfl := List.mem_singleton.mp hy
      exact ⟨_, List.mem_append_right _ List.mem_cons_self, hsame.refl _⟩

/-- An item joins the first group that fits, which is the only one. -/
theorem Grouped.join (hsame : Equivalence fun a b => same a b = true) {before after : List (α × List β)}
    {g : α × List β} (h : Grouped same xs (before ++ g :: after)) (hg : same g.1 x.1 = true)
    (hbefore : ∀ g ∈ before, same g.1 x.1 = false) :
    Grouped same (xs ++ [x]) (before ++ (g.1, g.2 ++ [x.2]) :: after) := by
  have hmem {g' : α × List β} (hg' : g' ∈ before ++ g :: after) (hne : g' ≠ g) :
      g' ∈ before ++ (g.1, g.2 ++ [x.2]) :: after := by
    simp only [List.mem_append, List.mem_cons] at hg' ⊢
    tauto
  have hafter : ∀ g' ∈ after, same g'.1 x.1 = false := by
    intro g' hg'
    have hapart := h.apart
    rw [List.map_append, List.map_cons, List.pairwise_append, List.pairwise_cons] at hapart
    have hne := hapart.2.1.1 g'.1 (List.mem_map_of_mem hg')
    rw [← Bool.not_eq_true] at hne ⊢
    exact fun hx => hne (hsame.trans hg (hsame.symm hx))
  refine ⟨?_, ?_, ?_, ?_⟩
  · have hkeys : (before ++ (g.1, g.2 ++ [x.2]) :: after).map Prod.fst = (before ++ g :: after).map Prod.fst := by
      simp
    rw [hkeys]
    exact h.apart
  · intro g' hg'
    rw [itemsOf_append]
    rcases List.mem_append.mp hg' with hg' | hg'
    · rw [hbefore g' hg', h.items g' (List.mem_append_left _ hg')]
      simp
    · rcases List.mem_cons.mp hg' with rfl | hg'
      · rw [if_pos hg, ← h.items g (List.mem_append_right _ List.mem_cons_self)]
      · rw [hafter g' hg', h.items g' (List.mem_append_right _ (List.mem_cons_of_mem _ hg'))]
        simp
  · intro g' hg'
    have hold : ∃ g'' ∈ before ++ g :: after, g''.1 = g'.1 := by
      simp only [List.mem_append, List.mem_cons] at hg' ⊢
      rcases hg' with hg' | rfl | hg'
      · exact ⟨g', .inl hg', rfl⟩
      · exact ⟨g, .inr (.inl rfl), rfl⟩
      · exact ⟨g', .inr (.inr hg'), rfl⟩
    obtain ⟨g'', hg'', hkey⟩ := hold
    obtain ⟨y, hy, hy'⟩ := h.key g'' hg''
    exact ⟨y, List.mem_append_left _ hy, hy'.trans hkey⟩
  · have hfits : ∃ g' ∈ before ++ (g.1, g.2 ++ [x.2]) :: after, g'.1 = g.1 :=
      ⟨_, List.mem_append_right _ List.mem_cons_self, rfl⟩
    intro y hy
    rcases List.mem_append.mp hy with hy | hy
    · obtain ⟨g', hg', hkey⟩ := h.all y hy
      by_cases hne : g' = g
      · obtain ⟨g'', hg'', hsame'⟩ := hfits
        exact ⟨g'', hg'', by rw [hsame', ← hne]; exact hkey⟩
      · exact ⟨g', hmem hg' hne, hkey⟩
    · obtain rfl := List.mem_singleton.mp hy
      obtain ⟨g'', hg'', hsame'⟩ := hfits
      exact ⟨g'', hg'', by rw [hsame']; exact hg⟩

theorem Grouped.insert (hsame : Equivalence fun a b => same a b = true) (h : Grouped same xs groups) (x : α × β) :
    Grouped same (xs ++ [x]) (insert same x.1 x.2 groups) := by
  obtain hnone | ⟨before, g, after, rfl, hg, hbefore⟩ := first_fit same x.1 groups
  · rw [insert_of_none hnone]
    exact h.found hsame hnone
  · rw [insert_of_first hbefore hg]
    exact h.join hsame hg hbefore

theorem grouped (hsame : Equivalence fun a b => same a b = true) (xs : List (α × β)) :
    Grouped same xs (group same xs) := by
  induction xs using List.reverseRecOn with
  | nil => exact ⟨List.Pairwise.nil, nofun, nofun, nofun⟩
  | append_singleton xs x ih =>
    rw [group, List.foldl_append]
    exact ih.insert hsame x

/-- No item is in two groups. -/
theorem Grouped.unique (hsame : Equivalence fun a b => same a b = true) (h : Grouped same xs groups)
    {g g' : α × List β} (hg : g ∈ groups) (hg' : g' ∈ groups) {key : α} (hkey : same g.1 key = true)
    (hkey' : same g'.1 key = true) : g = g' := by
  by_contra hne
  have hapart := List.pairwise_map.mp h.apart
  have hsymm : Std.Symm fun a b : α × List β => same a.1 b.1 = false := ⟨fun a b hab => by
    rw [← Bool.not_eq_true] at hab ⊢
    exact fun hba => hab (hsame.symm hba)⟩
  have hfalse := hapart.forall hg hg' hne
  rw [← Bool.not_eq_true] at hfalse
  exact hfalse (hsame.trans hkey (hsame.symm hkey'))

end Equivalence

end Library.Grouping
