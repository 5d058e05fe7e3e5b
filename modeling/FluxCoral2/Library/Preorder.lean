import Mathlib.Data.List.Nodup

/-! Trees written out as graphs.

A tree is emitted in preorder: each vertex with the next number, the number of its parent,
and the labels above it. The numbers are a range, a vertex's parent stands for the labels
above it, and the vertices with a parent are its children (`view_emit`). Keys along the
paths tell the vertices apart exactly when they tell siblings apart (`nodup_trails`). -/
namespace Library

/-- A tree whose vertices have any number of children. -/
inductive RoseTree (α : Type)
  | node (label : α) (children : List (RoseTree α))

/-- A vertex that has been emitted; `above` are the labels from the root to its parent. -/
structure Emitted (α : Type) where
  id : Nat
  label : α
  parent : Option Nat
  above : List α

namespace Emitted
variable {α : Type}

/-- The labels from the root to the vertex. -/
def trail (v : Emitted α) : List α := v.above ++ [v.label]

/-- The children of a vertex, among those emitted. -/
def below (vertices : List (Emitted α)) (id : Nat) : List α :=
  (vertices.filter fun v => v.parent = some id).map label

theorem below_append (vs ws : List (Emitted α)) (id : Nat) : below (vs ++ ws) id = below vs id ++ below ws id := by
  rw [below, List.filter_append, List.map_append]
  rfl

theorem below_eq_nil {vs : List (Emitted α)} {id : Nat} (h : ∀ v ∈ vs, v.parent ≠ some id) : below vs id = [] := by
  rw [below, List.filter_eq_nil_iff.mpr fun v hv => by simpa using h v hv, List.map_nil]

end Emitted

namespace RoseTree
variable {α β : Type}

def label : RoseTree α → α
  | node a _ => a

mutual
def size : RoseTree α → Nat
  | node _ ts => sizes ts + 1

def sizes : List (RoseTree α) → Nat
  | [] => 0
  | t :: ts => size t + sizes ts
end

mutual
/-- The vertices of a tree in preorder, numbered from `start`. -/
def emit (start : Nat) (parent : Option Nat) (above : List α) : RoseTree α → List (Emitted α)
  | node a ts => ⟨start, a, parent, above⟩ :: emits (start + 1) (some start) (above ++ [a]) ts

def emits (start : Nat) (parent : Option Nat) (above : List α) : List (RoseTree α) → List (Emitted α)
  | [] => []
  | t :: ts => emit start parent above t ++ emits (start + size t) parent above ts
end

theorem emits_append (ts us : List (RoseTree α)) (start : Nat) (parent : Option Nat) (above : List α) :
    emits start parent above (ts ++ us) = emits start parent above ts ++ emits (start + sizes ts) parent above us := by
  induction ts generalizing start with
  | nil => rfl
  | cons t ts ih => rw [List.cons_append, emits, emits, ih, sizes, List.append_assoc, Nat.add_assoc]

theorem sizes_append (ts us : List (RoseTree α)) : sizes (ts ++ us) = sizes ts + sizes us := by
  induction ts with
  | nil => rw [List.nil_append, sizes, Nat.zero_add]
  | cons t ts ih => rw [List.cons_append, sizes, sizes, ih, Nat.add_assoc]

/-! ### Numbers -/

mutual
theorem ids_emit (start : Nat) (parent : Option Nat) (above : List α) : ∀ t : RoseTree α,
    (emit start parent above t).map Emitted.id = List.range' start (size t)
  | node a ts => by
    rw [emit, List.map_cons, ids_emits, size, List.range'_succ]

theorem ids_emits (start : Nat) (parent : Option Nat) (above : List α) : ∀ ts : List (RoseTree α),
    (emits start parent above ts).map Emitted.id = List.range' start (sizes ts)
  | [] => rfl
  | t :: ts => by
    rw [emits, List.map_append, ids_emit, ids_emits, sizes, List.range'_append_1]
end

theorem id_mem_emits {start : Nat} {parent : Option Nat} {above : List α} {ts : List (RoseTree α)} {v : Emitted α}
    (h : v ∈ emits start parent above ts) : start ≤ v.id ∧ v.id < start + sizes ts := by
  have hid := List.mem_map_of_mem (f := Emitted.id) h
  rwa [ids_emits, List.mem_range'_1] at hid

/-! ### Parents -/

/-- A vertex has the given parent, or one that was emitted with it and stands for what is above. -/
def Hangs (parent : Option Nat) (above : List α) (vertices : List (Emitted α)) : Prop :=
  ∀ v ∈ vertices, v.parent = parent ∧ v.above = above ∨
    ∃ u ∈ vertices, v.parent = some u.id ∧ v.above = u.trail

mutual
theorem hangs_emit (start : Nat) (parent : Option Nat) (above : List α) : ∀ t : RoseTree α,
    Hangs parent above (emit start parent above t)
  | node a ts => by
    intro v hv
    rw [emit, List.mem_cons] at hv
    rw [emit]
    rcases hv with rfl | hv
    · exact .inl ⟨rfl, rfl⟩
    · rcases hangs_emits (start + 1) (some start) (above ++ [a]) ts v hv with ⟨hparent, habove⟩ | ⟨u, hu, h⟩
      · exact .inr ⟨_, List.mem_cons_self, hparent, habove⟩
      · exact .inr ⟨u, List.mem_cons_of_mem _ hu, h⟩

theorem hangs_emits (start : Nat) (parent : Option Nat) (above : List α) : ∀ ts : List (RoseTree α),
    Hangs parent above (emits start parent above ts)
  | [] => fun _ hv => nomatch hv
  | t :: ts => by
    intro v hv
    rw [emits] at hv ⊢
    rcases List.mem_append.mp hv with hv | hv
    · refine (hangs_emit start parent above t v hv).imp id ?_
      exact fun ⟨u, hu, h⟩ => ⟨u, List.mem_append_left _ hu, h⟩
    · refine (hangs_emits (start + size t) parent above ts v hv).imp id ?_
      exact fun ⟨u, hu, h⟩ => ⟨u, List.mem_append_right _ hu, h⟩
end

/-- What is emitted refers to nothing that comes later. -/
theorem parent_mem_emits {start : Nat} {parent : Option Nat} {above : List α} {ts : List (RoseTree α)} {v : Emitted α}
    (h : v ∈ emits start parent above ts) :
    v.parent = parent ∨ ∃ p, v.parent = some p ∧ start ≤ p ∧ p < start + sizes ts := by
  rcases hangs_emits start parent above ts v h with ⟨hparent, -⟩ | ⟨u, hu, hparent, -⟩
  · exact .inl hparent
  · exact .inr ⟨u.id, hparent, id_mem_emits hu⟩

/-! ### Children -/

/-- A vertex in its place: the labels above it, its own, and those of its children. -/
structure View (α : Type) where
  above : List α
  label : α
  below : List α

mutual
def views (above : List α) : RoseTree α → List (View α)
  | node a ts => ⟨above, a, ts.map label⟩ :: viewss (above ++ [a]) ts

def viewss (above : List α) : List (RoseTree α) → List (View α)
  | [] => []
  | t :: ts => views above t ++ viewss above ts
end

theorem viewss_append (above : List α) (ts us : List (RoseTree α)) :
    viewss above (ts ++ us) = viewss above ts ++ viewss above us := by
  induction ts with
  | nil => rfl
  | cons t ts ih => rw [List.cons_append, viewss, viewss, ih, List.append_assoc]

theorem viewss_map {γ : Type} (above : List α) (tree : γ → RoseTree α) (l : List γ) :
    viewss above (l.map tree) = l.flatMap fun x => views above (tree x) := by
  induction l with
  | nil => rfl
  | cons x l ih => rw [List.map_cons, viewss, ih, List.flatMap_cons]

theorem viewss_flatMap {γ : Type} (above : List α) (trees : γ → List (RoseTree α)) (l : List γ) :
    viewss above (l.flatMap trees) = l.flatMap fun x => viewss above (trees x) := by
  induction l with
  | nil => rfl
  | cons x l ih => rw [List.flatMap_cons, viewss_append, ih, List.flatMap_cons]

theorem parent_mem_emit {start : Nat} {parent : Option Nat} {above : List α} {t : RoseTree α} {v : Emitted α}
    (h : v ∈ emit start parent above t) :
    v.parent = parent ∨ ∃ p, v.parent = some p ∧ start ≤ p ∧ p < start + size t := by
  have hmem : v ∈ emits start parent above [t] := by rwa [emits, emits, List.append_nil]
  exact parent_mem_emits hmem

/-- No vertex has a parent with a number from `start` on and below `stop`. -/
def Quiet (vertices : List (Emitted α)) (start stop : Nat) : Prop :=
  ∀ v ∈ vertices, ∀ p, v.parent = some p → p < start ∨ stop ≤ p

theorem Quiet.below {vs : List (Emitted α)} {start stop id : Nat} (h : Quiet vs start stop) (hstart : start ≤ id)
    (hstop : id < stop) : Emitted.below vs id = [] :=
  Emitted.below_eq_nil fun v hv hparent => by
    have hp := h v hv id hparent
    omega

theorem Quiet.append {vs ws : List (Emitted α)} {start stop : Nat} (hv : Quiet vs start stop)
    (hw : Quiet ws start stop) : Quiet (vs ++ ws) start stop :=
  fun v hmem => (List.mem_append.mp hmem).elim (hv v) (hw v)

theorem Quiet.mono {vs : List (Emitted α)} {start stop start' stop' : Nat} (h : Quiet vs start stop)
    (hstart : start ≤ start') (hstop : stop' ≤ stop) : Quiet vs start' stop' := by
  intro v hv p hp
  have hquiet := h v hv p hp
  omega

/-- The children of what comes earlier. -/
theorem below_emits {parent start : Nat} (hparent : parent < start) (above : List α) (ts : List (RoseTree α)) :
    Emitted.below (emits start (some parent) above ts) parent = ts.map label := by
  induction ts generalizing start with
  | nil => rfl
  | cons t ts ih =>
    have hfirst : Emitted.below (emit start (some parent) above t) parent = [t.label] := by
      obtain ⟨a, us⟩ := t
      have hrest : Emitted.below (emits (start + 1) (some start) (above ++ [a]) us) parent = [] := by
        refine Emitted.below_eq_nil fun v hv heq => ?_
        rcases parent_mem_emits hv with hp | ⟨p, hp, hle, -⟩
        · rw [hp] at heq
          have := Option.some.inj heq
          omega
        · rw [hp] at heq
          have := Option.some.inj heq
          omega
      rw [emit, ← List.singleton_append, Emitted.below_append, hrest, List.append_nil]
      simp [Emitted.below, label]
    rw [emits, Emitted.below_append, hfirst, ih (by omega)]
    rfl

def view (vertices : List (Emitted α)) (v : Emitted α) : View α := ⟨v.above, v.label, Emitted.below vertices v.id⟩

mutual
theorem map_view_emit {vertices : List (Emitted α)} (pre post : List (Emitted α)) {start : Nat}
    {parent : Option Nat} {above : List α} (hparent : ∀ p, parent = some p → p < start) : ∀ t : RoseTree α,
    vertices = pre ++ emit start parent above t ++ post → Quiet pre start (start + size t) →
      Quiet post start (start + size t) → (emit start parent above t).map (view vertices) = views above t
  | node a ts, hvertices, hpre, hpost => by
    rw [size] at hpre hpost
    have hroot : Quiet [(⟨start, a, parent, above⟩ : Emitted α)] start (start + (sizes ts + 1)) := by
      intro v hv p hp
      obtain rfl := List.mem_singleton.mp hv
      exact .inl (hparent p hp)
    have hsplit : vertices = (pre ++ [⟨start, a, parent, above⟩]) ++
        emits (start + 1) (some start) (above ++ [a]) ts ++ post := by
      rw [hvertices, emit]
      simp
    have hbelow : Emitted.below vertices start = ts.map label := by
      rw [hsplit, Emitted.below_append, Emitted.below_append, (hpre.append hroot).below (Nat.le_refl _) (by omega),
        hpost.below (Nat.le_refl _) (by omega), below_emits (Nat.lt_succ_self start), List.nil_append, List.append_nil]
    rw [emit, List.map_cons, views]
    refine congrArg₂ List.cons (congrArg _ hbelow) ?_
    refine map_view_emits (pre ++ [_]) post (fun p hp => ?_) ts hsplit ((hpre.append hroot).mono (by omega) (by omega))
      (hpost.mono (by omega) (by omega))
    rw [← Option.some.inj hp]
    exact Nat.lt_succ_self start

theorem map_view_emits {vertices : List (Emitted α)} (pre post : List (Emitted α)) {start : Nat}
    {parent : Option Nat} {above : List α} (hparent : ∀ p, parent = some p → p < start) : ∀ ts : List (RoseTree α),
    vertices = pre ++ emits start parent above ts ++ post → Quiet pre start (start + sizes ts) →
      Quiet post start (start + sizes ts) → (emits start parent above ts).map (view vertices) = viewss above ts
  | [], _, _, _ => rfl
  | t :: ts, hvertices, hpre, hpost => by
    rw [sizes] at hpre hpost
    have hfirst : Quiet (emit start parent above t) (start + size t) (start + size t + sizes ts) := by
      intro v hv p hp
      rcases parent_mem_emit hv with heq | ⟨q, heq, -, hlt⟩
      · exact .inl (Nat.lt_of_lt_of_le (hparent p (heq ▸ hp)) (Nat.le_add_right _ _))
      · rw [heq] at hp
        obtain rfl := Option.some.inj hp
        exact .inl hlt
    have hrest : Quiet (emits (start + size t) parent above ts) start (start + size t) := by
      intro v hv p hp
      rcases parent_mem_emits hv with heq | ⟨q, heq, hle, -⟩
      · exact .inl (hparent p (heq ▸ hp))
      · rw [heq] at hp
        obtain rfl := Option.some.inj hp
        exact .inr hle
    rw [emits, List.map_append, viewss]
    refine congrArg₂ _
      (map_view_emit pre (emits (start + size t) parent above ts ++ post) hparent t ?_ ?_ ?_) ?_
    · rw [hvertices, emits]
      simp
    · exact hpre.mono (Nat.le_refl _) (by omega)
    · exact hrest.append (hpost.mono (Nat.le_refl _) (by omega))
    · refine map_view_emits (pre ++ emit start parent above t) post
        (fun p hp => Nat.lt_of_lt_of_le (hparent p hp) (Nat.le_add_right _ _)) ts ?_ ?_ ?_
      · rw [hvertices, emits]
        simp
      · exact (hpre.mono (by omega) (by omega)).append hfirst
      · exact hpost.mono (by omega) (by omega)
end

/-- **A tree as a graph** shows each vertex with what is above and below it in the tree. -/
theorem view_emit (t : RoseTree α) : (emit 0 none [] t).map (view (emit 0 none [] t)) = views [] t := by
  have hparent : ∀ p, (none : Option Nat) = some p → p < 0 := fun _ hp => nomatch hp
  refine map_view_emit [] [] hparent t ?_ (fun _ hv => nomatch hv) fun _ hv => nomatch hv
  rw [List.append_nil, List.nil_append]

/-- The labels above a vertex are those of its parent. -/
theorem above_eq_trail {t : RoseTree α} {v w : Emitted α} (hv : v ∈ emit 0 none [] t) (hw : w ∈ emit 0 none [] t)
    (hparent : w.parent = some v.id) : w.above = v.trail := by
  rcases hangs_emit 0 none [] t w hw with ⟨hroot, -⟩ | ⟨u, hu, hw', habove⟩
  · rw [hroot] at hparent
    cases hparent
  · have hnodup : ((emit 0 none [] t).map Emitted.id).Nodup := by
      rw [ids_emit]
      exact List.nodup_range'
    have hid : u.id = v.id := Option.some.inj (hw'.symm.trans hparent)
    rw [habove, List.inj_on_of_nodup_map hnodup hu hv hid]

/-! ### Paths -/

mutual
/-- The paths from the root of a tree to its vertices. -/
def trails : RoseTree α → List (List α)
  | node a ts => [a] :: (trailss ts).map (a :: ·)

def trailss : List (RoseTree α) → List (List α)
  | [] => []
  | t :: ts => trails t ++ trailss ts
end

mutual
theorem trails_emit (start : Nat) (parent : Option Nat) (above : List α) : ∀ t : RoseTree α,
    (emit start parent above t).map Emitted.trail = (trails t).map (above ++ ·)
  | node a ts => by
    rw [emit, trails, List.map_cons, List.map_cons, trails_emits, List.map_map]
    simp [Emitted.trail, Function.comp_def]

theorem trails_emits (start : Nat) (parent : Option Nat) (above : List α) : ∀ ts : List (RoseTree α),
    (emits start parent above ts).map Emitted.trail = (trailss ts).map (above ++ ·)
  | [] => rfl
  | t :: ts => by rw [emits, trailss, List.map_append, List.map_append, trails_emit, trails_emits]
end

mutual
/-- Every label is like this. -/
def All (P : α → Prop) : RoseTree α → Prop
  | node a ts => P a ∧ Alls P ts

def Alls (P : α → Prop) : List (RoseTree α) → Prop
  | [] => True
  | t :: ts => All P t ∧ Alls P ts
end

theorem alls_iff (P : α → Prop) (ts : List (RoseTree α)) : Alls P ts ↔ ∀ t ∈ ts, All P t := by
  induction ts with
  | nil => exact iff_of_true trivial fun _ ht => (nomatch ht)
  | cons t ts ih => rw [Alls, ih, List.forall_mem_cons]

mutual
/-- No two siblings have the same key. -/
def Apart (key : α → β) : RoseTree α → Prop
  | node _ ts => (ts.map fun t => key t.label).Nodup ∧ Aparts key ts

def Aparts (key : α → β) : List (RoseTree α) → Prop
  | [] => True
  | t :: ts => Apart key t ∧ Aparts key ts
end

theorem aparts_iff (key : α → β) (ts : List (RoseTree α)) : Aparts key ts ↔ ∀ t ∈ ts, Apart key t := by
  induction ts with
  | nil => exact iff_of_true trivial fun _ ht => (nomatch ht)
  | cons t ts ih => rw [Aparts, ih, List.forall_mem_cons]

theorem label_mem_trails (t : RoseTree α) : [t.label] ∈ trails t := by
  cases t with
  | node a ts => exact List.mem_cons_self

/-- A path starts at the root. -/
theorem head_of_mem_trails {t : RoseTree α} {trail : List α} (h : trail ∈ trails t) :
    ∃ rest, trail = t.label :: rest := by
  cases t with
  | node a ts =>
    rw [trails, List.mem_cons] at h
    rcases h with rfl | h
    · exact ⟨[], rfl⟩
    · obtain ⟨rest, -, rfl⟩ := List.mem_map.mp h
      exact ⟨rest, rfl⟩

theorem mem_trailss {ts : List (RoseTree α)} {trail : List α} : trail ∈ trailss ts ↔ ∃ t ∈ ts, trail ∈ trails t := by
  induction ts with
  | nil => simp [trailss]
  | cons t ts ih => simp [trailss, ih]

mutual
theorem All.mem_trails {P : α → Prop} : ∀ {t : RoseTree α}, All P t → ∀ trail ∈ trails t, ∀ a ∈ trail, P a
  | node b ts, h, trail, htrail, a, ha => by
    rw [trails, List.mem_cons] at htrail
    rcases htrail with rfl | htrail
    · exact List.mem_singleton.mp ha ▸ h.1
    · obtain ⟨rest, hrest, rfl⟩ := List.mem_map.mp htrail
      rcases List.mem_cons.mp ha with rfl | ha
      · exact h.1
      · exact Alls.mem_trailss h.2 rest hrest a ha

theorem Alls.mem_trailss {P : α → Prop} : ∀ {ts : List (RoseTree α)}, Alls P ts → ∀ trail ∈ trailss ts, ∀ a ∈ trail, P a
  | [], _, trail, htrail, _, _ => (nomatch htrail)
  | t :: ts, h, trail, htrail, a, ha => by
    rw [trailss, List.mem_append] at htrail
    rcases htrail with htrail | htrail
    · exact All.mem_trails h.1 trail htrail a ha
    · exact Alls.mem_trailss h.2 trail htrail a ha
end

mutual
/-- **Keys along the paths** tell vertices apart exactly when they tell siblings apart. -/
theorem nodup_trails (key : α → β) : ∀ t : RoseTree α, ((trails t).map (List.map key)).Nodup ↔ Apart key t
  | node a ts => by
    have hcons : ((trailss ts).map (a :: ·)).map (List.map key) =
        ((trailss ts).map (List.map key)).map (key a :: ·) := by
      simp [Function.comp_def]
    have hnil : [key a] ∉ ((trailss ts).map (List.map key)).map (key a :: ·) := by
      intro h
      obtain ⟨keys, hkeys, heq⟩ := List.mem_map.mp h
      obtain ⟨trail, htrail, rfl⟩ := List.mem_map.mp hkeys
      obtain ⟨t, -, ht⟩ := mem_trailss.mp htrail
      obtain ⟨rest, rfl⟩ := head_of_mem_trails ht
      cases heq
    rw [trails, List.map_cons, hcons, List.map_cons, List.map_nil, List.nodup_cons, Apart, ← nodup_trailss]
    rw [List.nodup_map_iff fun l l' h => (List.cons.inj h).2]
    exact and_iff_right hnil

theorem nodup_trailss (key : α → β) : ∀ ts : List (RoseTree α),
    ((trailss ts).map (List.map key)).Nodup ↔ (ts.map fun t => key t.label).Nodup ∧ Aparts key ts
  | [] => by simp [trailss, Aparts]
  | t :: ts => by
    have hdisjoint : List.Disjoint ((trails t).map (List.map key)) ((trailss ts).map (List.map key)) ↔
        key t.label ∉ ts.map fun t => key t.label := by
      constructor
      · intro h hmem
        obtain ⟨u, hu, heq⟩ := List.mem_map.mp hmem
        refine h (List.mem_map_of_mem (label_mem_trails t)) ?_
        refine List.mem_map.mpr ⟨[u.label], mem_trailss.mpr ⟨u, hu, label_mem_trails u⟩, ?_⟩
        rw [List.map_singleton, List.map_singleton, heq]
      · intro h keys ht hts
        obtain ⟨trail, htrail, rfl⟩ := List.mem_map.mp ht
        obtain ⟨trail', htrail', heq⟩ := List.mem_map.mp hts
        obtain ⟨u, hu, hmem⟩ := mem_trailss.mp htrail'
        obtain ⟨rest, rfl⟩ := head_of_mem_trails htrail
        obtain ⟨rest', rfl⟩ := head_of_mem_trails hmem
        exact h (List.mem_map.mpr ⟨u, hu, (List.cons.inj heq).1⟩)
    rw [trailss, List.map_append, List.nodup_append', nodup_trails, nodup_trailss, hdisjoint, List.map_cons,
      List.nodup_cons, Aparts]
    tauto
end

end RoseTree
end Library
