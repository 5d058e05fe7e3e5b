import FluxCoral2.Rabbit.Hosts

/-! When the paths of a resource graph are distinct.

A path is the names of the vertices above and of the vertex. Below the cluster no name has a
slash, so two vertices have one path only where two siblings have one name
(`nodup_paths_iff`). The code numbers the chassis and the ssds, and hosts are among them
under their own names: `apart_machine_iff` says what is asked of these. -/
namespace FluxCoral2.Dws2jgf
open Library

namespace Coral2Graph
variable {c : Coral2Graph}

/-! ### Plain names -/

theorem all_hostTree {storage : Bool} {rank : Nat} {name : String} (hname : Plain name) :
    RoseTree.All (fun item => Plain (c.component item)) (c.hostTree storage rank name) := by
  refine ⟨hname, (RoseTree.alls_iff _ _).mpr fun t ht => ?_⟩
  obtain ⟨x, -, rfl⟩ := List.mem_map.mp ht
  exact ⟨c.base.plain x.1 x.2, trivial⟩

theorem all_namedTrees (hplain : ∀ host ∈ c.rHostlist, Plain host) {storage : Bool} {name : String} :
    ∀ t ∈ c.namedTrees storage name, RoseTree.All (fun item => Plain (c.component item)) t := by
  intro t ht
  obtain ⟨rank, hrank, rfl⟩ := Option.map_eq_some_iff.mp (Option.mem_toList.mp ht)
  exact all_hostTree (hplain name (List.isSome_idxOf?.mp (Option.isSome_of_mem hrank)))

theorem all_chassisTree (hplain : ∀ host ∈ c.rHostlist, Plain host) (number : Nat) (rabbit : String × RabbitEntry) :
    RoseTree.All (fun item => Plain (c.component item)) (c.chassisTree number rabbit) := by
  refine ⟨plain_append_toString (show '/' ∉ "chassis".toList by decide) number,
    (RoseTree.alls_iff _ _).mpr fun t ht => ?_⟩
  rcases List.mem_append.mp ht with ht | ht
  · obtain ⟨i, -, rfl⟩ := List.mem_map.mp ht
    exact ⟨plain_append_toString (show '/' ∉ "ssd".toList by decide) i, trivial⟩
  · rcases List.mem_append.mp ht with ht | ht
    · obtain ⟨name, -, ht⟩ := List.mem_flatMap.mp ht
      exact all_namedTrees hplain t ht
    · exact all_namedTrees hplain t ht

/-- The trees below the cluster. -/
def belowCluster (c : Coral2Graph) : List (RoseTree Item) :=
  (c.rabbitMapping.rabbits.entries.zipIdx.map fun r => c.chassisTree r.2 r.1) ++
    c.alone.map fun host => c.hostTree false host.2 host.1

theorem machine_eq : c.machine = .node .cluster c.belowCluster := rfl

theorem alls_belowCluster (hplain : ∀ host ∈ c.rHostlist, Plain host) :
    RoseTree.Alls (fun item => Plain (c.component item)) c.belowCluster := by
  refine (RoseTree.alls_iff _ _).mpr fun t ht => ?_
  rcases List.mem_append.mp ht with ht | ht
  · obtain ⟨r, -, rfl⟩ := List.mem_map.mp ht
    exact all_chassisTree hplain r.2 r.1
  · obtain ⟨host, hhost, rfl⟩ := List.mem_map.mp ht
    exact all_hostTree (hplain host.1 (List.fst_mem_of_mem_zipIdx (List.mem_of_mem_filter hhost)))

/-! ### Paths -/

theorem pathOf_eq (trail : List Item) : c.pathOf trail = joinPath (trail.map c.component) :=
  List.foldl_map.symm

/-- **The paths are distinct** exactly if no two siblings have one name. -/
theorem nodup_paths_iff (hplain : ∀ host ∈ c.rHostlist, Plain host) :
    (c.graph.nodes.map Vertex.path).Nodup ↔ RoseTree.Apart c.component c.machine := by
  have hpaths :
      c.graph.nodes.map Vertex.path = ((RoseTree.trails c.machine).map (List.map c.component)).map joinPath := by
    have htrails := RoseTree.trails_emit 0 none [] c.machine
    simp only [List.nil_append, List.map_id'] at htrails
    rw [nodes_graph, ← htrails, List.map_map, List.map_map, List.map_map]
    refine List.map_congr_left fun e _ => ?_
    show (c.vertex e.id (c.pathOf e.trail) e.label).path = joinPath (e.trail.map c.component)
    rw [← pathOf_eq, path_vertex]
  have hinj : ∀ names ∈ (RoseTree.trails c.machine).map (List.map c.component),
      ∀ names' ∈ (RoseTree.trails c.machine).map (List.map c.component), joinPath names = joinPath names' →
        names = names' := by
    have hbelow : ∀ names ∈ (RoseTree.trails c.machine).map (List.map c.component),
        ∃ rest, names = c.clusterName :: rest ∧ ∀ name ∈ rest, Plain name := by
      intro names hnames
      obtain ⟨trail, htrail, rfl⟩ := List.mem_map.mp hnames
      rw [machine_eq, RoseTree.trails, List.mem_cons] at htrail
      rcases htrail with rfl | htrail
      · exact ⟨[], rfl, fun _ h => nomatch h⟩
      · obtain ⟨rest, hrest, rfl⟩ := List.mem_map.mp htrail
        refine ⟨rest.map c.component, rfl, fun name hname => ?_⟩
        obtain ⟨item, hitem, rfl⟩ := List.mem_map.mp hname
        exact (alls_belowCluster hplain).mem_trailss rest hrest item hitem
    intro names hnames names' hnames' heq
    obtain ⟨rest, rfl, hrest⟩ := hbelow names hnames
    obtain ⟨rest', rfl, hrest'⟩ := hbelow names' hnames'
    rw [joinPath_cons_inj hrest hrest' heq]
  rw [hpaths, ← RoseTree.nodup_trails]
  exact ⟨List.Nodup.of_map _, List.Nodup.map_on hinj⟩

/-! ### Siblings -/

theorem Children.nodup_flat (children : Children) : children.flat.Nodup := by
  refine List.nodup_flatMap.mpr ⟨fun e he => ?_, ?_⟩
  · exact (children.ids_nodup e he).map fun i i' h => (Prod.mk.inj h).2
  · refine (List.pairwise_map.mp children.keys_nodup).imp fun {e e'} hne x hx hx' => ?_
    obtain ⟨i, -, rfl⟩ := List.mem_map.mp hx
    obtain ⟨i', -, h⟩ := List.mem_map.mp hx'
    exact hne (Prod.mk.inj h).1.symm

theorem nodup_childrenOf (rank : Nat) : (c.childrenOf rank).Nodup := by
  unfold childrenOf
  cases c.rankToChildren.get? rank with
  | none => exact List.nodup_nil
  | some children => exact Children.nodup_flat children

theorem apart_leaf (item : Item) : RoseTree.Apart c.component (.node item []) := ⟨List.nodup_nil, trivial⟩

theorem apart_hostTree (storage : Bool) (rank : Nat) (name : String) :
    RoseTree.Apart c.component (c.hostTree storage rank name) := by
  refine ⟨?_, (RoseTree.aparts_iff _ _).mpr fun t ht => ?_⟩
  · rw [List.map_map]
    refine (nodup_childrenOf rank).map fun x y h => ?_
    obtain ⟨hkind, hi⟩ := c.base.childName_inj _ _ _ _ h
    exact Prod.ext hkind hi
  · obtain ⟨x, -, rfl⟩ := List.mem_map.mp ht
    exact apart_leaf _

/-- The names of the hosts in R among some names. -/
def inR (c : Coral2Graph) (names : List String) : List String := names.filter (· ∈ c.rHostlist)

theorem names_namedTrees (storage : Bool) (name : String) :
    (c.namedTrees storage name).map (fun t => c.component t.label) = c.inR [name] := by
  unfold namedTrees inR
  cases hrank : c.rHostlist.idxOf? name with
  | none => simp [List.idxOf?_eq_none_iff.mp hrank]
  | some rank =>
    have hmem : name ∈ c.rHostlist := List.isSome_idxOf?.mp (Option.isSome_of_mem hrank)
    simp [hmem, hostTree, RoseTree.label, component]

theorem names_chassisTrees (rabbit : String × RabbitEntry) :
    (c.chassisTrees rabbit).map (fun t => c.component t.label) =
      ((List.range c.chunksPerNnf).map fun i => "ssd" ++ toString i) ++
        (c.inR (c.kept rabbit.2) ++ c.inR [rabbit.1]) := by
  have hkept : ((c.kept rabbit.2).flatMap (c.namedTrees false)).map (fun t => c.component t.label) =
      c.inR (c.kept rabbit.2) := by
    rw [List.map_flatMap]
    simp only [names_namedTrees]
    unfold inR
    rw [← List.filter_flatMap, List.flatMap_singleton']
  rw [chassisTrees, List.map_append, List.map_append, hkept, names_namedTrees, ssdTrees, List.map_map]
  rfl

theorem apart_chassisTree_iff (number : Nat) (rabbit : String × RabbitEntry) :
    RoseTree.Apart c.component (c.chassisTree number rabbit) ↔
      (((List.range c.chunksPerNnf).map fun i => "ssd" ++ toString i) ++
        (c.inR (c.kept rabbit.2) ++ c.inR [rabbit.1])).Nodup := by
  rw [← names_chassisTrees]
  refine and_iff_left ((RoseTree.aparts_iff _ _).mpr fun t ht => ?_)
  have hnamed {storage : Bool} {name : String} (ht : t ∈ c.namedTrees storage name) : RoseTree.Apart c.component t := by
    obtain ⟨rank, -, rfl⟩ := Option.map_eq_some_iff.mp (Option.mem_toList.mp ht)
    exact apart_hostTree ..
  rcases List.mem_append.mp ht with ht | ht
  · obtain ⟨i, -, rfl⟩ := List.mem_map.mp ht
    exact apart_leaf _
  · rcases List.mem_append.mp ht with ht | ht
    · obtain ⟨name, -, ht⟩ := List.mem_flatMap.mp ht
      exact hnamed ht
    · exact hnamed ht

theorem apart_machine_iff : RoseTree.Apart c.component c.machine ↔
    (((List.range c.rabbitMapping.rabbits.entries.length).map fun number => "chassis" ++ toString number) ++
      c.alone.map Prod.fst).Nodup ∧
    ∀ rabbit ∈ c.rabbitMapping.rabbits.entries,
      (((List.range c.chunksPerNnf).map fun i => "ssd" ++ toString i) ++
        (c.inR (c.kept rabbit.2) ++ c.inR [rabbit.1])).Nodup := by
  have hnames : c.belowCluster.map (fun t => c.component t.label) =
      ((List.range c.rabbitMapping.rabbits.entries.length).map fun number => "chassis" ++ toString number) ++
        c.alone.map Prod.fst := by
    rw [belowCluster, List.map_append, List.map_map, List.map_map, List.range_eq_range', ← List.zipIdx_map_snd,
      List.map_map]
    rfl
  rw [machine_eq, RoseTree.Apart, hnames, RoseTree.aparts_iff]
  refine and_congr_right fun _ => ⟨fun h rabbit hrabbit => ?_, fun h t ht => ?_⟩
  · obtain ⟨number, hnumber⟩ := List.getElem?_of_mem hrabbit
    have hmem : (rabbit, number) ∈ c.rabbitMapping.rabbits.entries.zipIdx := List.mk_mem_zipIdx_iff_getElem?.mpr hnumber
    exact (apart_chassisTree_iff number rabbit).mp (h _ (List.mem_append_left _ (List.mem_map_of_mem hmem)))
  · rcases List.mem_append.mp ht with ht | ht
    · obtain ⟨r, hr, rfl⟩ := List.mem_map.mp ht
      exact (apart_chassisTree_iff r.2 r.1).mpr (h r.1 (List.fst_mem_of_mem_zipIdx hr))
    · obtain ⟨host, -, rfl⟩ := List.mem_map.mp ht
      exact apart_hostTree ..

end Coral2Graph
end FluxCoral2.Dws2jgf
