import FluxCoral2.Library.Paths
import FluxCoral2.Library.Prog
import FluxCoral2.Rabbit.Machine

/-! The hosts of a resource graph.

Of the tree of the machine only the vertices of hosts are kept here, with what is above and
below each (`hosts_views`): the computes of a rabbit and the rabbit itself below its chassis,
and the hosts that no rabbit serves below the cluster. The exclusion is applied to all but
the rabbits, so a rabbit that is in R and left out is a storage node all the same, and these
are the only hosts that are left out and in the graph (`excluded_hosts_iff`). -/
namespace FluxCoral2.Dws2jgf
open Library

def Item.isHost : Item → Bool
  | .host .. => true
  | _ => false

def Item.isChassis : Item → Bool
  | .chassis .. => true
  | _ => false

namespace Coral2Graph
variable (c : Coral2Graph)

/-- A host in its place. -/
def seat (above : List Item) (storage : Bool) (rank : Nat) (name : String) : RoseTree.View Item :=
  ⟨above, .host storage rank name, (c.childrenOf rank).map fun x => .child rank x.1 x.2⟩

/-- A host in its place, if it is in R. -/
def namedSeats (above : List Item) (storage : Bool) (name : String) : List (RoseTree.View Item) :=
  ((c.rHostlist.idxOf? name).map fun rank => c.seat above storage rank name).toList

def chassisSeats (number : Nat) (rabbit : String × RabbitEntry) : List (RoseTree.View Item) :=
  (c.kept rabbit.2).flatMap (c.namedSeats [.cluster, .chassis number rabbit.1] false) ++
    c.namedSeats [.cluster, .chassis number rabbit.1] true rabbit.1

def aloneSeats : List (RoseTree.View Item) := c.alone.map fun host => c.seat [.cluster] false host.2 host.1

/-- The hosts of the machine. -/
def seats : List (RoseTree.View Item) :=
  (c.rabbitMapping.rabbits.entries.zipIdx.flatMap fun r => c.chassisSeats r.2 r.1) ++ c.aloneSeats

/-! ### The hosts of the tree -/

/-- The vertices of one kind. -/
def pick (p : Item → Bool) (vs : List (RoseTree.View Item)) : List (RoseTree.View Item) := vs.filter fun v => p v.label

variable {p : Item → Bool}

theorem pick_append (vs ws : List (RoseTree.View Item)) : pick p (vs ++ ws) = pick p vs ++ pick p ws :=
  List.filter_append ..

theorem pick_cons_of_neg {v : RoseTree.View Item} (h : p v.label = false) (vs : List (RoseTree.View Item)) :
    pick p (v :: vs) = pick p vs :=
  List.filter_cons_of_neg (by simp [h])

theorem pick_cons_of_pos {v : RoseTree.View Item} (h : p v.label = true) (vs : List (RoseTree.View Item)) :
    pick p (v :: vs) = v :: pick p vs :=
  List.filter_cons_of_pos h

theorem pick_flatMap {β : Type} (f : β → List (RoseTree.View Item)) (l : List β) :
    pick p (l.flatMap f) = l.flatMap fun x => pick p (f x) :=
  List.filter_flatMap ..

/-- Vertices without children that are of another kind. -/
theorem pick_leaves {β : Type} (above : List Item) (item : β → Item) (hitem : ∀ x, p (item x) = false)
    (l : List β) : pick p (RoseTree.viewss above (l.map fun x => .node (item x) [])) = [] := by
  rw [RoseTree.viewss_map, pick_flatMap, List.flatMap_eq_nil_iff]
  exact fun x _ => pick_cons_of_neg (hitem x) []

theorem pick_hostTree (above : List Item) (storage : Bool) (rank : Nat) (name : String) :
    pick Item.isHost (RoseTree.views above (c.hostTree storage rank name)) = [c.seat above storage rank name] := by
  rw [hostTree, RoseTree.views, pick_cons_of_pos rfl,
    pick_leaves _ (fun x : ChildKind × Nat => Item.child rank x.1 x.2) fun _ => rfl, List.map_map]
  rfl

theorem pick_namedTrees (above : List Item) (storage : Bool) (name : String) :
    pick Item.isHost (RoseTree.viewss above (c.namedTrees storage name)) = c.namedSeats above storage name := by
  unfold namedTrees namedSeats
  cases c.rHostlist.idxOf? name with
  | none => rfl
  | some rank =>
    show pick Item.isHost (RoseTree.viewss above [_]) = [_]
    rw [RoseTree.viewss, RoseTree.viewss, List.append_nil]
    exact c.pick_hostTree above storage rank name

theorem pick_chassisTree (number : Nat) (rabbit : String × RabbitEntry) :
    pick Item.isHost (RoseTree.views [.cluster] (c.chassisTree number rabbit)) = c.chassisSeats number rabbit := by
  have hssds := pick_leaves (p := Item.isHost) [.cluster, .chassis number rabbit.1]
    (fun i => Item.ssd i rabbit.2.capacity) (fun _ => rfl) (List.range c.chunksPerNnf)
  rw [chassisTree, RoseTree.views, pick_cons_of_neg rfl, chassisTrees, RoseTree.viewss_append,
    RoseTree.viewss_append, pick_append, pick_append, RoseTree.viewss_flatMap, pick_flatMap]
  simp only [pick_namedTrees]
  exact congrArg (· ++ _) hssds

/-- **The hosts of the machine**, with what is above and below each. -/
theorem hosts_views : pick Item.isHost (RoseTree.views [] c.machine) = c.seats := by
  have halone : c.aloneSeats = c.alone.flatMap fun host => [c.seat [.cluster] false host.2 host.1] :=
    List.map_eq_flatMap
  rw [seats, halone, machine, RoseTree.views, pick_cons_of_neg rfl, RoseTree.viewss_append, pick_append,
    RoseTree.viewss_map, RoseTree.viewss_map, pick_flatMap, pick_flatMap]
  simp only [List.nil_append, pick_chassisTree, pick_hostTree]

/-! ### The chassis of the tree -/

theorem pick_chassis_hostTree (above : List Item) (storage : Bool) (rank : Nat) (name : String) :
    pick Item.isChassis (RoseTree.views above (c.hostTree storage rank name)) = [] := by
  rw [hostTree, RoseTree.views, pick_cons_of_neg rfl]
  exact pick_leaves _ (fun x : ChildKind × Nat => Item.child rank x.1 x.2) (fun _ => rfl) _

theorem pick_chassis_namedTrees (above : List Item) (storage : Bool) (name : String) :
    pick Item.isChassis (RoseTree.viewss above (c.namedTrees storage name)) = [] := by
  unfold namedTrees
  cases c.rHostlist.idxOf? name with
  | none => rfl
  | some rank =>
    show pick Item.isChassis (RoseTree.viewss above [_]) = []
    rw [RoseTree.viewss, RoseTree.viewss, List.append_nil]
    exact c.pick_chassis_hostTree above storage rank name

/-- A chassis in its place. -/
def chassisView (number : Nat) (rabbit : String × RabbitEntry) : RoseTree.View Item :=
  ⟨[.cluster], .chassis number rabbit.1, (c.chassisTrees rabbit).map RoseTree.label⟩

theorem pick_chassis_chassisTree (number : Nat) (rabbit : String × RabbitEntry) :
    pick Item.isChassis (RoseTree.views [.cluster] (c.chassisTree number rabbit)) = [c.chassisView number rabbit] := by
  have hssds := pick_leaves (p := Item.isChassis) [.cluster, .chassis number rabbit.1]
    (fun i => Item.ssd i rabbit.2.capacity) (fun _ => rfl) (List.range c.chunksPerNnf)
  have hhosts :
      pick Item.isChassis (RoseTree.viewss [.cluster, .chassis number rabbit.1] (c.chassisTrees rabbit)) = [] := by
    rw [chassisTrees, RoseTree.viewss_append, RoseTree.viewss_append, pick_append, pick_append,
      RoseTree.viewss_flatMap, pick_flatMap, pick_chassis_namedTrees, List.append_nil, List.append_eq_nil_iff]
    exact ⟨hssds, List.flatMap_eq_nil_iff.mpr fun name _ => c.pick_chassis_namedTrees _ false name⟩
  rw [chassisTree, RoseTree.views, pick_cons_of_pos rfl]
  exact congrArg _ hhosts

theorem chassis_views : pick Item.isChassis (RoseTree.views [] c.machine) =
    c.rabbitMapping.rabbits.entries.zipIdx.map fun r => c.chassisView r.2 r.1 := by
  have halone : (c.alone.flatMap fun host =>
      pick Item.isChassis (RoseTree.views [.cluster] (c.hostTree false host.2 host.1))) = [] :=
    List.flatMap_eq_nil_iff.mpr fun host _ => c.pick_chassis_hostTree _ false host.2 host.1
  rw [List.map_eq_flatMap, machine, RoseTree.views, pick_cons_of_neg rfl, RoseTree.viewss_append, pick_append,
    RoseTree.viewss_map, RoseTree.viewss_map, pick_flatMap, pick_flatMap, List.nil_append, halone, List.append_nil]
  simp only [pick_chassis_chassisTree]

/-! ### The vertices of the graph -/

/-- The vertices of the machine, as they are written out. -/
def emitted : List (Emitted Item) := RoseTree.emit 0 none [] c.machine

theorem map_view_pick (p : Item → Bool) :
    (c.emitted.filter fun e => p e.label).map (RoseTree.view c.emitted) = pick p (RoseTree.views [] c.machine) := by
  rw [← RoseTree.view_emit, pick, List.filter_map]
  rfl

theorem map_view_hosts : (c.emitted.filter fun e => e.label.isHost).map (RoseTree.view c.emitted) = c.seats := by
  rw [map_view_pick, hosts_views]

theorem nodes_graph : c.graph.nodes = c.emitted.map fun e => c.vertex e.id (c.pathOf e.trail) e.label := by
  rw [Graph.nodes, graph, List.map_map]
  rfl

theorem mem_nodes_graph {v : Vertex} :
    v ∈ c.graph.nodes ↔ ∃ e ∈ c.emitted, c.vertex e.id (c.pathOf e.trail) e.label = v := by
  rw [nodes_graph, List.mem_map]

end Coral2Graph

/-- The vertex is for a host of R. -/
def Vertex.IsFor (v : Vertex) (rank : Nat) (host : String) : Prop :=
  (v.type = .node ∨ v.type = .storageNode) ∧ v.rank = some rank ∧ v.name = some host

namespace Coral2Graph
variable {c : Coral2Graph}

theorem id_vertex (id : Nat) (path : String) (item : Item) : (c.vertex id path item).id = id := by
  cases item <;> rfl

theorem path_vertex (id : Nat) (path : String) (item : Item) : (c.vertex id path item).path = path := by
  cases item <;> rfl

/-- What is below a vertex of the graph, as it is below it in the tree. -/
theorem map_below {β : Type} {e : Emitted Item} (he : e ∈ c.emitted) (p : Vertex → Bool) (f : Vertex → β)
    {p' : Item → Bool} {f' : Item → β}
    (hp : ∀ id item, p (c.vertex id (c.pathOf e.trail ++ "/" ++ c.component item) item) = p' item)
    (hf : ∀ id item, f (c.vertex id (c.pathOf e.trail ++ "/" ++ c.component item) item) = f' item) :
    ((c.graph.below e.id).filter p).map f = ((Emitted.below c.emitted e.id).filter p').map f' := by
  have hbelow : c.graph.below e.id =
      (c.emitted.filter fun w => w.parent = some e.id).map fun w => c.vertex w.id (c.pathOf w.trail) w.label := by
    rw [Graph.below, graph, List.filter_map, List.map_map]
    rfl
  have hpath (w : Emitted Item) (hw : w ∈ c.emitted.filter fun w => w.parent = some e.id) :
      c.pathOf w.trail = c.pathOf e.trail ++ "/" ++ c.component w.label := by
    obtain ⟨hmem, hparent⟩ := List.mem_filter.mp hw
    rw [Emitted.trail, RoseTree.above_eq_trail he hmem (by simpa using hparent), pathOf_concat]
  rw [hbelow, Emitted.below, List.filter_map, List.filter_map, List.map_map, List.map_map]
  have hfilter (w : Emitted Item) (hw : w ∈ c.emitted.filter fun w => w.parent = some e.id) :
      p (c.vertex w.id (c.pathOf w.trail) w.label) = p' w.label := by
    rw [hpath w hw]
    exact hp w.id w.label
  have hmap (w : Emitted Item) (hw : w ∈ c.emitted.filter fun w => w.parent = some e.id) :
      f (c.vertex w.id (c.pathOf w.trail) w.label) = f' w.label := by
    rw [hpath w hw]
    exact hf w.id w.label
  refine (congrArg _ (List.filter_congr hfilter)).trans ?_
  exact List.map_congr_left fun w hw => hmap w (List.mem_of_mem_filter hw)

theorem isFor_vertex {id : Nat} {path : String} {item : Item} {rank : Nat} {host : String} :
    (c.vertex id path item).IsFor rank host ↔ ∃ storage, item = .host storage rank host := by
  cases item with
  | host storage rank' name => cases storage <;> simp [Vertex.IsFor, vertex]
  | child rank' kind i => cases kind <;> simp [Vertex.IsFor, vertex, ChildKind.type]
  | _ => simp [Vertex.IsFor, vertex]

/-- The host vertices of the graph are the hosts of the machine. -/
theorem exists_isFor_iff (rank : Nat) (host : String) :
    (∃ v ∈ c.graph.nodes, v.IsFor rank host) ↔ ∃ s ∈ c.seats, ∃ storage, s.label = .host storage rank host := by
  rw [← map_view_hosts]
  constructor
  · rintro ⟨v, hv, hfor⟩
    obtain ⟨e, he, rfl⟩ := c.mem_nodes_graph.mp hv
    obtain ⟨storage, hlabel⟩ := isFor_vertex.mp hfor
    have hhost : e ∈ c.emitted.filter fun e => e.label.isHost :=
      List.mem_filter.mpr ⟨he, by rw [hlabel]; rfl⟩
    exact ⟨_, List.mem_map_of_mem hhost, storage, hlabel⟩
  · rintro ⟨s, hs, storage, hlabel⟩
    obtain ⟨e, he, rfl⟩ := List.mem_map.mp hs
    exact ⟨_, c.mem_nodes_graph.mpr ⟨e, List.mem_of_mem_filter he, rfl⟩, isFor_vertex.mpr ⟨storage, hlabel⟩⟩

/-- A rabbit has one number. -/
theorem filter_zipIdx_entries {rabbit : String} {entry : RabbitEntry}
    (h : c.rabbitMapping.rabbits.get? rabbit = some entry) : ∃ number,
      (c.rabbitMapping.rabbits.entries.zipIdx.filter fun r => r.1.1 = rabbit) = [((rabbit, entry), number)] := by
  have hone : (c.rabbitMapping.rabbits.entries.zipIdx.filter fun r => r.1.1 = rabbit).map Prod.fst =
      [(rabbit, entry)] := by
    rw [← Dict.filter_entries _ h, ← List.zipIdx_map_fst 0 c.rabbitMapping.rabbits.entries, List.filter_map]
    simp only [List.zipIdx_map_fst]
    rfl
  obtain ⟨⟨r, number⟩, hr, rfl⟩ := List.map_eq_singleton_iff.mp hone
  exact ⟨number, hr⟩

theorem mem_namedSeats {above : List Item} {storage : Bool} {name : String} {s : RoseTree.View Item} :
    s ∈ c.namedSeats above storage name ↔
      ∃ rank, c.rHostlist.idxOf? name = some rank ∧ c.seat above storage rank name = s := by
  unfold namedSeats
  rw [Option.mem_toList, Option.map_eq_some_iff]

/-- A host is a storage node if it is a rabbit, and no other is left out. -/
theorem seat_cases {s : RoseTree.View Item} (hs : s ∈ c.seats) :
    ∃ storage rank host, s.label = .host storage rank host ∧ c.rHostlist[rank]? = some host ∧
      (host ∉ c.resourceExclude ∨ host ∈ c.rabbitMapping.rabbits.keys ∧ c.rHostlist.idxOf? host = some rank) := by
  have hnamed {above : List Item} {storage : Bool} {name : String} (h : s ∈ c.namedSeats above storage name) :
      ∃ rank, s.label = .host storage rank name ∧ c.rHostlist[rank]? = some name ∧
        c.rHostlist.idxOf? name = some rank := by
    obtain ⟨rank, hrank, rfl⟩ := mem_namedSeats.mp h
    obtain ⟨hlt, heq, -⟩ := List.idxOf?_eq_some_iff.mp hrank
    exact ⟨rank, rfl, List.getElem?_eq_some_iff.mpr ⟨hlt, by simpa using heq⟩, hrank⟩
  rcases List.mem_append.mp hs with h | h
  · obtain ⟨r, hr, h⟩ := List.mem_flatMap.mp h
    rcases List.mem_append.mp h with h | h
    · obtain ⟨name, hname, h⟩ := List.mem_flatMap.mp h
      obtain ⟨rank, hlabel, hget, -⟩ := hnamed h
      exact ⟨_, _, _, hlabel, hget, .inl (by simpa using (List.mem_filter.mp hname).2)⟩
    · obtain ⟨rank, hlabel, hget, hrank⟩ := hnamed h
      have hkey : r.1.1 ∈ c.rabbitMapping.rabbits.keys := List.mem_map_of_mem (List.fst_mem_of_mem_zipIdx hr)
      exact ⟨_, _, _, hlabel, hget, .inr ⟨hkey, hrank⟩⟩
  · obtain ⟨host, hhost, rfl⟩ := List.mem_map.mp h
    obtain ⟨hmem, hout⟩ := List.mem_filter.mp hhost
    refine ⟨_, _, _, rfl, List.mem_zipIdx_iff_getElem?.mp hmem, .inl fun hex => ?_⟩
    simp [hex] at hout

/-- A rabbit that is in R is a storage node. -/
theorem exists_seat_rabbit {rabbit : String} {rank : Nat} (hkey : rabbit ∈ c.rabbitMapping.rabbits.keys)
    (hrank : c.rHostlist.idxOf? rabbit = some rank) : ∃ s ∈ c.seats, s.label = .host true rank rabbit := by
  obtain ⟨e, he, rfl⟩ := List.mem_map.mp hkey
  obtain ⟨number, hnumber⟩ := List.getElem?_of_mem he
  have hmem : (e, number) ∈ c.rabbitMapping.rabbits.entries.zipIdx := List.mk_mem_zipIdx_iff_getElem?.mpr hnumber
  have hseat : c.seat [.cluster, .chassis number e.1] true rank e.1 ∈
      c.namedSeats [.cluster, .chassis number e.1] true e.1 := mem_namedSeats.mpr ⟨rank, hrank, rfl⟩
  exact ⟨_, List.mem_append_left _ (List.mem_flatMap.mpr ⟨_, hmem, List.mem_append_right _ hseat⟩), rfl⟩

end Coral2Graph

/-! ### The exclusion -/

theorem Exclude.Covers.mem_resolve {exclude : Exclude} {hosts names : List String} {rank : Nat} {host : String}
    (h : exclude.Covers rank host) (hhost : hosts[rank]? = some host) (hnames : exclude.resolve hosts = some names) :
    host ∈ names := by
  cases exclude with
  | idset ranks =>
    have hmem := List.mem_map_of_mem (f := fun rank => hosts[rank]?) h
    rw [Prog.mapM_eq_some.mp hnames, hhost] at hmem
    obtain ⟨name, hname, heq⟩ := List.mem_map.mp hmem
    rwa [Option.some.inj heq] at hname
  | hostlist names' =>
    obtain rfl := Option.some.inj hnames
    exact h
  | malformed => cases hnames

/-- The attributes that the constructor sets, of what it reads. -/
def attributes (base : ResourceGraphV1) (rv1 : R) (rabbitMapping : RabbitMapping) (chunksPerNnf : Nat)
    (clusterName : String) (rankToChildren : Dict Nat Children) (resourceExclude : List String) : Coral2Graph where
  base := base
  rabbitMapping := rabbitMapping
  rHostlist := rv1.hosts
  chunksPerNnf := chunksPerNnf
  clusterName := clusterName
  rankToChildren := rankToChildren
  rankToProperties := getNodeProperties rv1.properties
  resourceExclude := resourceExclude

section
variable {base : ResourceGraphV1} {rv1 : R} {rabbitMapping : RabbitMapping} {chunksPerNnf : Nat} {clusterName : String}
  {resourceExclude : Exclude} {g : Graph}

theorem coral2Graph_eq_some
    (h : coral2Graph base rv1 rabbitMapping chunksPerNnf clusterName resourceExclude = some g) :
    ∃ rankToChildren names, getNodeChildren rv1.rLite .empty = some rankToChildren ∧
      resourceExclude.resolve rv1.hosts = some names ∧
      (attributes base rv1 rabbitMapping chunksPerNnf clusterName rankToChildren names).graph = g := by
  obtain ⟨rankToChildren, hchildren, h⟩ := Option.bind_eq_some_iff.mp h
  obtain ⟨names, hnames, h⟩ := Option.bind_eq_some_iff.mp h
  refine ⟨rankToChildren, names, hchildren, hnames, ?_⟩
  rcases (attributes base rv1 rabbitMapping chunksPerNnf clusterName rankToChildren names).encode_eq with heq | ⟨heq, -⟩
  · exact Option.some.inj (heq.symm.trans h)
  · cases heq.symm.trans h

theorem coral2Graph_eq {rankToChildren : Dict Nat Children} {names : List String}
    (hchildren : getNodeChildren rv1.rLite .empty = some rankToChildren)
    (hnames : resourceExclude.resolve rv1.hosts = some names)
    (hall : ∀ rank < rv1.hosts.length, ∃ children, rankToChildren.get? rank = some children) :
    coral2Graph base rv1 rabbitMapping chunksPerNnf clusterName resourceExclude =
      some (attributes base rv1 rabbitMapping chunksPerNnf clusterName rankToChildren names).graph := by
  have heq : coral2Graph base rv1 rabbitMapping chunksPerNnf clusterName resourceExclude =
      (attributes base rv1 rabbitMapping chunksPerNnf clusterName rankToChildren names).encode := by
    unfold coral2Graph
    rw [hchildren, Option.bind_eq_bind, Option.bind_some, hnames, Option.bind_eq_bind, Option.bind_some]
    rfl
  rw [heq]
  rcases (attributes base rv1 rabbitMapping chunksPerNnf clusterName rankToChildren names).encode_eq with h | ⟨-, h⟩
  · exact h
  · obtain ⟨rank, hlt, hnone⟩ := h
    obtain ⟨children, hsome⟩ := hall rank hlt
    cases hnone.symm.trans hsome

/-- The exclusion is not asked about a rabbit. -/
theorem exists_isFor_rabbit
    (h : coral2Graph base rv1 rabbitMapping chunksPerNnf clusterName resourceExclude = some g) {rabbit : String}
    {rank : Nat} (hkey : rabbit ∈ rabbitMapping.rabbits.keys) (hrank : rv1.hosts.idxOf? rabbit = some rank) :
    ∃ v ∈ g.nodes, v.IsFor rank rabbit := by
  obtain ⟨rankToChildren, names, -, -, rfl⟩ := coral2Graph_eq_some h
  obtain ⟨s, hs, hlabel⟩ := Coral2Graph.exists_seat_rabbit
    (c := attributes base rv1 rabbitMapping chunksPerNnf clusterName rankToChildren names) hkey hrank
  exact (Coral2Graph.exists_isFor_iff rank rabbit).mpr ⟨s, hs, true, hlabel⟩

/-- **Hosts that are left out** are not in the graph, exactly if no rabbit of R is left out. -/
theorem excluded_hosts_iff
    (h : coral2Graph base rv1 rabbitMapping chunksPerNnf clusterName resourceExclude = some g) :
    (∀ v ∈ g.nodes, ∀ rank host, v.IsFor rank host → ¬resourceExclude.Covers rank host) ↔
      ∀ rabbit ∈ rabbitMapping.rabbits.keys, ∀ rank, rv1.hosts.idxOf? rabbit = some rank →
        ¬resourceExclude.Covers rank rabbit := by
  constructor
  · intro hall rabbit hkey rank hrank
    obtain ⟨v, hv, hfor⟩ := exists_isFor_rabbit h hkey hrank
    exact hall v hv rank rabbit hfor
  · intro hrabbits v hv rank host hfor hcovers
    obtain ⟨rankToChildren, names, -, hnames, rfl⟩ := coral2Graph_eq_some h
    obtain ⟨s, hs, storage, hlabel⟩ := (Coral2Graph.exists_isFor_iff rank host).mp ⟨v, hv, hfor⟩
    obtain ⟨storage', rank', host', hlabel', hget, hout⟩ := Coral2Graph.seat_cases hs
    obtain ⟨-, rfl, rfl⟩ := Item.host.inj (hlabel.symm.trans hlabel')
    rcases hout with hout | ⟨hkey, hrank⟩
    · exact hout (hcovers.mem_resolve hget hnames)
    · exact hrabbits host hkey rank hrank hcovers

end

/-! ### A rabbit and its compute -/

def ChildKind.word : ChildKind → String
  | .core => "core"
  | .gpu => "gpu"

/-- The names of the base class: what a child is, with its number. -/
def fluxionNames : ResourceGraphV1 where
  childName kind i := kind.word ++ toString i
  childName_inj := by
    intro k i k' i' h
    have hhead : (k.word ++ toString i).toList.head? = (k'.word ++ toString i').toList.head? := by rw [h]
    have hkind : k = k' := by
      cases k <;> cases k' <;> simp [ChildKind.word] at hhead ⊢
    subst hkind
    exact ⟨rfl, (append_toString_inj k.word).mp h⟩
  plain k i := by
    cases k with
    | core => exact plain_append_toString (show '/' ∉ "core".toList by decide) i
    | gpu => exact plain_append_toString (show '/' ∉ "gpu".toList by decide) i

def oneCore : Children := ⟨[(.core, [0])], by decide, by decide⟩

/-- One core for each of the hosts, of which the first is a rabbit. -/
def rabbitAndNode : R where
  rLite := [⟨.range 0 1, oneCore⟩]
  hosts := ["rabbit1", "node1"]
  plain := by decide

def oneRabbitMapping : RabbitMapping where
  computes := Dict.empty.set "node1" "rabbit1"
  rabbits := Dict.empty.set "rabbit1" ⟨1024 ^ 4, ["node1"]⟩

/-- The graph, with some hosts left out. -/
def withoutHosts (names : List String) : Graph :=
  (attributes fluxionNames rabbitAndNode oneRabbitMapping 1 "cluster" (Dict.empty.setAll [0, 1] oneCore) names).graph

theorem coral2Graph_withoutHosts (names : List String) :
    coral2Graph fluxionNames rabbitAndNode oneRabbitMapping 1 "cluster" (.hostlist names) =
      some (withoutHosts names) := by
  refine coral2Graph_eq rfl rfl fun rank hlt => ⟨oneCore, ?_⟩
  have hmem : rank ∈ [0, 1] := by
    have : rank < 2 := hlt
    simp
    omega
  rw [Dict.get?_setAll, if_pos hmem]

/-- With a compute left out. -/
theorem node1_left_out :
    coral2Graph fluxionNames rabbitAndNode oneRabbitMapping 1 "cluster" (.hostlist ["node1"]) =
      some (withoutHosts ["node1"]) ∧
    ∀ v ∈ (withoutHosts ["node1"]).nodes, ∀ rank host, v.IsFor rank host →
      ¬(Exclude.hostlist ["node1"]).Covers rank host := by
  refine ⟨coral2Graph_withoutHosts ["node1"], ?_⟩
  refine (excluded_hosts_iff (coral2Graph_withoutHosts ["node1"])).mpr fun rabbit hkey _ _ hcovers => ?_
  obtain rfl := List.mem_singleton.mp hcovers
  exact absurd hkey (by decide)

/-- A rabbit that is left out, and in the graph. -/
theorem rabbit1_not_left_out :
    ¬∀ (base : ResourceGraphV1) (rv1 : R) (rabbitMapping : RabbitMapping) (chunksPerNnf : Nat) (clusterName : String)
      (resourceExclude : Exclude) (g : Graph),
      coral2Graph base rv1 rabbitMapping chunksPerNnf clusterName resourceExclude = some g →
        ∀ v ∈ g.nodes, ∀ rank host, v.IsFor rank host → ¬resourceExclude.Covers rank host := by
  intro hall
  have hg := coral2Graph_withoutHosts ["rabbit1"]
  obtain ⟨v, hv, hfor⟩ := exists_isFor_rabbit hg (show "rabbit1" ∈ oneRabbitMapping.rabbits.keys by decide)
    (show _ = some 0 by decide)
  exact hall _ _ _ _ _ _ _ hg v hv 0 "rabbit1" hfor List.mem_cons_self

end FluxCoral2.Dws2jgf
