import FluxCoral2.Rabbit.Hosts

/-! The paths that the service reads off the resource graph (`storage.py`).

A `FluxionRabbitManager` reads the graph that `flux-dws2jgf.py` made: of a chassis, the path
and how many ssds it has, of a host, the path. It makes the paths of the ssds itself, from
the path of the chassis and a number. `reader_agrees` says that these are the paths that the
graph has, in their order, for every rabbit and every host. -/
namespace FluxCoral2.Dws2jgf
open Library

/-! ### The reader -/

/-- The dictionaries of a `FluxionRabbitManager`. -/
structure FluxionRabbitManager where
  rabbitRpaths : Dict String (String × Int) := .empty
  computeRpaths : Dict String String := .empty

namespace FluxionRabbitManager

/-- The `ssdcount` of a vertex; one that is no number is a ValueError. -/
def ssdcount (v : Vertex) : Option Int :=
  match v.properties.get? "ssdcount" with
  | none => some 36
  | some count => count.toInt?

/-- What `_get_rpaths` does with a chassis. -/
def readChassis (m : FluxionRabbitManager) (v : Vertex) : Option FluxionRabbitManager :=
  if v.type = .chassis ∨ v.type = .rack then
    match v.properties.get? "rabbit" with
    | none => some m
    | some rabbit => (ssdcount v).map fun count => {m with rabbitRpaths := m.rabbitRpaths.set rabbit (v.path, count)}
  else some m

/-- What `_get_rpaths` does with a node; one without a name is a KeyError. -/
def readNode (m : FluxionRabbitManager) (v : Vertex) : Option FluxionRabbitManager :=
  if v.type = .node then v.name.map fun name => {m with computeRpaths := m.computeRpaths.set name v.path}
  else some m

/-- `_get_rpaths`. -/
def getRpaths (nodes : List Vertex) : Option FluxionRabbitManager :=
  nodes.foldlM (fun m v => m.readChassis v >>= fun m => m.readNode v) {}

/-- The payload of a `set_status` request. -/
structure SetStatus where
  resourcePath : String
  status : String

/-- `_mark_rabbit`; an unknown rabbit is a KeyError. -/
def markRabbit (m : FluxionRabbitManager) (status name : String) : Option (List SetStatus) :=
  (m.rabbitRpaths.get? name).map fun entry =>
    (List.range entry.2.toNat).map fun ssdnum =>
      { resourcePath := entry.1 ++ ("/ssd" ++ toString ssdnum)
        status := if status = "Ready" then "up" else "down" }

/-- A request about a property of nodes. -/
structure PropertyRpc where
  topic : String
  resourcePath : List String
  key : String

/-- A request is sent if it has a path. -/
def propertyRpc (m : FluxionRabbitManager) (topic key : String) (nodes : List String) : Option PropertyRpc :=
  let paths := nodes.filterMap m.computeRpaths.get?
  if paths = [] then none else some ⟨topic, paths, key⟩

def removeProperty (m : FluxionRabbitManager) (upNodes : List String) : Option PropertyRpc :=
  m.propertyRpc "sched-fluxion-resource.remove_property" "badrabbit" upNodes

def setProperty (m : FluxionRabbitManager) (downNodes : List String) : Option PropertyRpc :=
  m.propertyRpc "sched-fluxion-resource.set_property" "badrabbit=bad" downNodes

/-- The paths of a request that is sent, or none. -/
def pathsSent (rpc : Option PropertyRpc) : List String := (rpc.map PropertyRpc.resourcePath).getD []

theorem pathsSent_propertyRpc (m : FluxionRabbitManager) (topic key : String) (nodes : List String) :
    pathsSent (m.propertyRpc topic key nodes) = nodes.filterMap m.computeRpaths.get? := by
  unfold propertyRpc
  dsimp only
  split
  · rename_i h
    exact h.symm
  · rfl

end FluxionRabbitManager

/-! ### What it reads -/

/-- The vertex is a node for the host. -/
def Vertex.isNode (host : String) (v : Vertex) : Bool := v.type = .node ∧ v.name = some host

/-- The vertex is the chassis of the rabbit. -/
def Vertex.isChassis (rabbit : String) (v : Vertex) : Bool :=
  (v.type = .chassis ∨ v.type = .rack) ∧ v.properties.get? "rabbit" = some rabbit

/-- The vertex has what the reader looks up, and some number of ssds. -/
structure Vertex.Readable (count : Nat) (v : Vertex) : Prop where
  ssdcount : v.type = .chassis ∨ v.type = .rack → ∀ rabbit, v.properties.get? "rabbit" = some rabbit →
    v.properties.get? "ssdcount" = some (toString count)
  name : v.type = .node → ∃ name, v.name = some name

namespace FluxionRabbitManager

/-- What has been read of some vertices is what the last chassis and the last node say. -/
structure HasRead (count : Nat) (nodes : List Vertex) (m : FluxionRabbitManager) : Prop where
  rabbits : ∀ rabbit, m.rabbitRpaths.get? rabbit =
    (nodes.filter (Vertex.isChassis rabbit)).getLast?.map fun v => (v.path, (count : Int))
  computes : ∀ host, m.computeRpaths.get? host = (nodes.filter (Vertex.isNode host)).getLast?.map Vertex.path

theorem getLast?_filter_append {α β : Type} (p : α → Bool) (f : α → β) (l : List α) (x : α) :
    ((l ++ [x]).filter p).getLast?.map f = if p x then some (f x) else (l.filter p).getLast?.map f := by
  rw [List.filter_append]
  cases h : p x with
  | true => simp [h]
  | false => simp [h]

theorem HasRead.readChassis {count : Nat} {nodes : List Vertex} {m : FluxionRabbitManager} {v : Vertex}
    (h : HasRead count nodes m) (hv : v.Readable count) :
    ∃ m', m.readChassis v = some m' ∧ m'.computeRpaths = m.computeRpaths ∧ ∀ rabbit, m'.rabbitRpaths.get? rabbit =
      ((nodes ++ [v]).filter (Vertex.isChassis rabbit)).getLast?.map fun v => (v.path, (count : Int)) := by
  unfold FluxionRabbitManager.readChassis
  simp only [getLast?_filter_append, ← h.rabbits]
  by_cases htype : v.type = .chassis ∨ v.type = .rack
  · cases hrabbit : v.properties.get? "rabbit" with
    | none => exact ⟨m, by rw [if_pos htype], rfl, fun rabbit => by simp [Vertex.isChassis, hrabbit]⟩
    | some rabbit =>
      have hcount : ssdcount v = some (count : Int) := by
        rw [ssdcount, hv.ssdcount htype rabbit hrabbit]
        exact Int.toInt?_repr count
      refine ⟨{m with rabbitRpaths := m.rabbitRpaths.set rabbit (v.path, (count : Int))}, ?_, rfl, fun rabbit' => ?_⟩
      · rw [if_pos htype, hcount]
        rfl
      · have hiff : v.isChassis rabbit' = true ↔ rabbit' = rabbit := by
          simp only [Vertex.isChassis, htype, hrabbit, true_and, decide_eq_true_iff, Option.some.injEq]
          exact eq_comm
        rw [Dict.get?_set]
        exact if_congr hiff.symm rfl rfl
  · exact ⟨m, by rw [if_neg htype], rfl, fun rabbit => by simp [Vertex.isChassis, htype]⟩

theorem HasRead.readNode {count : Nat} {nodes : List Vertex} {m : FluxionRabbitManager} {v : Vertex}
    (hv : v.Readable count)
    (h : ∀ host, m.computeRpaths.get? host = (nodes.filter (Vertex.isNode host)).getLast?.map Vertex.path) :
    ∃ m', m.readNode v = some m' ∧ m'.rabbitRpaths = m.rabbitRpaths ∧ ∀ host, m'.computeRpaths.get? host =
      ((nodes ++ [v]).filter (Vertex.isNode host)).getLast?.map Vertex.path := by
  unfold FluxionRabbitManager.readNode
  simp only [getLast?_filter_append, ← h]
  by_cases htype : v.type = .node
  · obtain ⟨name, hname⟩ := hv.name htype
    refine ⟨{m with computeRpaths := m.computeRpaths.set name v.path}, ?_, rfl, fun host => ?_⟩
    · rw [if_pos htype, hname, Option.map_some]
    · have hiff : v.isNode host = true ↔ host = name := by
        simp only [Vertex.isNode, htype, hname, true_and, decide_eq_true_iff, Option.some.injEq]
        exact eq_comm
      rw [Dict.get?_set]
      exact if_congr hiff.symm rfl rfl
  · exact ⟨m, by rw [if_neg htype], rfl, fun host => by simp [Vertex.isNode, htype]⟩

/-- **The reader** has each chassis and each node, the last one where there are several. -/
theorem getRpaths_spec {count : Nat} {nodes : List Vertex} (h : ∀ v ∈ nodes, v.Readable count) :
    ∃ m, getRpaths nodes = some m ∧ HasRead count nodes m := by
  induction nodes using List.reverseRecOn with
  | nil => exact ⟨{}, rfl, fun _ => rfl, fun _ => rfl⟩
  | append_singleton nodes v ih =>
    obtain ⟨m, hm, hread⟩ := ih fun w hw => h w (List.mem_append_left _ hw)
    have hv := h v (List.mem_append_right _ List.mem_cons_self)
    obtain ⟨m₁, hm₁, hcomputes, hrabbits⟩ := hread.readChassis hv
    obtain ⟨m₂, hm₂, heq, hcomputes₂⟩ := HasRead.readNode (m := m₁) hv (hcomputes ▸ hread.computes)
    refine ⟨m₂, ?_, heq ▸ hrabbits, hcomputes₂⟩
    unfold getRpaths at hm ⊢
    rw [List.foldlM_append, hm]
    simp [hm₁, hm₂]

end FluxionRabbitManager

/-! ### What the graph has -/

/-- The paths of the ssds below a vertex. -/
def Graph.ssdPaths (g : Graph) (id : Nat) : List String :=
  ((g.below id).filter fun v => v.type = .ssd).map Vertex.path

/-- The path of the node for a host, the last one if there are several. -/
def Graph.nodePath (g : Graph) (host : String) : Option String :=
  (g.nodes.filter (Vertex.isNode host)).getLast?.map Vertex.path

namespace Coral2Graph
variable {c : Coral2Graph}

theorem readable_vertex (id : Nat) (path : String) (item : Item) : (c.vertex id path item).Readable c.chunksPerNnf := by
  cases item with
  | chassis number rabbit => exact ⟨fun _ _ _ => Dict.get?_set_self .., by simp [vertex]⟩
  | host storage rank name => cases storage <;> constructor <;> simp [vertex]
  | child rank kind i => cases kind <;> constructor <;> simp [vertex, ChildKind.type]
  | _ => constructor <;> simp [vertex]

theorem isChassis_vertex (rabbit : String) (id : Nat) (path : String) (item : Item) :
    (c.vertex id path item).isChassis rabbit = true ↔ ∃ number, item = .chassis number rabbit := by
  cases item with
  | chassis number rabbit' => simp [Vertex.isChassis, vertex]
  | host storage rank name => cases storage <;> simp [Vertex.isChassis, vertex]
  | child rank kind i => cases kind <;> simp [Vertex.isChassis, vertex, ChildKind.type]
  | _ => simp [Vertex.isChassis, vertex]

/-- The item is the chassis of the rabbit. -/
def isChassisOf (rabbit : String) : Item → Bool
  | .chassis _ rabbit' => rabbit' = rabbit
  | _ => false

theorem isChassisOf_iff (rabbit : String) (item : Item) :
    isChassisOf rabbit item = true ↔ ∃ number, item = .chassis number rabbit := by
  cases item <;> simp [isChassisOf]

/-- The one chassis of a rabbit, and what is below it. -/
theorem exists_chassis {rabbit : String} {entry : RabbitEntry}
    (hentry : c.rabbitMapping.rabbits.get? rabbit = some entry) :
    ∃ e ∈ c.emitted, c.graph.nodes.filter (Vertex.isChassis rabbit) = [c.vertex e.id (c.pathOf e.trail) e.label] ∧
      Emitted.below c.emitted e.id = (c.chassisTrees (rabbit, entry)).map RoseTree.label := by
  have hviews : pick (isChassisOf rabbit) (RoseTree.views [] c.machine) =
      (c.rabbitMapping.rabbits.entries.zipIdx.filter fun r => r.1.1 = rabbit).map fun r => c.chassisView r.2 r.1 := by
    have hpick : pick (isChassisOf rabbit) (RoseTree.views [] c.machine) =
        pick (isChassisOf rabbit) (pick Item.isChassis (RoseTree.views [] c.machine)) := by
      rw [pick, pick, pick, List.filter_filter]
      refine List.filter_congr fun v _ => ?_
      cases v.label <;> simp [isChassisOf, Item.isChassis]
    rw [hpick, chassis_views, pick, List.filter_map]
    rfl
  obtain ⟨number, hone⟩ := filter_zipIdx_entries hentry
  rw [hone, ← map_view_pick, List.map_singleton] at hviews
  obtain ⟨e, he, hview⟩ := List.map_eq_singleton_iff.mp hviews
  have hmem : e ∈ c.emitted := List.mem_of_mem_filter (he ▸ List.mem_cons_self)
  have hfilter :
      c.emitted.filter (Vertex.isChassis rabbit ∘ fun e => c.vertex e.id (c.pathOf e.trail) e.label) = [e] := by
    rw [← he]
    refine List.filter_congr fun w _ => ?_
    rw [Function.comp_apply, Bool.eq_iff_iff, isChassis_vertex, isChassisOf_iff]
  refine ⟨e, hmem, ?_, ?_⟩
  · rw [nodes_graph, List.filter_map, hfilter, List.map_singleton]
  · exact congrArg RoseTree.View.below hview

def isSsd : Item → Bool
  | .ssd .. => true
  | _ => false

theorem filter_ssd_namedTrees (storage : Bool) (name : String) :
    ((c.namedTrees storage name).map RoseTree.label).filter isSsd = [] := by
  unfold namedTrees
  cases c.rHostlist.idxOf? name <;> rfl

theorem filter_ssd_chassisTrees (rabbit : String × RabbitEntry) :
    ((c.chassisTrees rabbit).map RoseTree.label).filter isSsd =
      (List.range c.chunksPerNnf).map fun i => .ssd i rabbit.2.capacity := by
  have hssds : ((c.ssdTrees rabbit.2.capacity).map RoseTree.label).filter isSsd =
      (List.range c.chunksPerNnf).map fun i => .ssd i rabbit.2.capacity := by
    rw [ssdTrees, List.map_map]
    exact List.filter_eq_self.mpr fun item hitem => by
      obtain ⟨i, -, rfl⟩ := List.mem_map.mp hitem
      rfl
  rw [chassisTrees, List.map_append, List.map_append, List.filter_append, List.filter_append, hssds,
    filter_ssd_namedTrees, List.append_nil, List.map_flatMap, List.filter_flatMap]
  simp only [filter_ssd_namedTrees]
  simp

/-- The ssds of a chassis are numbered from 0 on. -/
theorem ssdPaths_eq {e : Emitted Item} (he : e ∈ c.emitted) {rabbit : String × RabbitEntry}
    (hbelow : Emitted.below c.emitted e.id = (c.chassisTrees rabbit).map RoseTree.label) :
    c.graph.ssdPaths e.id =
      (List.range c.chunksPerNnf).map fun i => c.pathOf e.trail ++ "/" ++ ("ssd" ++ toString i) := by
  have hssd (id : Nat) (item : Item) (path : String) : decide ((c.vertex id path item).type = .ssd) = isSsd item := by
    cases item with
    | host storage rank name => cases storage <;> rfl
    | child rank kind i => cases kind <;> rfl
    | _ => rfl
  have hpaths := map_below he (fun v => v.type = .ssd) Vertex.path (fun id item => hssd id item _) fun id item =>
    path_vertex id (c.pathOf e.trail ++ "/" ++ c.component item) item
  rw [hbelow, filter_ssd_chassisTrees, List.map_map] at hpaths
  exact hpaths

end Coral2Graph

/-- The requests about a rabbit and about hosts are for the vertices of the graph. -/
structure Agrees (g : Graph) (rabbits : List String) (m : FluxionRabbitManager) : Prop where
  status : ∀ rabbit ∈ rabbits, ∃ chassis, g.nodes.filter (Vertex.isChassis rabbit) = [chassis] ∧
    ∀ status, (m.markRabbit status rabbit).map (List.map FluxionRabbitManager.SetStatus.resourcePath) =
      some (g.ssdPaths chassis.id)
  set : ∀ hosts, FluxionRabbitManager.pathsSent (m.setProperty hosts) = hosts.filterMap g.nodePath
  remove : ∀ hosts, FluxionRabbitManager.pathsSent (m.removeProperty hosts) = hosts.filterMap g.nodePath

/-- **The reader agrees with the writer** about every path. -/
theorem reader_agrees {base : ResourceGraphV1} {rv1 : R} {rabbitMapping : RabbitMapping} {chunksPerNnf : Nat}
    {clusterName : String} {resourceExclude : Exclude} {g : Graph}
    (h : coral2Graph base rv1 rabbitMapping chunksPerNnf clusterName resourceExclude = some g) :
    ∃ m, FluxionRabbitManager.getRpaths g.nodes = some m ∧ Agrees g rabbitMapping.rabbits.keys m := by
  obtain ⟨rankToChildren, names, -, -, rfl⟩ := coral2Graph_eq_some h
  generalize hc : attributes base rv1 rabbitMapping chunksPerNnf clusterName rankToChildren names = c
  have hmapping : c.rabbitMapping = rabbitMapping := by
    rw [← hc]
    rfl
  have hreadable : ∀ v ∈ c.graph.nodes, v.Readable c.chunksPerNnf := by
    intro v hv
    obtain ⟨e, -, rfl⟩ := c.mem_nodes_graph.mp hv
    exact Coral2Graph.readable_vertex ..
  obtain ⟨m, hm, hread⟩ := FluxionRabbitManager.getRpaths_spec hreadable
  have hcomputes : m.computeRpaths.get? = c.graph.nodePath := funext hread.computes
  refine ⟨m, hm, fun rabbit hkey => ?_, fun hosts => ?_, fun hosts => ?_⟩
  · obtain ⟨entry, hentry⟩ := (Dict.mem_keys _ _).mp (hmapping ▸ hkey)
    obtain ⟨e, he, hchassis, hbelow⟩ := Coral2Graph.exists_chassis hentry
    refine ⟨_, hchassis, fun status => ?_⟩
    have hrabbit := hread.rabbits rabbit
    rw [hchassis, List.getLast?_singleton, Option.map_some, Coral2Graph.path_vertex] at hrabbit
    rw [Coral2Graph.id_vertex, Coral2Graph.ssdPaths_eq he hbelow, FluxionRabbitManager.markRabbit, hrabbit,
      Option.map_some, Option.map_some, List.map_map, Int.toNat_natCast]
    refine congrArg some (List.map_congr_left fun i _ => ?_)
    have hslash : "/ssd" ++ toString i = "/" ++ ("ssd" ++ toString i) := by
      rw [← String.append_assoc]
      rfl
    show c.pathOf e.trail ++ ("/ssd" ++ toString i) = c.pathOf e.trail ++ "/" ++ ("ssd" ++ toString i)
    rw [hslash, String.append_assoc]
  · rw [FluxionRabbitManager.setProperty, FluxionRabbitManager.pathsSent_propertyRpc, hcomputes]
  · rw [FluxionRabbitManager.removeProperty, FluxionRabbitManager.pathsSent_propertyRpc, hcomputes]

theorem Coral2Graph.isNode_vertex {c : Coral2Graph} (host : String) (id : Nat) (path : String) (item : Item) :
    (c.vertex id path item).isNode host = true ↔ ∃ rank, item = .host false rank host := by
  cases item with
  | host storage rank name => cases storage <;> simp [Vertex.isNode, vertex]
  | child rank kind i => cases kind <;> simp [Vertex.isNode, vertex, ChildKind.type]
  | _ => simp [Vertex.isNode, vertex]

/-- The path of a node ends in the name of its host. -/
theorem Coral2Graph.nodePath_eq_some {c : Coral2Graph} {host path : String} (h : c.graph.nodePath host = some path) :
    host ∈ c.rHostlist ∧ ∃ above, path = above ++ "/" ++ host := by
  obtain ⟨v, hlast, rfl⟩ := Option.map_eq_some_iff.mp h
  obtain ⟨hv, hnode⟩ := List.mem_filter.mp (List.mem_of_getLast? hlast)
  obtain ⟨e, he, rfl⟩ := c.mem_nodes_graph.mp hv
  obtain ⟨rank, hlabel⟩ := (isNode_vertex host _ _ _).mp hnode
  constructor
  · have hseat : RoseTree.view c.emitted e ∈ c.seats := by
      rw [← map_view_hosts]
      exact List.mem_map_of_mem (List.mem_filter.mpr ⟨he, by rw [hlabel]; rfl⟩)
    obtain ⟨_, rank', host', hlabel', hget, -⟩ := seat_cases hseat
    obtain ⟨-, -, rfl⟩ := Item.host.inj (hlabel.symm.trans hlabel')
    exact List.mem_of_getElem? hget
  · rw [path_vertex, Emitted.trail, pathOf_concat, hlabel]
    exact ⟨_, rfl⟩

/-- Different hosts have different paths. -/
theorem getRpaths_inj {base : ResourceGraphV1} {rv1 : R} {rabbitMapping : RabbitMapping} {chunksPerNnf : Nat}
    {clusterName : String} {resourceExclude : Exclude} {g : Graph} {m : FluxionRabbitManager}
    (h : coral2Graph base rv1 rabbitMapping chunksPerNnf clusterName resourceExclude = some g)
    (hm : FluxionRabbitManager.getRpaths g.nodes = some m) {host host' path : String}
    (hpath : m.computeRpaths.get? host = some path) (hpath' : m.computeRpaths.get? host' = some path) :
    host = host' := by
  obtain ⟨m', hm', hagrees⟩ := reader_agrees h
  obtain rfl := Option.some.inj (hm.symm.trans hm')
  have hnode (host : String) : m.computeRpaths.get? host = g.nodePath host := by
    have hset := hagrees.set [host]
    rw [FluxionRabbitManager.setProperty, FluxionRabbitManager.pathsSent_propertyRpc] at hset
    cases hget : m.computeRpaths.get? host <;> cases hgraph : g.nodePath host <;> simp_all
  rw [hnode] at hpath hpath'
  obtain ⟨rankToChildren, names, -, -, rfl⟩ := coral2Graph_eq_some h
  obtain ⟨hmem, above, rfl⟩ := Coral2Graph.nodePath_eq_some hpath
  obtain ⟨hmem', above', heq⟩ := Coral2Graph.nodePath_eq_some hpath'
  exact plain_inj (rv1.plain host hmem) (rv1.plain host' hmem') heq

/-- The graph of a rabbit and its compute. -/
theorem withoutHosts_agrees : ∃ m, FluxionRabbitManager.getRpaths (withoutHosts []).nodes = some m ∧
    Agrees (withoutHosts []) ["rabbit1"] m :=
  reader_agrees (coral2Graph_withoutHosts [])

end FluxCoral2.Dws2jgf
