import FluxCoral2.Library.Preorder
import FluxCoral2.Rabbit.Graph

/-! The machine that a resource graph describes.

A tree of the cluster, the chassis of its rabbits, their ssds and the hosts, with what is
below each: `encode_iff` says that the graph is this tree written out, one vertex after the
other, unless a rank has no children to look up. -/
namespace FluxCoral2.Dws2jgf
open Library

/-- What a vertex stands for; a host that is a rabbit is a storage node. -/
inductive Item
  | cluster
  | chassis (number : Nat) (rabbit : String)
  | ssd (i capacity : Nat)
  | host (storage : Bool) (rank : Nat) (name : String)
  | child (rank : Nat) (kind : ChildKind) (i : Nat)
  deriving DecidableEq

def Children.flat (children : Children) : List (ChildKind × Nat) := children.entries.flatMap fun e => e.2.map (e.1, ·)

namespace Coral2Graph
variable (c : Coral2Graph)

/-- The last part of an item's path. -/
def component : Item → String
  | .cluster => c.clusterName
  | .chassis number _ => "chassis" ++ toString number
  | .ssd i _ => "ssd" ++ toString i
  | .host _ _ name => name
  | .child _ kind i => c.base.childName kind i

def propertiesOf (rank : Nat) : Dict String String := (c.rankToProperties.get? rank).getD .empty

def vertex (id : Nat) (path : String) : Item → Vertex
  | .cluster => {id := id, type := .cluster, name := some c.clusterName, path := path}
  | .chassis number rabbit =>
    { id := id
      type := .chassis
      iden := some number
      properties := (Dict.empty.set "rabbit" rabbit).set "ssdcount" (toString c.chunksPerNnf)
      path := path }
  | .ssd _ capacity =>
    { id := id
      type := .ssd
      path := path
      unit := "GiB"
      size := toGibibytes (capacity / c.chunksPerNnf)
      status := 1 }
  | .host storage rank name =>
    { id := id
      type := if storage then .storageNode else .node
      name := some name
      rank := some rank
      exclusive := storage
      properties := c.propertiesOf rank
      path := path }
  | .child rank kind i => {id := id, type := kind.type, path := path, iden := some i, rank := some rank}

/-! ### The tree -/

/-- The children of a rank, none where there is nothing to look up. -/
def childrenOf (rank : Nat) : List (ChildKind × Nat) := ((c.rankToChildren.get? rank).map Children.flat).getD []

def hostTree (storage : Bool) (rank : Nat) (name : String) : RoseTree Item :=
  .node (.host storage rank name) ((c.childrenOf rank).map fun x => .node (.child rank x.1 x.2) [])

/-- A host, if it is in R. -/
def namedTrees (storage : Bool) (name : String) : List (RoseTree Item) :=
  ((c.rHostlist.idxOf? name).map fun rank => c.hostTree storage rank name).toList

def ssdTrees (capacity : Nat) : List (RoseTree Item) :=
  (List.range c.chunksPerNnf).map fun i => .node (.ssd i capacity) []

/-- The hosts of a rabbit that are not left out. -/
def kept (entry : RabbitEntry) : List String := entry.hostlist.filter (· ∉ c.resourceExclude)

def chassisTrees (rabbit : String × RabbitEntry) : List (RoseTree Item) :=
  c.ssdTrees rabbit.2.capacity ++ ((c.kept rabbit.2).flatMap (c.namedTrees false) ++ c.namedTrees true rabbit.1)

def chassisTree (number : Nat) (rabbit : String × RabbitEntry) : RoseTree Item :=
  .node (.chassis number rabbit.1) (c.chassisTrees rabbit)

/-- The hosts that no rabbit serves, with their ranks. -/
def alone : List (String × Nat) :=
  c.rHostlist.zipIdx.filter fun host => !(host.1 ∈ c.resourceExclude ∨
    host.1 ∈ c.rabbitMapping.computes.keys ++ c.rabbitMapping.rabbits.keys)

def machine : RoseTree Item :=
  .node .cluster ((c.rabbitMapping.rabbits.entries.zipIdx.map fun r => c.chassisTree r.2 r.1) ++
    c.alone.map fun host => c.hostTree false host.2 host.1)

/-! ### Writing the tree -/

/-- The path of an item, from the labels above it. -/
def pathOf (trail : List Item) : String := trail.foldl (fun path item => path ++ "/" ++ c.component item) ""

theorem pathOf_concat (above : List Item) (item : Item) :
    c.pathOf (above ++ [item]) = c.pathOf above ++ "/" ++ c.component item := by
  rw [pathOf, List.foldl_append]
  rfl

def added (v : Emitted Item) : Vertex × Option Nat := (c.vertex v.id (c.pathOf v.trail) v.label, v.parent)

/-- The graph after some trees have been written below a vertex. -/
def write (parent : Option Nat) (above : List Item) (ts : List (RoseTree Item)) (g : Graph) : Graph :=
  {g with
    uniqId := g.uniqId + RoseTree.sizes ts
    added := g.added ++ (RoseTree.emits g.uniqId parent above ts).map c.added}

variable {c}

theorem write_append (parent : Option Nat) (above : List Item) (ts us : List (RoseTree Item)) (g : Graph) :
    c.write parent above (ts ++ us) g = c.write parent above us (c.write parent above ts g) := by
  unfold write
  rw [RoseTree.emits_append, RoseTree.sizes_append, List.map_append, List.append_assoc, Nat.add_assoc]

theorem write_nil (parent : Option Nat) (above : List Item) (g : Graph) : c.write parent above [] g = g := by
  unfold write
  rw [RoseTree.emits, RoseTree.sizes, List.map_nil, List.append_nil, Nat.add_zero]

/-- A vertex, and what is below it. -/
theorem write_node (parent : Option Nat) (above : List Item) (item : Item) (ts : List (RoseTree Item)) (g : Graph) :
    c.write parent above [.node item ts] g =
      c.write (some g.uniqId) (above ++ [item]) ts
        (g.addAndTickUniqId (fun id => c.vertex id (c.pathOf above ++ "/" ++ c.component item) item) parent) := by
  unfold write Graph.addAndTickUniqId
  simp only [RoseTree.sizes, RoseTree.size, RoseTree.emits, RoseTree.emit, List.append_nil, List.map_cons, Nat.add_zero,
    List.append_assoc, List.singleton_append]
  rw [Nat.add_comm (RoseTree.sizes ts), ← Nat.add_assoc]
  congr 3
  exact Prod.ext (congrArg (fun path => c.vertex g.uniqId path item) (c.pathOf_concat above item)) rfl

theorem write_leaf (parent : Option Nat) (above : List Item) (item : Item) (g : Graph) :
    c.write parent above [.node item []] g =
      g.addAndTickUniqId (fun id => c.vertex id (c.pathOf above ++ "/" ++ c.component item) item) parent := by
  rw [write_node, write_nil]

theorem foldl_write {β : Type} (parent : Option Nat) (above : List Item) (trees : β → List (RoseTree Item))
    (l : List β) (g : Graph) :
    l.foldl (fun g x => c.write parent above (trees x) g) g = c.write parent above (l.flatMap trees) g := by
  induction l generalizing g with
  | nil => exact (write_nil parent above g).symm
  | cons x l ih => rw [List.foldl_cons, ih, List.flatMap_cons, write_append]

/-! ### The code writes the tree -/

/-- Some rank has no children to look up. -/
def Incomplete (c : Coral2Graph) : Prop := ∃ rank < c.rHostlist.length, c.rankToChildren.get? rank = none

/-- The step is this one, unless a rank has no children. -/
def Does (c : Coral2Graph) (step : Graph → Option Graph) (f : Graph → Graph) : Prop :=
  ∀ g, step g = some (f g) ∨ step g = none ∧ c.Incomplete

theorem Does.bind {step step' : Graph → Option Graph} {f f' : Graph → Graph} (h : c.Does step f)
    (h' : c.Does step' f') : c.Does (fun g => step g >>= step') fun g => f' (f g) := by
  intro g
  show (step g >>= step') = _ ∨ (step g >>= step') = none ∧ _
  rcases h g with hg | ⟨hg, hnone⟩
  · rw [hg]
    exact h' (f g)
  · rw [hg]
    exact .inr ⟨rfl, hnone⟩

theorem Does.foldlM {β : Type} {step : Graph → β → Option Graph} {f : Graph → β → Graph} {l : List β}
    (h : ∀ x ∈ l, c.Does (fun g => step g x) fun g => f g x) :
    c.Does (fun g => l.foldlM step g) fun g => l.foldl f g := by
  induction l with
  | nil => exact fun g => .inl rfl
  | cons x l ih =>
    obtain ⟨hx, hl⟩ := List.forall_mem_cons.mp h
    exact hx.bind (ih hl)

theorem encodeSsds_eq (parent : Nat) (above : List Item) (capacity : Nat) (g : Graph) :
    c.encodeSsds parent (c.pathOf above) capacity g = c.write (some parent) above (c.ssdTrees capacity) g := by
  have hssd : c.ssdTrees capacity = (List.range c.chunksPerNnf).flatMap fun i => [.node (.ssd i capacity) []] :=
    List.map_eq_flatMap
  rw [hssd, ← foldl_write]
  exact congrArg (fun step => List.foldl step g _) (funext₂ fun g i => (write_leaf _ above (.ssd i capacity) g).symm)

theorem foldl_flat {β : Type} (children : Children) (f : β → ChildKind × Nat → β) (b : β) :
    children.entries.foldl (fun b e => e.2.foldl (fun b i => f b (e.1, i)) b) b = children.flat.foldl f b := by
  unfold Children.flat
  rw [List.foldl_flatMap]
  simp only [List.foldl_map]

theorem encodeHost_eq {storage : Bool} {rank : Nat} {children : Children} (hostname : String) (parent : Nat)
    (above : List Item) (hchildren : c.rankToChildren.get? rank = some children) (g : Graph) :
    c.encodeHost (if storage then .storageNode else .node) storage parent (c.pathOf above) rank children hostname
      (c.propertiesOf rank) g = c.write (some parent) above [c.hostTree storage rank hostname] g := by
  have hflat : c.childrenOf rank = children.flat := by
    rw [childrenOf, hchildren]
    rfl
  have htrees : (children.flat.map fun x => RoseTree.node (Item.child rank x.1 x.2) []) =
      children.flat.flatMap fun x => [.node (.child rank x.1 x.2) []] := List.map_eq_flatMap
  rw [hostTree, hflat, write_node, htrees, ← foldl_write]
  unfold encodeHost
  rw [foldl_flat children fun g' x => c.encodeChild g.uniqId (c.pathOf above ++ "/" ++ hostname) rank x.1 x.2 g']
  refine congrArg (fun step => List.foldl step (g.addAndTickUniqId _ _) children.flat) (funext₂ fun g' x => ?_)
  rw [write_leaf, pathOf_concat]
  rfl

/-- The vertex for a host, by whether the host is a rabbit. -/
def encoder (c : Coral2Graph) (storage : Bool) := c.encodeHost (if storage then .storageNode else .node) storage

theorem does_encodeIndex (storage : Bool) (parent : Nat) (above : List Item) {index : Nat}
    (hindex : index < c.rHostlist.length) (hostname : String) :
    c.Does (c.encodeIndex (c.encoder storage) parent (c.pathOf above) index hostname)
      (c.write (some parent) above [c.hostTree storage index hostname]) := by
  intro g
  unfold encodeIndex
  cases hchildren : c.rankToChildren.get? index with
  | none => exact .inr ⟨rfl, index, hindex, hchildren⟩
  | some children => exact .inl (congrArg some (encodeHost_eq hostname parent above hchildren g))

theorem lt_of_idxOf? {hosts : List String} {host : String} {index : Nat} (h : hosts.idxOf? host = some index) :
    index < hosts.length :=
  (List.idxOf?_eq_some_iff.mp h).1

theorem does_encodeNamed (storage : Bool) (parent : Nat) (above : List Item) (hostname : String) :
    c.Does (c.encodeNamed (c.encoder storage) parent (c.pathOf above) hostname)
      (c.write (some parent) above (c.namedTrees storage hostname)) := by
  unfold encodeNamed namedTrees
  cases hindex : c.rHostlist.idxOf? hostname with
  | none => exact fun g => .inl (congrArg some (write_nil _ above g).symm)
  | some index => exact does_encodeIndex storage parent above (lt_of_idxOf? hindex) hostname

theorem flatMap_filter {α β : Type} (p : α → Prop) [DecidablePred p] (f : α → List β) (l : List α) :
    (l.filter fun x => !p x).flatMap f = l.flatMap fun x => if p x then [] else f x := by
  induction l with
  | nil => rfl
  | cons x l ih =>
    rw [List.flatMap_cons, ← ih]
    by_cases hx : p x
    · rw [List.filter_cons_of_neg (by simpa using hx), if_pos hx, List.nil_append]
    · rw [List.filter_cons_of_pos (by simpa using hx), if_neg hx, List.flatMap_cons]

/-- The hosts of a rabbit, but for those left out. -/
theorem does_hostlist (parent : Nat) (above : List Item) (entry : RabbitEntry) :
    c.Does (fun g => entry.hostlist.foldlM (fun g node =>
        if node ∈ c.resourceExclude then some g
        else c.encodeNamed c.encodeRank parent (c.pathOf above) node g) g)
      (c.write (some parent) above ((c.kept entry).flatMap (c.namedTrees false))) := by
  have hstep (node : String) : c.Does (fun g => if node ∈ c.resourceExclude then some g
      else c.encodeNamed c.encodeRank parent (c.pathOf above) node g)
      (c.write (some parent) above (if node ∈ c.resourceExclude then [] else c.namedTrees false node)) := by
    by_cases hnode : node ∈ c.resourceExclude
    · simp only [if_pos hnode]
      exact fun g => .inl (congrArg some (write_nil _ above g).symm)
    · simp only [if_neg hnode]
      exact does_encodeNamed false parent above node
  have hkept : (c.kept entry).flatMap (c.namedTrees false) =
      entry.hostlist.flatMap fun node => if node ∈ c.resourceExclude then [] else c.namedTrees false node := by
    rw [← flatMap_filter]
    congr 1
    simp [kept]
  rw [hkept]
  intro g
  rw [← foldl_write]
  exact Does.foldlM (fun node _ => hstep node) g

/-- What comes below the chassis of a rabbit, after its ssds. -/
def encodeBelow (c : Coral2Graph) (parentId : Nat) (path : String) (rabbit : String × RabbitEntry) (g : Graph) :
    Option Graph := do
  let g ← rabbit.2.hostlist.foldlM (fun g node =>
    if node ∈ c.resourceExclude then some g else c.encodeNamed c.encodeRank parentId path node g) g
  c.encodeNamed c.encodeRabbitAsComputeNode parentId path rabbit.1 g

theorem does_encodeBelow (parent : Nat) (above : List Item) (rabbit : String × RabbitEntry) :
    c.Does (c.encodeBelow parent (c.pathOf above) rabbit) (c.write (some parent) above
      ((c.kept rabbit.2).flatMap (c.namedTrees false) ++ c.namedTrees true rabbit.1)) := by
  intro g
  rw [write_append]
  exact (does_hostlist parent above rabbit.2).bind (does_encodeNamed true parent above rabbit.1) g

theorem bind_map {α β γ : Type} (x : Option α) (y : α → Option β) (f : β → γ) :
    (x >>= fun a => y a >>= fun b => pure (f b)) = (x >>= y).map f := by
  cases x with
  | none => rfl
  | some a =>
    show (y a >>= fun b => pure (f b)) = (y a).map f
    cases y a <;> rfl

theorem encodeChassis_eq (parent : Nat) (above : List Item) (rabbit : String × RabbitEntry) (g : Graph) :
    c.encodeChassis parent (c.pathOf above) g rabbit =
      (c.encodeBelow g.uniqId (c.pathOf (above ++ [.chassis g.chassisIds rabbit.1])) rabbit
        (c.write (some g.uniqId) (above ++ [.chassis g.chassisIds rabbit.1]) (c.ssdTrees rabbit.2.capacity)
          (g.addAndTickUniqId (fun id => c.vertex id (c.pathOf above ++ "/" ++ ("chassis" ++ toString g.chassisIds))
            (.chassis g.chassisIds rabbit.1)) (some parent)))).map
        fun g => {g with chassisIds := g.chassisIds + 1} := by
  rw [← encodeSsds_eq, pathOf_concat]
  unfold encodeChassis encodeBelow
  exact bind_map _ _ _

theorem does_encodeChassis (parent : Nat) (above : List Item) (rabbit : String × RabbitEntry) :
    c.Does (fun g => c.encodeChassis parent (c.pathOf above) g rabbit) fun g =>
      {c.write (some parent) above [c.chassisTree g.chassisIds rabbit] g with chassisIds := g.chassisIds + 1} := by
  intro g
  dsimp only
  rw [chassisTree, write_node, chassisTrees, write_append, encodeChassis_eq]
  rcases does_encodeBelow g.uniqId (above ++ [.chassis g.chassisIds rabbit.1]) rabbit
    (c.write (some g.uniqId) (above ++ [.chassis g.chassisIds rabbit.1]) (c.ssdTrees rabbit.2.capacity)
      (g.addAndTickUniqId (fun id => c.vertex id (c.pathOf above ++ "/" ++ ("chassis" ++ toString g.chassisIds))
        (.chassis g.chassisIds rabbit.1)) (some parent))) with h | ⟨h, hnone⟩
  · rw [h]
    exact .inl rfl
  · rw [h]
    exact .inr ⟨rfl, hnone⟩

theorem foldl_chassis (parent : Option Nat) (above : List Item) (rabbits : List (String × RabbitEntry)) (g : Graph) :
    rabbits.foldl (fun g rabbit =>
      {c.write parent above [c.chassisTree g.chassisIds rabbit] g with chassisIds := g.chassisIds + 1}) g =
      {c.write parent above ((rabbits.zipIdx g.chassisIds).map fun r => c.chassisTree r.2 r.1) g with
        chassisIds := g.chassisIds + rabbits.length} := by
  induction rabbits generalizing g with
  | nil =>
    rw [List.zipIdx_nil, List.map_nil, write_nil]
    rfl
  | cons rabbit rest ih =>
    rw [List.foldl_cons, ih, List.zipIdx_cons, List.map_cons, List.length_cons, Nat.add_comm rest.length,
      ← Nat.add_assoc]
    have happend := write_append (c := c) parent above [c.chassisTree g.chassisIds rabbit]
      ((rest.zipIdx (g.chassisIds + 1)).map fun r => c.chassisTree r.2 r.1) g
    rw [List.singleton_append] at happend
    rw [happend]
    rfl

/-- The loop over the rabbits, which counts the chassis. -/
theorem does_rabbits (parent : Nat) (above : List Item) (rabbits : List (String × RabbitEntry)) :
    c.Does (fun g => rabbits.foldlM (c.encodeChassis parent (c.pathOf above)) g) fun g =>
      {c.write (some parent) above ((rabbits.zipIdx g.chassisIds).map fun r => c.chassisTree r.2 r.1) g with
        chassisIds := g.chassisIds + rabbits.length} := by
  intro g
  have hloop := Does.foldlM (fun rabbit (_ : rabbit ∈ rabbits) => does_encodeChassis (c := c) parent above rabbit) g
  exact hloop.imp (fun h => h.trans (congrArg some (foldl_chassis _ above rabbits g))) id

/-- The loop over the hosts of R. -/
theorem does_alone (parent : Nat) (above : List Item) :
    c.Does (fun g => c.rHostlist.zipIdx.foldlM (fun g host =>
        if host.1 ∈ c.resourceExclude ∨ host.1 ∈ c.rabbitMapping.computes.keys ++ c.rabbitMapping.rabbits.keys then
          some g
        else c.encodeIndex c.encodeRank parent (c.pathOf above) host.2 host.1 g) g)
      (c.write (some parent) above (c.alone.map fun host => c.hostTree false host.2 host.1)) := by
  rw [List.map_eq_flatMap, alone, flatMap_filter]
  intro g
  rw [← foldl_write]
  refine Does.foldlM (fun host hmem => ?_) g
  split
  · exact fun g => .inl (congrArg some (write_nil _ above g).symm)
  · have hlt := (List.mem_zipIdx hmem).2.1
    rw [Nat.zero_add] at hlt
    exact does_encodeIndex false parent above hlt host.1

/-- The graph that the tree of the machine is written out as. -/
def graph (c : Coral2Graph) : Graph where
  uniqId := RoseTree.size c.machine
  chassisIds := c.rabbitMapping.rabbits.entries.length
  added := (RoseTree.emit 0 none [] c.machine).map c.added

theorem write_machine (c : Coral2Graph) :
    {c.write none [] [c.machine] {} with chassisIds := c.rabbitMapping.rabbits.entries.length} = c.graph := by
  unfold write graph
  rw [RoseTree.sizes, RoseTree.sizes, RoseTree.emits, RoseTree.emits, List.append_nil, Nat.zero_add, Nat.add_zero]
  rfl

/-- **The code writes the machine**, unless a rank has no children to look up. -/
theorem encode_eq (c : Coral2Graph) : c.encode = some c.graph ∨ c.encode = none ∧ c.Incomplete := by
  have hroot : c.pathOf [.cluster] = "/" ++ c.clusterName := by
    rw [← List.nil_append [Item.cluster], pathOf_concat]
    rfl
  have hloops := (does_rabbits 0 [.cluster] c.rabbitMapping.rabbits.entries).bind (does_alone (c := c) 0 [.cluster])
    (Graph.addAndTickUniqId {} (fun id => c.vertex id ("/" ++ c.clusterName) .cluster) none)
  rw [hroot] at hloops
  refine hloops.imp (fun h => h.trans (congrArg some ?_)) id
  rw [← write_machine, machine, write_node, write_append]
  simp only [Graph.addAndTickUniqId, Nat.zero_add]
  rfl

end Coral2Graph
end FluxCoral2.Dws2jgf
