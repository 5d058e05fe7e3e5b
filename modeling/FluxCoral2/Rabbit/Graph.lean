import Mathlib.Algebra.GroupWithZero.Nat
import FluxCoral2.Library.Dict

/-! The resource graph (`flux-dws2jgf.py`).

`Coral2Graph` makes a graph for Fluxion of R and of the rabbits that the system has: a
cluster, below it a chassis for each rabbit with the rabbit's ssds and hosts, and the hosts
that no rabbit serves. It extends a class of the fluxion package, which numbers the
vertices as they are added, and of which `ResourceGraphV1` is what is used here. -/
namespace FluxCoral2.Dws2jgf
open Library

/-! ### R -/

/-- What RFC 20 lists below a rank. -/
inductive ChildKind | core | gpu
  deriving DecidableEq

/-- The `children` of an entry of R_lite, with its idsets decoded. -/
structure Children where
  entries : List (ChildKind × List Nat)
  keys_nodup : (entries.map Prod.fst).Nodup
  ids_nodup : ∀ e ∈ entries, e.2.Nodup

/-- The `rank` of an entry of R_lite: an idset of one rank, of one range, or another. -/
inductive RankIds
  | id (rank : Nat)
  | range (low high : Nat)
  | other (ranks : List Nat)

def RankIds.ranks : RankIds → List Nat
  | .id rank => [rank]
  | .range low high => List.range' low (high + 1 - low)
  | .other ranks => ranks

structure RLiteEntry where
  rank : RankIds
  children : Children

/-- R, with the idsets of its properties decoded, and its hosts as `r_hostlist`. -/
structure R where
  rLite : List RLiteEntry
  properties : Dict String (List Nat) := .empty
  hosts : List String
  plain : ∀ h ∈ hosts, '/' ∉ h.toList

/-- `get_node_children`: an idset of several ranges is a ValueError. -/
def getNodeChildren : List RLiteEntry → Dict Nat Children → Option (Dict Nat Children)
  | [], rankToChildren => some rankToChildren
  | entry :: rest, rankToChildren =>
    match entry.rank with
    | .id rank => getNodeChildren rest (rankToChildren.set rank entry.children)
    | .range low high =>
      getNodeChildren rest (rankToChildren.setAll (List.range' low (high + 1 - low)) entry.children)
    | .other _ => none

/-- `get_node_properties`. -/
def getNodeProperties (properties : Dict String (List Nat)) : Dict Nat (Dict String String) :=
  properties.entries.foldl (fun rankToProperty e =>
    e.2.foldl (fun d rank => d.set rank (((d.get? rank).getD .empty).set e.1 "")) rankToProperty) .empty

/-! ### The arguments -/

/-- A rabbit of the mapping, with its hostlist decoded. -/
structure RabbitEntry where
  capacity : Nat
  hostlist : List String

structure RabbitMapping where
  computes : Dict String String
  rabbits : Dict String RabbitEntry

/-- `resource.exclude`: an idset of ranks, a hostlist, or neither. -/
inductive Exclude
  | idset (ranks : List Nat)
  | hostlist (names : List String)
  | malformed

/-- The hosts to leave out; a rank that is out of range is an error. -/
def Exclude.resolve (rHostlist : List String) : Exclude → Option (List String)
  | .idset ranks => ranks.mapM fun rank => rHostlist[rank]?
  | .hostlist names => some names
  | .malformed => none

/-- What the exclusion says of a host of R with this rank. -/
def Exclude.Covers (exclude : Exclude) (rank : Nat) (host : String) : Prop :=
  match exclude with
  | .idset ranks => rank ∈ ranks
  | .hostlist names => host ∈ names
  | .malformed => False

/-! ### The graph -/

inductive VertexType | cluster | chassis | rack | ssd | node | storageNode | core | gpu
  deriving DecidableEq

/-- A vertex, with what its constructor is given. -/
structure Vertex where
  id : Nat
  type : VertexType
  path : String
  name : Option String := none
  iden : Option Nat := none
  rank : Option Nat := none
  properties : Dict String String := .empty
  unit : String := ""
  size : Nat := 1
  status : Nat := 0
  exclusive : Bool := false

/-- The graph while it is made: each vertex with the source of the edge to it. -/
structure Graph where
  uniqId : Nat := 0
  chassisIds : Nat := 0
  added : List (Vertex × Option Nat) := []

def Graph.nodes (g : Graph) : List Vertex := g.added.map Prod.fst

/-- The vertices that a vertex has edges to. -/
def Graph.below (g : Graph) (id : Nat) : List Vertex := (g.added.filter fun a => a.2 = some id).map Prod.fst

/-- `_add_and_tick_uniq_id`, of a vertex that has the next id. -/
def Graph.addAndTickUniqId (g : Graph) (vertex : Nat → Vertex) (parent : Option Nat) : Graph :=
  {g with uniqId := g.uniqId + 1, added := g.added ++ [(vertex g.uniqId, parent)]}

/-- The names that the base class gives to the children of a host. -/
structure ResourceGraphV1 where
  childName : ChildKind → Nat → String
  childName_inj : ∀ k i k' i', childName k i = childName k' i' → k = k' ∧ i = i'
  plain : ∀ k i, '/' ∉ (childName k i).toList

def ChildKind.type : ChildKind → VertexType
  | .core => .core
  | .gpu => .gpu

/-- The attributes of a `Coral2Graph`. -/
structure Coral2Graph where
  base : ResourceGraphV1
  rabbitMapping : RabbitMapping
  rHostlist : List String
  chunksPerNnf : Nat
  clusterName : String
  rankToChildren : Dict Nat Children
  rankToProperties : Dict Nat (Dict String String)
  resourceExclude : List String

namespace Coral2Graph
variable (c : Coral2Graph)

def toGibibytes (bytecount : Nat) : Nat := bytecount / 1024 ^ 3

def encodeSsds (parentId : Nat) (parentPath : String) (capacity : Nat) (g : Graph) : Graph :=
  (List.range c.chunksPerNnf).foldl (fun g i => g.addAndTickUniqId (fun id =>
    { id := id
      type := .ssd
      path := parentPath ++ "/" ++ ("ssd" ++ toString i)
      unit := "GiB"
      size := toGibibytes (capacity / c.chunksPerNnf)
      status := 1 }) (some parentId)) g

/-- `_encode_child` of the base class. -/
def encodeChild (parentId : Nat) (parentPath : String) (rank : Nat) (kind : ChildKind) (i : Nat) (g : Graph) : Graph :=
  g.addAndTickUniqId (fun id =>
    { id := id
      type := kind.type
      path := parentPath ++ "/" ++ c.base.childName kind i
      iden := some i
      rank := some rank }) (some parentId)

/-- A vertex for a host, and its children below it. -/
def encodeHost (type : VertexType) (exclusive : Bool) (parentId : Nat) (parentPath : String) (rank : Nat)
    (children : Children) (hostname : String) (properties : Dict String String) (g : Graph) : Graph :=
  let path := parentPath ++ "/" ++ hostname
  let vtx := g.uniqId
  let g := g.addAndTickUniqId (fun id =>
    { id := id
      type := type
      name := some hostname
      rank := some rank
      exclusive := exclusive
      properties := properties
      path := path }) (some parentId)
  children.entries.foldl (fun g e => e.2.foldl (fun g i => c.encodeChild vtx path rank e.1 i g) g) g

def encodeRabbitAsComputeNode := c.encodeHost .storageNode true

/-- `_encode_rank` of the base class. -/
def encodeRank := c.encodeHost .node false

/-- A host of R as `encode` has it, with what is known of its rank; no children is a KeyError. -/
def encodeIndex (encode : Nat → String → Nat → Children → String → Dict String String → Graph → Graph)
    (parentId : Nat) (parentPath : String) (index : Nat) (hostname : String) (g : Graph) : Option Graph := do
  let children ← c.rankToChildren.get? index
  pure (encode parentId parentPath index children hostname ((c.rankToProperties.get? index).getD .empty) g)

/-- A host that may be in R, or not. -/
def encodeNamed (encode : Nat → String → Nat → Children → String → Dict String String → Graph → Graph)
    (parentId : Nat) (parentPath : String) (hostname : String) (g : Graph) : Option Graph :=
  match c.rHostlist.idxOf? hostname with
  | none => some g
  | some index => c.encodeIndex encode parentId parentPath index hostname g

def encodeChassis (parentId : Nat) (parentPath : String) (g : Graph) (rabbit : String × RabbitEntry) :
    Option Graph := do
  let path := parentPath ++ "/" ++ ("chassis" ++ toString g.chassisIds)
  let vtx := g.uniqId
  let g := g.addAndTickUniqId (fun id =>
    { id := id
      type := .chassis
      iden := some g.chassisIds
      properties := (Dict.empty.set "rabbit" rabbit.1).set "ssdcount" (toString c.chunksPerNnf)
      path := path }) (some parentId)
  let g := c.encodeSsds vtx path rabbit.2.capacity g
  let g ← rabbit.2.hostlist.foldlM (fun g node =>
    if node ∈ c.resourceExclude then some g else c.encodeNamed c.encodeRank vtx path node g) g
  -- if the rabbit itself is in R, it is added to the chassis as well
  let g ← c.encodeNamed c.encodeRabbitAsComputeNode vtx path rabbit.1 g
  pure {g with chassisIds := g.chassisIds + 1}

def encode : Option Graph := do
  let path := "/" ++ c.clusterName
  let g : Graph := {}
  let vtx := g.uniqId
  let g := g.addAndTickUniqId (fun id =>
    { id := id
      type := .cluster
      name := some c.clusterName
      path := path }) none
  let g ← c.rabbitMapping.rabbits.entries.foldlM (c.encodeChassis vtx path) g
  let dwsComputes := c.rabbitMapping.computes.keys ++ c.rabbitMapping.rabbits.keys
  c.rHostlist.zipIdx.foldlM (fun g host =>
    if host.1 ∈ c.resourceExclude ∨ host.1 ∈ dwsComputes then some g
    else c.encodeIndex c.encodeRank vtx path host.2 host.1 g) g

end Coral2Graph

/-- `Coral2Graph.__init__`. -/
def coral2Graph (base : ResourceGraphV1) (rv1 : R) (rabbitMapping : RabbitMapping) (chunksPerNnf : Nat)
    (clusterName : String) (resourceExclude : Exclude) : Option Graph := do
  let rankToChildren ← getNodeChildren rv1.rLite .empty
  let resourceExclude ← resourceExclude.resolve rv1.hosts
  Coral2Graph.encode
    { base := base
      rabbitMapping := rabbitMapping
      rHostlist := rv1.hosts
      chunksPerNnf := chunksPerNnf
      clusterName := clusterName
      rankToChildren := rankToChildren
      rankToProperties := getNodeProperties rv1.properties
      resourceExclude := resourceExclude }

end FluxCoral2.Dws2jgf
