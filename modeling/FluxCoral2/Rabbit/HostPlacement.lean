import FluxCoral2.Rabbit.Names
import FluxCoral2.Rabbit.Ranks

/-! Where the hosts of R are in the resource graph.

Each host that is not left out should have one vertex, with its rank, the children and the
properties of the rank, below the chassis of its rabbit or below the cluster, and no two
vertices one path. `hosts_placed_iff` says for which inputs there is a graph and it is so.
A graph is not made of every R: `get_node_children` takes an idset of several ranges for a
malformed range, where `get_node_properties` decodes it. -/
namespace FluxCoral2.Dws2jgf
open Library

/-! ### What is asked of the graph -/

/-- R and the mapping are what they should be. -/
structure Consistent (rv1 : R) (rabbitMapping : RabbitMapping) : Prop where
  hosts_nodup : rv1.hosts.Nodup
  ranks : (rv1.rLite.flatMap fun entry => entry.rank.ranks).Perm (List.range rv1.hosts.length)
  inverse : ∀ host rabbit, rabbitMapping.computes.get? host = some rabbit ↔
    ∃ entry, rabbitMapping.rabbits.get? rabbit = some entry ∧ host ∈ entry.hostlist
  apart : ∀ rabbit ∈ rabbitMapping.rabbits.keys, rabbit ∉ rabbitMapping.computes.keys

/-- A host of R that is not left out. -/
def Kept (rv1 : R) (resourceExclude : Exclude) (rank : Nat) (host : String) : Prop :=
  rv1.hosts[rank]? = some host ∧ ¬resourceExclude.Covers rank host

/-- The rabbit on whose chassis a host is. -/
def RabbitMapping.home (rabbitMapping : RabbitMapping) (host : String) : Option String :=
  if host ∈ rabbitMapping.rabbits.keys then some host else rabbitMapping.computes.get? host

/-- The vertex is the only one for the host, and as it should be, below its parent. -/
structure Placement (g : Graph) (rv1 : R) (rabbitMapping : RabbitMapping) (rank : Nat) (host : String)
    (v parent : Vertex) : Prop where
  only : (g.added.filter fun a => (a.1.type = .node ∨ a.1.type = .storageNode) ∧ a.1.name = some host) =
    [(v, some parent.id)]
  type : v.type = if host ∈ rabbitMapping.rabbits.keys then .storageNode else .node
  ranked : v.rank = some rank
  children : ∀ entry ∈ rv1.rLite, rank ∈ entry.rank.ranks →
    (g.below v.id).map (fun w => (w.type, w.iden, w.rank)) =
      entry.children.flat.map fun x => (x.1.type, some x.2, some rank)
  properties : ∀ name, v.properties.get? name =
    if ∃ e ∈ rv1.properties.entries, e.1 = name ∧ rank ∈ e.2 then some "" else none
  mem_nodes : parent ∈ g.nodes
  path : v.path = parent.path ++ "/" ++ host
  chassis : ∀ rabbit, rabbitMapping.home host = some rabbit →
    parent.type = .chassis ∧ parent.properties.get? "rabbit" = some rabbit
  cluster : rabbitMapping.home host = none → parent.type = .cluster

/-- Every host is placed once, and all is told apart. -/
structure PlacesHosts (g : Graph) (rv1 : R) (rabbitMapping : RabbitMapping) (resourceExclude : Exclude) : Prop where
  placed : ∀ rank host, Kept rv1 resourceExclude rank host →
    ∃ v parent, Placement g rv1 rabbitMapping rank host v parent
  ids : (g.nodes.map Vertex.id).Nodup
  numbers : ((g.nodes.filter fun v => v.type = .chassis).map Vertex.iden).Nodup
  paths : (g.nodes.map Vertex.path).Nodup

/-- What the code needs of its input for that. -/
structure Placeable (rv1 : R) (rabbitMapping : RabbitMapping) (chunksPerNnf : Nat) (resourceExclude : Exclude) :
    Prop where
  /-- Each entry of R_lite is for one rank or one range of ranks. -/
  simple : ∀ entry ∈ rv1.rLite, entry.rank.Simple
  /-- The exclusion is an idset of ranks that there are, or a hostlist. -/
  exclude : (resourceExclude.resolve rv1.hosts).isSome
  /-- No rabbit lists a host of the graph twice. -/
  once : ∀ rabbit entry, rabbitMapping.rabbits.get? rabbit = some entry → ∀ rank host,
    Kept rv1 resourceExclude rank host → entry.hostlist.count host ≤ 1
  /-- A host next to the chassis is not named like one. -/
  chassisNames : ∀ rank host, Kept rv1 resourceExclude rank host → rabbitMapping.home host = none →
    ∀ number < rabbitMapping.rabbits.entries.length, host ≠ "chassis" ++ toString number
  /-- A host next to the ssds of a rabbit is not named like one. -/
  ssdNames : ∀ rank host, rv1.hosts[rank]? = some host →
    (host ∈ rabbitMapping.rabbits.keys ∨ ¬resourceExclude.Covers rank host ∧ host ∈ rabbitMapping.computes.keys) →
    ∀ i < chunksPerNnf, host ≠ "ssd" ++ toString i

section
variable {base : ResourceGraphV1} {rv1 : R} {rabbitMapping : RabbitMapping} {chunksPerNnf : Nat} {clusterName : String}
  {resourceExclude : Exclude} {rankToChildren : Dict Nat Children} {names : List String}

/-! ### Who is left out -/

theorem covers_iff (hnodup : rv1.hosts.Nodup) (hnames : resourceExclude.resolve rv1.hosts = some names) {rank : Nat}
    {host : String} (hhost : rv1.hosts[rank]? = some host) : resourceExclude.Covers rank host ↔ host ∈ names := by
  refine ⟨fun h => h.mem_resolve hhost hnames, fun h => ?_⟩
  cases resourceExclude with
  | idset ranks =>
    have hmem := List.mem_map_of_mem (f := some) h
    rw [← Prog.mapM_eq_some.mp hnames] at hmem
    obtain ⟨rank', hrank', heq⟩ := List.mem_map.mp hmem
    have hlt := (List.getElem?_eq_some_iff.mp hhost).1
    rwa [(List.getElem?_inj hlt hnodup).mp (hhost.trans heq.symm)]
  | hostlist names' =>
    obtain rfl := Option.some.inj hnames
    exact h
  | malformed => cases hnames

theorem kept_iff (hnodup : rv1.hosts.Nodup) (hnames : resourceExclude.resolve rv1.hosts = some names) {rank : Nat}
    {host : String} : Kept rv1 resourceExclude rank host ↔ rv1.hosts[rank]? = some host ∧ host ∉ names :=
  and_congr_right fun hhost => not_congr (covers_iff hnodup hnames hhost)

theorem home_eq_none_iff {host : String} : rabbitMapping.home host = none ↔
    host ∉ rabbitMapping.computes.keys ++ rabbitMapping.rabbits.keys := by
  unfold RabbitMapping.home
  rw [List.mem_append, not_or, ← Dict.get?_eq_none]
  by_cases h : host ∈ rabbitMapping.rabbits.keys <;> simp [h]

/-! ### Names -/

theorem Coral2Graph.nodup_alone {c : Coral2Graph} (hnodup : c.rHostlist.Nodup) : (c.alone.map Prod.fst).Nodup := by
  refine (List.filter_sublist.map Prod.fst).nodup ?_
  rw [List.zipIdx_map_fst]
  exact hnodup

theorem mem_alone_iff {host : String} :
    host ∈ (attributes base rv1 rabbitMapping chunksPerNnf clusterName rankToChildren names).alone.map Prod.fst ↔
      host ∈ rv1.hosts ∧ host ∉ names ∧ rabbitMapping.home host = none := by
  rw [home_eq_none_iff, ← not_or, List.mem_map]
  constructor
  · rintro ⟨⟨host, rank⟩, hmem, rfl⟩
    obtain ⟨hzip, hout⟩ := List.mem_filter.mp hmem
    exact ⟨List.fst_mem_of_mem_zipIdx hzip, by simpa [attributes] using hout⟩
  · rintro ⟨hhost, hout⟩
    obtain ⟨rank, hrank⟩ := List.getElem?_of_mem hhost
    refine ⟨(host, rank), List.mem_filter.mpr ⟨List.mk_mem_zipIdx_iff_getElem?.mpr hrank, ?_⟩, rfl⟩
    simpa [attributes] using hout

theorem nodup_numbered (name : String) (n : Nat) : ((List.range n).map fun i => name ++ toString i).Nodup :=
  List.nodup_range.map fun _ _ h => (append_toString_inj name).mp h

theorem mem_inR_kept {entry : RabbitEntry} {host : String} :
    host ∈ (attributes base rv1 rabbitMapping chunksPerNnf clusterName rankToChildren names).inR
      ((attributes base rv1 rabbitMapping chunksPerNnf clusterName rankToChildren names).kept entry) ↔
      (host ∈ entry.hostlist ∧ host ∉ names) ∧ host ∈ rv1.hosts := by
  rw [Coral2Graph.inR, Coral2Graph.kept, List.mem_filter, List.mem_filter, decide_eq_true_iff, decide_eq_true_iff]
  exact Iff.rfl

theorem mem_inR_rabbit {rabbit host : String} :
    host ∈ (attributes base rv1 rabbitMapping chunksPerNnf clusterName rankToChildren names).inR [rabbit] ↔
      host = rabbit ∧ host ∈ rv1.hosts := by
  rw [Coral2Graph.inR, List.mem_filter, List.mem_singleton, decide_eq_true_iff]
  exact Iff.rfl

/-- The hosts of a chassis come once each, if they are listed once. -/
theorem nodup_inR_kept_iff (hnodup : rv1.hosts.Nodup) (hnames : resourceExclude.resolve rv1.hosts = some names)
    (entry : RabbitEntry) :
    ((attributes base rv1 rabbitMapping chunksPerNnf clusterName rankToChildren names).inR
      ((attributes base rv1 rabbitMapping chunksPerNnf clusterName rankToChildren names).kept entry)).Nodup ↔
      ∀ rank host, Kept rv1 resourceExclude rank host → entry.hostlist.count host ≤ 1 := by
  rw [List.nodup_iff_count_le_one]
  have hcount {host : String} (hhost : host ∈ rv1.hosts) (hout : host ∉ names) :
      ((attributes base rv1 rabbitMapping chunksPerNnf clusterName rankToChildren names).inR
        ((attributes base rv1 rabbitMapping chunksPerNnf clusterName rankToChildren names).kept entry)).count host =
        entry.hostlist.count host := by
    refine (List.count_filter ?_).trans (List.count_filter ?_)
    · exact decide_eq_true hhost
    · exact decide_eq_true hout
  constructor
  · intro h rank host hkept
    obtain ⟨hhost, hout⟩ := (kept_iff hnodup hnames).mp hkept
    exact hcount (List.mem_of_getElem? hhost) hout ▸ h host
  · intro h host
    by_cases hmem : host ∈ (attributes base rv1 rabbitMapping chunksPerNnf clusterName rankToChildren names).inR
        ((attributes base rv1 rabbitMapping chunksPerNnf clusterName rankToChildren names).kept entry)
    · obtain ⟨⟨-, hout⟩, hhost⟩ := mem_inR_kept.mp hmem
      obtain ⟨rank, hrank⟩ := List.getElem?_of_mem hhost
      exact hcount hhost hout ▸ h rank host ((kept_iff hnodup hnames).mpr ⟨hrank, hout⟩)
    · rw [List.count_eq_zero_of_not_mem hmem]
      exact Nat.zero_le 1

/-- No host is named like the chassis next to it. -/
theorem nodup_cluster_iff (hnodup : rv1.hosts.Nodup) (hnames : resourceExclude.resolve rv1.hosts = some names) :
    (((List.range rabbitMapping.rabbits.entries.length).map fun number => "chassis" ++ toString number) ++
      (attributes base rv1 rabbitMapping chunksPerNnf clusterName rankToChildren names).alone.map Prod.fst).Nodup ↔
    ∀ rank host, Kept rv1 resourceExclude rank host → rabbitMapping.home host = none →
      ∀ number < rabbitMapping.rabbits.entries.length, host ≠ "chassis" ++ toString number := by
  rw [List.nodup_append', and_iff_right (nodup_numbered _ _), and_iff_right (Coral2Graph.nodup_alone hnodup)]
  constructor
  · rintro h rank host hkept hhome number hlt rfl
    obtain ⟨hhost, hout⟩ := (kept_iff hnodup hnames).mp hkept
    exact h (List.mem_map_of_mem (List.mem_range.mpr hlt)) (mem_alone_iff.mpr ⟨List.mem_of_getElem? hhost, hout, hhome⟩)
  · intro h host hnumber halone
    obtain ⟨number, hlt, rfl⟩ := List.mem_map.mp hnumber
    obtain ⟨hhost, hout, hhome⟩ := mem_alone_iff.mp halone
    obtain ⟨rank, hrank⟩ := List.getElem?_of_mem hhost
    exact h rank _ ((kept_iff hnodup hnames).mpr ⟨hrank, hout⟩) hhome number (List.mem_range.mp hlt) rfl

/-- The ssds of the rabbit are named otherwise than what is next to them. -/
def SsdNames (rv1 : R) (names : List String) (chunksPerNnf : Nat) (rabbit : String) (entry : RabbitEntry) : Prop :=
  ∀ host ∈ rv1.hosts, (host ∈ entry.hostlist ∧ host ∉ names ∨ host = rabbit) →
    ∀ i < chunksPerNnf, host ≠ "ssd" ++ toString i

theorem nodup_chassis_iff (hconsistent : Consistent rv1 rabbitMapping)
    (hnames : resourceExclude.resolve rv1.hosts = some names) {rabbit : String} {entry : RabbitEntry}
    (hentry : rabbitMapping.rabbits.get? rabbit = some entry) :
    (((List.range chunksPerNnf).map fun i => "ssd" ++ toString i) ++
      ((attributes base rv1 rabbitMapping chunksPerNnf clusterName rankToChildren names).inR
        ((attributes base rv1 rabbitMapping chunksPerNnf clusterName rankToChildren names).kept entry) ++
      (attributes base rv1 rabbitMapping chunksPerNnf clusterName rankToChildren names).inR [rabbit])).Nodup ↔
    (∀ rank host, Kept rv1 resourceExclude rank host → entry.hostlist.count host ≤ 1) ∧
      SsdNames rv1 names chunksPerNnf rabbit entry := by
  have hdisjoint : List.Disjoint
      ((attributes base rv1 rabbitMapping chunksPerNnf clusterName rankToChildren names).inR
        ((attributes base rv1 rabbitMapping chunksPerNnf clusterName rankToChildren names).kept entry))
      ((attributes base rv1 rabbitMapping chunksPerNnf clusterName rankToChildren names).inR [rabbit]) := by
    intro host hlisted hrabbit
    obtain ⟨rfl, -⟩ := mem_inR_rabbit.mp hrabbit
    have hcompute := (hconsistent.inverse host host).mpr ⟨entry, hentry, (mem_inR_kept.mp hlisted).1.1⟩
    exact hconsistent.apart host ((Dict.mem_keys _ _).mpr ⟨entry, hentry⟩) ((Dict.mem_keys _ _).mpr ⟨host, hcompute⟩)
  have hrabbit :
      ((attributes base rv1 rabbitMapping chunksPerNnf clusterName rankToChildren names).inR [rabbit]).Nodup :=
    (List.nodup_singleton rabbit).filter _
  rw [List.nodup_append', and_iff_right (nodup_numbered _ _), List.nodup_append', and_iff_right hrabbit,
    and_iff_left hdisjoint, nodup_inR_kept_iff hconsistent.hosts_nodup hnames]
  refine and_congr_right fun _ => ⟨fun h host hhost hnext i hlt heq => ?_, fun h host hssd hnext => ?_⟩
  · refine h (List.mem_map_of_mem (List.mem_range.mpr hlt)) (heq ▸ List.mem_append.mpr ?_)
    exact hnext.imp (fun h => mem_inR_kept.mpr ⟨h, hhost⟩) fun h => mem_inR_rabbit.mpr ⟨h, hhost⟩
  · obtain ⟨i, hlt, rfl⟩ := List.mem_map.mp hssd
    rcases List.mem_append.mp hnext with hnext | hnext
    · obtain ⟨hlisted, hhost⟩ := mem_inR_kept.mp hnext
      exact h _ hhost (.inl hlisted) i (List.mem_range.mp hlt) rfl
    · obtain ⟨heq, hhost⟩ := mem_inR_rabbit.mp hnext
      exact h _ hhost (.inr heq) i (List.mem_range.mp hlt) rfl

/-- The names of the ssds of all rabbits, by host. -/
theorem ssdNames_iff (hconsistent : Consistent rv1 rabbitMapping)
    (hnames : resourceExclude.resolve rv1.hosts = some names) :
    (∀ rabbit entry, rabbitMapping.rabbits.get? rabbit = some entry → SsdNames rv1 names chunksPerNnf rabbit entry) ↔
    ∀ rank host, rv1.hosts[rank]? = some host →
      (host ∈ rabbitMapping.rabbits.keys ∨ ¬resourceExclude.Covers rank host ∧ host ∈ rabbitMapping.computes.keys) →
      ∀ i < chunksPerNnf, host ≠ "ssd" ++ toString i := by
  constructor
  · intro h rank host hrank hplace
    have hhost := List.mem_of_getElem? hrank
    rcases hplace with hkey | ⟨hkept, hkey⟩
    · obtain ⟨entry, hentry⟩ := (Dict.mem_keys _ _).mp hkey
      exact h host entry hentry host hhost (.inr rfl)
    · obtain ⟨rabbit, hrabbit⟩ := (Dict.mem_keys _ _).mp hkey
      obtain ⟨entry, hentry, hlisted⟩ := (hconsistent.inverse host rabbit).mp hrabbit
      have hout := mt (covers_iff hconsistent.hosts_nodup hnames hrank).mpr hkept
      exact h rabbit entry hentry host hhost (.inl ⟨hlisted, hout⟩)
  · intro h rabbit entry hentry host hhost hnext
    obtain ⟨rank, hrank⟩ := List.getElem?_of_mem hhost
    refine h rank host hrank ?_
    rcases hnext with ⟨hlisted, hout⟩ | rfl
    · have hcompute := (hconsistent.inverse host rabbit).mpr ⟨entry, hentry, hlisted⟩
      exact .inr ⟨mt (covers_iff hconsistent.hosts_nodup hnames hrank).mp hout, (Dict.mem_keys _ _).mpr ⟨_, hcompute⟩⟩
    · exact .inl ((Dict.mem_keys _ _).mpr ⟨entry, hentry⟩)

/-- The names below the cluster and below each chassis are told apart. -/
theorem apart_iff (hconsistent : Consistent rv1 rabbitMapping)
    (hnames : resourceExclude.resolve rv1.hosts = some names) :
    RoseTree.Apart (attributes base rv1 rabbitMapping chunksPerNnf clusterName rankToChildren names).component
      (attributes base rv1 rabbitMapping chunksPerNnf clusterName rankToChildren names).machine ↔
    (∀ rank host, Kept rv1 resourceExclude rank host → rabbitMapping.home host = none →
      ∀ number < rabbitMapping.rabbits.entries.length, host ≠ "chassis" ++ toString number) ∧
    ∀ rabbit entry, rabbitMapping.rabbits.get? rabbit = some entry →
      (∀ rank host, Kept rv1 resourceExclude rank host → entry.hostlist.count host ≤ 1) ∧
        SsdNames rv1 names chunksPerNnf rabbit entry := by
  rw [Coral2Graph.apart_machine_iff]
  refine and_congr (nodup_cluster_iff hconsistent.hosts_nodup hnames)
    ⟨fun h rabbit entry hentry => ?_, fun h rabbit hrabbit => ?_⟩
  · exact (nodup_chassis_iff hconsistent hnames hentry).mp (h (rabbit, entry) ((Dict.get?_eq_some _ _ _).mp hentry))
  · have hentry := (Dict.get?_eq_some _ _ _).mpr hrabbit
    exact (nodup_chassis_iff hconsistent hnames hentry).mpr (h rabbit.1 rabbit.2 hentry)

end

/-! ### One host -/

/-- The item is the host. -/
def isHostOf (host : String) : Item → Bool
  | .host _ _ name => name = host
  | _ => false

namespace Coral2Graph
variable {c : Coral2Graph} {rank : Nat} {host : String}

theorem pick_namedSeats (hrank : c.rHostlist.idxOf? host = some rank) (above : List Item) (storage : Bool)
    (name : String) : pick (isHostOf host) (c.namedSeats above storage name) =
      if name = host then [c.seat above storage rank host] else [] := by
  unfold namedSeats
  by_cases hname : name = host
  · subst hname
    rw [hrank, if_pos rfl]
    exact pick_cons_of_pos (decide_eq_true rfl) []
  · rw [if_neg hname]
    cases c.rHostlist.idxOf? name with
    | none => rfl
    | some rank' => exact pick_cons_of_neg (decide_eq_false hname) []

theorem pick_keptSeats (hrank : c.rHostlist.idxOf? host = some rank) (above : List Item) (names : List String) :
    pick (isHostOf host) (names.flatMap (c.namedSeats above false)) =
      List.replicate (names.count host) (c.seat above false rank host) := by
  induction names with
  | nil => rfl
  | cons name rest ih =>
    rw [List.flatMap_cons, pick_append, pick_namedSeats hrank, ih, List.count_cons, Nat.add_comm,
      List.replicate_add]
    by_cases hname : name = host <;> simp [hname]

theorem pick_chassisSeats (hrank : c.rHostlist.idxOf? host = some rank) (number : Nat)
    (rabbit : String × RabbitEntry) : pick (isHostOf host) (c.chassisSeats number rabbit) =
      List.replicate ((c.kept rabbit.2).count host) (c.seat [.cluster, .chassis number rabbit.1] false rank host) ++
        if rabbit.1 = host then [c.seat [.cluster, .chassis number rabbit.1] true rank host] else [] := by
  rw [chassisSeats, pick_append, pick_keptSeats hrank, pick_namedSeats hrank]

theorem pick_aloneSeats (hnodup : c.rHostlist.Nodup) (hrank : c.rHostlist[rank]? = some host) :
    pick (isHostOf host) c.aloneSeats =
      if host ∈ c.alone.map Prod.fst then [c.seat [.cluster] false rank host] else [] := by
  have hpick : pick (isHostOf host) c.aloneSeats =
      (c.alone.filter fun e => e.1 = host).map fun e => c.seat [.cluster] false e.2 e.1 := by
    rw [aloneSeats, pick, List.filter_map]
    rfl
  rw [hpick]
  split
  · rename_i hmem
    obtain ⟨⟨host', rank'⟩, hentry, rfl⟩ := List.mem_map.mp hmem
    have hrank' := List.mk_mem_zipIdx_iff_getElem?.mp (List.mem_of_mem_filter hentry)
    obtain rfl := (List.getElem?_inj (List.getElem?_eq_some_iff.mp hrank).1 hnodup).mp (hrank.trans hrank'.symm)
    have hfilter := Dict.filter_entries ⟨c.alone, nodup_alone hnodup⟩ ((Dict.get?_eq_some _ _ _).mpr hentry)
    exact congrArg (List.map _) hfilter
  · rename_i hmem
    rw [List.filter_eq_nil_iff.mpr, List.map_nil]
    exact fun e he heq => hmem (List.mem_map.mpr ⟨e, he, of_decide_eq_true heq⟩)

theorem pick_host : pick (isHostOf host) (RoseTree.views [] c.machine) =
    (c.rabbitMapping.rabbits.entries.zipIdx.flatMap fun r => pick (isHostOf host) (c.chassisSeats r.2 r.1)) ++
      pick (isHostOf host) c.aloneSeats := by
  have hseats : pick (isHostOf host) (RoseTree.views [] c.machine) = pick (isHostOf host) c.seats := by
    rw [← hosts_views, pick, pick, pick, List.filter_filter]
    refine List.filter_congr fun v _ => ?_
    cases v.label <;> simp [isHostOf, Item.isHost]
  rw [hseats, seats, pick_append, pick_flatMap]

/-- A host that comes once in the tree has one vertex, below that of what is above it. -/
theorem exists_vertex {above : List Item} {item : Item} {storage : Bool}
    (hpick : pick (isHostOf host) (RoseTree.views [] c.machine) = [c.seat (above ++ [item]) storage rank host]) :
    ∃ e ∈ c.emitted, ∃ u ∈ c.emitted, u.label = item ∧ e.label = .host storage rank host ∧ e.above = u.trail ∧
      Emitted.below c.emitted e.id = (c.childrenOf rank).map (fun x => .child rank x.1 x.2) ∧
      (c.graph.added.filter fun a => (a.1.type = .node ∨ a.1.type = .storageNode) ∧ a.1.name = some host) =
        [(c.vertex e.id (c.pathOf e.trail) e.label, some u.id)] := by
  rw [← map_view_pick] at hpick
  obtain ⟨e, he, hview⟩ := List.map_eq_singleton_iff.mp hpick
  have hmem : e ∈ c.emitted := List.mem_of_mem_filter (he ▸ List.mem_cons_self)
  have habove : e.above = above ++ [item] := congrArg RoseTree.View.above hview
  have hlabel : e.label = .host storage rank host := congrArg RoseTree.View.label hview
  rcases RoseTree.hangs_emit 0 none [] c.machine e hmem with ⟨-, hnil⟩ | ⟨u, hu, hparent, htrail⟩
  · rw [habove] at hnil
    exact absurd hnil (by simp)
  · have hitem : u.label = item := by
      rw [habove, Emitted.trail] at htrail
      exact (List.append_inj' htrail rfl).2 |> List.singleton_inj.mp |>.symm
    refine ⟨e, hmem, u, hu, hitem, hlabel, htrail, congrArg RoseTree.View.below hview, ?_⟩
    have hfilter : c.emitted.filter ((fun a : Vertex × Option Nat =>
        (a.1.type = .node ∨ a.1.type = .storageNode) ∧ a.1.name = some host) ∘ c.added) = [e] := by
      rw [← he]
      refine List.filter_congr fun w _ => ?_
      rw [Function.comp_apply, added]
      cases w.label with
      | host storage rank name => cases storage <;> simp [vertex, isHostOf]
      | child rank kind i => cases kind <;> simp [vertex, isHostOf, ChildKind.type]
      | _ => simp [vertex, isHostOf]
    have hadded : c.graph.added = c.emitted.map c.added := rfl
    rw [hadded, List.filter_map, hfilter, List.map_singleton, added, hparent]

end Coral2Graph

theorem flatMap_ite {α β : Type} (p : α → Prop) [DecidablePred p] (f : α → β) (l : List α) :
    (l.flatMap fun x => if p x then [f x] else []) = (l.filter fun x => p x).map f := by
  induction l with
  | nil => rfl
  | cons x l ih =>
    rw [List.flatMap_cons, ih]
    by_cases hx : p x
    · rw [if_pos hx, List.filter_cons_of_pos (by simpa using hx)]
      rfl
    · rw [if_neg hx, List.filter_cons_of_neg (by simpa using hx), List.nil_append]

section
variable {base : ResourceGraphV1} {rv1 : R} {rabbitMapping : RabbitMapping} {chunksPerNnf : Nat} {clusterName : String}
  {resourceExclude : Exclude} {rankToChildren : Dict Nat Children} {names : List String} {rank : Nat} {host : String}

theorem count_kept (hout : host ∉ names) (entry : RabbitEntry) :
    ((attributes base rv1 rabbitMapping chunksPerNnf clusterName rankToChildren names).kept entry).count host =
      entry.hostlist.count host :=
  List.count_filter (decide_eq_true hout)

/-- The chassis that has the host has it once, and the others do not. -/
theorem pick_chassisSeats_of_home (hconsistent : Consistent rv1 rabbitMapping)
    (hrank : rv1.hosts.idxOf? host = some rank) (hout : host ∉ names) {rabbit : String}
    (hhome : rabbitMapping.home host = some rabbit)
    (honce : ∀ rabbit entry, rabbitMapping.rabbits.get? rabbit = some entry → entry.hostlist.count host ≤ 1)
    {r : String × RabbitEntry} (hr : rabbitMapping.rabbits.get? r.1 = some r.2) (number : Nat) :
    Coral2Graph.pick (isHostOf host)
      ((attributes base rv1 rabbitMapping chunksPerNnf clusterName rankToChildren names).chassisSeats number r) =
      if r.1 = rabbit then
        [(attributes base rv1 rabbitMapping chunksPerNnf clusterName rankToChildren names).seat
          [.cluster, .chassis number r.1] (host ∈ rabbitMapping.rabbits.keys) rank host]
      else [] := by
  have hlisted : host ∈ r.2.hostlist → rabbitMapping.computes.get? host = some r.1 :=
    fun h => (hconsistent.inverse host r.1).mpr ⟨r.2, hr, h⟩
  rw [Coral2Graph.pick_chassisSeats hrank, count_kept hout]
  unfold RabbitMapping.home at hhome
  by_cases hkey : host ∈ rabbitMapping.rabbits.keys
  · -- a rabbit is on no hostlist
    rw [if_pos hkey] at hhome
    obtain rfl := Option.some.inj hhome
    have hzero : r.2.hostlist.count host = 0 := List.count_eq_zero_of_not_mem fun h =>
      hconsistent.apart host hkey ((Dict.mem_keys _ _).mpr ⟨_, hlisted h⟩)
    rw [hzero, List.replicate_zero, List.nil_append, decide_eq_true hkey]
  · have hne : r.1 ≠ host := fun h => hkey (h ▸ (Dict.mem_keys _ _).mpr ⟨_, hr⟩)
    rw [if_neg hkey] at hhome
    rw [if_neg hne, List.append_nil, decide_eq_false hkey]
    by_cases hrabbit : r.1 = rabbit
    · obtain ⟨entry, hentry, hmem⟩ := (hconsistent.inverse host rabbit).mp hhome
      rw [hrabbit, hentry] at hr
      obtain rfl := Option.some.inj hr
      have hone : r.2.hostlist.count host = 1 :=
        Nat.le_antisymm (honce rabbit r.2 hentry) (List.count_pos_iff.mpr hmem)
      rw [if_pos hrabbit, hone, List.replicate_one]
    · have hzero : r.2.hostlist.count host = 0 := List.count_eq_zero_of_not_mem fun h =>
        hrabbit (Option.some.inj ((hlisted h).symm.trans hhome))
      rw [if_neg hrabbit, hzero, List.replicate_zero]

/-- No chassis has a host that has no rabbit. -/
theorem pick_chassisSeats_of_none (hconsistent : Consistent rv1 rabbitMapping)
    (hrank : rv1.hosts.idxOf? host = some rank) (hout : host ∉ names) (hhome : rabbitMapping.home host = none)
    {r : String × RabbitEntry} (hr : rabbitMapping.rabbits.get? r.1 = some r.2) (number : Nat) :
    Coral2Graph.pick (isHostOf host)
      ((attributes base rv1 rabbitMapping chunksPerNnf clusterName rankToChildren names).chassisSeats number r) =
        [] := by
  obtain ⟨hcompute, hkey⟩ := not_or.mp fun h => home_eq_none_iff.mp hhome (List.mem_append.mpr h)
  have hne : r.1 ≠ host := fun h => hkey (h ▸ (Dict.mem_keys _ _).mpr ⟨_, hr⟩)
  have hzero : r.2.hostlist.count host = 0 := List.count_eq_zero_of_not_mem fun h =>
    hcompute ((Dict.mem_keys _ _).mpr ⟨_, (hconsistent.inverse host r.1).mpr ⟨r.2, hr, h⟩⟩)
  rw [Coral2Graph.pick_chassisSeats hrank, count_kept hout, hzero, if_neg hne, List.replicate_zero, List.append_nil]

theorem idxOf?_eq_some {hosts : List String} (hnodup : hosts.Nodup) (h : hosts[rank]? = some host) :
    hosts.idxOf? host = some rank := by
  obtain ⟨hlt, heq⟩ := List.getElem?_eq_some_iff.mp h
  refine List.idxOf?_eq_some_iff.mpr ⟨hlt, by simpa using heq, fun j hj => ?_⟩
  have hne : hosts[j] ≠ hosts[rank] := fun h => Nat.ne_of_lt hj ((List.Nodup.getElem_inj_iff hnodup).mp h)
  simpa [heq] using hne

theorem exists_entry_of_home (hconsistent : Consistent rv1 rabbitMapping) {rabbit : String}
    (hhome : rabbitMapping.home host = some rabbit) : ∃ entry, rabbitMapping.rabbits.get? rabbit = some entry := by
  unfold RabbitMapping.home at hhome
  split at hhome
  · rename_i hkey
    exact Option.some.inj hhome ▸ (Dict.mem_keys _ _).mp hkey
  · obtain ⟨entry, hentry, -⟩ := (hconsistent.inverse host rabbit).mp hhome
    exact ⟨entry, hentry⟩

variable (base chunksPerNnf clusterName rankToChildren) in
/-- **A host that is not left out** comes once in the tree, in its place. -/
theorem exists_pick (hconsistent : Consistent rv1 rabbitMapping)
    (hnames : resourceExclude.resolve rv1.hosts = some names) (hkept : Kept rv1 resourceExclude rank host)
    (honce : ∀ rabbit entry, rabbitMapping.rabbits.get? rabbit = some entry → entry.hostlist.count host ≤ 1) :
    ∃ above item, Coral2Graph.pick (isHostOf host) (RoseTree.views []
        (attributes base rv1 rabbitMapping chunksPerNnf clusterName rankToChildren names).machine) =
        [(attributes base rv1 rabbitMapping chunksPerNnf clusterName rankToChildren names).seat
          (above ++ [item]) (host ∈ rabbitMapping.rabbits.keys) rank host] ∧
      (∀ rabbit, rabbitMapping.home host = some rabbit → ∃ number, item = .chassis number rabbit) ∧
      (rabbitMapping.home host = none → item = .cluster) := by
  obtain ⟨hget, hout⟩ := (kept_iff hconsistent.hosts_nodup hnames).mp hkept
  have hrank : rv1.hosts.idxOf? host = some rank := idxOf?_eq_some hconsistent.hosts_nodup hget
  have hentry {r : (String × RabbitEntry) × Nat} (hr : r ∈ rabbitMapping.rabbits.entries.zipIdx) :
      rabbitMapping.rabbits.get? r.1.1 = some r.1.2 :=
    (Dict.get?_eq_some _ _ _).mpr (List.fst_mem_of_mem_zipIdx hr)
  have halone : host ∈ (attributes base rv1 rabbitMapping chunksPerNnf clusterName rankToChildren names).alone.map
      Prod.fst ↔ rabbitMapping.home host = none :=
    mem_alone_iff.trans ⟨fun h => h.2.2, fun h => ⟨List.mem_of_getElem? hget, hout, h⟩⟩
  rw [Coral2Graph.pick_host, Coral2Graph.pick_aloneSeats hconsistent.hosts_nodup hget]
  cases hhome : rabbitMapping.home host with
  | none =>
    have hkey : host ∉ rabbitMapping.rabbits.keys := fun h =>
      home_eq_none_iff.mp hhome (List.mem_append_right _ h)
    refine ⟨[], .cluster, ?_, fun _ h => (nomatch h), fun _ => rfl⟩
    rw [if_pos (halone.mpr hhome), List.flatMap_eq_nil_iff.mpr, decide_eq_false hkey]
    · rfl
    · exact fun r hr => pick_chassisSeats_of_none hconsistent hrank hout hhome (hentry hr) r.2
  | some rabbit =>
    have hnot := mt halone.mp (by rw [hhome]; exact Option.some_ne_none rabbit)
    obtain ⟨entry, hrabbit⟩ := exists_entry_of_home hconsistent hhome
    obtain ⟨number, hnumber⟩ := Coral2Graph.filter_zipIdx_entries
      (c := attributes base rv1 rabbitMapping chunksPerNnf clusterName rankToChildren names) hrabbit
    refine ⟨[.cluster], .chassis number rabbit, ?_, fun rabbit' h => ⟨number, by rw [Option.some.inj h]⟩,
      fun h => by cases h⟩
    rw [if_neg hnot, List.append_nil]
    refine (List.flatMap_congr fun r hr =>
      pick_chassisSeats_of_home hconsistent hrank hout hhome honce (hentry hr) r.2).trans ?_
    rw [flatMap_ite fun r : (String × RabbitEntry) × Nat => r.1.1 = rabbit]
    exact congrArg (List.map _) hnumber

/-- What a vertex says of its item does not depend on its place. -/
theorem facts_vertex {c : Coral2Graph} (id : Nat) (path : String) (item : Item) :
    ((c.vertex id path item).type, (c.vertex id path item).iden, (c.vertex id path item).rank) =
      ((c.vertex 0 "" item).type, (c.vertex 0 "" item).iden, (c.vertex 0 "" item).rank) := by
  cases item <;> rfl

/-- What `exists_pick` says of the tree, for the graph. -/
theorem exists_placement (hconsistent : Consistent rv1 rabbitMapping)
    (hchildren : getNodeChildren rv1.rLite .empty = some rankToChildren)
    (hnames : resourceExclude.resolve rv1.hosts = some names) (hkept : Kept rv1 resourceExclude rank host)
    (honce : ∀ rabbit entry, rabbitMapping.rabbits.get? rabbit = some entry → entry.hostlist.count host ≤ 1) :
    ∃ v parent, Placement (attributes base rv1 rabbitMapping chunksPerNnf clusterName rankToChildren names).graph
      rv1 rabbitMapping rank host v parent := by
  obtain ⟨above, item, hpick, hchassis, hcluster⟩ :=
    exists_pick base chunksPerNnf clusterName rankToChildren hconsistent hnames hkept honce
  have hof {entry : RLiteEntry} (hentry : entry ∈ rv1.rLite) (hrank : rank ∈ entry.rank.ranks) :
      (attributes base rv1 rabbitMapping chunksPerNnf clusterName rankToChildren names).childrenOf rank =
        entry.children.flat := by
    have hget := getNodeChildren_get? hchildren (hconsistent.ranks.nodup_iff.mpr List.nodup_range) hentry hrank
    show ((rankToChildren.get? rank).map Children.flat).getD [] = _
    rw [hget]
    rfl
  have hproperties := propertyOf_getNodeProperties rv1.properties rank
  have hhosts : (attributes base rv1 rabbitMapping chunksPerNnf clusterName rankToChildren names).rankToProperties =
    getNodeProperties rv1.properties := rfl
  rw [← hhosts] at hproperties
  generalize attributes base rv1 rabbitMapping chunksPerNnf clusterName rankToChildren names = c at *
  obtain ⟨e, he, u, hu, rfl, hlabel, habove, hbelow, honly⟩ := Coral2Graph.exists_vertex hpick
  refine ⟨c.vertex e.id (c.pathOf e.trail) e.label, c.vertex u.id (c.pathOf u.trail) u.label, ?_⟩
  constructor
  case only =>
    refine honly.trans ?_
    rw [Coral2Graph.id_vertex]
  case type =>
    rw [hlabel]
    by_cases hkey : host ∈ rabbitMapping.rabbits.keys <;> simp [Coral2Graph.vertex, hkey]
  case ranked => rw [hlabel, Coral2Graph.vertex]
  case children =>
    intro entry hentry hrank
    have hmap := Coral2Graph.map_below he (fun _ => true) (fun w : Vertex => (w.type, w.iden, w.rank))
      (fun _ _ => rfl) fun id item => facts_vertex id (c.pathOf e.trail ++ "/" ++ c.component item) item
    rw [List.filter_true, List.filter_true, hbelow, hof hentry hrank, List.map_map] at hmap
    rw [Coral2Graph.id_vertex]
    exact hmap
  case properties =>
    intro name
    rw [hlabel]
    exact hproperties name
  case mem_nodes => exact c.mem_nodes_graph.mpr ⟨u, hu, rfl⟩
  case path =>
    rw [Coral2Graph.path_vertex, Coral2Graph.path_vertex, Emitted.trail, habove, Coral2Graph.pathOf_concat, hlabel]
    rfl
  case chassis =>
    intro rabbit hhome
    obtain ⟨number, hitem⟩ := hchassis rabbit hhome
    rw [hitem]
    exact ⟨rfl, rfl⟩
  case cluster =>
    intro hhome
    rw [hcluster hhome]
    rfl

/-! ### All hosts -/

theorem nodup_ids {c : Coral2Graph} : (c.graph.nodes.map Vertex.id).Nodup := by
  have hids : c.graph.nodes.map Vertex.id = c.emitted.map Emitted.id := by
    rw [Coral2Graph.nodes_graph, List.map_map]
    exact List.map_congr_left fun e _ => Coral2Graph.id_vertex e.id _ e.label
  rw [hids, Coral2Graph.emitted, RoseTree.ids_emit]
  exact List.nodup_range'

/-- The chassis are numbered from 0 on. -/
theorem nodup_numbers {c : Coral2Graph} :
    ((c.graph.nodes.filter fun v => v.type = .chassis).map Vertex.iden).Nodup := by
  have hfilter : c.emitted.filter ((fun v : Vertex => v.type = .chassis) ∘ fun e =>
      c.vertex e.id (c.pathOf e.trail) e.label) = c.emitted.filter fun e => e.label.isChassis := by
    refine List.filter_congr fun e _ => ?_
    rw [Function.comp_apply]
    cases e.label with
    | host storage rank name => cases storage <;> rfl
    | child rank kind i => cases kind <;> rfl
    | _ => rfl
  have hnumbers : (c.graph.nodes.filter fun v => v.type = .chassis).map Vertex.iden =
      c.rabbitMapping.rabbits.entries.zipIdx.map fun r => some r.2 := by
    have hviews := c.map_view_pick Item.isChassis
    rw [Coral2Graph.chassis_views] at hviews
    have hiden := congrArg (List.map fun v => (c.vertex 0 "" v.label).iden) hviews
    rw [List.map_map, List.map_map] at hiden
    rw [Coral2Graph.nodes_graph, List.filter_map, hfilter, List.map_map]
    refine (List.map_congr_left fun e _ => ?_).trans hiden
    show (c.vertex e.id _ e.label).iden = (c.vertex 0 "" e.label).iden
    cases e.label <;> rfl
  rw [hnumbers, ← Function.comp_def some Prod.snd, ← List.map_map, List.zipIdx_map_snd]
  exact List.Nodup.map (Option.some_injective Nat) List.nodup_range'

/-- Every host of R has children, if R is for its hosts. -/
theorem exists_children (hconsistent : Consistent rv1 rabbitMapping)
    (hchildren : getNodeChildren rv1.rLite .empty = some rankToChildren) :
    ∀ rank < rv1.hosts.length, ∃ children, rankToChildren.get? rank = some children := by
  intro rank hlt
  obtain ⟨entry, hentry, hrank⟩ := List.mem_flatMap.mp (hconsistent.ranks.mem_iff.mpr (List.mem_range.mpr hlt))
  exact ⟨_, getNodeChildren_get? hchildren (hconsistent.ranks.nodup_iff.mpr List.nodup_range) hentry hrank⟩

/-- **Every host is placed once**, and all is told apart, exactly if the code can read R and
no two names meet. -/
theorem hosts_placed_iff (hconsistent : Consistent rv1 rabbitMapping) :
    (∃ g, coral2Graph base rv1 rabbitMapping chunksPerNnf clusterName resourceExclude = some g ∧
      PlacesHosts g rv1 rabbitMapping resourceExclude) ↔
      Placeable rv1 rabbitMapping chunksPerNnf resourceExclude := by
  constructor
  · rintro ⟨g, hg, hplaces⟩
    obtain ⟨rankToChildren, names, hchildren, hnames, rfl⟩ := coral2Graph_eq_some hg
    have hapart := (apart_iff hconsistent hnames).mp ((Coral2Graph.nodup_paths_iff rv1.plain).mp hplaces.paths)
    exact {
      simple := (getNodeChildren_isSome _ _).mp (Option.isSome_of_mem hchildren)
      exclude := Option.isSome_of_mem hnames
      once := fun rabbit entry hentry => (hapart.2 rabbit entry hentry).1
      chassisNames := hapart.1
      ssdNames := (ssdNames_iff hconsistent hnames).mp fun rabbit entry hentry => (hapart.2 rabbit entry hentry).2 }
  · intro h
    obtain ⟨rankToChildren, hchildren⟩ := Option.isSome_iff_exists.mp ((getNodeChildren_isSome _ .empty).mpr h.simple)
    obtain ⟨names, hnames⟩ := Option.isSome_iff_exists.mp h.exclude
    refine ⟨_, coral2Graph_eq hchildren hnames (exists_children hconsistent hchildren), ?_⟩
    exact {
      placed := fun rank host hkept => exists_placement hconsistent hchildren hnames hkept
        fun rabbit entry hentry => h.once rabbit entry hentry rank host hkept
      ids := nodup_ids
      numbers := nodup_numbers
      paths := (Coral2Graph.nodup_paths_iff rv1.plain).mpr ((apart_iff hconsistent hnames).mpr
        ⟨h.chassisNames, fun rabbit entry hentry => ⟨h.once rabbit entry hentry,
          (ssdNames_iff hconsistent hnames).mpr h.ssdNames rabbit entry hentry⟩⟩) }

end

/-! ### A rabbit and its compute, and an idset of two ranges -/

theorem get?_oneRabbitMapping {rabbit : String} {entry : RabbitEntry}
    (h : oneRabbitMapping.rabbits.get? rabbit = some entry) : rabbit = "rabbit1" ∧ entry.hostlist = ["node1"] := by
  rw [oneRabbitMapping, Dict.get?_set] at h
  split at h
  · rename_i hname
    exact ⟨hname, congrArg RabbitEntry.hostlist (Option.some.inj h).symm⟩
  · cases h

theorem consistent_rabbitAndNode : Consistent rabbitAndNode oneRabbitMapping where
  hosts_nodup := by decide
  ranks := List.Perm.refl _
  inverse host rabbit := by
    constructor
    · intro h
      rw [oneRabbitMapping, Dict.get?_set] at h
      split at h
      · rename_i hname
        exact ⟨⟨1024 ^ 4, ["node1"]⟩, Option.some.inj h ▸ rfl, hname ▸ List.mem_cons_self⟩
      · cases h
    · rintro ⟨entry, hentry, hlisted⟩
      obtain ⟨rfl, hhosts⟩ := get?_oneRabbitMapping hentry
      rw [hhosts, List.mem_singleton] at hlisted
      rw [hlisted]
      rfl
  apart := by decide

/-- Nothing is left out. -/
theorem rabbitAndNode_placed : ∃ g,
    coral2Graph fluxionNames rabbitAndNode oneRabbitMapping 1 "cluster" (.hostlist []) = some g ∧
      PlacesHosts g rabbitAndNode oneRabbitMapping (.hostlist []) := by
  have hhosts {rank : Nat} {host : String} (h : rabbitAndNode.hosts[rank]? = some host) :
      host = "rabbit1" ∨ host = "node1" := by
    simpa [rabbitAndNode] using List.mem_of_getElem? h
  refine (hosts_placed_iff consistent_rabbitAndNode).mpr ?_
  exact {
    simple := fun entry hentry => by
      obtain rfl := List.mem_singleton.mp hentry
      trivial
    exclude := rfl
    once := fun rabbit entry hentry rank host _ => by
      rw [(get?_oneRabbitMapping hentry).2]
      exact List.nodup_iff_count_le_one.mp (List.nodup_singleton "node1") host
    chassisNames := fun rank host hkept hhome => by
      rcases hhosts hkept.1 with rfl | rfl
      · cases hhome
      · cases hhome
    ssdNames := fun rank host hrank _ i hlt heq => by
      obtain rfl := Nat.lt_one_iff.mp hlt
      rcases hhosts hrank with rfl | rfl
      · exact absurd heq (by decide)
      · exact absurd heq (by decide) }

/-- Two kinds of node, of which the one is ranks 0 and 2. -/
def threeNodes : R where
  rLite := [⟨.other [0, 2], oneCore⟩, ⟨.id 1, ⟨[(.core, [0, 1])], by decide, by decide⟩⟩]
  hosts := ["node1", "node2", "node3"]
  plain := by decide

/-- No rabbit is mapped, and yet there is no graph. -/
theorem threeNodes_not_placed :
    ¬∀ (base : ResourceGraphV1) (rv1 : R) (rabbitMapping : RabbitMapping) (chunksPerNnf : Nat) (clusterName : String)
      (resourceExclude : Exclude), Consistent rv1 rabbitMapping →
        ∃ g, coral2Graph base rv1 rabbitMapping chunksPerNnf clusterName resourceExclude = some g ∧
          PlacesHosts g rv1 rabbitMapping resourceExclude := by
  intro hall
  have hconsistent : Consistent threeNodes ⟨.empty, .empty⟩ :=
    { hosts_nodup := by decide
      ranks := by decide
      inverse := fun host rabbit => ⟨fun h => (nomatch h), fun ⟨_, h, _⟩ => (nomatch h)⟩
      apart := fun _ h => (nomatch h) }
  obtain ⟨g, hg, -⟩ := hall fluxionNames threeNodes ⟨.empty, .empty⟩ 1 "cluster" (.hostlist []) hconsistent
  cases hg

end FluxCoral2.Dws2jgf
