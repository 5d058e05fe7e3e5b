import FluxCoral2.Library.FlagLog
import FluxCoral2.Library.Machine
import FluxCoral2.Rabbit.Storage

/-! The systemstatus resource (`systemstatus.py`).

The manager tells Kubernetes which computes are disabled: those with an offline
broker, and those drained because they failed to unmount. It hears of brokers from
the `broker.online` group, of failed unmounts from the service and of undrained nodes
from the resource journal, and after each it patches the part of the nodes map it
thinks has changed.

Undraining a node enables it whatever its broker does (`mirrors_iff_undrained_online`),
and an update whose patch failed is not sent again (`enabled_iff_none_lost`). -/
namespace FluxCoral2.SystemStatus
open Library Rabbit

inductive NodeStatus
  | enabled
  | disabled
  deriving DecidableEq

/-- What changes in a `SystemStatusManager`. The idset and the set of drained hosts are
lists that are only asked for their members. -/
structure Manager where
  lastOnline : List Nat
  drained : List String
  deriving DecidableEq

/-- An event of the resource journal, with the nodelist of its context. -/
structure JournalEvent where
  name : String
  nodelist : Option String

inductive Event
  | online (members : List Nat)
  | failedUnmount (nodes : List String)
  | journal (event : JournalEvent)

/-- A manager, the nodes map on the server and the events handled so far. -/
structure State where
  manager : Manager
  nodes : Dict String NodeStatus
  handled : List Event

variable (lib : HostlistPackage) (hlist : List String)

/-- `self._hlist[idset]`: an index out of range is an IndexError. -/
def hostsAt (ranks : List Nat) : Option (List String) := ranks.mapM fun rank => hlist[rank]?

/-- `self._idset - online`. -/
def offlineRanks (online : List Nat) : List Nat := (List.range hlist.length).filter (· ∉ online)

/-- `_patch_resource`; an ApiException is logged. -/
def patchResource (reached : Bool) (newlyOnline newlyOffline : List String) (s : State) : State :=
  let nodes := (Dict.empty.setAll newlyOnline NodeStatus.enabled).setAll
    (newlyOffline ++ s.manager.drained) .disabled
  {s with nodes := if reached then s.nodes.merge nodes else s.nodes}

/-- The loop of `disable_until_undrained`. -/
def drain : List String → List String → List String
  | [], drained => drained
  | hostname :: rest, drained => drain rest (drained.insert hostname)

def disableUntilUndrained (reached : Bool) (hosts : List String) (s : State) : State :=
  patchResource reached [] []
    {s with manager := {s.manager with drained := drain hosts s.manager.drained}}

/-- The loop of `_journal_callback`: the drained set, and the hosts taken off it. -/
def undrain : List String → List String × List String → List String × List String
  | [], sets => sets
  | hostname :: rest, (drained, undrained) =>
    if hostname ∈ drained then undrain rest (drained.filter (· ≠ hostname), undrained.insert hostname)
    else undrain rest (drained, undrained)

def journalCallback (reached : Bool) (event : JournalEvent) (s : State) : State :=
  if event.name = "undrain" then
    match event.nodelist.bind lib.decode with
    | none => s
    | some hosts =>
      let (drained, undrained) := undrain hosts (s.manager.drained, [])
      let s := {s with manager := {s.manager with drained := drained}}
      if undrained = [] then s else patchResource reached undrained [] s
  else s

def updateOffline (reached : Bool) (online : List Nat) (s : State) : State :=
  let newlyOnline := online.filter (· ∉ s.manager.lastOnline)
  let s := {s with manager := {s.manager with lastOnline := online}}
  match hostsAt hlist newlyOnline, hostsAt hlist (offlineRanks hlist online) with
  | some newlyOnline, some offline => patchResource reached newlyOnline offline s
  | _, _ => s

/-- The manager handles an event; `reached` tells whether its patch reaches the server. -/
def Event.handle (reached : Bool) (s : State) : Event → State
  | .online members => updateOffline hlist reached members s
  | .failedUnmount nodes => disableUntilUndrained reached nodes s
  | .journal event => journalCallback lib reached event s

def Event.next (reached : Bool) (s : State) (e : Event) : State :=
  {e.handle lib hlist reached s with handled := s.handled ++ [e]}

/-- The members of `broker.online` are ranks of the instance. -/
def Event.Enabled : Event → Prop
  | .online members => ∀ rank ∈ members, rank < hlist.length
  | _ => True

/-! ### What a patch does -/

theorem hostsAt_eq {ranks : List Nat} (h : ∀ rank ∈ ranks, rank < hlist.length) :
    hostsAt hlist ranks = some (ranks.filterMap fun rank => hlist[rank]?) := by
  induction ranks with
  | nil => rfl
  | cons rank rest ih =>
    obtain ⟨host, hrank⟩ : ∃ host, hlist[rank]? = some host :=
      ⟨_, List.getElem?_eq_getElem (h rank (List.mem_cons_self ..))⟩
    have hrest := ih fun r hr => h r (List.mem_cons_of_mem rank hr)
    rw [hostsAt] at hrest ⊢
    simp [List.mapM_cons, hrest, hrank]

/-- The hosts of the brokers at some ranks. -/
def brokerHosts (ranks : List Nat) : List String := ranks.filterMap fun rank => hlist[rank]?

/-- The hosts with a broker that is not online. Where hostnames are distinct a host has
one broker. -/
def offlineHosts (online : List Nat) : List String := brokerHosts hlist (offlineRanks hlist online)

theorem mem_brokerHosts {ranks : List Nat} {h : String} :
    h ∈ brokerHosts hlist ranks ↔ ∃ rank ∈ ranks, hlist[rank]? = some h := List.mem_filterMap

theorem mem_offlineHosts {online : List Nat} {h : String} :
    h ∈ offlineHosts hlist online ↔ ∃ rank, rank ∉ online ∧ hlist[rank]? = some h := by
  rw [offlineHosts, mem_brokerHosts]
  constructor
  · rintro ⟨rank, hmem, hrank⟩
    exact ⟨rank, by simpa [offlineRanks] using (List.mem_filter.mp hmem).2, hrank⟩
  · rintro ⟨rank, hoff, hrank⟩
    have hlt : rank < hlist.length := (List.getElem?_eq_some_iff.mp hrank).1
    exact ⟨rank, by simp [offlineRanks, hlt, hoff], hrank⟩

theorem mem_offlineHosts_nil {h : String} (hh : h ∈ hlist) : h ∈ offlineHosts hlist [] := by
  obtain ⟨rank, hrank⟩ := List.mem_iff_getElem?.mp hh
  exact (mem_offlineHosts hlist).mpr ⟨rank, List.not_mem_nil, hrank⟩

/-- A host that is online and did not come online was online before. -/
theorem mem_offlineHosts_of_last {members last : List Nat} {h : String}
    (hoff : h ∉ offlineHosts hlist members)
    (hnew : h ∉ brokerHosts hlist (members.filter (· ∉ last))) : h ∉ offlineHosts hlist last := by
  intro hlast
  obtain ⟨rank, hrank, hhost⟩ := (mem_offlineHosts hlist).mp hlast
  by_cases hmem : rank ∈ members
  · exact hnew ((mem_brokerHosts hlist).mpr ⟨rank, List.mem_filter.mpr ⟨hmem, by simpa using hrank⟩, hhost⟩)
  · exact hoff ((mem_offlineHosts hlist).mpr ⟨rank, hmem, hhost⟩)

theorem get?_patchResource (newlyOnline newlyOffline : List String) (s : State) (h : String) :
    (patchResource true newlyOnline newlyOffline s).nodes.get? h =
      if h ∈ newlyOffline ∨ h ∈ s.manager.drained then some .disabled
      else if h ∈ newlyOnline then some .enabled else s.nodes.get? h := by
  show (s.nodes.merge _).get? h = _
  rw [Dict.get?_merge, Dict.get?_setAll, Dict.get?_setAll, Dict.get?_empty]
  simp only [List.mem_append]
  by_cases hoff : h ∈ newlyOffline ∨ h ∈ s.manager.drained
  · simp [hoff]
  · by_cases hon : h ∈ newlyOnline <;> simp [hoff, hon]

theorem updateOffline_eq (reached : Bool) {online : List Nat} (s : State)
    (h : ∀ rank ∈ online, rank < hlist.length) :
    updateOffline hlist reached online s =
      patchResource reached (brokerHosts hlist (online.filter (· ∉ s.manager.lastOnline)))
        (offlineHosts hlist online) {s with manager := {s.manager with lastOnline := online}} := by
  have hnewly : hostsAt hlist (online.filter (· ∉ s.manager.lastOnline)) =
      some (brokerHosts hlist (online.filter (· ∉ s.manager.lastOnline))) :=
    hostsAt_eq hlist fun rank hr => h rank (List.mem_of_mem_filter hr)
  have hoffline : hostsAt hlist (offlineRanks hlist online) = some (offlineHosts hlist online) :=
    hostsAt_eq hlist fun rank hr => List.mem_range.mp (List.mem_of_mem_filter hr)
  rw [updateOffline, hoffline]
  dsimp only
  rw [hnewly]

/-- An undrain event that names the host. -/
def JournalEvent.Undrains (event : JournalEvent) (h : String) : Prop :=
  event.name = "undrain" ∧ ∃ hosts, event.nodelist.bind lib.decode = some hosts ∧ h ∈ hosts

theorem mem_undrain (hosts : List String) (sets : List String × List String) (h : String) :
    (h ∈ (undrain hosts sets).1 ↔ h ∈ sets.1 ∧ h ∉ hosts) ∧
      (h ∈ (undrain hosts sets).2 ↔ h ∈ sets.2 ∨ (h ∈ sets.1 ∧ h ∈ hosts)) := by
  induction hosts generalizing sets with
  | nil => simp [undrain]
  | cons hostname rest ih =>
    obtain ⟨drained, undrained⟩ := sets
    rw [undrain]
    split
    · rename_i hin
      have hrest := ih (drained.filter (· ≠ hostname), undrained.insert hostname)
      by_cases heq : h = hostname <;> simp_all
    · rename_i hout
      have hrest := ih (drained, undrained)
      by_cases heq : h = hostname <;> simp_all

/-- An undrain event takes the hosts it names off the drained set and enables them. -/
theorem journalCallback_spec (event : JournalEvent) (s : State) :
    (journalCallback lib true event s).manager.lastOnline = s.manager.lastOnline ∧
      (∀ h, h ∈ (journalCallback lib true event s).manager.drained ↔
        h ∈ s.manager.drained ∧ ¬ event.Undrains lib h) ∧
      ∀ h, (h ∈ s.manager.drained ∧ event.Undrains lib h →
          (journalCallback lib true event s).nodes.get? h = some .enabled) ∧
        (h ∉ s.manager.drained →
          (journalCallback lib true event s).nodes.get? h = s.nodes.get? h) ∧
        (h ∈ s.manager.drained ∧ ¬ event.Undrains lib h → s.nodes.get? h = some .disabled →
          (journalCallback lib true event s).nodes.get? h = some .disabled) := by
  unfold journalCallback JournalEvent.Undrains
  split
  · rename_i hname
    cases hhosts : event.nodelist.bind lib.decode with
    | none => simp
    | some hosts =>
      dsimp only
      have hmem := mem_undrain hosts (s.manager.drained, [])
      cases hsets : undrain hosts (s.manager.drained, []) with
      | mk drained undrained =>
        rw [hsets] at hmem
        simp only [List.not_mem_nil, false_or] at hmem
        dsimp only
        split
        · -- no host of the event was drained
          rename_i hnil
          subst hnil
          simp_all
        · refine ⟨rfl, fun h => ?_, fun h => ?_⟩
          · show h ∈ drained ↔ _
            simp [hname, (hmem h).1]
          · simp only [get?_patchResource, List.not_mem_nil, false_or, (hmem h).1, (hmem h).2]
            simp only [hname, true_and, Option.some.injEq, exists_eq_left']
            by_cases hd : h ∈ s.manager.drained <;> by_cases hh : h ∈ hosts <;> simp [hd, hh]
  · rename_i hname
    simp [hname]

/-! ### Mirroring the instance -/

def Event.members? : Event → Option (List Nat)
  | .online members => some members
  | _ => none

/-- What an event says of drained hosts. -/
def Event.flags : Event → List (FlagOp String)
  | .online _ => []
  | .failedUnmount nodes => nodes.map .set
  | .journal event =>
    if event.name = "undrain" then ((event.nodelist.bind lib.decode).getD []).map .clear else []

def State.lastUpdate (s : State) : Option (List Nat) := (s.handled.filterMap Event.members?).getLast?

/-- Drained for a failed unmount and not undrained since. -/
def State.Drained (s : State) (h : String) : Prop :=
  flagged (s.handled.flatMap (Event.flags lib)) h = true

/-- A host of the instance is disabled when a broker of it is offline in the last update
or it is drained, and else enabled. -/
def Mirrors (s : State) : Prop :=
  ∀ online, s.lastUpdate = some online → ∀ h ∈ hlist,
    (h ∈ offlineHosts hlist online ∨ s.Drained lib h → s.nodes.get? h = some .disabled) ∧
      (¬ (h ∈ offlineHosts hlist online ∨ s.Drained lib h) → s.nodes.get? h = some .enabled)

/-- The step undrains no drained host with an offline broker. -/
def UndrainedOnline (s : State) : Event → Prop
  | .journal event => ∀ online, s.lastUpdate = some online →
      ∀ h ∈ offlineHosts hlist online, s.Drained lib h → ¬ event.Undrains lib h
  | _ => True

/-- What the manager keeps is what the events said. -/
structure Follows (s : State) : Prop where
  lastOnline : s.manager.lastOnline = s.lastUpdate.getD []
  drained : ∀ h, h ∈ s.manager.drained ↔ s.Drained lib h

/-- The manager on a server with these nodes, every patch of it succeeding. -/
def statusMachine (nodes : Dict String NodeStatus) : Machine State Event where
  init := ⟨⟨[], []⟩, nodes, []⟩
  enabled _ e := e.Enabled hlist
  next s e := e.next lib hlist true s

theorem lastUpdate_next (s : State) (e : Event) :
    (e.next lib hlist true s).lastUpdate = e.members?.or s.lastUpdate := by
  show ((s.handled ++ [e]).filterMap Event.members?).getLast? = _
  rw [List.filterMap_append, List.getLast?_append]
  cases e <;> simp [Event.members?, State.lastUpdate]

theorem drained_next (s : State) (e : Event) (h : String) :
    (e.next lib hlist true s).Drained lib h ↔ match e with
      | .online _ => s.Drained lib h
      | .failedUnmount nodes => h ∈ nodes ∨ s.Drained lib h
      | .journal event => s.Drained lib h ∧ ¬ event.Undrains lib h := by
  show flagged ((s.handled ++ [e]).flatMap (Event.flags lib)) h = true ↔ _
  rw [List.flatMap_append, List.flatMap_singleton]
  cases e with
  | online members => simp [Event.flags, State.Drained]
  | failedUnmount nodes =>
    rw [Event.flags, flagged_append_set]
    rfl
  | journal event =>
    rw [Event.flags]
    dsimp only
    rw [JournalEvent.Undrains]
    by_cases hname : event.name = "undrain"
    · rw [if_pos hname, flagged_append_clear]
      cases event.nodelist.bind lib.decode <;> simp [hname, State.Drained, and_comm]
    · simp [hname, State.Drained]

theorem mem_drain (hosts drained : List String) (h : String) :
    h ∈ drain hosts drained ↔ h ∈ hosts ∨ h ∈ drained := by
  induction hosts generalizing drained with
  | nil => simp [drain]
  | cons hostname rest ih =>
    rw [drain, ih, List.mem_insert_iff, List.mem_cons]
    tauto

theorem follows_next (s : State) (e : Event) (hf : Follows lib s) (he : e.Enabled hlist) :
    Follows lib (e.next lib hlist true s) := by
  constructor
  · rw [lastUpdate_next]
    cases e with
    | online members =>
      show (updateOffline hlist true members s).manager.lastOnline = _
      rw [updateOffline_eq hlist true s he]
      rfl
    | failedUnmount nodes => exact hf.lastOnline
    | journal event => exact (journalCallback_spec lib event s).1.trans hf.lastOnline
  · intro h
    rw [drained_next, ← hf.drained]
    cases e with
    | online members =>
      show h ∈ (updateOffline hlist true members s).manager.drained ↔ _
      rw [updateOffline_eq hlist true s he]
      rfl
    | failedUnmount nodes => exact mem_drain nodes s.manager.drained h
    | journal event => exact (journalCallback_spec lib event s).2.1 h

/-- An update leaves the map right, whatever it was told before. -/
theorem mirrors_online (s : State) (members : List Nat) (hf : Follows lib s)
    (hm : Mirrors lib hlist s) (he : (Event.online members).Enabled hlist) :
    Mirrors lib hlist ((Event.online members).next lib hlist true s) := by
  intro online honline h hh
  rw [lastUpdate_next] at honline
  obtain rfl : members = online := Option.some.inj honline
  simp only [drained_next, ← hf.drained]
  have hget : ((Event.online members).next lib hlist true s).nodes.get? h =
      (updateOffline hlist true members s).nodes.get? h := rfl
  rw [hget, updateOffline_eq hlist true s he, get?_patchResource]
  refine ⟨fun hoff => if_pos hoff, fun hon => ?_⟩
  refine (if_neg hon).trans ?_
  split
  · rfl
  · rename_i hold
    have hbefore := mem_offlineHosts_of_last hlist (fun hoff => hon (.inl hoff)) hold
    cases hlast : s.lastUpdate with
    | none =>
      rw [hf.lastOnline, hlast] at hbefore
      exact absurd (mem_offlineHosts_nil hlist hh) hbefore
    | some last =>
      rw [hf.lastOnline, hlast] at hbefore
      refine (hm last hlast h hh).2 ?_
      rintro (hoff | hdrained)
      · exact hbefore hoff
      · exact hon (.inr ((hf.drained h).mpr hdrained))

theorem mirrors_next_iff (s : State) (e : Event) (hf : Follows lib s) (hm : Mirrors lib hlist s)
    (he : e.Enabled hlist) :
    Mirrors lib hlist (e.next lib hlist true s) ↔ UndrainedOnline lib hlist s e := by
  cases e with
  | online members => exact ⟨fun _ => trivial, fun _ => mirrors_online lib hlist s members hf hm he⟩
  | failedUnmount nodes =>
    refine ⟨fun _ => trivial, fun _ online honline h hh => ?_⟩
    rw [lastUpdate_next] at honline
    have hold := hm online honline h hh
    have hget : ((Event.failedUnmount nodes).next lib hlist true s).nodes.get? h =
        (disableUntilUndrained true nodes s).nodes.get? h := rfl
    have hmem := mem_drain nodes s.manager.drained h
    rw [hf.drained] at hmem
    simp only [drained_next]
    rw [hget, disableUntilUndrained, get?_patchResource]
    simp only [List.not_mem_nil, false_or, if_false, ← hmem]
    by_cases hd : h ∈ drain nodes s.manager.drained
    · simp [hd]
    · have hnot : ¬ s.Drained lib h := fun hold => hd (hmem.mpr (.inr hold))
      simpa [hd, hnot] using hold
  | journal event =>
    obtain ⟨_, _, hnodes⟩ := journalCallback_spec lib event s
    simp only [hf.drained] at hnodes
    constructor
    · intro hnext online honline h hoff hd hu
      have hh : h ∈ hlist := by
        obtain ⟨rank, _, hrank⟩ := (mem_offlineHosts hlist).mp hoff
        exact List.mem_of_getElem? hrank
      have hdisabled := (hnext online (by rw [lastUpdate_next]; exact honline) h hh).1 (.inl hoff)
      have henabled := (hnodes h).1 ⟨hd, hu⟩
      exact absurd (hdisabled.symm.trans henabled) (by decide)
    · intro hg online honline h hh
      rw [lastUpdate_next] at honline
      have hold := hm online honline h hh
      show (_ → (journalCallback lib true event s).nodes.get? h = _) ∧
        (_ → (journalCallback lib true event s).nodes.get? h = _)
      simp only [drained_next]
      by_cases hd : s.Drained lib h
      · by_cases hu : event.Undrains lib h
        · have hon : h ∉ offlineHosts hlist online := fun hoff => hg online honline h hoff hd hu
          simpa [hd, hu, hon] using (hnodes h).1 ⟨hd, hu⟩
        · simpa [hd, hu] using (hnodes h).2.2 ⟨hd, hu⟩ (hold.1 (.inr hd))
      · rw [(hnodes h).2.1 hd]
        simpa [hd] using hold

/-- **The nodes map mirrors the instance** in every state of a run exactly when no event
of the run undrains a drained host whose broker is offline. -/
theorem mirrors_iff_undrained_online (nodes : Dict String NodeStatus) (es : List Event)
    (hp : (statusMachine lib hlist nodes).Possible (statusMachine lib hlist nodes).init es) :
    (statusMachine lib hlist nodes).Always (Mirrors lib hlist) (statusMachine lib hlist nodes).init es ↔
      (statusMachine lib hlist nodes).Legal (UndrainedOnline lib hlist)
        (statusMachine lib hlist nodes).init es := by
  refine Machine.always_iff_legal (Follows lib) (fun s e hf he _ => follows_next lib hlist s e hf he)
    (fun s e hf hm he => mirrors_next_iff lib hlist s e hf hm he) ⟨rfl, fun h => ?_⟩ ?_ hp
  · simp [statusMachine, State.Drained, flagged]
  · intro online hnone
    cases hnone

/-- A broker goes offline after its node was drained. -/
def undrainedOffline : List Event :=
  [.online [0], .failedUnmount ["node1"], .journal ⟨"undrain", some "node1"⟩]

theorem undrainedOffline_not_mirrored :
    (statusMachine namedHosts ["node0", "node1"] .empty).Possible
        (statusMachine namedHosts ["node0", "node1"] .empty).init undrainedOffline ∧
      ¬ (statusMachine namedHosts ["node0", "node1"] .empty).Always
        (Mirrors namedHosts ["node0", "node1"])
        (statusMachine namedHosts ["node0", "node1"] .empty).init undrainedOffline := by
  have hin : ∀ rank ∈ [0], rank < ["node0", "node1"].length := by decide
  refine ⟨⟨hin, trivial, trivial, trivial, trivial, trivial, trivial⟩, fun h => ?_⟩
  have hnode := (h.last [0] (by decide) "node1" (by decide)).1 (.inl (by decide))
  exact absurd hnode (by decide)

/-- The node is undrained while its broker is online. -/
def undrainedOnline : List Event :=
  [.online [0, 1], .failedUnmount ["node1"], .journal ⟨"undrain", some "node1"⟩]

theorem undrainedOnline_mirrored : (statusMachine namedHosts ["node0", "node1"] .empty).Always
    (Mirrors namedHosts ["node0", "node1"])
    (statusMachine namedHosts ["node0", "node1"] .empty).init undrainedOnline := by
  have hin : ∀ rank ∈ [0, 1], rank < ["node0", "node1"].length := by decide
  refine (mirrors_iff_undrained_online namedHosts ["node0", "node1"] .empty undrainedOnline
    ⟨hin, trivial, trivial, trivial, trivial, trivial, trivial⟩).mpr ?_
  refine ⟨hin, trivial, trivial, trivial, trivial, fun online honline h hoff => ?_, trivial⟩
  have hall : online = [0, 1] := (Option.some.inj honline).symm
  rw [hall] at hoff
  exact absurd hoff (by rw [show offlineHosts ["node0", "node1"] [0, 1] = [] by decide]; exact List.not_mem_nil)

/-! ### Failed patches -/

/-- An update: the members of `broker.online`, and whether its patch reaches the server. -/
structure Update where
  members : List Nat
  reached : Bool

/-- `lost` are the hosts that are online and came online in an update whose patch failed. -/
structure Updating where
  state : State
  lost : List String
  reached : Bool

variable (s : Updating) (u : Update)

/-- The hosts of brokers that were not online in the update before. -/
def Update.newlyOnline : List String :=
  brokerHosts hlist (u.members.filter (· ∉ s.state.manager.lastOnline))

def Update.lost : List String :=
  (if u.reached then s.lost.filter (· ∉ u.newlyOnline hlist s) else s.lost ++ u.newlyOnline hlist s).filter
    (· ∉ offlineHosts hlist u.members)

def Update.next : Updating where
  state := (Event.online u.members).next lib hlist u.reached s.state
  lost := u.lost hlist s
  reached := u.reached

/-- Updates alone, on a server with these nodes, where these hosts are drained. -/
def updateMachine (nodes : Dict String NodeStatus) (drained : List String) : Machine Updating Update where
  init := ⟨⟨⟨[], drained⟩, nodes, []⟩, [], false⟩
  enabled _ u := (Event.online u.members).Enabled hlist
  next s u := u.next lib hlist s

/-- If the last patch reached the server, every host that is online in the last update
and not drained is enabled. -/
def EnabledOnline : Prop :=
  s.reached = true → ∀ online, s.state.lastUpdate = some online →
    ∀ h ∈ hlist, h ∉ offlineHosts hlist online → h ∉ s.state.manager.drained →
      s.state.nodes.get? h = some .enabled

/-- No host whose coming online was lost stays online and undrained in an update whose
patch succeeds, unless the server has it enabled anyway. -/
def NoneLost : Prop :=
  u.reached = true → ∀ h ∈ s.lost, h ∉ offlineHosts hlist u.members → h ∉ u.newlyOnline hlist s →
    h ∉ s.state.manager.drained → s.state.nodes.get? h = some .enabled

/-- The hosts that are online, not drained and not lost are enabled. -/
structure Sent : Prop where
  lastOnline : s.state.manager.lastOnline = s.state.lastUpdate.getD []
  lost : ∀ h ∈ s.lost, h ∈ hlist
  sent : ∀ h ∈ hlist, h ∉ offlineHosts hlist s.state.manager.lastOnline → h ∉ s.lost →
    h ∉ s.state.manager.drained → s.state.nodes.get? h = some .enabled

variable {u s}

theorem lastUpdate_update (u : Update) (s : Updating) :
    (u.next lib hlist s).state.lastUpdate = some u.members := by
  show ((s.state.handled ++ [Event.online u.members]).filterMap Event.members?).getLast? = _
  rw [List.filterMap_append, List.getLast?_append]
  rfl

theorem manager_update (he : (Event.online u.members).Enabled hlist) :
    (u.next lib hlist s).state.manager = ⟨u.members, s.state.manager.drained⟩ := by
  show (updateOffline hlist u.reached u.members s.state).manager = _
  rw [updateOffline_eq hlist u.reached s.state he]
  rfl

/-- A failed patch leaves the server alone; another one enables the hosts that came online
and leaves alone those that stayed. -/
theorem get?_update (he : (Event.online u.members).Enabled hlist) {h : String}
    (hoff : h ∉ offlineHosts hlist u.members) (hd : h ∉ s.state.manager.drained) :
    (u.next lib hlist s).state.nodes.get? h =
      if u.reached = true ∧ h ∈ u.newlyOnline hlist s then some .enabled else s.state.nodes.get? h := by
  show (updateOffline hlist u.reached u.members s.state).nodes.get? h = _
  rw [updateOffline_eq hlist u.reached s.state he]
  cases hr : u.reached with
  | false => rfl
  | true =>
    rw [get?_patchResource, if_neg (not_or.mpr ⟨hoff, hd⟩)]
    simp [Update.newlyOnline]

theorem mem_lost {h : String} : h ∈ u.lost hlist s ↔ h ∉ offlineHosts hlist u.members ∧
    ((h ∈ s.lost ∧ (u.reached = true → h ∉ u.newlyOnline hlist s)) ∨
      (u.reached = false ∧ h ∈ u.newlyOnline hlist s)) := by
  rw [Update.lost, List.mem_filter, decide_eq_true_iff, and_comm]
  cases u.reached <;> simp

theorem sent_update (hs : Sent hlist s) (he : (Event.online u.members).Enabled hlist) :
    Sent hlist (u.next lib hlist s) := by
  refine ⟨?_, fun h hh => ?_, fun h hh hoff hkept hd => ?_⟩
  · rw [manager_update lib hlist he, lastUpdate_update]
    rfl
  · rcases ((mem_lost hlist).mp hh).2 with ⟨hold, _⟩ | ⟨_, hnew⟩
    · exact hs.lost h hold
    · obtain ⟨rank, _, hrank⟩ := (mem_brokerHosts hlist).mp hnew
      exact List.mem_of_getElem? hrank
  · rw [manager_update lib hlist he] at hoff hd
    have hkept : h ∉ u.lost hlist s := hkept
    rw [mem_lost] at hkept
    rw [get?_update lib hlist he hoff hd]
    by_cases hnew : h ∈ u.newlyOnline hlist s
    · -- else its coming online is lost
      have hreached : u.reached = true := by
        by_contra hr
        exact hkept ⟨hoff, .inr ⟨by simpa using hr, hnew⟩⟩
      exact if_pos ⟨hreached, hnew⟩
    · rw [if_neg fun hboth => hnew hboth.2]
      refine hs.sent h hh (mem_offlineHosts_of_last hlist hoff hnew) (fun hold => ?_) hd
      exact hkept ⟨hoff, .inl ⟨hold, fun _ => hnew⟩⟩

theorem enabledOnline_update_iff (hs : Sent hlist s) (he : (Event.online u.members).Enabled hlist) :
    EnabledOnline hlist (u.next lib hlist s) ↔ NoneLost hlist s u := by
  constructor
  · intro hnext hreached h hlost hoff hnew hd
    have hget := hnext hreached u.members (lastUpdate_update lib hlist u s) h (hs.lost h hlost) hoff
      (by rw [manager_update lib hlist he]; exact hd)
    rwa [get?_update lib hlist he hoff hd, if_neg fun hboth => hnew hboth.2] at hget
  · intro hnone hreached online honline h hh hoff hd
    rw [lastUpdate_update] at honline
    obtain rfl := Option.some.inj honline
    rw [manager_update lib hlist he] at hd
    rw [get?_update lib hlist he hoff hd]
    by_cases hnew : h ∈ u.newlyOnline hlist s
    · exact if_pos ⟨hreached, hnew⟩
    · rw [if_neg fun hboth => hnew hboth.2]
      by_cases hlost : h ∈ s.lost
      · exact hnone hreached h hlost hoff hnew hd
      · exact hs.sent h hh (mem_offlineHosts_of_last hlist hoff hnew) hlost hd

/-- **After every patch that succeeds the hosts online are enabled**, but for drained ones,
exactly when no host whose coming online was in a failed patch is still online, and not
enabled by other means, when a later patch succeeds. -/
theorem enabled_iff_none_lost (nodes : Dict String NodeStatus) (drained : List String)
    (us : List Update)
    (hp : (updateMachine lib hlist nodes drained).Possible (updateMachine lib hlist nodes drained).init us) :
    (updateMachine lib hlist nodes drained).Always (EnabledOnline hlist)
        (updateMachine lib hlist nodes drained).init us ↔
      (updateMachine lib hlist nodes drained).Legal (NoneLost hlist)
        (updateMachine lib hlist nodes drained).init us := by
  refine Machine.always_iff_legal (Sent hlist) (fun s u hs he _ => sent_update lib hlist hs he)
    (fun s u hs _ he => enabledOnline_update_iff lib hlist hs he) ⟨rfl, ?_, ?_⟩ ?_ hp
  · intro h hnone
    cases hnone
  · intro h hh hoff
    exact absurd (mem_offlineHosts_nil hlist hh) hoff
  · intro hreached
    cases hreached

/-- The patch that says `node1` came online fails. -/
def lostUpdate : List Update := [⟨[0], true⟩, ⟨[0, 1], false⟩, ⟨[0, 1], true⟩]

theorem lostUpdate_not_enabled :
    (updateMachine namedHosts ["node0", "node1"] .empty []).Possible
        (updateMachine namedHosts ["node0", "node1"] .empty []).init lostUpdate ∧
      ¬ (updateMachine namedHosts ["node0", "node1"] .empty []).Always
        (EnabledOnline ["node0", "node1"])
        (updateMachine namedHosts ["node0", "node1"] .empty []).init lostUpdate := by
  have h₀ : ∀ rank ∈ [0], rank < ["node0", "node1"].length := by decide
  have h₁ : ∀ rank ∈ [0, 1], rank < ["node0", "node1"].length := by decide
  refine ⟨⟨h₀, trivial, h₁, trivial, h₁, trivial, trivial⟩, fun h => ?_⟩
  have hnode := h.last rfl [0, 1] (by decide) "node1" (by decide) (by decide) (by decide)
  exact absurd hnode (by decide)

/-- The patch fails, and `node1` goes offline and comes back. -/
def sentAgain : List Update := [⟨[0], true⟩, ⟨[0, 1], false⟩, ⟨[0], true⟩, ⟨[0, 1], true⟩]

theorem sentAgain_enabled : (updateMachine namedHosts ["node0", "node1"] .empty []).Always
    (EnabledOnline ["node0", "node1"])
    (updateMachine namedHosts ["node0", "node1"] .empty []).init sentAgain := by
  have h₀ : ∀ rank ∈ [0], rank < ["node0", "node1"].length := by decide
  have h₁ : ∀ rank ∈ [0, 1], rank < ["node0", "node1"].length := by decide
  refine (enabled_iff_none_lost namedHosts ["node0", "node1"] .empty [] sentAgain
    ⟨h₀, trivial, h₁, trivial, h₀, trivial, h₁, trivial, trivial⟩).mpr ?_
  refine ⟨h₀, fun _ h hlost => ?_, h₁, fun hr => ?_, h₀, fun _ h hlost hoff => ?_, h₁,
    fun _ h hlost => ?_, trivial⟩
  · cases hlost
  · cases hr
  · have hnode : h ∈ ["node1"] := hlost
    rw [List.mem_singleton.mp hnode] at hoff
    exact absurd (by decide) hoff
  · have hnil : h ∈ ([] : List String) := hlost
    cases hnil

end FluxCoral2.SystemStatus
