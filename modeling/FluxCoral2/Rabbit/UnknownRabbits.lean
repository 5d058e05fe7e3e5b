import FluxCoral2.Rabbit.BadRabbit

/-! Events of rabbits that are not known.

A `FluxionRabbitManager` looks a rabbit up in two tables: RABBITS_TO_HOSTLISTS, from the
system configuration, and `_rabbit_rpaths`, from the resource graph. A rabbit that is not in
the graph is reported and let be. A rabbit that is not in RABBITS_TO_HOSTLISTS is a KeyError,
before the other table is asked, and ends the watch (`events_ignored_iff`). -/
namespace FluxCoral2.Storage
open Library Rabbit K8s
open Dws2jgf (FluxionRabbitManager)
open Dws2jgf.FluxionRabbitManager (PropertyRpc)

/-! ### When an event is handled -/

/-- An entry has what is read of it, and its name is a hostlist if it is offline and its name one of `names`. -/
def ComputeNode.Encodes (lib : HostlistPackage) (names : String → Prop) (node : ComputeNode) : Prop :=
  node.Complete ∧ ∀ name, node.status ≠ some "Ready" → node.name = some name → names name →
    ∃ hosts, lib.decode name = some hosts

/-- A compute may be drained. -/
def Manager.Drainable (m : Manager) (name : String) : Prop :=
  ∀ allowlist, m.allowlist = some allowlist → name ∈ allowlist

/-- The rabbit is in RABBITS_TO_HOSTLISTS, and the names that are encoded are hostlists: those of
its hosts, with draining those of the offline computes that may be drained, and with soft
draining those of all offline computes if the rabbit is ready. -/
structure StorageObject.Handled (rabbit : StorageObject) (lib : HostlistPackage) (conf : RabbitConfig)
    (m : Manager) : Prop where
  known : ∃ hosts, m.layout.rabbitsToHostlists.get? rabbit.name = some hosts ∧ Parses lib hosts
  drained : conf.drainComputeNodes = true → ∀ node ∈ rabbit.computes, node.Encodes lib m.Drainable
  marked : rabbit.Ready → conf.drainComputeNodes = false → conf.softDrain = true →
    ∀ node ∈ rabbit.computes, node.Encodes lib fun _ => True

variable {lib : HostlistPackage} {conf : RabbitConfig} {m : Manager} {rabbit : StorageObject}

/-- When some of the offline computes can be encoded. -/
theorem parses_offline {names : String → Prop} {select : List String → List String}
    (hselect : ∀ nodes name, name ∈ select nodes ↔ name ∈ nodes ∧ names name) :
    (∃ offlineNodes, getOfflineNodes rabbit = .ok offlineNodes ∧ Parses lib (select offlineNodes)) ↔
      ∀ node ∈ rabbit.computes, node.Encodes lib names := by
  constructor
  · rintro ⟨offlineNodes, hoffline, hparses⟩ node hnode
    have hcomplete := getOfflineNodes_isOk.mp ⟨_, hoffline⟩ node hnode
    refine ⟨hcomplete, fun name hstatus hname hnames => hparses name ((hselect _ _).mpr ⟨?_, hnames⟩)⟩
    obtain ⟨status, hsome⟩ := Option.ne_none_iff_exists'.mp hcomplete.1
    rw [hsome] at hstatus
    exact (mem_getOfflineNodes hoffline).mpr ⟨node, hnode, ⟨status, hsome, by simpa using hstatus⟩, hname⟩
  · intro h
    obtain ⟨offlineNodes, hoffline⟩ := getOfflineNodes_isOk.mpr fun node hnode => (h node hnode).1
    refine ⟨offlineNodes, hoffline, fun name hname => ?_⟩
    obtain ⟨hmem, hnames⟩ := (hselect _ _).mp hname
    obtain ⟨node, hnode, ⟨status, hsome, hne⟩, heq⟩ := (mem_getOfflineNodes hoffline).mp hmem
    exact (h node hnode).2 name (by simpa [hsome] using hne) heq hnames

theorem drains_iff : (∃ drains, Drains lib conf m rabbit drains) ↔
    (conf.drainComputeNodes = true → ∀ node ∈ rabbit.computes, node.Encodes lib m.Drainable) := by
  have hselect (nodes : List String) (name : String) :
      name ∈ m.allowed nodes ↔ name ∈ nodes ∧ m.Drainable name := by
    unfold Manager.allowed Manager.Drainable
    cases m.allowlist <;> simp
  unfold Drains
  by_cases hdrain : conf.drainComputeNodes = true
  · simp [hdrain, ← parses_offline hselect]
  · simp [hdrain]

theorem parses_split {allNodes down : List String} :
    Parses lib (allNodes.filter (· ∉ down)) ∧ Parses lib down ↔ Parses lib allNodes ∧ Parses lib down := by
  refine and_congr_left fun hdown => ⟨fun hup name hname => ?_, fun hall => hall.subset (List.filter_subset_self _)⟩
  by_cases h : name ∈ down
  · exact hdown name h
  · exact hup name (List.mem_filter.mpr ⟨hname, by simpa using h⟩)

theorem downNodes_parse_iff (allNodes : List String) :
    (∃ down, ManagerClass.fluxionRabbitManager.downNodes conf rabbit allNodes = .ok down ∧ Parses lib down) ↔
      (rabbit.Ready → conf.drainComputeNodes = false → conf.softDrain = true →
        ∀ node ∈ rabbit.computes, node.Encodes lib fun _ => True) := by
  have hselect (nodes : List String) (name : String) : name ∈ id nodes ↔ name ∈ nodes ∧ True := by simp
  rw [← parses_offline hselect, ManagerClass.downNodes_eq, if_neg (by simp)]
  by_cases hsoft : rabbit.Ready ∧ conf.drainComputeNodes = false ∧ conf.softDrain = true
  · simp [hsoft]
  · rw [if_neg hsoft]
    exact iff_of_true ⟨[], rfl, nofun⟩ fun hready hdrain hon => absurd ⟨hready, hdrain, hon⟩ hsoft

theorem marks_iff : (∃ marks, Marks lib conf .fluxionRabbitManager m rabbit marks) ↔
    (∃ hosts, m.layout.rabbitsToHostlists.get? rabbit.name = some hosts ∧ Parses lib hosts) ∧
      (rabbit.Ready → conf.drainComputeNodes = false → conf.softDrain = true →
        ∀ node ∈ rabbit.computes, node.Encodes lib fun _ => True) := by
  unfold Marks
  constructor
  · rintro ⟨_, allNodes, down, hall, hdown, hup, hparses, -⟩
    have hhosts := (parses_split.mp ⟨hup, hparses⟩).1
    exact ⟨⟨allNodes, hall, hhosts⟩, (downNodes_parse_iff allNodes).mp ⟨down, hdown, hparses⟩⟩
  · rintro ⟨⟨hosts, hall, hhosts⟩, h⟩
    obtain ⟨down, hdown, hparses⟩ := (downNodes_parse_iff hosts).mpr h
    exact ⟨_, hosts, down, hall, hdown, (parses_split.mpr ⟨hhosts, hparses⟩).1, hparses, rfl⟩

/-- The handler of a `FluxionRabbitManager`. -/
def callback (lib : HostlistPackage) (conf : RabbitConfig) (rabbit : StorageObject) : Cb Unit :=
  ManagerClass.fluxionRabbitManager.rabbitStateChangeCb lib conf rabbit

/-- **The handler returns** exactly for the events that are handled. -/
theorem callback_returns_iff :
    (∃ t, Prog.exec (callback lib conf rabbit) m = (.ok (), t)) ↔ rabbit.Handled lib conf m := by
  have hcases : (∃ t, Prog.exec (callback lib conf rabbit) m = (.ok (), t)) ↔
      (∃ drains, Drains lib conf m rabbit drains) ∧
        ∃ marks, Marks lib conf .fluxionRabbitManager m rabbit marks := by
    unfold callback
    simp only [exec_rabbitStateChangeCb_eq_ok]
    constructor
    · rintro ⟨t, drains, marks, hdrains, hmarks, -⟩
      exact ⟨⟨drains, hdrains⟩, marks, hmarks⟩
    · rintro ⟨⟨drains, hdrains⟩, marks, hmarks⟩
      exact ⟨_, drains, marks, hdrains, hmarks, rfl⟩
  rw [hcases, drains_iff, marks_iff]
  exact ⟨fun ⟨hdrained, hknown, hmarked⟩ => ⟨hknown, hdrained, hmarked⟩, fun h => ⟨h.drained, h.known, h.marked⟩⟩

/-! ### What is sent -/

/-- The messages above the debug level. -/
def messages (sent : List Sent) : List String :=
  sent.filterMap fun
    | .error message => some message
    | _ => none

/-- An event is let be: the handler returns, changes no table, logs one message at most, and
marks the ssds of the rabbit only if it is in the graph. -/
def Ignored (lib : HostlistPackage) (conf : RabbitConfig) (m : Manager) (rabbit : StorageObject) : Prop :=
  ∃ t sent, Prog.exec (callback lib conf rabbit) m = (.ok (), t) ∧
    t.layout = m.layout ∧ t.paths = m.paths ∧ t.allowlist = m.allowlist ∧ t.out = m.out ++ sent ∧
      (messages sent).length ≤ 1 ∧ (m.paths.rabbitRpaths.get? rabbit.name = none → ∀ rpc, .setStatus rpc ∉ sent)

theorem messages_append (sent more : List Sent) : messages (sent ++ more) = messages sent ++ messages more :=
  List.filterMap_append

theorem messages_requests {drains : List Sent} (h : Drains lib conf m rabbit drains) (marks : List PropertyRpc) :
    messages (drains ++ marks.map .property) = [] := by
  refine List.filterMap_eq_nil_iff.mpr fun s hs => ?_
  rcases List.mem_append.mp hs with hs | hs
  · obtain ⟨rpc, rfl⟩ := h.sent s hs
    rfl
  · obtain ⟨rpc, -, rfl⟩ := List.mem_map.mp hs
    rfl

theorem ignored_of_returns {t : Manager} (h : Prog.exec (callback lib conf rabbit) m = (.ok (), t)) :
    Ignored lib conf m rabbit := by
  obtain ⟨drains, marks, hdrains, -, rfl⟩ := exec_rabbitStateChangeCb_eq_ok.mp h
  refine ⟨_, _, h, rfl, rfl, rfl, rfl, ?_, fun hgraph rpc hmem => ?_⟩
  · rw [messages_append, messages_requests hdrains, ManagerClass.updates, Manager.updates]
    cases m.paths.markRabbit (rabbit.getStatus "Down") rabbit.name with
    | none => simp [messages]
    | some rpcs => simp [messages]
  · have hmark : m.paths.markRabbit (rabbit.getStatus "Down") rabbit.name = none := by
      simp [FluxionRabbitManager.markRabbit, hgraph]
    rw [ManagerClass.updates, Manager.updates, hmark] at hmem
    rcases List.mem_append.mp hmem with hmem | hmem
    · rcases List.mem_append.mp hmem with hmem | hmem
      · obtain ⟨_, heq⟩ := hdrains.sent _ hmem
        cases heq
      · obtain ⟨_, -, heq⟩ := List.mem_map.mp hmem
        cases heq
    · simp at hmem

/-! ### Any events -/

theorem Handled.sends (sent : List Sent) :
    rabbit.Handled lib conf (m.sends sent) ↔ rabbit.Handled lib conf m :=
  ⟨fun h => ⟨h.known, h.drained, h.marked⟩, fun h => ⟨h.known, h.drained, h.marked⟩⟩

theorem callAll_returns_iff {events : List (String × StorageObject)} :
    (∃ t, Prog.exec (callAll (callback lib conf) events) m = (.ok (), t)) ↔
      ∀ event ∈ events, event.2.Handled lib conf m := by
  induction events generalizing m with
  | nil => exact iff_of_true ⟨m, rfl⟩ nofun
  | cons event events ih =>
    rw [List.forall_mem_cons, ← callback_returns_iff, callAll_cons]
    simp only [Prog.exec_bind_eq_ok]
    have hrest {t : Manager} (h : Prog.exec (callback lib conf event.2) m = (.ok (), t)) :
        (∃ t', Prog.exec (callAll (callback lib conf) events) t = (.ok (), t')) ↔
          ∀ event ∈ events, event.2.Handled lib conf m := by
      obtain ⟨drains, marks, -, -, rfl⟩ := exec_rabbitStateChangeCb_eq_ok.mp h
      simp only [ih, Handled.sends]
    constructor
    · rintro ⟨t', _, t, hfirst, h⟩
      exact ⟨⟨t, hfirst⟩, (hrest hfirst).mp ⟨t', h⟩⟩
    · rintro ⟨⟨t, hfirst⟩, h⟩
      obtain ⟨t', h⟩ := (hrest hfirst).mpr h
      exact ⟨t', (), t, hfirst, h⟩

/-! ### What is raised -/

/-- The program raises nothing that a watch catches. -/
abbrev Uncaught {α : Type} (p : Cb α) : Prop := Prog.Raises (fun e => e ≠ .apiException 410) p

theorem uncaught_encode (nodes : List String) : Uncaught (encode lib nodes) := by
  unfold encode
  cases hostlist lib nodes with
  | none => exact .throw nofun
  | some hosts => exact .pure hosts

theorem getOfflineNodes_error {e : Exn} (h : getOfflineNodes rabbit = .error e) : ∃ key, e = .keyError key := by
  unfold getOfflineNodes at h
  cases hnodes : rabbit.computes.mapM ComputeNode.offline with
  | ok nodes =>
    rw [hnodes] at h
    cases h
  | error e' =>
    rw [hnodes] at h
    obtain rfl := Except.error.inj h
    obtain ⟨_, node, _, -, -, hnode⟩ := Prog.mapM_error.mp hnodes
    unfold ComputeNode.offline at hnode
    grind

theorem uncaught_getOfflineNodes (rabbit : StorageObject) :
    Uncaught (Prog.ofExcept (getOfflineNodes rabbit)) := by
  refine .ofExcept fun e h => ?_
  obtain ⟨key, rfl⟩ := getOfflineNodes_error h
  simp

theorem uncaught_drainOfflineNodes (rabbit : StorageObject) : Uncaught (drainOfflineNodes lib rabbit) :=
  .bind .get fun _ => .bind (uncaught_getOfflineNodes rabbit) fun _ =>
    .ite (.pure ()) (.bind (uncaught_encode _) fun _ => .modify _)

theorem uncaught_sendProperty (rpc : FluxionRabbitManager → Option PropertyRpc) (nodes : List String) :
    Uncaught (sendProperty lib rpc nodes) :=
  .bind (.ite (.pure ()) (.bind (uncaught_encode nodes) fun _ => .pure ())) fun _ =>
    .bind .get fun _ => .modify _

theorem uncaught_setOrRemoveProperty (cls : ManagerClass) (rabbit : StorageObject) :
    Uncaught (cls.setOrRemoveProperty lib conf rabbit) := by
  refine .bind .get fun m => ?_
  cases m.layout.rabbitsToHostlists.get? rabbit.name with
  | none => exact .throw nofun
  | some allNodes =>
    refine .bind ?_ fun down => .bind (uncaught_sendProperty _ _) fun _ => uncaught_sendProperty _ _
    rw [ManagerClass.downNodes_eq]
    split
    · exact .pure allNodes
    · split
      · exact uncaught_getOfflineNodes rabbit
      · exact .pure []

theorem uncaught_callback (lib : HostlistPackage) (conf : RabbitConfig) (rabbit : StorageObject) :
    Uncaught (callback lib conf rabbit) := by
  have hset : Uncaught (ManagerClass.fluxionRabbitManager.setOrRemoveProperty lib conf rabbit) :=
    uncaught_setOrRemoveProperty _ rabbit
  exact .bind (.ite (.bind (uncaught_drainOfflineNodes rabbit) fun _ => hset) hset) fun _ =>
    .of_ok fun m => ⟨(), _, exec_updateRabbit rabbit⟩

/-- **Events are let be, and a watch goes on behind them**, exactly if they are handled; it has then
called back for every event. -/
theorem events_ignored_iff (lib : HostlistPackage) (conf : RabbitConfig) :
    (∀ m rabbit, Ignored lib conf m rabbit ↔ rabbit.Handled lib conf m) ∧
    ∀ depth (w : Watch StorageObject Manager) (events : List (String × StorageObject)) answers,
      w.answers = .stream (changes events) none :: answers →
      ((∃ t, Prog.exec (watch (callback lib conf) (depth + 1)) w = (.ok (), t)) ↔
        ∀ event ∈ events, event.2.Handled lib conf w.service) ∧
      ∀ t, Prog.exec (watch (callback lib conf) (depth + 1)) w = (.ok (), t) →
        Prog.exec (callAll (callback lib conf) events) w.service = (.ok (), t.service) := by
  refine ⟨fun m rabbit => ?_, fun depth w events answers hstream => ?_⟩
  · rw [← callback_returns_iff]
    exact ⟨fun ⟨t, _, h, _⟩ => ⟨t, h⟩, fun ⟨_, h⟩ => ignored_of_returns h⟩
  · have hreturns (s : Manager) := watch_returns (s := s) hstream depth (uncaught_callback lib conf)
    refine ⟨?_, fun t h => (hreturns _).mp ⟨t, h, rfl⟩⟩
    rw [← callAll_returns_iff]
    constructor
    · rintro ⟨t, h⟩
      exact ⟨_, (hreturns _).mp ⟨t, h, rfl⟩⟩
    · rintro ⟨s, h⟩
      obtain ⟨t, hwatch, -⟩ := (hreturns s).mpr h
      exact ⟨t, hwatch⟩

/-- Two rabbits are in the graph, of which the system configuration has the first. -/
def twoInGraph : Manager where
  layout := oneRabbit
  paths :=
    { rabbitRpaths := (Dict.empty.set "rabbit1" ("/cluster0/chassis0", 36)).set "rabbit2" ("/cluster0/chassis1", 36)
      computeRpaths := Dict.empty.set "node1" "/cluster0/chassis0/node1" }

/-- A stream with an event of the second rabbit and then one of the first. -/
def twoEvents : List (String × StorageObject) := [("1", ⟨"rabbit2", none⟩), ("2", oneEvent "Ready" "Ready")]

/-- The event of a rabbit that is only in the graph is a KeyError, in which the watch ends. -/
theorem rabbit2_ends_watch :
    twoInGraph.layout.rabbitsToHostlists.get? "rabbit2" = none ∧
    ¬ Ignored namedHosts {} twoInGraph ⟨"rabbit2", none⟩ ∧
    (Prog.exec (watch (callback namedHosts {}) 1) ⟨"0", [.stream (changes twoEvents) none], twoInGraph⟩).1 =
      .error (.keyError "rabbit2") := by
  have hunknown : twoInGraph.layout.rabbitsToHostlists.get? "rabbit2" = none := by decide
  refine ⟨hunknown, fun ⟨t, _, h, _⟩ => ?_, rfl⟩
  obtain ⟨hosts, hhosts, -⟩ := (callback_returns_iff.mp ⟨t, h⟩).known
  cases hunknown.symm.trans hhosts

/-- An event of the other rabbit does not end the watch. -/
theorem rabbit1_goes_on : ∃ t,
    Prog.exec (watch (callback namedHosts {}) 1)
      ⟨"0", [.stream (changes [("2", oneEvent "Ready" "Ready")]) none], twoInGraph⟩ = (.ok (), t) := by
  refine ((events_ignored_iff namedHosts {}).2 0 _ _ [] rfl).1.mpr fun event hevent => ?_
  obtain rfl := List.mem_singleton.mp hevent
  have hknown : twoInGraph.layout.rabbitsToHostlists.get? "rabbit1" = some ["node1"] := by decide
  refine ⟨⟨_, hknown, fun name _ => ⟨[name], rfl⟩⟩, fun _ node hnode => ?_, nofun⟩
  obtain rfl := List.mem_singleton.mp hnode
  exact ⟨⟨nofun, fun _ => nofun⟩, fun name _ _ _ => ⟨[name], rfl⟩⟩

end FluxCoral2.Storage
