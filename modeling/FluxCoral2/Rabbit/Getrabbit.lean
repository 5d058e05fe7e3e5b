import FluxCoral2.Library.Split
import FluxCoral2.Rabbit.MappingFile

/-! Looking hosts up in the mapping file (`flux-getrabbit.py`).

Names are given and printed as hostlists. `computes_round_trip`: the rabbits of some computes,
looked up as they were printed, are printed as all computes that share a rabbit with these. -/
namespace FluxCoral2.Getrabbit
open Library Rabbitmapping

/-! ### The command -/

/-- Why the command fails: with a message, or with an error that is not caught. -/
inductive Exit
  | usage
  | bothKinds
  | noJob (jobid : String)
  | lookupFailed (jobid : String)
  | noRabbits (jobid : String)
  | noCompute (hostname : String)
  | noRabbit (rabbit : String)
  | valueError
  deriving DecidableEq

/-- What the list of jobs has of a job; without an annotation the nodelist is empty. -/
inductive JobInfo
  | fileNotFound
  | exception
  | rabbits (nodelist : String)

structure Args where
  computes : List String := []
  jobids : List String := []
  rabbits : List String := []

variable (codec : HostlistCodec) (jobs : String → JobInfo) (file : MappingFile)

def orElse {α : Type} (e : Exit) : Option α → Except Exit α
  | some a => .ok a
  | none => .error e

/-- The rabbits of a job. -/
def jobRabbits (jobid : String) : Except Exit (List String) :=
  match jobs jobid with
  | .fileNotFound => .error (.noJob jobid)
  | .exception => .error (.lookupFailed jobid)
  | .rabbits nodelist =>
    if nodelist = "" then .error (.noRabbits jobid) else orElse .valueError (codec.decode nodelist)

/-- The loop over the computes, as it appends their rabbits. -/
def computeRabbit (hostname : String) : Except Exit (List String) := do
  let rabbit ← orElse (.noCompute hostname) (file.computes.get? hostname)
  orElse .valueError (codec.decode rabbit)

/-- The loop over the rabbits, as it appends their computes. -/
def rabbitComputes (rabbit : String) : Except Exit (List String) := do
  let computes ← orElse (.noRabbit rabbit) (file.hostlists.get? rabbit)
  orElse .valueError (codec.decode computes)

def printed (hlist : List String) : String := codec.encode (codec.uniq hlist)

/-- `map_to_rabbits`, for computes that have been decoded. -/
def mapToRabbits (jobids computes : List String) : Except Exit String := do
  let ofJobs ← jobids.mapM (jobRabbits codec jobs)
  let ofComputes ← (codec.uniq computes).mapM (computeRabbit codec file)
  pure (printed codec (ofJobs.flatten ++ ofComputes.flatten))

/-- `main`, with the file read. -/
def getrabbit (args : Args) : Except Exit String := do
  let computes ← orElse .usage (codec.hosts args.computes)
  let rabbits ← orElse .usage (codec.hosts args.rabbits)
  if args.rabbits ≠ [] ∧ (args.computes ≠ [] ∨ args.jobids ≠ []) then .error .bothKinds
  else if args.rabbits = [] ∧ args.computes = [] ∧ args.jobids = [] then do
    let hosts ← orElse .valueError (codec.hosts file.rabbits.keys)
    pure (printed codec hosts)
  else if args.rabbits = [] then mapToRabbits codec jobs file args.jobids computes
  else do
    let ofRabbits ← (codec.uniq rabbits).mapM (rabbitComputes codec file)
    pure (printed codec ofRabbits.flatten)

/-! ### What is printed -/

section Printed
variable {codec jobs file} {storageNodes : List StorageNode} {args hosts : List String}

theorem decode_printed (h : ∀ host ∈ hosts, codec.decode host = some [host]) :
    codec.decode (printed codec hosts) = some (codec.uniq hosts) :=
  codec.decode_encode hosts hosts (Rabbit.hostlist_of_plain h)

theorem getrabbit_computes (hargs : args ≠ []) (hhosts : codec.hosts args = some hosts) :
    getrabbit codec jobs file {computes := args} =
      ((codec.uniq hosts).mapM (computeRabbit codec file)).map fun rabbits => printed codec rabbits.flatten := by
  unfold getrabbit mapToRabbits
  dsimp only
  rw [hhosts]
  simp [orElse, hargs]
  rfl

theorem getrabbit_rabbits (hargs : args ≠ []) (hhosts : codec.hosts args = some hosts) :
    getrabbit codec jobs file {rabbits := args} =
      ((codec.uniq hosts).mapM (rabbitComputes codec file)).map fun computes => printed codec computes.flatten := by
  unfold getrabbit
  dsimp only
  rw [hhosts]
  simp [orElse, hargs]
  rfl

theorem computeRabbit_eq_ok (h : Plain codec storageNodes) (hfile : file.Of codec storageNodes) {c : String}
    {l : List String} : computeRabbit codec file c = .ok l ↔
      ∃ nnf ∈ storageNodes, c ∈ nnf.computesAccess ∧ l = [nnf.name] := by
  have hiff := MappingFile.Of.computes_iff h hfile c
  unfold computeRabbit
  cases hget : file.computes.get? c with
  | none =>
    refine ⟨nofun, fun ⟨nnf, hmem, hc, _⟩ => ?_⟩
    rw [(hiff nnf.name).mpr ⟨nnf, hmem, rfl, hc⟩] at hget
    cases hget
  | some r =>
    obtain ⟨nnf, hmem, rfl, hc⟩ := (hiff r).mp hget
    show orElse _ (codec.decode nnf.name) = _ ↔ _
    rw [h.rabbit nnf hmem]
    constructor
    · intro heq
      exact ⟨nnf, hmem, hc, (Except.ok.inj heq).symm⟩
    · rintro ⟨nnf', hmem', hc', rfl⟩
      rw [h.single nnf hmem nnf' hmem' c hc hc']
      rfl

theorem computeRabbit_eq_error (h : Plain codec storageNodes) (hfile : file.Of codec storageNodes) {c : String}
    {e : Exit} (he : computeRabbit codec file c = .error e) :
    e = .noCompute c ∧ ∀ nnf ∈ storageNodes, c ∉ nnf.computesAccess := by
  have hnone : ∀ nnf ∈ storageNodes, c ∉ nnf.computesAccess := by
    intro nnf hmem hc
    rw [(computeRabbit_eq_ok h hfile).mpr ⟨nnf, hmem, hc, rfl⟩] at he
    cases he
  refine ⟨?_, hnone⟩
  unfold computeRabbit at he
  cases hget : file.computes.get? c with
  | none =>
    rw [hget] at he
    exact (Except.error.inj he).symm
  | some r =>
    obtain ⟨nnf, hmem, -, hc⟩ := (MappingFile.Of.computes_iff h hfile c r).mp hget
    exact absurd hc (hnone nnf hmem)

theorem rabbitComputes_name (h : Plain codec storageNodes) (hfile : file.Of codec storageNodes) {nnf : StorageNode}
    (hmem : nnf ∈ storageNodes) : rabbitComputes codec file nnf.name = .ok (codec.uniq nnf.computesAccess) := by
  unfold rabbitComputes
  rw [hfile.hostlists nnf hmem]
  show orElse _ (codec.decode (codec.encode _)) = _
  rw [codec.decode_encode _ _ (hosts_of_plain h hmem)]
  rfl

/-- The rabbits that have some of these hosts. -/
def Rabbits (storageNodes : List StorageNode) (hosts rabbits : List String) : Prop :=
  ∀ r, r ∈ rabbits ↔ ∃ nnf ∈ storageNodes, nnf.name = r ∧ ∃ host ∈ hosts, host ∈ nnf.computesAccess

/-- The computes of rabbits that have some of these hosts. -/
def Neighbours (storageNodes : List StorageNode) (hosts computes : List String) : Prop :=
  ∀ c, c ∈ computes ↔ ∃ nnf ∈ storageNodes, c ∈ nnf.computesAccess ∧ ∃ host ∈ hosts, host ∈ nnf.computesAccess

/-- The rabbits of computes that are all known. -/
theorem rabbits_printed (h : Plain codec storageNodes) (hfile : file.Of codec storageNodes)
    {rabbits : List (List String)} (hrabbits : (codec.uniq hosts).mapM (computeRabbit codec file) = .ok rabbits) :
    Rabbits storageNodes hosts rabbits.flatten := by
  intro r
  rw [List.mem_flatten]
  constructor
  · rintro ⟨l, hl, hr⟩
    obtain ⟨host, hhost, heq⟩ := (Prog.mem_mapM_ok hrabbits).mp hl
    obtain ⟨nnf, hmem, hc, rfl⟩ := (computeRabbit_eq_ok h hfile).mp heq
    exact ⟨nnf, hmem, (List.mem_singleton.mp hr).symm, host, (codec.mem_uniq _ _).mp hhost, hc⟩
  · rintro ⟨nnf, hmem, rfl, host, hhost, hc⟩
    have hok := (computeRabbit_eq_ok h hfile).mpr ⟨nnf, hmem, hc, rfl⟩
    exact ⟨[nnf.name], (Prog.mem_mapM_ok hrabbits).mpr ⟨host, (codec.mem_uniq _ _).mpr hhost, hok⟩,
      List.mem_singleton_self _⟩

/-- The computes of the rabbits that were printed for some hosts. -/
theorem computes_printed (h : Plain codec storageNodes) (hfile : file.Of codec storageNodes) {rabbits : List String}
    (hrabbits : Rabbits storageNodes hosts rabbits) :
    ∃ computes, rabbits.mapM (rabbitComputes codec file) = .ok computes ∧
      Neighbours storageNodes hosts computes.flatten := by
  obtain ⟨computes, hcomputes⟩ := Prog.mapM_isOk.mpr fun r hr => by
    obtain ⟨nnf, hmem, rfl, -⟩ := (hrabbits r).mp hr
    exact ⟨_, rabbitComputes_name h hfile hmem⟩
  refine ⟨computes, hcomputes, fun c => ?_⟩
  rw [List.mem_flatten]
  constructor
  · rintro ⟨l, hl, hc⟩
    obtain ⟨r, hr, heq⟩ := (Prog.mem_mapM_ok hcomputes).mp hl
    obtain ⟨nnf, hmem, rfl, hshared⟩ := (hrabbits r).mp hr
    rw [rabbitComputes_name h hfile hmem] at heq
    obtain rfl := Except.ok.inj heq
    exact ⟨nnf, hmem, (codec.mem_uniq _ _).mp hc, hshared⟩
  · rintro ⟨nnf, hmem, hc, hshared⟩
    have hr := (hrabbits nnf.name).mpr ⟨nnf, hmem, rfl, hshared⟩
    exact ⟨_, (Prog.mem_mapM_ok hcomputes).mpr ⟨nnf.name, hr, rabbitComputes_name h hfile hmem⟩,
      (codec.mem_uniq _ _).mpr hc⟩

/-- What is printed for computes and then for their rabbits, as the hosts it stands for. -/
structure RoundTrip (codec : HostlistCodec) (jobs : String → JobInfo) (file : MappingFile)
    (storageNodes : List StorageNode) (args hosts rabbits computes : List String) : Prop where
  there : getrabbit codec jobs file {computes := args} = .ok (printed codec rabbits)
  back : getrabbit codec jobs file {rabbits := [printed codec rabbits]} = .ok (printed codec computes)
  decoded : codec.decode (printed codec rabbits) = some (codec.uniq rabbits) ∧
    codec.decode (printed codec computes) = some (codec.uniq computes)
  rabbits_eq : Rabbits storageNodes hosts rabbits
  computes_eq : Neighbours storageNodes hosts computes

/-- **There and back**: the rabbits printed for computes, given as they were printed, are printed
as the computes that share a rabbit with these; an unknown host is what is complained of. -/
theorem computes_round_trip (h : Plain codec storageNodes) {storages : List Storage} {servers : Option (List Servers)}
    (hfile : writeMapping codec storageNodes storages servers = some file) (jobs : String → JobInfo)
    (hargs : args ≠ []) (hhosts : codec.hosts args = some hosts) :
    (∃ rabbits computes, (∀ host ∈ hosts, ∃ nnf ∈ storageNodes, host ∈ nnf.computesAccess) ∧
      RoundTrip codec jobs file storageNodes args hosts rabbits computes) ∨
    ∃ host ∈ hosts, (∀ nnf ∈ storageNodes, host ∉ nnf.computesAccess) ∧
      getrabbit codec jobs file {computes := args} = .error (.noCompute host) := by
  have hof := of_writeMapping h hfile
  cases hrabbits : (codec.uniq hosts).mapM (computeRabbit codec file) with
  | error e =>
    obtain ⟨before, host, after, hsplit, -, he⟩ := Prog.mapM_error.mp hrabbits
    obtain ⟨rfl, hnone⟩ := computeRabbit_eq_error h hof he
    refine .inr ⟨host, (codec.mem_uniq _ _).mp (hsplit ▸ by simp), hnone, ?_⟩
    rw [getrabbit_computes hargs hhosts, hrabbits]
    rfl
  | ok rabbits =>
    have hspec := rabbits_printed h hof hrabbits
    obtain ⟨computes, hcomputes, hback⟩ := computes_printed h hof
      (fun r => by rw [codec.mem_uniq, codec.mem_uniq]; exact hspec r :
        Rabbits storageNodes hosts (codec.uniq (codec.uniq rabbits.flatten)))
    have hdecode : codec.decode (printed codec rabbits.flatten) = some (codec.uniq rabbits.flatten) := by
      refine decode_printed fun r hr => ?_
      obtain ⟨nnf, hmem, rfl, -⟩ := (hspec r).mp hr
      exact h.rabbit nnf hmem
    refine .inl ⟨rabbits.flatten, computes.flatten, fun host hhost => ?_, ?_, ?_, ⟨hdecode, ?_⟩, hspec, hback⟩
    · obtain ⟨l, hl⟩ := Prog.mapM_isOk.mp ⟨rabbits, hrabbits⟩ host ((codec.mem_uniq _ _).mpr hhost)
      obtain ⟨nnf, hmem, hc, -⟩ := (computeRabbit_eq_ok h hof).mp hl
      exact ⟨nnf, hmem, hc⟩
    · rw [getrabbit_computes hargs hhosts, hrabbits]
      rfl
    · have hprinted : codec.hosts [printed codec rabbits.flatten] = some (codec.uniq rabbits.flatten) := by
        simp [HostlistCodec.hosts, Rabbit.hostlist, hdecode]
      rw [getrabbit_rabbits (List.cons_ne_nil _ _) hprinted, hcomputes]
      rfl
    · refine decode_printed fun c hc => ?_
      obtain ⟨nnf, hmem, hc, -⟩ := (hback c).mp hc
      exact h.compute nnf hmem c hc

end Printed

/-! ### Two computes on one rabbit -/

/-- The names between commas. -/
def commaNames (list : String) : List String :=
  ((list.toList.splitOn ',').filter (· ≠ [])).map String.ofList

theorem commaNames_intercalate {hosts : List String} (h : ∀ host ∈ hosts, host.toList ≠ [] ∧ ',' ∉ host.toList) :
    commaNames (String.ofList ([','].intercalate (hosts.map String.toList))) = hosts := by
  unfold commaNames
  rw [String.toList_ofList]
  cases hosts with
  | nil => rfl
  | cons host rest =>
    have hcomma : ∀ l ∈ (host :: rest).map String.toList, ',' ∉ l := by
      intro l hl
      obtain ⟨name, hname, rfl⟩ := List.mem_map.mp hl
      exact (h name hname).2
    have hne : ∀ l ∈ (host :: rest).map String.toList, decide (l ≠ []) = true := by
      intro l hl
      obtain ⟨name, hname, rfl⟩ := List.mem_map.mp hl
      exact decide_eq_true (h name hname).1
    rw [List.splitOn_intercalate ',' hcomma (by simp), List.filter_eq_self.mpr hne, List.map_map]
    refine (List.map_congr_left fun name _ => ?_).trans (List.map_id _)
    exact String.ofList_toList

theorem mem_commaNames {list host : String} (h : host ∈ commaNames list) :
    host.toList ≠ [] ∧ ',' ∉ host.toList := by
  obtain ⟨cs, hcs, rfl⟩ := List.mem_map.mp h
  obtain ⟨hmem, hne⟩ := List.mem_filter.mp hcs
  rw [String.toList_ofList]
  exact ⟨of_decide_eq_true hne, Split.notMem_of_mem_splitOn hmem⟩

/-- Hosts between commas, as hostlists without brackets are read. -/
def commaList : HostlistCodec where
  decode list := some (commaNames list)
  uniq := List.dedup
  mem_uniq _ _ := List.mem_dedup
  nodup_uniq := List.nodup_dedup
  encode hosts := String.ofList ([','].intercalate (hosts.map String.toList))
  decode_encode names hosts h := by
    obtain ⟨lists, hlists, rfl⟩ := Option.map_eq_some_iff.mp h
    rw [Prog.mapM_eq_some] at hlists
    refine congrArg some (commaNames_intercalate fun host hhost => ?_)
    obtain ⟨l, hl, hhost⟩ := List.mem_flatten.mp (List.mem_dedup.mp hhost)
    have hmem : some l ∈ names.map fun name => some (commaNames name) := hlists ▸ List.mem_map_of_mem hl
    obtain ⟨name, -, hname⟩ := List.mem_map.mp hmem
    exact mem_commaNames (Option.some.inj hname ▸ hhost)

def oneRabbit : List StorageNode := [⟨"rabbit", ["alpha", "beta"]⟩]

theorem plain_oneRabbit : Plain commaList oneRabbit where
  names := by decide
  rabbit := by decide
  compute := by decide
  single := by decide

/-- The file for this rabbit. -/
def oneRabbitFile : MappingFile :=
  (writeMapping commaList oneRabbit [⟨"rabbit", some ⟨some ["alpha", "beta"], 5⟩⟩] none).get (by decide)

theorem alpha_roundTrip :
    (∃ rabbits computes, (∀ host ∈ ["alpha"], ∃ nnf ∈ oneRabbit, host ∈ nnf.computesAccess) ∧
      RoundTrip commaList (fun _ => .fileNotFound) oneRabbitFile oneRabbit ["alpha"] ["alpha"] rabbits computes) ∨
    ∃ host ∈ ["alpha"], (∀ nnf ∈ oneRabbit, host ∉ nnf.computesAccess) ∧
      getrabbit commaList (fun _ => .fileNotFound) oneRabbitFile {computes := ["alpha"]} = .error (.noCompute host) :=
  computes_round_trip plain_oneRabbit (Option.some_get _).symm _ (by decide) (by decide)

end FluxCoral2.Getrabbit
