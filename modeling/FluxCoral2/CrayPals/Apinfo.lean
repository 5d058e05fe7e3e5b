import Mathlib.Data.List.Induction
import FluxCoral2.CrayPals.Structs

/-! Writing an apinfo file (`libapinfo`).

The shell plugin tells the PALS library of a job's tasks through a file: a header, and
arrays that the header says the place of. The object keeps counts, sizes and offsets in the
header, `set_offsets` computes the offsets anew after each setter, and `op_write` streams the
arrays by counts and sizes alone. `apinfo_layout` says that the two agree after any setters,
for both versions: the sections are where the header says, and a reader gets back the
commands, the tasks and the nodes. -/
namespace FluxCoral2.Apinfo
open Library

/-! ### C -/

/-- An int as a `size_t`. -/
def toSize (n : CInt) : SizeT := n.signExtend 64

/-- Whether `calloc` succeeds: it does not beyond `PTRDIFF_MAX`, and need not below. -/
def calloc (heap : Bool) (n : CInt) (size : Nat) : Bool := heap && (toSize n).toNat * size < 2 ^ 63

/-- `fwrite`, of an array that has what it reads. -/
def fwrite {α : Type} (l : Layout α) (xs : List α) (size : SizeT) (n : CInt) : Option (List Byte) :=
  let bytes := size.toNat * (toSize n).toNat
  if bytes ≤ (l.writeAll xs).length then some ((l.writeAll xs).take bytes) else none

/-- What a C loop from 0 on goes over. -/
def upTo (n : CInt) : List CInt := (List.range n.toInt.toNat).map (BitVec.ofNat 32)

/-! ### Hosts and tasks -/

/-- A hostlist of C strings, whose number is an int. -/
structure Hostlist where
  hosts : List (List Byte)
  zero_notMem : ∀ host ∈ hosts, (0 : Byte) ∉ host
  count_lt : hosts.length < 2 ^ 31

/-- What the taskmap package says of the tasks of a job. -/
structure Taskmap where
  totalNtasks : CInt
  nnodes : CInt
  ntasks : CInt → CInt
  nodeid : CInt → CInt
  taskids : CInt → Option (List CInt)

/-- `max_ntasks`. -/
def maxNtasks (map : Taskmap) : CInt :=
  (upTo map.nnodes).foldl (fun max nodeid => if max.slt (map.ntasks nodeid) then map.ntasks nodeid else max) 0

/-- The loop of `localidx`, over the tasks of a node. -/
def localidxFrom (taskid localidx : CInt) : List CInt → CInt
  | [] => -1
  | id :: ids => if id = taskid then localidx else localidxFrom taskid (localidx + 1) ids

def localidx (map : Taskmap) (nodeid taskid : CInt) : CInt :=
  match map.taskids nodeid with
  | none => -1
  | some ids => localidxFrom taskid 0 ids

/-- The one command. -/
def newCmd (map : Taskmap) (cpusPerPe : CInt) : PalsCmd := ⟨map.totalNtasks, maxNtasks map, cpusPerPe⟩

def newPe (map : Taskmap) (taskid : CInt) : PalsPe :=
  let nodeid := map.nodeid taskid
  ⟨localidx map nodeid taskid, 0, nodeid⟩

/-- `snprintf` of a hostname into zeroed memory. -/
def hostname (host : List Byte) : Block 64 :=
  ⟨(host ++ List.replicate 63 0).take 63 ++ [0], by simp⟩

def newNode (host : List Byte) (nodeid : Nat) : PalsNode := ⟨BitVec.ofNat 32 nodeid, hostname host⟩

/-! ### The object -/

/-- `struct apinfo1` and `struct apinfo5`, by their profiles, their nics, and what else they have. -/
structure Object (Comm Nic Rest : Type) where
  hdr : PalsHeader
  comms : List Comm
  cmds : List PalsCmd
  pes : List PalsPe
  nodes : List PalsNode
  nics : List Nic
  rest : Rest

/-- The first five sections, from an offset on, and the offset behind them. -/
def setFive (hdr : PalsHeader) (offset : SizeT) : PalsHeader × SizeT :=
  let commProfileOffset := offset
  let offset := offset + hdr.commProfileSize * toSize hdr.ncommProfiles
  let cmdOffset := offset
  let offset := offset + hdr.cmdSize * toSize hdr.ncmds
  let peOffset := offset
  let offset := offset + hdr.peSize * toSize hdr.npes
  let nodeOffset := offset
  let offset := offset + hdr.nodeSize * toSize hdr.nnodes
  let nicOffset := offset
  let offset := offset + hdr.nicSize * toSize hdr.nnics
  ({hdr with commProfileOffset, cmdOffset, peOffset, nodeOffset, nicOffset}, offset)

/-- What `struct apinfo_impl` has of a version, as far as it differs. -/
structure Impl (Comm Nic Rest : Type) where
  create : Object Comm Nic Rest
  setOffsets : Object Comm Nic Rest → Object Comm Nic Rest
  write : Object Comm Nic Rest → Option (List Byte)

namespace Impl
variable {Comm Nic Rest : Type} (impl : Impl Comm Nic Rest)

def setCmd (heap : Bool) (map : Taskmap) (cpusPerPe : CInt) (ap : Object Comm Nic Rest) :
    Option (Object Comm Nic Rest) :=
  let ncmds : CInt := 1
  if calloc heap ncmds palsCmd.size then
    some (impl.setOffsets {ap with cmds := [newCmd map cpusPerPe], hdr := {ap.hdr with ncmds}})
  else none

def setPes (heap : Bool) (map : Taskmap) (ap : Object Comm Nic Rest) : Option (Object Comm Nic Rest) :=
  let npes := map.totalNtasks
  if calloc heap npes palsPe.size then
    some (impl.setOffsets {ap with pes := (upTo npes).map (newPe map), hdr := {ap.hdr with npes}})
  else none

def setNodes (heap : Bool) (hosts : Hostlist) (ap : Object Comm Nic Rest) : Option (Object Comm Nic Rest) :=
  let nnodes := BitVec.ofNat 32 hosts.hosts.length
  if calloc heap nnodes palsNode.size then
    some (impl.setOffsets
      {ap with nodes := hosts.hosts.mapIdx fun i host => newNode host i, hdr := {ap.hdr with nnodes}})
  else none

/-- The calls that set something, with whether there is memory. -/
inductive Call
  | setHostlist (heap : Bool) (hosts : Hostlist)
  | setTaskmap (heapPes heapCmd : Bool) (map : Taskmap) (cpusPerPe : CInt)

/-- The object after a call, and whether the call succeeds. -/
def call (ap : Object Comm Nic Rest) : Call → Object Comm Nic Rest × Bool
  | .setHostlist heap hosts =>
    match impl.setNodes heap hosts ap with
    | none => (ap, false)
    | some ap => (ap, true)
  | .setTaskmap heapPes heapCmd map cpusPerPe =>
    match impl.setPes heapPes map ap with
    | none => (ap, false)
    | some ap =>
      -- the tasks stay as they are set where there is no memory for the command
      match impl.setCmd heapCmd map cpusPerPe ap with
      | none => (ap, false)
      | some ap => (ap, true)

/-- The object after some calls, on a new one. -/
def run (calls : List Call) : Object Comm Nic Rest := calls.foldl (fun ap c => (impl.call ap c).1) impl.create

end Impl

/-! ### Version 1 -/

/-- The sizes of the five sections, in a header of zeros. -/
def newHeader (version : CInt) (commProfileSize nicSize : Nat) : PalsHeader where
  version := version
  totalSize := 0
  commProfileSize := BitVec.ofNat 64 commProfileSize
  commProfileOffset := 0
  ncommProfiles := 0
  cmdSize := BitVec.ofNat 64 palsCmd.size
  cmdOffset := 0
  ncmds := 0
  peSize := BitVec.ofNat 64 palsPe.size
  peOffset := 0
  npes := 0
  nodeSize := BitVec.ofNat 64 palsNode.size
  nodeOffset := 0
  nnodes := 0
  nicSize := BitVec.ofNat 64 nicSize
  nicOffset := 0
  nnics := 0

abbrev Apinfo1 := Object PalsCommProfile1 PalsNic Unit

namespace Apinfo1

def setOffsets (ap : Apinfo1) : Apinfo1 :=
  let (hdr, offset) := setFive ap.hdr (BitVec.ofNat 64 palsHeader.size)
  {ap with hdr := {hdr with totalSize := offset}}

def opWrite (ap : Apinfo1) : Option (List Byte) := do
  let comms ← fwrite palsCommProfile1 ap.comms ap.hdr.commProfileSize ap.hdr.ncommProfiles
  let cmds ← fwrite palsCmd ap.cmds ap.hdr.cmdSize ap.hdr.ncmds
  let pes ← fwrite palsPe ap.pes ap.hdr.peSize ap.hdr.npes
  let nodes ← fwrite palsNode ap.nodes ap.hdr.nodeSize ap.hdr.nnodes
  let nics ← fwrite palsNic ap.nics ap.hdr.nicSize ap.hdr.nnics
  pure (palsHeader.write ap.hdr ++ (comms ++ (cmds ++ (pes ++ (nodes ++ nics)))))

def opCreate : Apinfo1 :=
  setOffsets
    { hdr := newHeader 1 palsCommProfile1.size palsNic.size
      comms := []
      cmds := []
      pes := []
      nodes := []
      nics := []
      rest := () }

end Apinfo1

def apinfo1 : Impl PalsCommProfile1 PalsNic Unit := ⟨Apinfo1.opCreate, Apinfo1.setOffsets, Apinfo1.opWrite⟩

/-! ### Version 5 -/

/-- What version 5 has beside: the rest of the header, two more sections, and what is
missing from the header. -/
structure Rest5 where
  hdr : PalsHeaderRest
  dist : List PalsDistance
  status : List CInt
  ndist : CInt
  nstatus : CInt
  statusSize : SizeT

abbrev Apinfo5 := Object PalsCommProfile5 PalsHsnNic Rest5

namespace Apinfo5

/-- The whole header of version 5. -/
def header : Layout (PalsHeader × PalsHeaderRest) := palsHeader.pair palsHeaderRest

def setOffsets (ap : Apinfo5) : Apinfo5 :=
  let (hdr, offset) := setFive ap.hdr (BitVec.ofNat 64 header.size)
  let distOffset := if (0#32).slt ap.rest.ndist then offset else 0
  let offset := offset + ap.rest.hdr.distSize * toSize ap.rest.ndist
  let statusOffset := if (0#32).slt ap.rest.nstatus then offset else 0
  let offset := offset + ap.rest.statusSize * toSize ap.rest.nstatus
  {ap with
    hdr := {hdr with totalSize := offset}
    rest := {ap.rest with hdr := {ap.rest.hdr with distOffset, statusOffset}}}

def opWrite (ap : Apinfo5) : Option (List Byte) := do
  let comms ← fwrite palsCommProfile5 ap.comms ap.hdr.commProfileSize ap.hdr.ncommProfiles
  let cmds ← fwrite palsCmd ap.cmds ap.hdr.cmdSize ap.hdr.ncmds
  let pes ← fwrite palsPe ap.pes ap.hdr.peSize ap.hdr.npes
  let nodes ← fwrite palsNode ap.nodes ap.hdr.nodeSize ap.hdr.nnodes
  let nics ← fwrite palsHsnNic ap.nics ap.hdr.nicSize ap.hdr.nnics
  let dist ← fwrite palsDistance ap.rest.dist ap.rest.hdr.distSize ap.rest.ndist
  let status ← fwrite int ap.rest.status ap.rest.statusSize ap.rest.nstatus
  pure (header.write (ap.hdr, ap.rest.hdr) ++ (comms ++ (cmds ++ (pes ++ (nodes ++ (nics ++ (dist ++ status)))))))

def opCreate : Apinfo5 :=
  setOffsets
    { hdr := newHeader 5 palsCommProfile5.size palsHsnNic.size
      comms := []
      cmds := []
      pes := []
      nodes := []
      nics := []
      rest :=
        { hdr := ⟨0, BitVec.ofNat 64 palsDistance.size, 0⟩
          dist := []
          status := []
          ndist := 0
          nstatus := 0
          statusSize := BitVec.ofNat 64 int.size } }

end Apinfo5

def apinfo5 : Impl PalsCommProfile5 PalsHsnNic Rest5 := ⟨Apinfo5.opCreate, Apinfo5.setOffsets, Apinfo5.opWrite⟩

/-! ### Counts and sizes -/

theorem toNat_cint {n : Nat} (h : n < 2 ^ 31) : (BitVec.ofNat 32 n).toNat = n := by
  rw [BitVec.toNat_ofNat, Nat.mod_eq_of_lt (by omega)]

/-- The count is that of the array. -/
structure Counts {α : Type} (n : CInt) (xs : List α) : Prop where
  eq : n.toNat = xs.length
  lt : xs.length < 2 ^ 31

theorem toNat_toSize {n : CInt} (h : n.toNat < 2 ^ 31) : (toSize n).toNat = n.toNat := by
  have hmsb : n.msb = false := BitVec.msb_eq_false_iff_two_mul_lt.mpr (by omega)
  rw [toSize, BitVec.toNat_signExtend, hmsb]
  simp
  omega

theorem Counts.toSize {α : Type} {n : CInt} {xs : List α} (h : Counts n xs) : (toSize n).toNat = xs.length := by
  rw [toNat_toSize (h.eq ▸ h.lt), h.eq]

theorem fwrite_eq {α : Type} {l : Layout α} {xs : List α} {size : SizeT} {n : CInt} (hsize : size.toNat = l.size)
    (h : Counts n xs) : fwrite l xs size n = some (l.writeAll xs) := by
  unfold fwrite
  rw [hsize, h.toSize, ← l.length_writeAll, if_pos (Nat.le_refl _), List.take_length]

/-- Memory for so many elements means that they are no less than none. -/
theorem toNat_lt_of_calloc {heap : Bool} {n : CInt} {size : Nat} (hsize : 0 < size) (h : calloc heap n size) :
    n.toNat < 2 ^ 31 := by
  by_contra hge
  have hmsb : n.msb = true := BitVec.msb_eq_true_iff_two_mul_ge.mpr (by omega)
  have hlarge : 2 ^ 63 ≤ (toSize n).toNat := by
    rw [toSize, BitVec.toNat_signExtend, hmsb, if_pos rfl, BitVec.toNat_setWidth]
    omega
  have hfits : (toSize n).toNat * size < 2 ^ 63 := by
    simpa using (Bool.and_eq_true_iff.mp h).2
  exact Nat.not_lt.mpr (Nat.le_trans hlarge (Nat.le_mul_of_pos_right _ hsize)) hfits

theorem length_upTo {n : CInt} (h : n.toNat < 2 ^ 31) : (upTo n).length = n.toNat := by
  rw [upTo, List.length_map, List.length_range, BitVec.toInt_eq_toNat_of_lt (by omega), Int.toNat_natCast]

/-- The sizes and the counts in the header are those of the arrays. -/
structure Held {Comm Nic Rest : Type} (comm : Layout Comm) (nic : Layout Nic) (RestHeld : Rest → Prop)
    (ap : Object Comm Nic Rest) : Prop where
  commProfileSize : ap.hdr.commProfileSize.toNat = comm.size
  cmdSize : ap.hdr.cmdSize.toNat = palsCmd.size
  peSize : ap.hdr.peSize.toNat = palsPe.size
  nodeSize : ap.hdr.nodeSize.toNat = palsNode.size
  nicSize : ap.hdr.nicSize.toNat = nic.size
  comms : Counts ap.hdr.ncommProfiles ap.comms
  cmds : Counts ap.hdr.ncmds ap.cmds
  pes : Counts ap.hdr.npes ap.pes
  nodes : Counts ap.hdr.nnodes ap.nodes
  nics : Counts ap.hdr.nnics ap.nics
  rest : RestHeld ap.rest

/-! ### The setters -/

section
variable {Comm Nic Rest : Type} {comm : Layout Comm} {nic : Layout Nic} {RestHeld : Rest → Prop}
  {ap : Object Comm Nic Rest}

theorem Held.withCmd (h : Held comm nic RestHeld ap) (cmd : PalsCmd) :
    Held comm nic RestHeld {ap with cmds := [cmd], hdr := {ap.hdr with ncmds := 1}} :=
  {h with cmds := ⟨rfl, show 1 < 2 ^ 31 by decide⟩}

theorem Held.withPes (h : Held comm nic RestHeld ap) {heap : Bool} {npes : CInt}
    (hcalloc : calloc heap npes palsPe.size) (pe : CInt → PalsPe) :
    Held comm nic RestHeld {ap with pes := (upTo npes).map pe, hdr := {ap.hdr with npes := npes}} := by
  have hlt := toNat_lt_of_calloc (by decide) hcalloc
  have hlength : ((upTo npes).map pe).length = npes.toNat := by
    rw [List.length_map, length_upTo hlt]
  exact {h with pes := ⟨hlength.symm, hlength ▸ hlt⟩}

theorem Held.withNodes (h : Held comm nic RestHeld ap) (hosts : Hostlist) (node : Nat → List Byte → PalsNode) :
    Held comm nic RestHeld {ap with
      nodes := hosts.hosts.mapIdx node
      hdr := {ap.hdr with nnodes := BitVec.ofNat 32 hosts.hosts.length}} := by
  have hlt := hosts.count_lt
  have hcount := toNat_cint hlt
  have hlength : (hosts.hosts.mapIdx node).length = hosts.hosts.length := List.length_mapIdx
  exact {h with nodes := ⟨hcount.trans hlength.symm, by rwa [hlength]⟩}

/-- What `set_offsets` keeps, and what it brings about. -/
structure Impl.Lays (impl : Impl Comm Nic Rest) (comm : Layout Comm) (nic : Layout Nic) (RestHeld : Rest → Prop)
    (Placed : Object Comm Nic Rest → Prop) : Prop where
  create_held : Held comm nic RestHeld impl.create
  create_placed : Placed impl.create
  held : ∀ ap, Held comm nic RestHeld ap → Held comm nic RestHeld (impl.setOffsets ap)
  placed : ∀ ap, Held comm nic RestHeld ap → Placed (impl.setOffsets ap)

variable {impl : Impl Comm Nic Rest} {Placed : Object Comm Nic Rest → Prop}

/-- A call sets an array and its count, and then the offsets, or it does nothing. -/
theorem call_held (hlays : impl.Lays comm nic RestHeld Placed) (h : Held comm nic RestHeld ap ∧ Placed ap)
    (c : Impl.Call) : Held comm nic RestHeld (impl.call ap c).1 ∧ Placed (impl.call ap c).1 := by
  have hset {ap : Object Comm Nic Rest} (h : Held comm nic RestHeld ap) :
      Held comm nic RestHeld (impl.setOffsets ap) ∧ Placed (impl.setOffsets ap) := ⟨hlays.held ap h, hlays.placed ap h⟩
  cases c with
  | setHostlist heap hosts =>
    unfold Impl.call Impl.setNodes
    by_cases hnodes : calloc heap (BitVec.ofNat 32 hosts.hosts.length) palsNode.size
    · simp only [if_pos hnodes]
      exact hset (h.1.withNodes hosts _)
    · simp only [if_neg hnodes]
      exact h
  | setTaskmap heapPes heapCmd map cpusPerPe =>
    unfold Impl.call Impl.setPes Impl.setCmd
    by_cases hpes : calloc heapPes map.totalNtasks palsPe.size
    · have hafter := hset (h.1.withPes hpes (newPe map))
      simp only [if_pos hpes]
      by_cases hcmd : calloc heapCmd 1 palsCmd.size
      · simp only [if_pos hcmd]
        exact hset (hafter.1.withCmd _)
      · simp only [if_neg hcmd]
        exact hafter
    · simp only [if_neg hpes]
      exact h

/-- **After any calls** the counts are those of the arrays, and the offsets are set. -/
theorem run_held (hlays : impl.Lays comm nic RestHeld Placed) (calls : List Impl.Call) :
    Held comm nic RestHeld (impl.run calls) ∧ Placed (impl.run calls) := by
  induction calls using List.reverseRecOn with
  | nil => exact ⟨hlays.create_held, hlays.create_placed⟩
  | append_singleton calls c ih =>
    have hrun : impl.run (calls ++ [c]) = (impl.call (impl.run calls) c).1 := by
      unfold Impl.run
      rw [List.foldl_append]
      rfl
    rw [hrun]
    exact call_held hlays ih c

end

/-! ### Offsets -/

/-- An array as the header has it, but for where it is. -/
structure Part where
  size : SizeT
  count : SizeT
  optional : Bool := false

/-- Sections one after the other, and the offset behind them. -/
def place (offset : SizeT) : List Part → List Section × SizeT
  | [] => ([], offset)
  | part :: rest =>
    let (sections, stop) := place (offset + part.size * part.count) rest
    let here := if part.optional ∧ part.count.toNat = 0 then 0 else offset.toNat
    (⟨here, part.size.toNat, part.count.toNat, part.optional⟩ :: sections, stop)

/-- The bytes of some arrays. -/
def sizeAll (parts : List Part) : Nat := (parts.map fun part => part.size.toNat * part.count.toNat).sum

/-- Where nothing overflows. -/
theorem place_spec {offset : SizeT} {parts : List Part} (hfits : offset.toNat + sizeAll parts < 2 ^ 64) :
    Adjacent offset.toNat (place offset parts).1 (place offset parts).2.toNat ∧
      (place offset parts).2.toNat = offset.toNat + sizeAll parts := by
  induction parts generalizing offset with
  | nil => exact ⟨rfl, rfl⟩
  | cons part rest ih =>
    rw [sizeAll, List.map_cons, List.sum_cons, ← Nat.add_assoc] at hfits ⊢
    have hnext : (offset + part.size * part.count).toNat = offset.toNat + part.size.toNat * part.count.toNat := by
      rw [BitVec.toNat_add, BitVec.toNat_mul, Nat.add_mod_mod]
      exact Nat.mod_eq_of_lt (Nat.lt_of_le_of_lt (Nat.le_add_right _ _) hfits)
    have hrest := ih (hnext ▸ hfits)
    rw [hnext] at hrest
    exact ⟨⟨rfl, hrest.1⟩, hrest.2⟩

/-- The five arrays that the header counts. -/
def fiveParts (hdr : PalsHeader) : List Part :=
  [⟨hdr.commProfileSize, toSize hdr.ncommProfiles, false⟩, ⟨hdr.cmdSize, toSize hdr.ncmds, false⟩,
    ⟨hdr.peSize, toSize hdr.npes, false⟩, ⟨hdr.nodeSize, toSize hdr.nnodes, false⟩,
    ⟨hdr.nicSize, toSize hdr.nnics, false⟩]

/-- Their sections. -/
def fiveSections (hdr : PalsHeader) : List Section :=
  [⟨hdr.commProfileOffset.toNat, hdr.commProfileSize.toNat, (toSize hdr.ncommProfiles).toNat, false⟩,
    ⟨hdr.cmdOffset.toNat, hdr.cmdSize.toNat, (toSize hdr.ncmds).toNat, false⟩,
    ⟨hdr.peOffset.toNat, hdr.peSize.toNat, (toSize hdr.npes).toNat, false⟩,
    ⟨hdr.nodeOffset.toNat, hdr.nodeSize.toNat, (toSize hdr.nnodes).toNat, false⟩,
    ⟨hdr.nicOffset.toNat, hdr.nicSize.toNat, (toSize hdr.nnics).toNat, false⟩]

theorem Counts.part_le {α : Type} {n : CInt} {xs : List α} (h : Counts n xs) {size : SizeT}
    (hsize : size.toNat ≤ 2 ^ 7) : size.toNat * (Apinfo.toSize n).toNat ≤ 2 ^ 38 := by
  rw [h.toSize]
  exact Nat.le_trans (Nat.mul_le_mul hsize (Nat.le_of_lt h.lt)) (by decide)

/-- No array is too large. -/
theorem sizeAll_fiveParts_lt {Comm Nic Rest : Type} {comm : Layout Comm} {nic : Layout Nic} {RestHeld : Rest → Prop}
    {ap : Object Comm Nic Rest} (h : Held comm nic RestHeld ap) (hcomm : comm.size ≤ 2 ^ 7) (hnic : nic.size ≤ 2 ^ 7) :
    sizeAll (fiveParts ap.hdr) < 2 ^ 41 := by
  have hcomms := h.comms.part_le (Nat.le_trans (Nat.le_of_eq h.commProfileSize) hcomm)
  have hcmds := h.cmds.part_le (Nat.le_trans (Nat.le_of_eq h.cmdSize) (by decide))
  have hpes := h.pes.part_le (Nat.le_trans (Nat.le_of_eq h.peSize) (by decide))
  have hnodes := h.nodes.part_le (Nat.le_trans (Nat.le_of_eq h.nodeSize) (by decide))
  have hnics := h.nics.part_le (Nat.le_trans (Nat.le_of_eq h.nicSize) hnic)
  simp only [sizeAll, fiveParts, List.map_cons, List.map_nil, List.sum_cons, List.sum_nil]
  omega

namespace Apinfo1

/-- The sections of version 1. -/
def sections (ap : Apinfo1) : List Section := fiveSections ap.hdr

/-- The offsets are set. -/
def Placed (ap : Apinfo1) : Prop := Adjacent palsHeader.size (sections ap) ap.hdr.totalSize.toNat

theorem lays : apinfo1.Lays palsCommProfile1 palsNic (fun _ => True) Placed where
  create_held := ⟨rfl, rfl, rfl, rfl, rfl, ⟨rfl, by decide⟩, ⟨rfl, by decide⟩, ⟨rfl, by decide⟩, ⟨rfl, by decide⟩,
    ⟨rfl, by decide⟩, trivial⟩
  create_placed := ⟨rfl, rfl, rfl, rfl, rfl, rfl⟩
  held ap h := ⟨h.commProfileSize, h.cmdSize, h.peSize, h.nodeSize, h.nicSize, h.comms, h.cmds, h.pes, h.nodes, h.nics,
    h.rest⟩
  placed ap h := by
    have hfits : (BitVec.ofNat 64 palsHeader.size).toNat + sizeAll (fiveParts ap.hdr) < 2 ^ 64 := by
      have hstart : (BitVec.ofNat 64 palsHeader.size).toNat = 136 := rfl
      have hsize := sizeAll_fiveParts_lt h (by decide) (by decide)
      omega
    exact (place_spec hfits).1

end Apinfo1

namespace Apinfo5

/-- The sections of version 5. -/
def sections (ap : Apinfo5) : List Section :=
  fiveSections ap.hdr ++
    [⟨ap.rest.hdr.distOffset.toNat, ap.rest.hdr.distSize.toNat, (toSize ap.rest.ndist).toNat, true⟩,
      ⟨ap.rest.hdr.statusOffset.toNat, ap.rest.statusSize.toNat, (toSize ap.rest.nstatus).toNat, true⟩]

/-- What is missing from the header agrees with the arrays too. -/
structure RestHeld (rest : Rest5) : Prop where
  distSize : rest.hdr.distSize.toNat = palsDistance.size
  statusSize : rest.statusSize.toNat = int.size
  dist : Counts rest.ndist rest.dist
  status : Counts rest.nstatus rest.status

/-- The offsets are set. -/
def Placed (ap : Apinfo5) : Prop := Adjacent header.size (sections ap) ap.hdr.totalSize.toNat

/-- The offset of a section that there may not be. -/
theorem toNat_optional {n : CInt} (h : n.toNat < 2 ^ 31) (offset : SizeT) :
    (if (0#32).slt n then offset else 0).toNat = if true ∧ (toSize n).toNat = 0 then 0 else offset.toNat := by
  have hslt : (0#32).slt n = true ↔ ¬n.toNat = 0 := by
    rw [BitVec.slt_iff_toInt_lt, BitVec.toInt_eq_toNat_of_lt (by omega : 2 * n.toNat < 2 ^ 32)]
    simp
    omega
  rw [toNat_toSize h]
  by_cases hzero : n.toNat = 0
  · rw [if_neg (fun hpos => hslt.mp hpos hzero), if_pos ⟨rfl, hzero⟩]
    rfl
  · rw [if_pos (hslt.mpr hzero), if_neg fun h => hzero h.2]

theorem lays : apinfo5.Lays palsCommProfile5 palsHsnNic RestHeld Placed where
  create_held := ⟨rfl, rfl, rfl, rfl, rfl, ⟨rfl, by decide⟩, ⟨rfl, by decide⟩, ⟨rfl, by decide⟩, ⟨rfl, by decide⟩,
    ⟨rfl, by decide⟩, ⟨rfl, rfl, ⟨rfl, by decide⟩, ⟨rfl, by decide⟩⟩⟩
  create_placed := ⟨rfl, rfl, rfl, rfl, rfl, rfl, rfl, rfl⟩
  held ap h := ⟨h.commProfileSize, h.cmdSize, h.peSize, h.nodeSize, h.nicSize, h.comms, h.cmds, h.pes, h.nodes, h.nics,
    ⟨h.rest.distSize, h.rest.statusSize, h.rest.dist, h.rest.status⟩⟩
  placed ap h := by
    have hdist := toNat_optional (h.rest.dist.eq ▸ h.rest.dist.lt)
    have hstatus := toNat_optional (h.rest.status.eq ▸ h.rest.status.lt)
    have hfits : (BitVec.ofNat 64 header.size).toNat + sizeAll (fiveParts ap.hdr ++
        [⟨ap.rest.hdr.distSize, toSize ap.rest.ndist, true⟩, ⟨ap.rest.statusSize, toSize ap.rest.nstatus, true⟩]) <
        2 ^ 64 := by
      have hstart : (BitVec.ofNat 64 header.size).toNat = 160 := rfl
      have hsize := sizeAll_fiveParts_lt h (by decide) (by decide)
      have hdist := h.rest.dist.part_le (Nat.le_trans (Nat.le_of_eq h.rest.distSize) (by decide))
      have hstatus := h.rest.status.part_le (Nat.le_trans (Nat.le_of_eq h.rest.statusSize) (by decide))
      unfold sizeAll at hsize ⊢
      rw [List.map_append, List.sum_append]
      simp only [List.map_cons, List.map_nil, List.sum_cons, List.sum_nil]
      omega
    show Adjacent header.size (sections (setOffsets ap)) _
    rw [sections, setOffsets]
    dsimp only
    rw [hdist, hstatus]
    exact (place_spec hfits).1

end Apinfo5

/-! ### The file -/

/-- A reader of the file, who goes by the header. -/
def readFile (file : List Byte) : List PalsCmd × List PalsPe × List PalsNode :=
  let hdr := palsHeader.read file
  (palsCmd.readAll file hdr.cmdOffset.toNat hdr.cmdSize.toNat (toSize hdr.ncmds).toNat,
    palsPe.readAll file hdr.peOffset.toNat hdr.peSize.toNat (toSize hdr.npes).toNat,
    palsNode.readAll file hdr.nodeOffset.toNat hdr.nodeSize.toNat (toSize hdr.nnodes).toNat)

/-- The file is as the header, which it begins with, says. -/
structure Written {Comm Nic Rest Header : Type} (ap : Object Comm Nic Rest) (header : Layout Header) (hdr : Header)
    (sections : List Section) (sizes : List Nat) (file : List Byte) : Prop where
  total : file.length = ap.hdr.totalSize.toNat
  begins : header.read file = hdr
  adjacent : Adjacent header.size sections file.length
  sizes : sections.map Section.size = sizes
  arrays : readFile file = (ap.cmds, ap.pes, ap.nodes)

section
variable {Comm Nic Rest : Type} {comm : Layout Comm} {nic : Layout Nic} {RestHeld : Rest → Prop}
  {ap : Object Comm Nic Rest}

/-- The arrays are where the header says. -/
theorem readFile_eq (h : Held comm nic RestHeld ap) {front back file : List Byte} {stop : Nat}
    (hadjacent : Adjacent front.length (fiveSections ap.hdr) stop) (hheader : palsHeader.read file = ap.hdr)
    (hfile : file = front ++ (comm.writeAll ap.comms ++ (palsCmd.writeAll ap.cmds ++
      (palsPe.writeAll ap.pes ++ (palsNode.writeAll ap.nodes ++ back))))) :
    readFile file = (ap.cmds, ap.pes, ap.nodes) := by
  obtain ⟨-, hcmd, hpe, hnode, -⟩ := hadjacent
  have hcomms : (comm.writeAll ap.comms).length =
      ap.hdr.commProfileSize.toNat * (toSize ap.hdr.ncommProfiles).toNat := by
    rw [comm.length_writeAll, h.commProfileSize, h.comms.toSize]
  have hcmds : (palsCmd.writeAll ap.cmds).length = ap.hdr.cmdSize.toNat * (toSize ap.hdr.ncmds).toNat := by
    rw [palsCmd.length_writeAll, h.cmdSize, h.cmds.toSize]
  have hpes : (palsPe.writeAll ap.pes).length = ap.hdr.peSize.toNat * (toSize ap.hdr.npes).toNat := by
    rw [palsPe.length_writeAll, h.peSize, h.pes.toSize]
  unfold readFile
  rw [hheader]
  refine Prod.ext ?_ (Prod.ext ?_ ?_)
  · have hsplit : file = (front ++ comm.writeAll ap.comms) ++ (palsCmd.writeAll ap.cmds ++
        (palsPe.writeAll ap.pes ++ (palsNode.writeAll ap.nodes ++ back))) := by
      rw [hfile, List.append_assoc]
    refine palsCmd.readAll_eq hsplit ?_ h.cmdSize h.cmds.toSize
    rw [List.length_append, hcomms]
    exact hcmd
  · have hsplit : file = (front ++ comm.writeAll ap.comms ++ palsCmd.writeAll ap.cmds) ++
        (palsPe.writeAll ap.pes ++ (palsNode.writeAll ap.nodes ++ back)) := by
      rw [hfile, List.append_assoc, List.append_assoc]
    refine palsPe.readAll_eq hsplit ?_ h.peSize h.pes.toSize
    rw [List.length_append, List.length_append, hcomms, hcmds]
    exact hpe
  · have hsplit : file = (front ++ comm.writeAll ap.comms ++ palsCmd.writeAll ap.cmds ++ palsPe.writeAll ap.pes) ++
        (palsNode.writeAll ap.nodes ++ back) := by
      rw [hfile, List.append_assoc, List.append_assoc, List.append_assoc]
    refine palsNode.readAll_eq hsplit ?_ h.nodeSize h.nodes.toSize
    rw [List.length_append, List.length_append, List.length_append, hcomms, hcmds, hpes]
    exact hnode

end

namespace Apinfo1

/-- The file of version 1. -/
def file (ap : Apinfo1) : List Byte :=
  palsHeader.write ap.hdr ++ (palsCommProfile1.writeAll ap.comms ++ (palsCmd.writeAll ap.cmds ++
    (palsPe.writeAll ap.pes ++ (palsNode.writeAll ap.nodes ++ palsNic.writeAll ap.nics))))

theorem opWrite_eq {ap : Apinfo1} (h : Held palsCommProfile1 palsNic (fun _ => True) ap) :
    opWrite ap = some (file ap) := by
  unfold opWrite
  rw [fwrite_eq h.commProfileSize h.comms, fwrite_eq h.cmdSize h.cmds, fwrite_eq h.peSize h.pes,
    fwrite_eq h.nodeSize h.nodes, fwrite_eq h.nicSize h.nics]
  rfl

theorem written {ap : Apinfo1} (h : Held palsCommProfile1 palsNic (fun _ => True) ap) (hplaced : Placed ap) :
    Written ap palsHeader ap.hdr (sections ap)
      [palsCommProfile1.size, palsCmd.size, palsPe.size, palsNode.size, palsNic.size] (file ap) := by
  have hbegins : palsHeader.read (file ap) = ap.hdr := palsHeader.read_write _ _
  have htotal : (file ap).length = ap.hdr.totalSize.toNat := by
    rw [hplaced.stop_eq]
    simp only [file, sections, fiveSections, List.length_append, palsHeader.length_write, Layout.length_writeAll,
      List.map_cons, List.map_nil, List.sum_cons, List.sum_nil, h.commProfileSize, h.cmdSize, h.peSize, h.nodeSize,
      h.nicSize, h.comms.toSize, h.cmds.toSize, h.pes.toSize, h.nodes.toSize, h.nics.toSize, Nat.add_zero]
  have hfive : Adjacent (palsHeader.write ap.hdr).length (fiveSections ap.hdr) ap.hdr.totalSize.toNat := by
    rw [palsHeader.length_write]
    exact hplaced
  exact {
    total := htotal
    begins := hbegins
    adjacent := htotal ▸ hplaced
    sizes := by
      simp only [sections, fiveSections, List.map_cons, List.map_nil, h.commProfileSize, h.cmdSize, h.peSize,
        h.nodeSize, h.nicSize]
    arrays := readFile_eq h hfive hbegins rfl }

end Apinfo1

namespace Apinfo5

/-- The file of version 5. -/
def file (ap : Apinfo5) : List Byte :=
  header.write (ap.hdr, ap.rest.hdr) ++ (palsCommProfile5.writeAll ap.comms ++ (palsCmd.writeAll ap.cmds ++
    (palsPe.writeAll ap.pes ++ (palsNode.writeAll ap.nodes ++ (palsHsnNic.writeAll ap.nics ++
      (palsDistance.writeAll ap.rest.dist ++ int.writeAll ap.rest.status))))))

theorem opWrite_eq {ap : Apinfo5} (h : Held palsCommProfile5 palsHsnNic RestHeld ap) :
    opWrite ap = some (file ap) := by
  unfold opWrite
  rw [fwrite_eq h.commProfileSize h.comms, fwrite_eq h.cmdSize h.cmds, fwrite_eq h.peSize h.pes,
    fwrite_eq h.nodeSize h.nodes, fwrite_eq h.nicSize h.nics, fwrite_eq h.rest.distSize h.rest.dist,
    fwrite_eq h.rest.statusSize h.rest.status]
  rfl

theorem written {ap : Apinfo5} (h : Held palsCommProfile5 palsHsnNic RestHeld ap) (hplaced : Placed ap) :
    Written ap header (ap.hdr, ap.rest.hdr) (sections ap)
      [palsCommProfile5.size, palsCmd.size, palsPe.size, palsNode.size, palsHsnNic.size, palsDistance.size, int.size]
      (file ap) := by
  have hbegins : header.read (file ap) = (ap.hdr, ap.rest.hdr) := header.read_write _ _
  have htotal : (file ap).length = ap.hdr.totalSize.toNat := by
    rw [hplaced.stop_eq]
    simp only [file, sections, fiveSections, List.length_append, header.length_write, Layout.length_writeAll,
      List.map_append, List.sum_append, List.map_cons, List.map_nil, List.sum_cons, List.sum_nil, h.commProfileSize,
      h.cmdSize, h.peSize, h.nodeSize, h.nicSize, h.comms.toSize, h.cmds.toSize, h.pes.toSize, h.nodes.toSize,
      h.nics.toSize, h.rest.distSize, h.rest.statusSize, h.rest.dist.toSize, h.rest.status.toSize, Nat.add_zero,
      Nat.add_assoc]
  obtain ⟨middle, hfive⟩ := hplaced.left
  exact {
    total := htotal
    begins := hbegins
    adjacent := htotal ▸ hplaced
    sizes := by
      simp only [sections, fiveSections, List.map_append, List.map_cons, List.map_nil, h.commProfileSize, h.cmdSize,
        h.peSize, h.nodeSize, h.nicSize, h.rest.distSize, h.rest.statusSize]
      rfl
    arrays := readFile_eq h (header.length_write (ap.hdr, ap.rest.hdr) ▸ hfive) (congrArg Prod.fst hbegins) rfl }

end Apinfo5

/-- **An apinfo file** of either version, after any calls: it is `total_size` bytes, its
sections follow each other, and a reader gets the arrays of the object back. -/
theorem apinfo_layout (calls : List Impl.Call) :
    (∃ file, apinfo1.write (apinfo1.run calls) = some file ∧
      Written (apinfo1.run calls) palsHeader (apinfo1.run calls).hdr (Apinfo1.sections (apinfo1.run calls))
        [palsCommProfile1.size, palsCmd.size, palsPe.size, palsNode.size, palsNic.size] file) ∧
    ∃ file, apinfo5.write (apinfo5.run calls) = some file ∧
      Written (apinfo5.run calls) Apinfo5.header ((apinfo5.run calls).hdr, (apinfo5.run calls).rest.hdr)
        (Apinfo5.sections (apinfo5.run calls))
        [palsCommProfile5.size, palsCmd.size, palsPe.size, palsNode.size, palsHsnNic.size, palsDistance.size, int.size]
        file := by
  constructor
  · obtain ⟨h, hplaced⟩ := run_held Apinfo1.lays calls
    exact ⟨_, Apinfo1.opWrite_eq h, Apinfo1.written h hplaced⟩
  · obtain ⟨h, hplaced⟩ := run_held Apinfo5.lays calls
    exact ⟨_, Apinfo5.opWrite_eq h, Apinfo5.written h hplaced⟩

end FluxCoral2.Apinfo
