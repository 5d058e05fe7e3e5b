import FluxCoral2.Library.Bytes

/-! The structures of an apinfo file (`apinfo1.h`, `apinfo5.h`).

Each C structure is a `Layout`: its members in their order, with the padding that their
alignment asks for, so that its size is the compiler's `sizeof`. Version 5 changes the
profiles and the nics, and its header goes on where that of version 1 ends. -/
namespace FluxCoral2.Apinfo
open Library

abbrev CInt := BitVec 32

abbrev SizeT := BitVec 64

def int : Layout CInt := .number 4

def sizeT : Layout SizeT := .number 8

/-- An int before a `size_t`. -/
def paddedInt : Layout CInt := int.padAfter 4

abbrev Block (n : Nat) := {bytes : List Byte // bytes.length = n}

/-! ### The header -/

/-- `pals_header_t` of version 1, with which that of version 5 begins. -/
structure PalsHeader where
  version : CInt
  totalSize : SizeT
  commProfileSize : SizeT
  commProfileOffset : SizeT
  ncommProfiles : CInt
  cmdSize : SizeT
  cmdOffset : SizeT
  ncmds : CInt
  peSize : SizeT
  peOffset : SizeT
  npes : CInt
  nodeSize : SizeT
  nodeOffset : SizeT
  nnodes : CInt
  nicSize : SizeT
  nicOffset : SizeT
  nnics : CInt

def palsHeader : Layout PalsHeader :=
  .fields
    (paddedInt.pair <| sizeT.pair <| sizeT.pair <| sizeT.pair <| paddedInt.pair <| sizeT.pair <| sizeT.pair <|
      paddedInt.pair <| sizeT.pair <| sizeT.pair <| paddedInt.pair <| sizeT.pair <| sizeT.pair <| paddedInt.pair <|
      sizeT.pair <| sizeT.pair paddedInt)
    (fun (version, totalSize, commProfileSize, commProfileOffset, ncommProfiles, cmdSize, cmdOffset, ncmds, peSize,
        peOffset, npes, nodeSize, nodeOffset, nnodes, nicSize, nicOffset, nnics) =>
      { version, totalSize, commProfileSize, commProfileOffset, ncommProfiles, cmdSize, cmdOffset, ncmds, peSize,
        peOffset, npes, nodeSize, nodeOffset, nnodes, nicSize, nicOffset, nnics })
    (fun h => (h.version, h.totalSize, h.commProfileSize, h.commProfileOffset, h.ncommProfiles, h.cmdSize, h.cmdOffset,
      h.ncmds, h.peSize, h.peOffset, h.npes, h.nodeSize, h.nodeOffset, h.nnodes, h.nicSize, h.nicOffset, h.nnics))
    fun _ => rfl

/-- What version 5 has behind these. -/
structure PalsHeaderRest where
  statusOffset : SizeT
  distSize : SizeT
  distOffset : SizeT

def palsHeaderRest : Layout PalsHeaderRest :=
  .fields (sizeT.pair <| sizeT.pair sizeT)
    (fun (statusOffset, distSize, distOffset) => ⟨statusOffset, distSize, distOffset⟩)
    (fun h => (h.statusOffset, h.distSize, h.distOffset)) fun _ => rfl

/-! ### The elements that are written -/

structure PalsCmd where
  npes : CInt
  pesPerNode : CInt
  cpusPerPe : CInt

def palsCmd : Layout PalsCmd :=
  .fields (int.pair <| int.pair int) (fun (npes, pesPerNode, cpusPerPe) => ⟨npes, pesPerNode, cpusPerPe⟩)
    (fun c => (c.npes, c.pesPerNode, c.cpusPerPe)) fun _ => rfl

structure PalsPe where
  localidx : CInt
  cmdidx : CInt
  nodeidx : CInt

def palsPe : Layout PalsPe :=
  .fields (int.pair <| int.pair int) (fun (localidx, cmdidx, nodeidx) => ⟨localidx, cmdidx, nodeidx⟩)
    (fun p => (p.localidx, p.cmdidx, p.nodeidx)) fun _ => rfl

structure PalsNode where
  nid : CInt
  hostname : Block 64

def palsNode : Layout PalsNode :=
  .fields (int.pair <| .block 64) (fun (nid, hostname) => ⟨nid, hostname⟩) (fun n => (n.nid, n.hostname)) fun _ => rfl

/-! ### The elements of which there are none -/

/-- `tokenid`, `vni`, `vlan` and `traffic_classes`. -/
abbrev PalsCommProfile1 := Block 40 × CInt × CInt × CInt

def palsCommProfile1 : Layout PalsCommProfile1 := Layout.pair (.block 40) <| int.pair <| int.pair int

/-- `nodeidx`, `address_type` and `address`. -/
abbrev PalsNic := CInt × CInt × Block 40

def palsNic : Layout PalsNic := int.pair <| int.pair <| .block 40

/-- `svc_id`, `traffic_classes`, `vnis`, `nvnis` and `device_name`. -/
abbrev PalsCommProfile5 := CInt × CInt × Block 8 × Block 1 × Block 16

def palsCommProfile5 : Layout PalsCommProfile5 :=
  int.pair <| int.pair <| Layout.pair (.block 8) <| Layout.pair (.block 1) <| Layout.padAfter 3 (.block 16)

/-- `nodeidx`, `address_type`, `address`, `numa_node`, `device_name` and two unused longs. -/
abbrev PalsHsnNic := CInt × CInt × Block 64 × Block 2 × Block 16 × SizeT × SizeT

def palsHsnNic : Layout PalsHsnNic :=
  int.pair <| int.pair <| Layout.pair (.block 64) <| Layout.pair (.block 2) <| Layout.pair (.block 16) <|
    Layout.pair (sizeT.padBefore 6) sizeT

/-- `num_nic_distances` and `accelerator_distances`; the array behind them is outside `sizeof`. -/
abbrev PalsDistance := Block 1 × Block 1

def palsDistance : Layout PalsDistance := Layout.pair (.block 1) (.block 1)

example : (palsHeader.size, (palsHeader.pair palsHeaderRest).size, palsCmd.size, palsPe.size, palsNode.size) =
    (136, 160, 12, 12, 68) := rfl

example : (palsCommProfile1.size, palsNic.size, palsCommProfile5.size, palsHsnNic.size, palsDistance.size) =
    (52, 48, 36, 112, 2) := rfl

end FluxCoral2.Apinfo
