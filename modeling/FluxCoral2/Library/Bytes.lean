import Mathlib.Algebra.GroupWithZero.Nat

/-! How values lie in memory.

A `Layout` writes the values of a type as so many bytes, and reads one back from the front of
what follows; that it reads what it wrote is a field. Layouts of numbers, of blocks of bytes
and of padding make those of structures. An array is its elements one after the other, and
a reader that has the place, the size of an element and their number gets it back
(`readAll_writeAll`). -/
namespace Library

abbrev Byte := BitVec 8

/-- The values of a type as bytes. -/
structure Layout (α : Type) where
  size : Nat
  write : α → List Byte
  read : List Byte → α
  length_write : ∀ a, (write a).length = size
  read_write : ∀ a rest, read (write a ++ rest) = a

namespace Layout
variable {α β : Type}

/-! ### Numbers -/

/-- The bytes of a number, the least significant first. -/
def toBytes : Nat → Nat → List Byte
  | 0, _ => []
  | n + 1, x => BitVec.ofNat 8 x :: toBytes n (x / 256)

def ofBytes : List Byte → Nat
  | [] => 0
  | b :: bs => b.toNat + 256 * ofBytes bs

theorem length_toBytes (n x : Nat) : (toBytes n x).length = n := by
  induction n generalizing x with
  | zero => rfl
  | succ n ih => rw [toBytes, List.length_cons, ih]

theorem ofBytes_toBytes {n x : Nat} (h : x < 256 ^ n) : ofBytes (toBytes n x) = x := by
  induction n generalizing x with
  | zero =>
    rw [Nat.pow_zero, Nat.lt_one_iff] at h
    rw [h]
    rfl
  | succ n ih =>
    have hdiv : x / 256 < 256 ^ n := by
      rw [Nat.div_lt_iff_lt_mul (by decide), ← Nat.pow_succ]
      exact h
    rw [toBytes, ofBytes, ih hdiv, BitVec.toNat_ofNat]
    exact Nat.mod_add_div x 256

theorem lt_of_bitVec {n : Nat} (v : BitVec (8 * n)) : v.toNat < 256 ^ n := by
  have h := v.isLt
  rwa [Nat.pow_mul] at h

/-- A number of so many bytes. -/
def number (n : Nat) : Layout (BitVec (8 * n)) where
  size := n
  write v := toBytes n v.toNat
  read bytes := BitVec.ofNat _ (ofBytes (bytes.take n))
  length_write v := length_toBytes n v.toNat
  read_write v rest := by
    rw [List.take_left' (length_toBytes n v.toNat), ofBytes_toBytes (lt_of_bitVec v), BitVec.ofNat_toNat,
      BitVec.setWidth_eq]

/-! ### Structures -/

/-- Padding before a value. -/
def padBefore (n : Nat) (l : Layout α) : Layout α where
  size := n + l.size
  write a := List.replicate n 0 ++ l.write a
  read bytes := l.read (bytes.drop n)
  length_write a := by rw [List.length_append, List.length_replicate, l.length_write]
  read_write a rest := by rw [List.append_assoc, List.drop_left' List.length_replicate, l.read_write]

/-- Padding behind a value. -/
def padAfter (n : Nat) (l : Layout α) : Layout α where
  size := l.size + n
  write a := l.write a ++ List.replicate n 0
  read := l.read
  length_write a := by rw [List.length_append, List.length_replicate, l.length_write]
  read_write a rest := by rw [List.append_assoc, l.read_write]

/-- One value and then another. -/
def pair (l : Layout α) (m : Layout β) : Layout (α × β) where
  size := l.size + m.size
  write x := l.write x.1 ++ m.write x.2
  read bytes := (l.read bytes, m.read (bytes.drop l.size))
  length_write x := by rw [List.length_append, l.length_write, m.length_write]
  read_write x rest := by
    rw [List.append_assoc, l.read_write, List.drop_left' (l.length_write x.1), m.read_write]

/-- The fields of a structure. -/
def fields (l : Layout α) (make : α → β) (parts : β → α) (h : ∀ b, make (parts b) = b) : Layout β where
  size := l.size
  write b := l.write (parts b)
  read bytes := make (l.read bytes)
  length_write b := l.length_write (parts b)
  read_write b rest := by rw [l.read_write, h]

/-- A block of bytes. -/
def block (n : Nat) : Layout {bytes : List Byte // bytes.length = n} where
  size := n
  write b := b.1
  read bytes := ⟨(bytes ++ List.replicate n 0).take n, by
    rw [List.length_take, List.length_append, List.length_replicate]
    exact Nat.min_eq_left (Nat.le_add_left n _)⟩
  length_write b := b.2
  read_write b rest := by
    refine Subtype.ext ?_
    show ((b.1 ++ rest) ++ List.replicate n 0).take n = b.1
    rw [List.append_assoc, List.take_left' b.2]

/-! ### Arrays -/

def writeAll (l : Layout α) (xs : List α) : List Byte := xs.flatMap l.write

theorem length_writeAll (l : Layout α) (xs : List α) : (l.writeAll xs).length = l.size * xs.length := by
  induction xs with
  | nil => rfl
  | cons x xs ih =>
    rw [writeAll, List.flatMap_cons, List.length_append, l.length_write, List.length_cons, Nat.mul_succ, Nat.add_comm]
    exact congrArg (· + l.size) ih

/-- The elements that are so far apart, from a place on. -/
def readAll (l : Layout α) (bytes : List Byte) (offset stride count : Nat) : List α :=
  (List.range count).map fun i => l.read (bytes.drop (offset + stride * i))

theorem readAll_succ (l : Layout α) (bytes : List Byte) (offset stride count : Nat) :
    l.readAll bytes offset stride (count + 1) =
      l.read (bytes.drop offset) :: l.readAll bytes (offset + stride) stride count := by
  unfold readAll
  rw [List.range_succ_eq_map, List.map_cons, List.map_map, Nat.mul_zero, Nat.add_zero]
  refine congrArg _ (List.map_congr_left fun i _ => ?_)
  rw [Function.comp_apply, Nat.mul_succ, Nat.add_comm (stride * i), Nat.add_assoc]

/-- **An array is read back**, wherever it is. -/
theorem readAll_writeAll (l : Layout α) (front back : List Byte) (xs : List α) :
    l.readAll (front ++ (l.writeAll xs ++ back)) front.length l.size xs.length = xs := by
  induction xs generalizing front with
  | nil => rfl
  | cons x xs ih =>
    have hsplit : front ++ (l.writeAll (x :: xs) ++ back) = (front ++ l.write x) ++ (l.writeAll xs ++ back) := by
      rw [writeAll, List.flatMap_cons, List.append_assoc, List.append_assoc]
      rfl
    have hrest := ih (front ++ l.write x)
    rw [List.length_append, l.length_write] at hrest
    rw [List.length_cons, readAll_succ, hsplit, hrest, List.append_assoc, List.drop_left, l.read_write]

/-- An array in a file. -/
theorem readAll_eq (l : Layout α) {file front back : List Byte} {xs : List α} {offset stride count : Nat}
    (hfile : file = front ++ (l.writeAll xs ++ back)) (hoffset : offset = front.length) (hstride : stride = l.size)
    (hcount : count = xs.length) : l.readAll file offset stride count = xs := by
  rw [hfile, hoffset, hstride, hcount, l.readAll_writeAll]

end Layout

/-! ### Sections -/

/-- An array in a file: where it is, the size of an element, and how many there are. An
optional one that is empty has the offset 0. -/
structure Section where
  offset : Nat
  size : Nat
  count : Nat
  optional : Bool := false

/-- The sections follow each other, without a gap or an overlap. -/
def Adjacent (start : Nat) : List Section → Nat → Prop
  | [], stop => start = stop
  | s :: rest, stop =>
    s.offset = (if s.optional ∧ s.count = 0 then 0 else start) ∧ Adjacent (start + s.size * s.count) rest stop

theorem Adjacent.stop_eq {start stop : Nat} {sections : List Section} (h : Adjacent start sections stop) :
    stop = start + (sections.map fun s => s.size * s.count).sum := by
  induction sections generalizing start with
  | nil => exact h.symm
  | cons s rest ih => rw [ih h.2, List.map_cons, List.sum_cons, Nat.add_assoc]

/-- The sections that come first. -/
theorem Adjacent.left {start stop : Nat} {sections sections' : List Section}
    (h : Adjacent start (sections ++ sections') stop) : ∃ middle, Adjacent start sections middle := by
  induction sections generalizing start with
  | nil => exact ⟨start, rfl⟩
  | cons s rest ih =>
    obtain ⟨middle, hrest⟩ := ih h.2
    exact ⟨middle, h.1, hrest⟩

end Library
