import Mathlib.Data.Finset.Basic
import Mathlib.Order.Interval.Finset.Nat

/-! Idset strings: comma-separated ids and ascending ranges, bracketed or not, as in
`0,2-9` or `[4]`. The empty string is the empty set. -/
namespace Library.IdsetString

def digit (c : Char) : Option Nat := if c.isDigit then some (c.toNat - '0'.toNat) else none

/-- A decimal numeral of at least one digit. -/
def parseId : List Char → Option Nat
  | [] => none
  | cs => cs.foldl (fun n c => n.bind fun n => (digit c).map (10 * n + ·)) (some 0)

/-- One id, or a range whose end is not below its start, as the pair of its bounds. -/
def parseRange (cs : List Char) : Option (Nat × Nat) :=
  match cs.splitOn '-' with
  | [a] => (parseId a).map fun n => (n, n)
  | [a, b] => (parseId a).bind fun lo => (parseId b).bind fun hi =>
    if lo ≤ hi then some (lo, hi) else none
  | _ => none

def unbracket (cs : List Char) : List Char :=
  if cs.head? = some '[' ∧ cs.getLast? = some ']' then cs.tail.dropLast else cs

def parseRanges (cs : List Char) : Option (List (Nat × Nat)) :=
  match unbracket cs with
  | [] => some []
  | body => (body.splitOn ',').mapM parseRange

/-- The ids that some range covers. -/
def cover (ranges : List (Nat × Nat)) : Finset Nat :=
  ranges.foldr (fun r s => Finset.Icc r.1 r.2 ∪ s) ∅

def decode (s : String) : Option (Finset Nat) := (parseRanges s.toList).map cover

theorem mem_cover (ranges : List (Nat × Nat)) (v : Nat) :
    v ∈ cover ranges ↔ ∃ r ∈ ranges, r.1 ≤ v ∧ v ≤ r.2 := by
  induction ranges with
  | nil => simp [cover]
  | cons r rest ih =>
    simp only [cover, List.foldr_cons, Finset.mem_union, Finset.mem_Icc, List.mem_cons] at ih ⊢
    rw [ih]
    simp

/-- A string decodes to a set if its ranges parse and cover that set. -/
theorem decode_eq {s : String} {ranges : List (Nat × Nat)} {t : Finset Nat}
    (hp : parseRanges s.toList = some ranges)
    (ht : ∀ v, v ∈ t ↔ ∃ r ∈ ranges, r.1 ≤ v ∧ v ≤ r.2) : decode s = some t := by
  rw [decode, hp, Option.map_some]
  congr 1
  ext v
  rw [mem_cover, ht]

end Library.IdsetString
