import FluxCoral2.Library.IdsetString

/-! Integers as Python's `int` reads them, of ASCII text: blanks around them, a sign, and
single underscores between the digits. -/
namespace Library.IntString
open IdsetString (digit parseId)

def spaces : List Char := [' ', '\t', '\n', '\r', '\x0b', '\x0c', '\x1c', '\x1d', '\x1e', '\x1f']

def isSpace (c : Char) : Bool := c ∈ spaces

def strip (cs : List Char) : List Char := ((cs.dropWhile isSpace).reverse.dropWhile isSpace).reverse

def parseDigits (cs : List Char) : Option Nat :=
  if [] ∈ cs.splitOn '_' then none else parseId (cs.filter (· ≠ '_'))

def parseInt (cs : List Char) : Option Int :=
  match strip cs with
  | '-' :: rest => (parseDigits rest).map fun n => -(n : Int)
  | '+' :: rest => (parseDigits rest).map fun n => (n : Int)
  | rest => (parseDigits rest).map fun n => (n : Int)

/-! ### Numerals -/

theorem digit_isSome {c : Char} {d : Nat} (h : digit c = some d) : c.isDigit = true := by
  rw [digit] at h
  split at h
  · assumption
  · cases h

theorem foldl_digits {cs : List Char} {start : Option Nat} {n : Nat}
    (h : cs.foldl (fun n c => n.bind fun n => (digit c).map (10 * n + ·)) start = some n) :
    (∀ c ∈ cs, c.isDigit = true) ∧ start ≠ none := by
  induction cs generalizing start with
  | nil => exact ⟨nofun, fun hnone => by simp [hnone] at h⟩
  | cons c rest ih =>
    obtain ⟨hrest, hne⟩ := ih h
    obtain ⟨m, hm⟩ := Option.ne_none_iff_exists'.mp hne
    obtain ⟨k, rfl, hk⟩ := Option.bind_eq_some_iff.mp hm
    obtain ⟨d, hd, -⟩ := Option.map_eq_some_iff.mp hk
    exact ⟨List.forall_mem_cons.mpr ⟨digit_isSome hd, hrest⟩, nofun⟩

theorem parseId_digits {cs : List Char} {n : Nat} (h : parseId cs = some n) :
    cs ≠ [] ∧ ∀ c ∈ cs, c.isDigit = true := by
  cases cs with
  | nil => cases h
  | cons c rest => exact ⟨List.cons_ne_nil _ _, (foldl_digits h).1⟩

theorem not_digit_of_mem {cs : List Char} {c : Char} (hc : c ∈ cs) (h : c.isDigit = false) : parseId cs = none := by
  cases hn : parseId cs with
  | none => rfl
  | some n => exact absurd ((parseId_digits hn).2 c hc) (by simp [h])

/-! ### Blanks and signs -/

theorem mem_dropWhile {p : Char → Bool} {c : Char} (hc : p c = false) {cs : List Char} (h : c ∈ cs) :
    c ∈ cs.dropWhile p := by
  induction cs with
  | nil => cases h
  | cons d rest ih =>
    rw [List.dropWhile_cons]
    split
    · rcases List.mem_cons.mp h with rfl | h
      · simp_all
      · exact ih h
    · exact h

theorem mem_strip {c : Char} (hc : isSpace c = false) {cs : List Char} (h : c ∈ cs) : c ∈ strip cs :=
  List.mem_reverse.mpr (mem_dropWhile hc (List.mem_reverse.mpr (mem_dropWhile hc h)))

theorem strip_eq_self {cs : List Char} (h : ∀ c ∈ cs, isSpace c = false) : strip cs = cs := by
  have hdrop (ds : List Char) (h : ∀ c ∈ ds, isSpace c = false) : ds.dropWhile isSpace = ds := by
    cases ds with
    | nil => rfl
    | cons d rest => simp [h d List.mem_cons_self]
  rw [strip, hdrop cs h, hdrop _ fun c hc => h c (List.mem_reverse.mp hc), List.reverse_reverse]

/-- A character that is no part of an integer. -/
structure Foreign (c : Char) : Prop where
  digit : c.isDigit = false
  space : isSpace c = false
  sign : c ≠ '-' ∧ c ≠ '+'
  underscore : c ≠ '_'

theorem parseDigits_eq_none {cs : List Char} {c : Char} (hc : c ∈ cs) (hdigit : c.isDigit = false) (hne : c ≠ '_') :
    parseDigits cs = none := by
  rw [parseDigits]
  split
  · rfl
  · exact not_digit_of_mem (List.mem_filter.mpr ⟨hc, by simpa using hne⟩) hdigit

theorem parseInt_eq_none {cs : List Char} {c : Char} (hc : c ∈ cs) (h : Foreign c) : parseInt cs = none := by
  have hstrip := mem_strip h.space hc
  rw [parseInt]
  split
  · rename_i rest hcs
    rw [hcs] at hstrip
    have hrest := (List.mem_cons.mp hstrip).resolve_left h.sign.1
    rw [parseDigits_eq_none hrest h.digit h.underscore]
    rfl
  · rename_i rest hcs
    rw [hcs] at hstrip
    have hrest := (List.mem_cons.mp hstrip).resolve_left h.sign.2
    rw [parseDigits_eq_none hrest h.digit h.underscore]
    rfl
  · rw [parseDigits_eq_none hstrip h.digit h.underscore]
    rfl

/-! ### Text that starts with a digit -/

theorem not_digit_sign {c : Char} (h : c.isDigit = true) : c ≠ '-' ∧ c ≠ '+' ∧ c ≠ '_' := by
  refine ⟨?_, ?_, ?_⟩ <;> rintro rfl <;> exact absurd h (by decide)

theorem not_digit_space {c : Char} (h : c.isDigit = true) : isSpace c = false := by
  have hspaces : ∀ d ∈ spaces, d.isDigit = false := by
    unfold spaces
    simp only [List.forall_mem_cons]
    refine ⟨?_, ?_, ?_, ?_, ?_, ?_, ?_, ?_, ?_, ?_, nofun⟩ <;> rfl
  refine decide_eq_false fun hspace => ?_
  rw [hspaces c hspace] at h
  cases h

/-- There is no sign to read. -/
theorem parseInt_of_head {c : Char} {rest : List Char} (hc : c.isDigit = true)
    (hspace : ∀ d ∈ c :: rest, isSpace d = false) :
    parseInt (c :: rest) = (parseDigits (c :: rest)).map fun n => (n : Int) := by
  obtain ⟨hminus, hplus, -⟩ := not_digit_sign hc
  rw [parseInt, strip_eq_self hspace]
  split
  · rename_i hcs
    exact absurd (List.cons.inj hcs).1 hminus
  · rename_i hcs
    exact absurd (List.cons.inj hcs).1 hplus
  · rfl

/-- A numeral is an integer. -/
theorem parseInt_of_parseId {cs : List Char} {n : Nat} (h : parseId cs = some n) : parseInt cs = some (n : Int) := by
  obtain ⟨hne, hdigits⟩ := parseId_digits h
  have hunderscore : '_' ∉ cs := fun hmem => (not_digit_sign (hdigits _ hmem)).2.2 rfl
  have hfilter : cs.filter (· ≠ '_') = cs :=
    List.filter_eq_self.mpr fun c hc => by simpa using (not_digit_sign (hdigits c hc)).2.2
  have hparse : parseDigits cs = some n := by
    rw [parseDigits, List.splitOn_eq_singleton hunderscore, if_neg (by simpa using hne.symm), hfilter, h]
  obtain ⟨c, rest, rfl⟩ := List.exists_cons_of_ne_nil hne
  rw [parseInt_of_head (hdigits c List.mem_cons_self) fun d hd => not_digit_space (hdigits d hd), hparse]
  rfl

/-- A range of numerals is none. -/
theorem parseInt_range {a b : List Char} {low high : Nat} (ha : parseId a = some low) (hb : parseId b = some high) :
    parseInt (a ++ '-' :: b) = none := by
  obtain ⟨hne, hdigits⟩ := parseId_digits ha
  obtain ⟨c, rest, rfl⟩ := List.exists_cons_of_ne_nil hne
  have hspace : ∀ d ∈ c :: rest ++ '-' :: b, isSpace d = false := by
    intro d hd
    rcases List.mem_append.mp hd with hd | hd
    · exact not_digit_space (hdigits d hd)
    · rcases List.mem_cons.mp hd with rfl | hd
      · decide
      · exact not_digit_space ((parseId_digits hb).2 d hd)
  have hminus : '-' ∈ c :: rest ++ '-' :: b := List.mem_append_right _ List.mem_cons_self
  rw [List.cons_append] at hspace hminus ⊢
  rw [parseInt_of_head (hdigits c List.mem_cons_self) hspace, parseDigits_eq_none hminus (by decide) (by decide)]
  rfl

/-! ### Numerals of numbers -/

theorem parseId_toString (n : Nat) : parseId (toString n).toList = some n := by
  have hfold (cs : List Char) (hcs : ∀ c ∈ cs, c.isDigit = true) (start : Nat) :
      cs.foldl (fun n c => n.bind fun n => (digit c).map (10 * n + ·)) (some start) =
        some (Nat.ofDigitChars 10 cs start) := by
    induction cs generalizing start with
    | nil => rfl
    | cons c rest ih =>
      obtain ⟨hc, hrest⟩ := List.forall_mem_cons.mp hcs
      rw [List.foldl_cons, Nat.ofDigitChars_cons, ← ih hrest]
      simp [digit, hc]
  have hdigits : ∀ c ∈ Nat.toDigits 10 n, c.isDigit = true := fun c hc =>
    Nat.isDigit_of_mem_toDigits (by decide) (by decide) hc
  have hparse := hfold _ hdigits 0
  rw [Nat.ofDigitChars_ten_toDigits] at hparse
  have hlist : (toString n).toList = Nat.toDigits 10 n := String.toList_ofList
  rw [hlist]
  cases hcs : Nat.toDigits 10 n with
  | nil => exact absurd hcs Nat.toDigits_ne_nil
  | cons c rest =>
    rw [hcs] at hparse
    exact hparse

theorem parseInt_toString (n : Nat) : parseInt (toString n).toList = some (n : Int) :=
  parseInt_of_parseId (parseId_toString n)

/-! ### Printing -/

/-- A number as `%d` prints it. -/
def decimal : Int → List Char
  | .ofNat n => Nat.toDigits 10 n
  | .negSucc n => '-' :: Nat.toDigits 10 (n + 1)

/-- Digits of `0x%x`. -/
def hex (n : Nat) : List Char := '0' :: 'x' :: Nat.toDigits 16 n

theorem isDigit_toDigits {n : Nat} {c : Char} (h : c ∈ Nat.toDigits 10 n) : c.isDigit = true :=
  Nat.isDigit_of_mem_toDigits (by decide) (by decide) h

theorem comma_notMem_decimal (n : Int) : ',' ∉ decimal n := by
  have hdigits (m : Nat) : ',' ∉ Nat.toDigits 10 m := fun hmem => absurd (isDigit_toDigits hmem) (by decide)
  cases n with
  | ofNat n => exact hdigits n
  | negSucc n => exact fun hmem => (List.mem_cons.mp hmem).elim nofun (hdigits (n + 1))

end Library.IntString
