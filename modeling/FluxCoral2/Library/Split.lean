import Mathlib.Data.List.DropRight

/-! Text split at a separator, and blanks taken off its ends.

The pieces of a text are those between the first occurrence of the separator, the first one
behind it, and so on; so none has it. If the first character of the separator is not in the
rest of it, an occurrence does not reach from a piece into the separator behind it. -/
namespace Library.Split
variable {α : Type}

/-! ### Pieces -/

section Pieces
variable [DecidableEq α] {sep text tail : List α}

/-- A character more in front of the first piece. -/
def extend (c : α) : List (List α) → List (List α)
  | [] => [[c]]
  | piece :: rest => (c :: piece) :: rest

/-- The pieces of a text, behind what is left to skip of a separator. -/
def pieces (sep : List α) : Nat → List α → List (List α)
  | _, [] => [[]]
  | skip + 1, _ :: rest => pieces sep skip rest
  | 0, c :: rest =>
    if sep.isPrefixOf (c :: rest) then [] :: pieces sep (sep.length - 1) rest else extend c (pieces sep 0 rest)

def split (sep text : List α) : List (List α) := pieces sep 0 text

theorem split_cons {c : α} {rest : List α} (h : ¬ sep <+: c :: rest) :
    split sep (c :: rest) = extend c (split sep rest) := by
  rw [split, pieces, if_neg (by rwa [List.isPrefixOf_iff_prefix])]
  rfl

/-- The first piece starts the text. -/
theorem split_head (sep text : List α) : ∃ piece rest, split sep text = piece :: rest ∧ piece <+: text := by
  induction text with
  | nil => exact ⟨[], [], rfl, List.nil_prefix⟩
  | cons c text ih =>
    by_cases h : sep <+: c :: text
    · rw [split, pieces, if_pos (List.isPrefixOf_iff_prefix.mpr h)]
      exact ⟨[], _, rfl, List.nil_prefix⟩
    · obtain ⟨piece, rest, hsplit, hstarts⟩ := ih
      rw [split_cons h, hsplit]
      exact ⟨c :: piece, rest, rfl, (List.prefix_cons_inj c).mpr hstarts⟩

theorem pieces_skip (sep skipped tail : List α) : pieces sep skipped.length (skipped ++ tail) = split sep tail := by
  induction skipped with
  | nil => rfl
  | cons c skipped ih => exact ih

theorem split_sep_append (hsep : sep ≠ []) (tail : List α) : split sep (sep ++ tail) = [] :: split sep tail := by
  obtain ⟨c, rest, rfl⟩ := List.exists_cons_of_ne_nil hsep
  have hstarts : c :: rest <+: c :: (rest ++ tail) := List.prefix_append (c :: rest) tail
  rw [split, List.cons_append, pieces, if_pos (List.isPrefixOf_iff_prefix.mpr hstarts)]
  exact congrArg _ (pieces_skip _ rest tail)

/-- A start of the text in which no separator starts goes to the first piece. -/
theorem split_append (tail : List α) {start : List α} (h : ∀ u, u <:+ start → u ≠ [] → ¬ sep <+: u ++ tail) :
    ∃ piece rest, split sep tail = piece :: rest ∧ split sep (start ++ tail) = (start ++ piece) :: rest := by
  induction start with
  | nil =>
    obtain ⟨piece, rest, hsplit, -⟩ := split_head sep tail
    exact ⟨piece, rest, hsplit, hsplit⟩
  | cons c start ih =>
    obtain ⟨piece, rest, htail, hsplit⟩ := ih fun u hu => h u (hu.trans (List.suffix_cons c start))
    have hfirst : ¬ sep <+: c :: (start ++ tail) := h (c :: start) List.suffix_rfl (List.cons_ne_nil _ _)
    refine ⟨piece, rest, htail, ?_⟩
    rw [List.cons_append, split_cons hfirst, hsplit]
    rfl

/-- No piece has the separator. -/
theorem not_infix_of_mem_pieces (hsep : sep ≠ []) (text : List α) (skip : Nat) :
    ∀ piece ∈ pieces sep skip text, ¬ sep <:+: piece := by
  induction text generalizing skip with
  | nil =>
    intro piece hmem hin
    rw [pieces, List.mem_singleton] at hmem
    rw [hmem, List.infix_nil] at hin
    exact hsep hin
  | cons c text ih =>
    cases skip with
    | succ skip => exact ih skip
    | zero =>
      intro piece hmem
      by_cases h : sep <+: c :: text
      · rw [pieces, if_pos (List.isPrefixOf_iff_prefix.mpr h)] at hmem
        rcases List.mem_cons.mp hmem with rfl | hmem
        · exact fun hin => hsep (List.infix_nil.mp hin)
        · exact ih _ piece hmem
      · obtain ⟨first, rest, hsplit, hstarts⟩ := split_head sep text
        have hpieces : pieces sep 0 (c :: text) = (c :: first) :: rest := by
          rw [← split, split_cons h, hsplit]
          rfl
        have hold : ∀ p ∈ first :: rest, ¬ sep <:+: p := fun p hp => by
          rw [← hsplit] at hp
          exact ih 0 p hp
        rw [hpieces] at hmem
        rcases List.mem_cons.mp hmem with rfl | hmem
        · rw [List.infix_cons_iff]
          refine not_or.mpr ⟨fun hp => h (hp.trans ((List.prefix_cons_inj c).mpr hstarts)), ?_⟩
          exact hold first List.mem_cons_self
        · exact hold piece (List.mem_cons_of_mem _ hmem)

end Pieces

/-- No piece has the character it was split at. -/
theorem notMem_of_mem_splitOn [DecidableEq α] {c : α} {cs piece : List α} (h : piece ∈ cs.splitOn c) : c ∉ piece := by
  induction cs generalizing piece with
  | nil =>
    rw [List.splitOn_nil, List.mem_singleton] at h
    exact h ▸ List.not_mem_nil
  | cons x cs ih =>
    rw [List.splitOn_cons_eq_if_modifyHead] at h
    obtain ⟨first, rest, hsplit⟩ := List.exists_cons_of_ne_nil (List.splitOn_ne_nil c cs)
    rw [hsplit] at h ih
    split at h
    · rcases List.mem_cons.mp h with rfl | h
      · exact List.not_mem_nil
      · exact ih h
    · rename_i hx
      rw [List.modifyHead_cons] at h
      rcases List.mem_cons.mp h with rfl | h
      · have hne : c ≠ x := fun heq => hx (beq_iff_eq.mpr heq.symm)
        exact fun hc => (List.mem_cons.mp hc).elim hne (ih List.mem_cons_self)
      · exact ih (List.mem_cons_of_mem _ h)

/-- A separator whose first character it has only once does not start before what may be
the next separator. -/
theorem not_prefix_of_suffix {m : α} {r start tail u : List α} (hm : m ∉ r) (hstart : ¬ m :: r <:+: start)
    (htail : ∀ c ∈ tail.head?, c = m) (hu : u <:+ start) (hne : u ≠ []) : ¬ m :: r <+: u ++ tail := by
  rintro ⟨w, hw⟩
  rcases List.append_eq_append_iff.mp hw with ⟨v, hv, -⟩ | ⟨v, hv, ht⟩
  · exact hstart ((List.prefix_append (m :: r) v).isInfix.trans (hv ▸ hu.isInfix))
  · obtain ⟨c, rest, rfl⟩ := List.exists_cons_of_ne_nil hne
    cases v with
    | nil =>
      rw [List.append_nil] at hv
      exact hstart (hv ▸ hu.isInfix)
    | cons d v =>
      have hd : d = m := htail d (by rw [ht]; rfl)
      refine hm ?_
      rw [(List.cons.inj hv).2, hd]
      exact List.mem_append_right rest List.mem_cons_self

/-! ### Blanks -/

section Strip
variable (blank : α → Bool)

/-- The text without the blanks at both ends. -/
def strip (text : List α) : List α := (text.dropWhile blank).rdropWhile blank

variable {blank} {text spaces : List α}

theorem strip_infix : strip blank text <:+: text :=
  (List.rdropWhile_prefix blank _).isInfix.trans (List.dropWhile_suffix blank).isInfix

/-- Only blanks are stripped to nothing. -/
theorem strip_eq_nil_iff : strip blank text = [] ↔ ∀ c ∈ text, blank c = true := by
  rw [strip, List.rdropWhile_eq_nil_iff]
  refine ⟨fun h => List.dropWhile_eq_nil_iff.mp ?_, fun h => ?_⟩
  · exact (List.dropWhile_idempotent blank text).symm.trans (List.dropWhile_eq_nil_iff.mpr h)
  · rw [List.dropWhile_eq_nil_iff.mpr h]
    exact nofun

/-- What is stripped has no blank at an end. -/
theorem strip_eq_self_iff : strip blank text = text ↔
    text.dropWhile blank = text ∧ text.rdropWhile blank = text := by
  constructor
  · intro h
    have hsuffix : text.dropWhile blank <:+ text := List.dropWhile_suffix blank
    have hle := (List.rdropWhile_prefix blank (text.dropWhile blank)).length_le
    rw [strip] at h
    rw [h] at hle
    have hdrop := hsuffix.eq_of_length_le hle
    rw [hdrop] at h
    exact ⟨hdrop, h⟩
  · rintro ⟨hdrop, hrdrop⟩
    rw [strip, hdrop, hrdrop]

theorem dropWhile_start {start : List α} (h : text.dropWhile blank = text) (hstarts : start <+: text) :
    start.dropWhile blank = start := by
  rw [List.dropWhile_eq_self_iff] at h ⊢
  intro hpos
  rw [hstarts.getElem hpos]
  exact h (Nat.lt_of_lt_of_le hpos hstarts.length_le)

theorem strip_strip : strip blank (strip blank text) = strip blank text := by
  have hdrop := List.dropWhile_idempotent blank text
  refine strip_eq_self_iff.mpr ⟨dropWhile_start hdrop (List.rdropWhile_prefix blank _), ?_⟩
  exact List.rdropWhile_idempotent blank _

/-- Blanks behind a stripped text are taken off again. -/
theorem strip_append (h : strip blank text = text) (hne : text ≠ []) (hspaces : ∀ c ∈ spaces, blank c = true) :
    strip blank (text ++ spaces) = text := by
  obtain ⟨hdrop, hrdrop⟩ := strip_eq_self_iff.mp h
  have hfront : (text ++ spaces).dropWhile blank = text ++ spaces := by
    rw [List.dropWhile_append, hdrop, if_neg (by simpa using hne)]
  have hback : ∀ c ∈ spaces.reverse, blank c = true := fun c hc => hspaces c (List.mem_reverse.mp hc)
  rw [strip, hfront, List.rdropWhile, List.reverse_append, List.dropWhile_append_of_pos hback]
  exact hrdrop

end Strip

end Library.Split
