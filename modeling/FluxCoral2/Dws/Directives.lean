import FluxCoral2.Library.Split

/-! The directives of a job (`expand_str_directive`, `parse_dw_directives`).

A string may hold several directives: it is split at "#DW ", and the pieces that are not blank
are directives without their blanks. `parse_inverts_join`: the directives of a string that was
put together from directives and blanks are these, and what is parsed is parsed to itself. -/
namespace FluxCoral2.Directives
open Library

abbrev Text := List Char

/-- What `str.strip` takes off. -/
def whitespace : List Nat :=
  [0x09, 0x0a, 0x0b, 0x0c, 0x0d, 0x1c, 0x1d, 0x1e, 0x1f, 0x20, 0x85, 0xa0, 0x1680, 0x2000, 0x2001, 0x2002, 0x2003,
    0x2004, 0x2005, 0x2006, 0x2007, 0x2008, 0x2009, 0x200a, 0x2028, 0x2029, 0x202f, 0x205f, 0x3000]

def isSpace (c : Char) : Bool := c.toNat ∈ whitespace

def strip (text : Text) : Text := Split.strip isSpace text

/-- The text `#DW `. -/
def dw : Text := ['#', 'D', 'W', ' ']

/-- A preset of the configuration. -/
inductive Preset
  | list (directives : List Text)
  | str (directive : Text)
  | other

inductive Error | typeError | userError

/-- What a job may give as its directives. -/
inductive DwDirectives
  | str (directive : Text)
  | list (directives : List Text)
  | other

/-- The directives of a string. -/
def singletons (directive : Text) : List Text :=
  ((Split.split dw directive).filter fun piece => strip piece ≠ []).map fun piece => dw ++ strip piece

section Parsing
variable (presets : Text → Option Preset)

def expandStrDirective (directive : Text) : Except Error (List Text) :=
  match presets (strip directive) with
  | some (.list preset) => .ok preset
  | some .other => .error .typeError
  | some (.str preset) => .ok (singletons preset)
  | none => .ok (singletons directive)

/-- The loop over a list of directives. -/
def expandAll : List Text → Except Error (List Text)
  | [] => .ok []
  | directive :: rest => do
    let expanded ← expandStrDirective presets directive
    let expandedDirectives ← expandAll rest
    pure (expanded ++ expandedDirectives)

def parseDwDirectives : DwDirectives → Except Error (List Text)
  | .str directive => expandStrDirective presets directive
  | .list directives => expandAll presets directives
  | .other => .error .userError

/-- The directives are a string or a list, and none of the strings is that of a preset. -/
def Unmatched : DwDirectives → Prop
  | .str directive => presets (strip directive) = none
  | .list directives => ∀ directive ∈ directives, presets (strip directive) = none
  | .other => False

end Parsing

/-! ### Texts that are put together -/

/-- The body of a directive. -/
structure Body where
  text : Text
  trimmed : strip text = text
  nonempty : text ≠ []
  single : ¬ dw <:+: text ++ [' ']

structure Blank where
  text : Text
  blank : ∀ c ∈ text, isSpace c = true

def Body.directive (body : Body) : Text := dw ++ body.text

/-- Directives with the blanks before them and behind each of them. -/
structure Composite where
  before : Blank
  parts : List (Body × Blank)

/-- The directives, each with the blank behind it. -/
def joined (parts : List (Body × Blank)) : Text :=
  parts.flatMap fun part => part.1.directive ++ part.2.text

def Composite.text (c : Composite) : Text := c.before.text ++ joined c.parts

def Composite.directives (c : Composite) : List Text := c.parts.map fun part => part.1.directive

/-! ### Where the separator is -/

theorem hash_not_space : isSpace '#' = false := by decide

/-- No separator starts before what may be the next one. -/
theorem not_dw_of_suffix {start tail u : Text} (hstart : ¬ dw <:+: start) (htail : ∀ c ∈ tail.head?, c = '#')
    (hu : u <:+ start) (hne : u ≠ []) : ¬ dw <+: u ++ tail :=
  Split.not_prefix_of_suffix (by decide) hstart htail hu hne

theorem not_dw_blank (blank : Blank) : ¬ dw <:+: blank.text := by
  intro h
  have hhash : '#' ∈ blank.text := h.subset (by decide)
  exact absurd (blank.blank _ hhash) (by rw [hash_not_space]; decide)

/-- A blank behind a body makes no separator with it. -/
theorem not_dw_append (body : Body) (blank : Blank) : ¬ dw <:+: body.text ++ blank.text := by
  rintro ⟨x, y, h⟩
  have hword : (x ++ ['#', 'D', 'W']) ++ ' ' :: y = body.text ++ blank.text := by
    rw [← h]
    simp [dw]
  have hsingle : body.text ≠ x ++ ['#', 'D', 'W'] := by
    intro hbody
    refine body.single ⟨x, [], ?_⟩
    rw [hbody]
    simp [dw]
  rcases List.append_eq_append_iff.mp hword with ⟨v, hbody, hv⟩ | ⟨v, hx, hblank⟩
  · cases v with
    | nil => exact hsingle (by rw [hbody, List.append_nil])
    | cons c v =>
      refine body.single ⟨x, v ++ [' '], ?_⟩
      rw [hbody, ← (List.cons.inj hv).1]
      simp [dw]
  · rcases List.eq_nil_or_concat v with rfl | ⟨v, c, rfl⟩
    · exact hsingle (by rw [hx, List.append_nil])
    · -- the word ends in the blank
      have hends : (x ++ ['#', 'D']) ++ ['W'] = (body.text ++ v) ++ [c] := by simpa using hx
      have hlast : ['W'] = [c] := List.append_inj_right' hends rfl
      have hmem : 'W' ∈ blank.text := by
        rw [hblank, (List.cons.inj hlast).1]
        simp
      exact absurd (blank.blank _ hmem) (by decide)

theorem joined_head (parts : List (Body × Blank)) : ∀ c ∈ (joined parts).head?, c = '#' := by
  cases parts with
  | nil => exact nofun
  | cons part parts =>
    intro c hc
    exact (Option.mem_some_iff.mp hc).symm

theorem split_joined (parts : List (Body × Blank)) :
    Split.split dw (joined parts) = [] :: parts.map fun part => part.1.text ++ part.2.text := by
  induction parts with
  | nil => rfl
  | cons part parts ih =>
    obtain ⟨piece, rest, hrest, hsplit⟩ := Split.split_append (joined parts) fun u =>
      not_dw_of_suffix (not_dw_append part.1 part.2) (joined_head parts)
    rw [ih] at hrest
    obtain ⟨rfl, rfl⟩ := List.cons.inj hrest
    have htext : joined (part :: parts) = dw ++ (part.1.text ++ part.2.text ++ joined parts) := by
      simp [joined, Body.directive]
    rw [htext, Split.split_sep_append (by decide), hsplit, List.append_nil]
    rfl

theorem split_composite (c : Composite) :
    Split.split dw c.text = c.before.text :: c.parts.map fun part => part.1.text ++ part.2.text := by
  obtain ⟨piece, rest, hrest, hsplit⟩ := Split.split_append (joined c.parts) fun u =>
    not_dw_of_suffix (not_dw_blank c.before) (joined_head c.parts)
  rw [split_joined] at hrest
  obtain ⟨rfl, rfl⟩ := List.cons.inj hrest
  rw [Composite.text, hsplit, List.append_nil]

theorem strip_blank (blank : Blank) : strip blank.text = [] := Split.strip_eq_nil_iff.mpr blank.blank

theorem strip_body (body : Body) (blank : Blank) : strip (body.text ++ blank.text) = body.text :=
  Split.strip_append body.trimmed body.nonempty blank.blank

/-- The directives of a text that was put together. -/
theorem singletons_composite (c : Composite) : singletons c.text = c.directives := by
  have hbodies (parts : List (Body × Blank)) :
      ((parts.map fun part => part.1.text ++ part.2.text).filter fun piece => strip piece ≠ []).map
        (fun piece => dw ++ strip piece) = parts.map fun part => part.1.directive := by
    induction parts with
    | nil => rfl
    | cons part parts ih =>
      have hstrip := strip_body part.1 part.2
      rw [List.map_cons, List.filter_cons_of_pos (by simpa [hstrip] using part.1.nonempty), List.map_cons, ih, hstrip]
      rfl
  rw [singletons, split_composite, List.filter_cons_of_neg (by simp [strip_blank])]
  exact hbodies c.parts

/-! ### What is parsed -/

/-- A single directive. -/
def IsDirective (directive : Text) : Prop :=
  ∃ body, directive = dw ++ body ∧ strip body = body ∧ body ≠ [] ∧ ¬ dw <:+: body

theorem isDirective_of_mem {text directive : Text} (h : directive ∈ singletons text) : IsDirective directive := by
  obtain ⟨piece, hpiece, rfl⟩ := List.mem_map.mp h
  obtain ⟨hmem, hne⟩ := List.mem_filter.mp hpiece
  refine ⟨strip piece, rfl, Split.strip_strip, by simpa using hne, fun hin => ?_⟩
  exact Split.not_infix_of_mem_pieces (by decide) text 0 piece hmem (hin.trans Split.strip_infix)

theorem split_body {body : Text} (h : ¬ dw <:+: body) : Split.split dw body = [body] := by
  obtain ⟨piece, rest, hnil, hsplit⟩ := Split.split_append [] fun u => not_dw_of_suffix h nofun
  obtain ⟨rfl, rfl⟩ := List.cons.inj hnil
  rwa [List.append_nil] at hsplit

theorem singletons_of_isDirective {directive : Text} (h : IsDirective directive) :
    singletons directive = [directive] := by
  obtain ⟨body, rfl, htrimmed, hne, hsingle⟩ := h
  have hsplit : Split.split dw (dw ++ body) = [[], body] := by
    rw [Split.split_sep_append (by decide), split_body hsingle]
  have hempty : strip [] = [] := rfl
  rw [singletons, hsplit, List.filter_cons_of_neg (by simp [hempty]),
    List.filter_cons_of_pos (by simpa [htrimmed] using hne)]
  simp [htrimmed]

section Results
variable {presets : Text → Option Preset}

theorem expandStrDirective_unmatched {directive : Text} (h : presets (strip directive) = none) :
    expandStrDirective presets directive = .ok (singletons directive) := by
  rw [expandStrDirective, h]

theorem expandAll_unmatched {directives : List Text} (h : ∀ directive ∈ directives, presets (strip directive) = none) :
    expandAll presets directives = .ok (directives.flatMap singletons) := by
  induction directives with
  | nil => rfl
  | cons directive rest ih =>
    obtain ⟨hfirst, hrest⟩ := List.forall_mem_cons.mp h
    rw [expandAll, expandStrDirective_unmatched hfirst, ih hrest]
    rfl

theorem flatMap_singletons {directives : List Text} (h : ∀ directive ∈ directives, IsDirective directive) :
    directives.flatMap singletons = directives := by
  induction directives with
  | nil => rfl
  | cons directive rest ih =>
    obtain ⟨hfirst, hrest⟩ := List.forall_mem_cons.mp h
    rw [List.flatMap_cons, singletons_of_isDirective hfirst, ih hrest]
    rfl

theorem parse_unmatched {directives : DwDirectives} (h : Unmatched presets directives) :
    ∃ result, parseDwDirectives presets directives = .ok result ∧ ∀ directive ∈ result, IsDirective directive := by
  cases directives with
  | str directive => exact ⟨_, expandStrDirective_unmatched h, fun _ => isDirective_of_mem⟩
  | list directives =>
    refine ⟨_, expandAll_unmatched h, fun directive hmem => ?_⟩
    obtain ⟨text, -, hmem⟩ := List.mem_flatMap.mp hmem
    exact isDirective_of_mem hmem
  | other => cases h

/-- **Parsing inverts joining**, where no preset matches: of a composite string, of a list of
them, and of what has been parsed. -/
theorem parse_inverts_join (presets : Text → Option Preset) :
    (∀ c : Composite, Unmatched presets (.str c.text) → parseDwDirectives presets (.str c.text) = .ok c.directives) ∧
    (∀ cs : List Composite, Unmatched presets (.list (cs.map Composite.text)) →
      parseDwDirectives presets (.list (cs.map Composite.text)) = .ok (cs.flatMap Composite.directives)) ∧
    ∀ directives, Unmatched presets directives → ∃ result, parseDwDirectives presets directives = .ok result ∧
      (∀ directive ∈ result, IsDirective directive) ∧
      (Unmatched presets (.list result) → parseDwDirectives presets (.list result) = .ok result) := by
  refine ⟨fun c h => ?_, fun cs h => ?_, fun directives h => ?_⟩
  · exact (expandStrDirective_unmatched h).trans (congrArg _ (singletons_composite c))
  · refine (expandAll_unmatched h).trans (congrArg _ ?_)
    rw [List.flatMap_map]
    exact congrArg cs.flatMap (funext singletons_composite)
  · obtain ⟨result, hresult, hsingle⟩ := parse_unmatched h
    exact ⟨result, hresult, hsingle, fun h => (expandAll_unmatched h).trans (congrArg _ (flatMap_singletons hsingle))⟩

end Results

def fooBar : Composite where
  before := ⟨[], nofun⟩
  parts := [
    (⟨['f', 'o', 'o'], by decide, by decide, by decide⟩,
      ⟨[' ', '\t'], List.forall_mem_cons.mpr ⟨rfl, List.forall_mem_singleton.mpr rfl⟩⟩),
    (⟨['b', 'a', 'r'], by decide, by decide, by decide⟩, ⟨[], nofun⟩)]

theorem fooBar_parsed : parseDwDirectives (fun _ => none) (.str fooBar.text) =
    .ok [['#', 'D', 'W', ' ', 'f', 'o', 'o'], ['#', 'D', 'W', ' ', 'b', 'a', 'r']] :=
  (parse_inverts_join fun _ => none).1 fooBar rfl

end FluxCoral2.Directives
