/-! RFC 31 constraints on nodes.

A constraint is an operator with its values: the names of properties, hostlists or sets of
ranks, or other constraints. What an alternative of no constraints at all matches is left open. -/
namespace Library.Rfc31

inductive Constraint
  | properties (names : List String)
  | hostlist (hosts : List String)
  | ranks (idsets : List String)
  | and (values : List Constraint)
  | or (values : List Constraint)
  | not (values : List Constraint)

/-- A node, by its properties and by the hostlists and the sets of ranks that it is in. -/
structure Node where
  properties : String → Bool
  hostlist : List String → Bool := fun _ => false
  ranks : List String → Bool := fun _ => false

/-- The node has a property, or lacks one that is asked for with a `^`. -/
def Node.satisfies (node : Node) (name : String) : Bool :=
  match name.toList with
  | '^' :: absent => !node.properties (String.ofList absent)
  | _ => node.properties name

mutual

/-- The constraint matches the node; `emptyOr` is what an empty `or` says. -/
def Constraint.matches (emptyOr : Bool) (node : Node) : Constraint → Bool
  | .properties names => names.all node.satisfies
  | .hostlist hosts => node.hostlist hosts
  | .ranks idsets => node.ranks idsets
  | .and values => matchesAll emptyOr node values
  | .or [] => emptyOr
  | .or (first :: rest) => first.matches emptyOr node || matchesAny emptyOr node rest
  | .not values => !matchesAll emptyOr node values

def matchesAll (emptyOr : Bool) (node : Node) : List Constraint → Bool
  | [] => true
  | first :: rest => first.matches emptyOr node && matchesAll emptyOr node rest

def matchesAny (emptyOr : Bool) (node : Node) : List Constraint → Bool
  | [] => false
  | first :: rest => first.matches emptyOr node || matchesAny emptyOr node rest

end

/-- Two constraints match the same nodes. -/
def Equivalent (emptyOr : Bool) (c d : Constraint) : Prop :=
  ∀ node : Node, c.matches emptyOr node = d.matches emptyOr node

variable {emptyOr : Bool} {node : Node}

theorem matches_and (c d : Constraint) :
    (Constraint.and [c, d]).matches emptyOr node = (c.matches emptyOr node && d.matches emptyOr node) := by
  rw [Constraint.matches, matchesAll, matchesAll, matchesAll, Bool.and_true]

theorem matches_or (c d : Constraint) :
    (Constraint.or [c, d]).matches emptyOr node = (c.matches emptyOr node || d.matches emptyOr node) := by
  rw [Constraint.matches, matchesAny, matchesAny, Bool.or_false]

theorem matches_not (c : Constraint) :
    (Constraint.not [c]).matches emptyOr node = !c.matches emptyOr node := by
  rw [Constraint.matches, matchesAll, matchesAll, Bool.and_true]

theorem matches_property (name : String) :
    (Constraint.properties [name]).matches emptyOr node = node.satisfies name := by
  rw [Constraint.matches, List.all_cons, List.all_nil, Bool.and_true]

end Library.Rfc31
