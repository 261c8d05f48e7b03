import Criteria.Condition
import Criteria.Formula

/-!
# `Criteria.Proofs.Condition` — conditions as trees of atoms

A condition is a tree whose inner nodes are groups. This module lists the nodes of a tree, says what each
of its leaves means on its own, and gives the induction that later modules use instead of a case split over
all eight constructors.

## Contents
- **Nodes.** `nodes` and `nodesIn` list a condition, or several, in preorder.
- **Atoms.** `Atom` is the plain reading of a condition that is no group: a property, a test and its
  argument. `atom?` reads one node, `atomsIn` all nodes below a list, in document order.
- **Values.** `valuesIn` lists the values that have to be bound, one for each atom with a parameter.
- **Induction.** `tree_induction`, with one case for atoms and one for groups.
-/

namespace Criteria

/-! ## Atoms -/

/-- What a property is tested against, once a parameter stands for its value. -/
inductive Argument where
  /-- The value of a parameter; none when the parameter is unbound. -/
  | parameter (value : Option Json)
  | literals (values : List Json)
  | absent
  deriving DecidableEq, Repr

/-- The value behind a parameter. -/
def Argument.value? : Argument → Option Json
  | .parameter value => value
  | _ => none

/-- A test of one property, as a condition words it: the property is not resolved yet. -/
structure Atom where
  property : String
  test : Test
  argument : Argument
  deriving DecidableEq, Repr

namespace Condition

/-- The plain reading of a node; a group says nothing by itself. -/
def atom? : Condition → Option Atom
  | .bare property .null => some ⟨property, .isNull, .absent⟩
  | .bare property (.array items) => some ⟨property, .inList, .parameter (some (.array items))⟩
  | .bare property scalar => some ⟨property, .compare .equal, .parameter (some scalar)⟩
  | .group _ _ _ => none
  | .like property pattern => some ⟨property, .like, .parameter (some pattern)⟩
  | .inList property values => some ⟨property, .inList, .literals values⟩
  | .notInList property values => some ⟨property, .notInList, .literals values⟩
  | .isNull property => some ⟨property, .isNull, .absent⟩
  | .isNotNull property => some ⟨property, .isNotNull, .absent⟩
  | .compare _ comparison property value =>
    some ⟨property, .compare comparison, .parameter (some value)⟩

/-! ## Nodes -/

mutual

/-- A condition and everything below it, in preorder. -/
def nodes : Condition → List Condition
  | .group clause connective members => .group clause connective members :: nodesIn members
  | c => [c]

/-- The nodes of several conditions, one condition after the other. -/
def nodesIn : List Condition → List Condition
  | [] => []
  | c :: cs => nodes c ++ nodesIn cs

end

/-- The atoms of a condition from left to right. -/
def atoms (c : Condition) : List Atom := c.nodes.filterMap atom?

/-- The atoms of several conditions from left to right. -/
def atomsIn (cs : List Condition) : List Atom := (nodesIn cs).filterMap atom?

/-- The values to bind for a condition, in document order. -/
def values (c : Condition) : List Json := c.atoms.filterMap (·.argument.value?)

/-- The values to bind for several conditions, in document order. -/
def valuesIn (cs : List Condition) : List Json := (atomsIn cs).filterMap (·.argument.value?)

/-- A node that is no group has no nodes below it. -/
theorem nodes_of_atom {c : Condition} {a : Atom} (h : c.atom? = some a) : c.nodes = [c] := by
  cases c with
  | group clause connective members => exact absurd h (by simp [atom?])
  | _ => rfl

theorem mem_nodesIn {n : Condition} {cs : List Condition} : n ∈ nodesIn cs ↔ ∃ c ∈ cs, n ∈ c.nodes := by
  induction cs with
  | nil => simp [nodesIn]
  | cons c cs ih => simp [nodesIn, ih]

theorem nodesIn_append (cs ds : List Condition) : nodesIn (cs ++ ds) = nodesIn cs ++ nodesIn ds := by
  induction cs with
  | nil => rfl
  | cons c cs ih => rw [List.cons_append, nodesIn, nodesIn, ih, List.append_assoc]

theorem atoms_of_atom {c : Condition} {a : Atom} (h : c.atom? = some a) : c.atoms = [a] := by
  simp [atoms, nodes_of_atom h, h]

theorem atoms_group (clause : Clause) (connective : Connective) (members : List Condition) :
    (group clause connective members).atoms = atomsIn members :=
  List.filterMap_cons_none rfl

theorem atomsIn_cons (c : Condition) (cs : List Condition) : atomsIn (c :: cs) = c.atoms ++ atomsIn cs := by
  simp [atomsIn, nodesIn, atoms]

theorem values_of_atom {c : Condition} {a : Atom} (h : c.atom? = some a) :
    c.values = a.argument.value?.toList := by
  rw [values, atoms_of_atom h]
  cases ha : a.argument.value? <;> simp [ha]

theorem values_group (clause : Clause) (connective : Connective) (members : List Condition) :
    (group clause connective members).values = valuesIn members := by
  rw [values, atoms_group]; rfl

theorem valuesIn_cons (c : Condition) (cs : List Condition) :
    valuesIn (c :: cs) = c.values ++ valuesIn cs := by
  rw [valuesIn, atomsIn_cons, List.filterMap_append]; rfl

theorem atomsIn_append (cs ds : List Condition) : atomsIn (cs ++ ds) = atomsIn cs ++ atomsIn ds := by
  rw [atomsIn, nodesIn_append, List.filterMap_append]
  rfl

theorem valuesIn_append (cs ds : List Condition) : valuesIn (cs ++ ds) = valuesIn cs ++ valuesIn ds := by
  rw [valuesIn, atomsIn_append, List.filterMap_append]
  rfl

/-! ## Induction -/

section Induction

variable {motive : Condition → Prop} {motiveIn : List Condition → Prop}

mutual

theorem tree_induction_node (atom : ∀ c a, c.atom? = some a → motive c)
    (group : ∀ clause connective members, motiveIn members → motive (.group clause connective members))
    (nil : motiveIn []) (cons : ∀ c cs, motive c → motiveIn cs → motiveIn (c :: cs)) : ∀ c, motive c
  | .bare property value => by
    cases value <;> exact atom _ _ rfl
  | .group clause connective members =>
    group clause connective members (tree_induction_list atom group nil cons members)
  | .like _ _ => atom _ _ rfl
  | .inList _ _ => atom _ _ rfl
  | .notInList _ _ => atom _ _ rfl
  | .isNull _ => atom _ _ rfl
  | .isNotNull _ => atom _ _ rfl
  | .compare _ _ _ _ => atom _ _ rfl

theorem tree_induction_list (atom : ∀ c a, c.atom? = some a → motive c)
    (group : ∀ clause connective members, motiveIn members → motive (.group clause connective members))
    (nil : motiveIn []) (cons : ∀ c cs, motive c → motiveIn cs → motiveIn (c :: cs)) :
    ∀ cs, motiveIn cs
  | [] => nil
  | c :: cs =>
    cons c cs (tree_induction_node atom group nil cons c) (tree_induction_list atom group nil cons cs)

end

/-- **Induction over trees of conditions.** A fact about single conditions and one about lists of them are
    proved together: for an atom, for a group from its members, and along a list. -/
theorem tree_induction (atom : ∀ c a, c.atom? = some a → motive c)
    (group : ∀ clause connective members, motiveIn members → motive (.group clause connective members))
    (nil : motiveIn []) (cons : ∀ c cs, motive c → motiveIn cs → motiveIn (c :: cs)) :
    (∀ c, motive c) ∧ ∀ cs, motiveIn cs :=
  ⟨tree_induction_node atom group nil cons, tree_induction_list atom group nil cons⟩

end Induction

end Condition

/-- Conditions are routed one by one. -/
theorem routed_append (clause : Clause) (cs ds : List Condition) :
    routed clause (cs ++ ds) = routed clause cs ++ routed clause ds := List.filter_append ..

end Criteria
