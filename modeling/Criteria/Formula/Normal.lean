import Criteria.Formula

/-!
# `Criteria.Formula.Normal` — flattening nested groups

Conjunction and disjunction are associative, and a group without members restricts nothing. So a
group inside a group of the same connective is replaced by its members, a group without members is
dropped, and a group with one member is replaced by that member.

## Contents
- **Steps.** `spliced` is what a normalized member contributes to its group; `gathered` closes the
  group again.
- **Normal form.** `Formula.normalize`.
- **Conjunctions.** `Formula.conjunction` is the normal form of several formulas that must all hold;
  it is absent when they have no predicate.
-/

namespace Criteria.Formula

/-- What a normalized member contributes to a group. -/
def spliced (connective : Connective) : Formula → List Formula
  | .leaf p => [.leaf p]
  | .group _ [] => []
  | .group own members => if own = connective then members else [.group own members]

/-- The group of normalized members; a single member stands alone. -/
def gathered (connective : Connective) : List Formula → Formula
  | [f] => f
  | members => .group connective members

mutual

/-- The normal form of a formula. -/
def normalize : Formula → Formula
  | .leaf p => .leaf p
  | .group connective members => gathered connective (normalizeIn connective members)

/-- The members of a group, each normalized and spliced in. -/
def normalizeIn (connective : Connective) : List Formula → List Formula
  | [] => []
  | f :: fs => spliced connective (normalize f) ++ normalizeIn connective fs

end

/-- The normal form of the conjunction of formulas, unless it is an empty group. -/
def conjunction (fs : List Formula) : Option Formula :=
  let combined := normalize (.group .and fs)
  if combined.isEmptyGroup then none else some combined

end Criteria.Formula
