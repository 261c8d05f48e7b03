import Criteria.Compilation
import Criteria.Proofs.Condition
import Criteria.Proofs.Naming
import Criteria.Proofs.Normal

/-!
# `Criteria.Proofs.Compilation` — what compilation makes of conditions

Compilation threads one binder through a tree of conditions. Everything it does is fixed by the atoms of the
tree: which predicate each of them becomes, which values are bound, and in which order.

## Contents
- **Operands.** `Argument.operand` is how an argument is written into a query, `Bindings.argument` what it
  stands for there; `Renders` relates an atom to a predicate.
- **One condition.** `compile_of_atom`, the only place where compilation is opened.
- **Trees.** `compile_binder`, `compile_renders` and `compile_parameters`: binder, leaves and parameters of
  a compiled tree, in terms of the values and atoms of the conditions.
- **Runs.** `runOn_bindAll`, `runOn_compileClause` and `runOn_compileCondition` say what a compilation gives
  and how it leaves the supply.
- **Faithfulness.** `compileClause_exact`: nothing is lost, duplicated or bound to another value.
-/

namespace Criteria

open Condition

/-! ## Operands -/

/-- How an argument is written into a query, when `supply` gives the name of its parameter. -/
def Argument.operand (supply : NameSupply) : Argument → Operand
  | .parameter _ => .parameter supply.name
  | .literals values => .literals values
  | .absent => .absent

/-- What an operand stands for in a table of parameters. -/
def Bindings.argument (t : Bindings) : Operand → Argument
  | .parameter name => .parameter (t.get? name)
  | .literals values => .literals values
  | .absent => .absent

/-- A predicate of a query says the same as an atom: its property is the resolved property of the atom, its
    test is the test of the atom, and its operand stands for the argument of the atom. -/
structure Renders (s : Scope) (t : Bindings) (a : Atom) (p : Predicate) : Prop where
  property : p.property = s.resolve a.property
  test : p.test = a.test
  argument : t.argument p.operand = a.argument

namespace Scope

/-! ## One condition -/

/-- A condition that is no group becomes one predicate and binds the value of its atom, if there is one. -/
theorem compile_of_atom (s : Scope) {c : Condition} {a : Atom} (h : c.atom? = some a) (b : Binder) :
    s.compile c b =
      (.leaf ⟨s.resolve a.property, a.test, a.argument.operand b.supply⟩, b.bindEach c.values) := by
  rw [values_of_atom h]
  cases c with
  | bare property value =>
    -- only null, arrays and the rest are told apart
    cases value <;> (injection h with h; subst h; rfl)
  | group clause connective members => exact absurd h (by simp [atom?])
  | _ => injection h with h; subst h; rfl

/-- A table that binds the value of an atom under the next name gives its operand the meaning of the atom. -/
theorem renders_of_atom (s : Scope) {c : Condition} {a : Atom} (h : c.atom? = some a) {t : Bindings}
    {supply : NameSupply} (ht : t.Binds (supply.label c.values)) :
    Renders s t a ⟨s.resolve a.property, a.test, a.argument.operand supply⟩ := by
  refine ⟨rfl, rfl, ?_⟩
  rw [values_of_atom h] at ht
  cases c with
  | bare property value =>
    cases value <;> (injection h with h; subst h)
    · rfl
    all_goals exact congrArg Argument.parameter (ht _ List.mem_cons_self)
  | group clause connective members => exact absurd h (by simp [atom?])
  | like property pattern =>
    injection h with h; subst h
    exact congrArg Argument.parameter (ht _ List.mem_cons_self)
  | compare clause comparison property value =>
    injection h with h; subst h
    exact congrArg Argument.parameter (ht _ List.mem_cons_self)
  | _ => injection h with h; subst h; rfl

/-! ## Trees -/

theorem compile_binder_and_list (s : Scope) :
    (∀ c, ∀ b, (s.compile c b).2 = b.bindEach c.values) ∧
      ∀ cs, ∀ b, (s.compileList cs b).2 = b.bindEach (valuesIn cs) := by
  refine tree_induction ?atom ?group ?nil ?cons
  case atom => intro c a h b; rw [s.compile_of_atom h]
  case group =>
    intro clause connective members ih b
    rw [values_group, ← ih b]
    rfl
  case nil => intro b; rfl
  case cons =>
    intro c cs ihc ihcs b
    rw [valuesIn_cons, Binder.bindEach_append, ← ihc b, ← ihcs]
    rfl

/-- Compiling conditions binds exactly their values, in document order. -/
theorem compileList_binder (s : Scope) (cs : List Condition) (b : Binder) :
    (s.compileList cs b).2 = b.bindEach (valuesIn cs) := s.compile_binder_and_list.2 cs b

/-- After a condition, the supply has moved by as many names as the condition has values. -/
theorem compile_supply (s : Scope) (c : Condition) (b : Binder) :
    (s.compile c b).2.supply = b.supply.skip c.values.length := by
  rw [s.compile_binder_and_list.1, Binder.bindEach_supply]

/-- Labels of a list of conditions are those of its head, and those of its tail on the supply that
    compiling the head leaves. -/
theorem label_cons (s : Scope) (c : Condition) (cs : List Condition) (b : Binder) :
    b.supply.label (valuesIn (c :: cs)) =
      b.supply.label c.values ++ (s.compile c b).2.supply.label (valuesIn cs) := by
  rw [valuesIn_cons, NameSupply.label_append, compile_supply]

/-- A list is compiled piece by piece, with one binder running through. -/
theorem compileList_append (s : Scope) (cs ds : List Condition) (b : Binder) :
    (s.compileList (cs ++ ds) b).1 = (s.compileList cs b).1 ++ (s.compileList ds (s.compileList cs b).2).1 := by
  induction cs generalizing b with
  | nil => rfl
  | cons c cs ih => exact congrArg ((s.compile c b).1 :: ·) (ih (s.compile c b).2)

theorem compile_renders_and_list (s : Scope) (t : Bindings) :
    (∀ c, ∀ b, t.Binds (b.supply.label c.values) →
        List.Forall₂ (Renders s t) c.atoms (s.compile c b).1.leaves) ∧
      ∀ cs, ∀ b, t.Binds (b.supply.label (valuesIn cs)) →
        List.Forall₂ (Renders s t) (atomsIn cs) (Formula.leavesIn (s.compileList cs b).1) := by
  refine tree_induction ?atom ?group ?nil ?cons
  case atom =>
    intro c a h b ht
    rw [s.compile_of_atom h, atoms_of_atom h]
    exact .cons (s.renders_of_atom h ht) .nil
  case group =>
    intro clause connective members ih b ht
    rw [values_group] at ht
    rw [atoms_group]
    exact ih b ht
  case nil => intro b _; exact .nil
  case cons =>
    intro c cs ihc ihcs b ht
    rw [s.label_cons, Bindings.binds_append] at ht
    rw [atomsIn_cons]
    exact List.rel_append (ihc b ht.1) (ihcs _ ht.2)

/-- **Atoms and leaves correspond, one to one and in order.** -/
theorem compileList_renders (s : Scope) {t : Bindings} (cs : List Condition) {b : Binder}
    (ht : t.Binds (b.supply.label (valuesIn cs))) :
    List.Forall₂ (Renders s t) (atomsIn cs) (Formula.leavesIn (s.compileList cs b).1) :=
  (s.compile_renders_and_list t).2 cs b ht

theorem compile_parameters_and_list (s : Scope) :
    (∀ c, ∀ b, (s.compile c b).1.leaves.filterMap (·.operand.parameter?) =
        (b.supply.label c.values).map Prod.fst) ∧
      ∀ cs, ∀ b, (Formula.leavesIn (s.compileList cs b).1).filterMap (·.operand.parameter?) =
        (b.supply.label (valuesIn cs)).map Prod.fst := by
  refine tree_induction ?atom ?group ?nil ?cons
  case atom =>
    intro c a h b
    rw [s.compile_of_atom h, values_of_atom h]
    -- an atom never has a parameter without a value
    cases c with
    | bare property value => cases value <;> (injection h with h; subst h; rfl)
    | group clause connective members => exact absurd h (by simp [atom?])
    | _ => injection h with h; subst h; rfl
  case group =>
    intro clause connective members ih b
    rw [values_group]
    exact ih b
  case nil => intro b; rfl
  case cons =>
    intro c cs ihc ihcs b
    rw [s.label_cons, List.map_append, ← ihc b, ← ihcs, ← List.filterMap_append]
    rfl

/-- The parameters of compiled conditions are the names of their values, in order. -/
theorem compileList_parameters (s : Scope) (cs : List Condition) (b : Binder) :
    (Formula.leavesIn (s.compileList cs b).1).filterMap (·.operand.parameter?) =
      b.supply.names (valuesIn cs).length := by
  rw [s.compile_parameters_and_list.2, NameSupply.label_keys]

/-! ## Runs -/

/-- A check fails with its flaw and draws no name either way. -/
theorem runOn_rejectFlaw (flaw : Option SpecificationFault) (supply : NameSupply) :
    (rejectFlaw flaw).runOn supply =
      (flaw.elim (.ok ()) fun cause => .error (.specification cause), supply) := by
  cases flaw <;> rfl

/-- Binding all values of some conditions cannot fail; it draws one name for each value. -/
theorem runOn_bindAll (s : Scope) (cs : List Condition) (supply : NameSupply) :
    (s.bindAll cs).runOn supply =
      (.ok ((s.compileList cs (Binder.start supply)).1,
        ((Binder.start supply).bindEach (valuesIn cs)).bindings), supply.skip (valuesIn cs).length) := by
  have hrun : (s.bindAll cs).runOn supply =
      (.ok ((s.compileList cs (Binder.start supply)).1, (s.compileList cs (Binder.start supply)).2.bindings),
        (s.compileList cs (Binder.start supply)).2.supply) := rfl
  rw [hrun, compileList_binder, Binder.bindEach_supply]
  rfl

/-- **One clause.** A flaw fails it and leaves the supply alone; otherwise each routed condition is compiled
    and each of its values is bound. -/
theorem runOn_compileClause (s : Scope) (conditions : List Condition) (clause : Clause)
    (supply : NameSupply) :
    (s.compileClause conditions clause).runOn supply =
      match flawIn? clause (routed clause conditions) with
      | some cause => (.error (.specification cause), supply)
      | none =>
        (.ok ⟨clause, (s.compileList (routed clause conditions) (Binder.start supply)).1,
            ((Binder.start supply).bindEach (valuesIn (routed clause conditions))).bindings⟩,
          supply.skip (valuesIn (routed clause conditions)).length) := by
  unfold compileClause checkClause
  rw [Naming.runOn_bind, runOn_rejectFlaw]
  cases flawIn? clause (routed clause conditions) with
  | some cause => rfl
  | none =>
    show Naming.runOn (s.bindAll (routed clause conditions) >>= _) supply = _
    rw [Naming.runOn_bind, runOn_bindAll]
    rfl

/-- **One condition.** Its first flaw fails the compilation before a name is drawn. -/
theorem runOn_compileCondition (s : Scope) (c : Condition) (clause : Clause) (supply : NameSupply) :
    (s.compileCondition c clause).runOn supply =
      match c.flaw? clause with
      | some cause => (.error (.specification cause), supply)
      | none =>
        (.ok ((s.compile c (Binder.start supply)).1, ((Binder.start supply).bindEach c.values).bindings),
          supply.skip c.values.length) := by
  unfold compileCondition
  rw [Naming.runOn_bind, runOn_rejectFlaw]
  cases c.flaw? clause with
  | some cause => rfl
  | none =>
    have hbinder := s.compile_binder_and_list.1 c (Binder.start supply)
    have hsupply := s.compile_supply c (Binder.start supply)
    show (Except.ok (_, (s.compile c (Binder.start supply)).2.bindings), _) = _
    rw [← hbinder]
    exact congrArg _ hsupply

/-- What a clause gives when it succeeds: no condition has a flaw, and the result is that of compiling all
    of them on a fresh binder. -/
theorem compileClause_ok {s : Scope} {conditions : List Condition} {clause : Clause}
    {supply supply' : NameSupply} {c : CompiledClause}
    (hrun : (s.compileClause conditions clause).runOn supply = (.ok c, supply')) :
    flawIn? clause (routed clause conditions) = none ∧
      c = ⟨clause, (s.compileList (routed clause conditions) (Binder.start supply)).1,
        ((Binder.start supply).bindEach (valuesIn (routed clause conditions))).bindings⟩ ∧
      supply' = supply.skip (valuesIn (routed clause conditions)).length := by
  rw [runOn_compileClause] at hrun
  cases hflaw : flawIn? clause (routed clause conditions) with
  | some cause => rw [hflaw] at hrun; exact absurd (congrArg Prod.fst hrun) (by simp)
  | none =>
    rw [hflaw] at hrun
    obtain ⟨hok, hsupply⟩ := Prod.mk.inj hrun
    exact ⟨rfl, (Except.ok.inj hok).symm, hsupply.symm⟩

/-! ## Faithfulness -/

/-- **Nothing is lost, duplicated or misbound.** The predicates of a compiled clause render the atoms routed
    to it, one to one and in document order; their parameters are numbered without gap from the index of the
    supply; the table holds exactly these names, each with the value of its own atom; and the supply ends
    behind the last of them. -/
theorem compileClause_exact (s : Scope) (conditions : List Condition) (clause : Clause)
    (supply supply' : NameSupply) (c : CompiledClause)
    (hrun : (s.compileClause conditions clause).runOn supply = (.ok c, supply'))
    (hroom : supply.next.toNat + (valuesIn (routed clause conditions)).length < UInt64.size) :
    let atoms := atomsIn (routed clause conditions)
    let values := valuesIn (routed clause conditions)
    let names := (List.range values.length).map fun i =>
      supply.stem ++ "_" ++ toString (supply.next.toNat + i)
    let leaves := (c.combined.map Formula.leaves).getD []
    (c.combined = none ↔ atoms = []) ∧
      List.Forall₂ (Renders s c.bindings) atoms leaves ∧
      leaves.filterMap (·.operand.parameter?) = names ∧
      c.bindings.toList = names.zip values ∧
      supply'.stem = supply.stem ∧ supply'.next.toNat = supply.next.toNat + values.length := by
  obtain ⟨-, rfl, rfl⟩ := compileClause_ok hrun
  intro atoms values names leaves
  have hroom : supply.next.toNat + values.length < UInt64.size := hroom
  have hlength : values.length ≤ UInt64.size := by omega
  have hleaves : leaves =
      Formula.leavesIn (s.compileList (routed clause conditions) (Binder.start supply)).1 :=
    Formula.leaves_conjunction _
  -- before the counter wraps, indices are natural numbers
  have hnames : supply.names values.length = names := by
    rw [NameSupply.names_eq_map]
    refine List.map_congr_left fun i hi => NameSupply.name_skip_of_lt ?_
    have hi := List.mem_range.mp hi
    omega
  have htable : ((Binder.start supply).bindEach values).bindings = ⟨supply.label values⟩ :=
    Binder.start_bindEach_bindings supply values hlength
  have hforall : List.Forall₂ (Renders s ⟨supply.label values⟩) atoms leaves :=
    hleaves ▸ s.compileList_renders _ (Bindings.binds_label supply values hlength)
  refine ⟨?_, ?_, ?_, ?_, rfl, ?_⟩
  · show Formula.conjunction _ = none ↔ _
    rw [Formula.conjunction_eq_none_iff, ← hleaves, ← List.length_eq_zero_iff, ← hforall.length_eq,
      List.length_eq_zero_iff]
  · show List.Forall₂ (Renders s ((Binder.start supply).bindEach values).bindings) atoms leaves
    rw [htable]
    exact hforall
  · rw [hleaves, compileList_parameters]
    exact hnames
  · show ((Binder.start supply).bindEach values).bindings.entries = _
    rw [htable, ← hnames]
    exact supply.label_eq_zip values
  · show (supply.next + UInt64.ofNat values.length).toNat = _
    rw [UInt64.toNat_add, UInt64.toNat_ofNat_of_lt' (by omega)]
    exact Nat.mod_eq_of_lt hroom

/-- Groups without members, a group with one member and both clauses at once, on a supply in use. -/
theorem compileClause_exact_nested :
    let s : Scope := ⟨"entity", ⟨"Product", "product", ["name", "price"], [], ["id"]⟩⟩
    let conditions : List Condition :=
      [.group .restriction .and [.group .restriction .or [], .like "name" (.string "%a%"),
          .group .restriction .or [.inList "price" [.int 1, .int 1], .bare "status" (.array [.null])]],
        .compare .having .less "total" (.int 2), .bare "parent" .null, .bare "name" (.bool true)]
    ∃ c, (s.compileClause conditions .restriction).runOn ⟨"p", 7⟩ = (.ok c, ⟨"p", 10⟩) ∧
      c.combined.map Formula.parameterNames = some ["p_7", "p_8", "p_9"] ∧
      c.bindings.toList = [("p_7", .string "%a%"), ("p_8", .array [.null]), ("p_9", .bool true)] := by
  intro s conditions
  refine ⟨_, rfl, rfl, ?_⟩
  have h := s.compileClause_exact conditions .restriction ⟨"p", 7⟩ ⟨"p", 10⟩ _ rfl (by decide)
  exact h.2.2.2.1

end Scope

end Criteria
