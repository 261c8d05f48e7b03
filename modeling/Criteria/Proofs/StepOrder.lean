import Criteria.Proofs.Requests

/-!
# `Criteria.Proofs.StepOrder` — the steps of assembly in any order

A request is assembled by five steps: extras, conditions, order, and the two bounds of the window. They are always taken
in this order, but nothing hangs on it. No step reads what another one writes, and the conditions, which alone draw
names and may fail, look at nothing but the supply. So the steps can be taken in any order, on any query.

## Contents
- **Steps.** `AssemblyStep`, `Scope.assemble` for a list of them, and `FindRequest.steps`; `find_eq_assemble` is the
  order that is taken.
- **One step.** `runOn_step`: whether it fails, what it writes and how many names it draws.
- **Parts.** `Part.Only`: a step writes its own part of a query. `Query.Grows`: what was there stays in front.
- **Interchange.** Steps with different parts commute (`step_comm`), so lists of them may be permuted
  (`assemble_perm`).
- **Result.** `assembly_steps_interchange`.
-/

namespace Criteria

open Condition

/-! ## Steps -/

/-- One step of the assembly of a query. -/
inductive AssemblyStep where
  | extras (e : Extras)
  | conditions (cs : List Condition)
  | order (o : SortOrder)
  | limit (n : UInt64)
  | offset (n : UInt64)

/-- Takes a step. -/
def AssemblyStep.run (s : Scope) : AssemblyStep → Query → Naming Query
  | .extras e, q => pure (s.applyExtras q e)
  | .conditions cs, q => s.applyConditions q cs
  | .order o, q => pure (s.applyOrder q o)
  | .limit n, q => pure (q.limitTo n)
  | .offset n, q => pure (q.startAt n)

/-- Takes steps one after the other. -/
def Scope.assemble (s : Scope) (steps : List AssemblyStep) (q : Query) : Naming Query :=
  steps.foldlM (fun q step => step.run s q) q

/-- The steps of a request in their usual order. An absent bound is no step. -/
def FindRequest.steps (r : FindRequest) : List AssemblyStep :=
  [.extras r.extras, .conditions r.conditions, .order r.order] ++
    (r.limit.toList.map .limit ++ r.offset.toList.map .offset)

namespace Scope

theorem assemble_cons (s : Scope) (step : AssemblyStep) (steps : List AssemblyStep) (q : Query) :
    s.assemble (step :: steps) q = step.run s q >>= s.assemble steps := List.foldlM_cons

/-- The steps of a request extend any query in the way in which its own query is made. -/
theorem assemble_steps (s : Scope) (r : FindRequest) (q : Query) :
    s.assemble r.steps q = do
      let q ← s.applyConditions (s.applyExtras q r.extras) r.conditions
      return (s.applyOrder q r.order).applyWindow r.limit r.offset := by
  rcases r with ⟨conditions, order, limit | limit, offset | offset, extras⟩ <;>
    simp [assemble, FindRequest.steps, AssemblyStep.run, Query.applyWindow]

theorem find_eq_assemble (s : Scope) (r : FindRequest) : s.find r = s.assemble r.steps s.base :=
  (s.assemble_steps r s.base).symm

end Scope

/-! ## One step -/

namespace AssemblyStep

/-- What keeps a step from being taken. -/
def flaw? : AssemblyStep → Option SpecificationFault
  | .conditions cs => firstFlaw? (inspected cs)
  | .extras _ | .order _ | .limit _ | .offset _ => none

/-- The number of names that a step draws. -/
def names : AssemblyStep → Nat
  | .conditions cs => drawnBy cs
  | .extras _ | .order _ | .limit _ | .offset _ => 0

/-- The query that a step makes of a query. -/
def write (s : Scope) (supply : NameSupply) : AssemblyStep → Query → Query
  | .extras e, q =>
    { q with
      select := e.selects.elim q.select (·.map s.selectText)
      joins := q.joins ++ s.joining e
      groupBys := q.groupBys ++ s.grouping e }
  | .conditions cs, q => s.applied q cs supply
  | .order o, q => { q with order := q.order ++ s.sorting o }
  | .limit n, q => { q with window := { q.window with limit := some n } }
  | .offset n, q => { q with window := { q.window with offset := some n } }

/-- **One step** fails without a trace, or writes its query and draws its names. -/
theorem runOn_step (s : Scope) (step : AssemblyStep) (q : Query) (supply : NameSupply) :
    (step.run s q).runOn supply = match step.flaw? with
      | some cause => (.error (.specification cause), supply)
      | none => (.ok (step.write s supply q), supply.skip step.names) := by
  cases step with
  | extras e =>
    rw [run, s.applyExtras_eq, Naming.runOn_pure]
    exact congrArg (Prod.mk _) supply.skip_zero.symm
  | conditions cs =>
    rw [run, s.runOn_applyConditions, ← firstFlaw?_inspected]
    rfl
  | order o =>
    rw [run, s.applyOrder_eq, Naming.runOn_pure]
    exact congrArg (Prod.mk _) supply.skip_zero.symm
  | limit n | offset n => exact congrArg (Prod.mk _) supply.skip_zero.symm

end AssemblyStep

/-! ## Parts -/

/-- The part of a query that a step writes. -/
inductive Part where
  | extras
  | conditions
  | order
  | limit
  | offset
  deriving DecidableEq

/-- `q'` differs from `q` in one part at most. -/
def Part.Only : Part → Query → Query → Prop
  | .extras, q, q' => q' = { q with select := q'.select, joins := q'.joins, groupBys := q'.groupBys }
  | .conditions, q, q' =>
    q' = { q with restrictions := q'.restrictions, havings := q'.havings, bindings := q'.bindings }
  | .order, q, q' => q' = { q with order := q'.order }
  | .limit, q, q' => q' = { q with window := { q.window with limit := q'.window.limit } }
  | .offset, q, q' => q' = { q with window := { q.window with offset := q'.window.offset } }

/-- The lists of `q` stand at the front of those of `q'`. Select lists do not count, because extras replace them. -/
structure Query.Grows (q q' : Query) : Prop where
  joins : q.joins <+: q'.joins
  restrictions : q.restrictions <+: q'.restrictions
  groupBys : q.groupBys <+: q'.groupBys
  havings : q.havings <+: q'.havings
  order : q.order <+: q'.order

namespace AssemblyStep

/-- The part that a step writes. -/
def part : AssemblyStep → Part
  | .extras _ => .extras
  | .conditions _ => .conditions
  | .order _ => .order
  | .limit _ => .limit
  | .offset _ => .offset

/-- Steps other than the conditions draw no names and cannot fail. -/
theorem quiet_of_part {step : AssemblyStep} (h : step.part ≠ .conditions) : step.flaw? = none ∧ step.names = 0 := by
  cases step with
  | conditions => exact absurd rfl h
  | extras | order | limit | offset => exact ⟨rfl, rfl⟩

theorem only_write (s : Scope) (supply : NameSupply) (step : AssemblyStep) (q : Query) :
    step.part.Only q (step.write s supply q) := by
  cases step <;> rfl

theorem grows_write (s : Scope) (supply : NameSupply) (step : AssemblyStep) (q : Query) :
    q.Grows (step.write s supply q) := by
  constructor <;> cases step <;> first | exact List.prefix_rfl | exact List.prefix_append ..

end AssemblyStep

namespace Query.Grows

theorem refl (q : Query) : q.Grows q :=
  ⟨List.prefix_rfl, List.prefix_rfl, List.prefix_rfl, List.prefix_rfl, List.prefix_rfl⟩

theorem trans {q q' q'' : Query} (h : q.Grows q') (h' : q'.Grows q'') : q.Grows q'' :=
  ⟨h.joins.trans h'.joins, h.restrictions.trans h'.restrictions, h.groupBys.trans h'.groupBys,
    h.havings.trans h'.havings, h.order.trans h'.order⟩

end Query.Grows

/-! ## Interchange -/

namespace AssemblyStep

/-- What two steps write does not depend on their order, if they write different parts. The one that draws no names
    does not depend on the supply either. -/
theorem write_comm (s : Scope) {a b : AssemblyStep} (ha : a.part ≠ .conditions) (h : a.part ≠ b.part)
    (supply supply' : NameSupply) (q : Query) :
    b.write s supply (a.write s supply q) = a.write s supply' (b.write s supply q) := by
  cases a with
  | conditions => exact absurd rfl ha
  | extras =>
    cases b with
    | extras => exact absurd rfl h
    | conditions | order | limit | offset => rfl
  | order =>
    cases b with
    | order => exact absurd rfl h
    | extras | conditions | limit | offset => rfl
  | limit =>
    cases b with
    | limit => exact absurd rfl h
    | extras | conditions | order | offset => rfl
  | offset =>
    cases b with
    | offset => exact absurd rfl h
    | extras | conditions | order | limit => rfl

/-- A step that is quiet commutes with every step that writes another part. -/
theorem step_comm_of_quiet (s : Scope) {a b : AssemblyStep} (ha : a.part ≠ .conditions) (h : a.part ≠ b.part)
    (q : Query) : a.run s q >>= b.run s = b.run s q >>= a.run s := by
  obtain ⟨hflaw, hnames⟩ := quiet_of_part ha
  have hquiet : ∀ q supply, (a.run s q).runOn supply = (.ok (a.write s supply q), supply) := by
    intro q supply
    rw [runOn_step, hflaw, hnames, NameSupply.skip_zero]
  refine Naming.ext fun supply => ?_
  rw [Naming.runOn_bind, Naming.runOn_bind, hquiet, runOn_step s b q]
  cases hb : b.flaw? with
  | some cause =>
    show (b.run s _).runOn supply = _
    rw [runOn_step, hb]
  | none =>
    show (b.run s _).runOn supply = (a.run s _).runOn _
    rw [runOn_step, hb, hquiet, write_comm s ha h]

/-- **Two steps with different parts commute**, on every query and every supply: at most one of them is the
    conditions. -/
theorem step_comm (s : Scope) {a b : AssemblyStep} (h : a.part ≠ b.part) (q : Query) :
    a.run s q >>= b.run s = b.run s q >>= a.run s := by
  by_cases ha : a.part = .conditions
  · have hb : b.part ≠ .conditions := fun hb => h (ha.trans hb.symm)
    exact (step_comm_of_quiet s hb h.symm q).symm
  · exact step_comm_of_quiet s ha h q

end AssemblyStep

namespace Scope

/-- **Steps with different parts may be taken in any order.** The computations are the same, failures included. -/
theorem assemble_perm (s : Scope) {steps steps' : List AssemblyStep} (hperm : steps.Perm steps')
    (hparts : (steps.map AssemblyStep.part).Nodup) (q : Query) : s.assemble steps q = s.assemble steps' q := by
  induction hperm generalizing q with
  | nil => rfl
  | cons a hperm ih =>
    have hrest := (List.nodup_cons.mp hparts).2
    rw [assemble_cons, assemble_cons]
    exact congrArg _ (funext fun q' => ih hrest q')
  | swap a b steps =>
    have hne : b.part ≠ a.part := by
      intro heq
      exact (List.nodup_cons.mp hparts).1 (heq ▸ List.mem_cons_self)
    -- the two steps in front, taken as one computation, are what commutes
    have hassoc : ∀ a b, s.assemble (a :: b :: steps) q = (a.run s q >>= b.run s) >>= s.assemble steps := by
      intro a b
      rw [assemble_cons, bind_assoc]
      exact congrArg _ (funext fun q' => s.assemble_cons b steps q')
    rw [hassoc, hassoc, AssemblyStep.step_comm s hne]
  | trans h₁ h₂ ih₁ ih₂ =>
    have hparts' := (h₁.map AssemblyStep.part).nodup_iff.mp hparts
    exact (ih₁ hparts q).trans (ih₂ hparts' q)

/-- What steps leave behind, whatever they are: a query that grows, or a failure. -/
theorem grows_assemble (s : Scope) {steps : List AssemblyStep} {q q' : Query} {supply after : NameSupply}
    (hrun : (s.assemble steps q).runOn supply = (.ok q', after)) : q.Grows q' := by
  induction steps generalizing q supply with
  | nil =>
    obtain ⟨hq, -⟩ := Prod.mk.inj hrun
    exact Except.ok.inj hq ▸ .refl q
  | cons step steps ih =>
    rw [assemble_cons] at hrun
    obtain ⟨q₁, supply₁, hstep, hrest⟩ := Naming.bind_ok hrun
    rw [AssemblyStep.runOn_step] at hstep
    split at hstep
    · exact absurd (congrArg Prod.fst hstep) (by simp)
    · obtain ⟨hq₁, -⟩ := Prod.mk.inj hstep
      obtain rfl := Except.ok.inj hq₁
      exact (step.grows_write s supply q).trans (ih hrest)

/-! ## Result -/

/-- The query that a request makes of a query. -/
def assembled (s : Scope) (r : FindRequest) (q : Query) (supply : NameSupply) : Query :=
  { s.applied q r.conditions supply with
    select := r.extras.selects.elim q.select (·.map s.selectText)
    joins := q.joins ++ s.joining r.extras
    groupBys := q.groupBys ++ s.grouping r.extras
    order := q.order ++ s.sorting r.order
    window := ⟨r.limit.or q.window.limit, r.offset.or q.window.offset⟩ }

/-- In the usual order, the first flaw of the conditions fails the assembly; without a flaw it succeeds. -/
theorem runOn_assemble_steps (s : Scope) (r : FindRequest) (q : Query) (supply : NameSupply) :
    (s.assemble r.steps q).runOn supply = match firstFlaw? (inspected r.conditions) with
      | some cause => (.error (.specification cause), supply)
      | none => (.ok (s.assembled r q supply), supply.skip (drawnBy r.conditions)) := by
  rw [assemble_steps, Naming.runOn_bind, runOn_applyConditions, ← firstFlaw?_inspected, applyExtras_eq]
  cases firstFlaw? (inspected r.conditions) with
  | some cause => rfl
  | none =>
    show Naming.runOn (pure _) _ = _
    rw [Naming.runOn_pure, applyOrder_eq, Query.applyWindow_eq]
    rfl

theorem nodup_parts_steps (r : FindRequest) : (r.steps.map AssemblyStep.part).Nodup := by
  rcases r with ⟨conditions, order, limit | limit, offset | offset, extras⟩ <;>
    simp [FindRequest.steps, AssemblyStep.part]

/-- A step that succeeds writes its own part, keeps the lists of the query in front, and draws no names unless it adds
    conditions. -/
theorem step_confined (s : Scope) {step : AssemblyStep} {q q' : Query} {supply after : NameSupply}
    (hrun : (step.run s q).runOn supply = (.ok q', after)) :
    step.part.Only q q' ∧ q.Grows q' ∧ (step.part ≠ .conditions → after = supply) := by
  rw [AssemblyStep.runOn_step] at hrun
  split at hrun
  · exact absurd (congrArg Prod.fst hrun) (by simp)
  · obtain ⟨hq', rfl⟩ := Prod.mk.inj hrun
    obtain rfl := Except.ok.inj hq'
    refine ⟨step.only_write s supply q, step.grows_write s supply q, fun hpart => ?_⟩
    rw [(AssemblyStep.quiet_of_part hpart).2, NameSupply.skip_zero]

/-- **The steps of assembly are independent.** Let the steps of a request be taken in any order, on any query and any
    supply. They are the same computation as in the usual order. When the conditions are legal it succeeds, draws the
    names of the conditions and gives the query that has the parts of each step, with all lists of the old query in
    front of the new ones; otherwise it fails for the first node that is not legal, and no name is drawn. Each step on
    its own writes only its part of the query. -/
theorem assembly_steps_interchange (s : Scope) (r : FindRequest) {steps : List AssemblyStep}
    (hsteps : steps.Perm r.steps) (q : Query) (supply : NameSupply) :
    s.assemble steps q = s.assemble r.steps q ∧
      (AllLegal (inspected r.conditions) →
        (s.assemble steps q).runOn supply =
            (.ok (s.assembled r q supply), supply.skip (drawnBy r.conditions)) ∧
          q.Grows (s.assembled r q supply)) ∧
      (∀ cause, FirstRefused (inspected r.conditions) cause →
        (s.assemble steps q).runOn supply = (.error (.specification cause), supply)) ∧
      ∀ (step : AssemblyStep) (before after : Query) (t t' : NameSupply),
        (step.run s before).runOn t = (.ok after, t') →
        step.part.Only before after ∧ before.Grows after ∧ (step.part ≠ .conditions → t' = t) := by
  have hparts : (steps.map AssemblyStep.part).Nodup :=
    (hsteps.map AssemblyStep.part).nodup_iff.mpr (nodup_parts_steps r)
  -- in any order the steps do what they do in the usual one, so one run describes both
  have hsame := s.assemble_perm hsteps hparts q
  have hrun := s.runOn_assemble_steps r q supply
  rw [← hsame] at hrun
  refine ⟨hsame, ?legal, ?refused, fun step before after t t' => s.step_confined⟩
  case legal =>
    intro hlegal
    rw [firstFlaw?_eq_none_iff.mpr hlegal] at hrun
    exact ⟨hrun, s.grows_assemble hrun⟩
  case refused =>
    intro cause hfirst
    rw [firstFlaw?_eq_some_iff.mpr hfirst] at hrun
    exact hrun

/-- The steps of a request for both clauses, taken backwards on a query that has a select list, a join and an order
    already; and the same with a condition that is refused. -/
theorem assembly_steps_interchange_backwards :
    let s : Scope := ⟨"entity", ⟨"Product", "product", ["name"], ["tags"], ["id"]⟩⟩
    let q := ((s.base.selecting ["name"]).addJoin ⟨.inner, .verbatim "a.b", "b"⟩).addOrder "b.rank" .descending
    let extras : Extras := ⟨some [.raw "entity", .joined "tags"], [("tags", "tags")], [], ["name"]⟩
    let request : List Condition → FindRequest := fun cs => ⟨cs, [⟨"name", .ascending⟩], some 10, some 20, extras⟩
    let good := request [.compare .having .less "total" (.int 2), .bare "name" (.string "bike")]
    let bad := request [.bare "name" .null, .inList "name" []]
    good.steps.reverse.Perm good.steps ∧ AllLegal (inspected good.conditions) ∧
      (∃ q', (s.assemble good.steps.reverse q).runOn (NameSupply.ofStem "p") = (.ok q', ⟨"p", 3⟩) ∧ q.Grows q' ∧
        q'.select = ["entity", "tags"] ∧ q'.window = ⟨some 10, some 20⟩ ∧
        q'.bindings.entries = [("p_1", .string "bike"), ("p_2", .int 2)]) ∧
      (s.assemble bad.steps.reverse q).runOn (NameSupply.ofStem "p") =
        (.error (.specification (.emptyList .inList "name")), NameSupply.ofStem "p") := by
  intro s q extras request good bad
  have hlegal : AllLegal (inspected good.conditions) := firstFlaw?_eq_none_iff.mp rfl
  obtain ⟨-, hok, -, -⟩ :=
    s.assembly_steps_interchange good good.steps.reverse_perm q (NameSupply.ofStem "p")
  obtain ⟨-, -, hfail, -⟩ := s.assembly_steps_interchange bad bad.steps.reverse_perm q (NameSupply.ofStem "p")
  obtain ⟨hrun, hgrows⟩ := hok hlegal
  refine ⟨good.steps.reverse_perm, hlegal, ⟨_, hrun, hgrows, rfl, rfl, by decide⟩, hfail _ ?_⟩
  exact firstFlaw?_eq_some_iff.mp rfl

end Scope

end Criteria
