import Criteria.Proofs.Independence
import Mathlib.Logic.Relation

/-!
# `Criteria.Proofs.Rewriting` — one search, written in several ways

The condition language has more than one spelling for the same restriction: a bare property or a comparison, a bare
null or a null check, conditions side by side or in a conjunction, and groups with nothing in them. A search may be
rewritten from one spelling to another in any place, and the query that it becomes does not show it: formulas,
parameters and the supply are the same.

## Contents
- **Rewriting.** `Respells` are the single replacements, `Rewrites` allows them in any place of a search.
- **Members.** `Interchangeable`: two lists of conditions that nothing tells apart once they are members of a group.
  Every replacement is of this kind, and groups around it keep it (`interchangeable_of_rewrites`).
- **Searches.** A clause is a conjunction of the conditions routed to it, so that a rewritten search is
  interchangeable clause by clause (`interchangeable_routed`).
- **Result.** `rewriting_keeps_queries`.
-/

namespace Criteria

open Condition

namespace Condition

/-! ## Rewriting -/

/-- A group in which there are only groups of the same clause, and so no predicate. -/
inductive Hollow (clause : Clause) : Condition → Prop where
  | group (connective : Connective) {members : List Condition} (h : ∀ c ∈ members, Hollow clause c) :
      Hollow clause (.group clause connective members)

/-- Where a list of conditions stands in a search: it is the search itself, or the members of a group. -/
inductive Site where
  | search
  | members (clause : Clause) (connective : Connective)

namespace Site

/-- The clause in which a bare property is evaluated. -/
def clause : Site → Clause
  | .search => .restriction
  | .members clause _ => clause

/-- All conditions of a clause must hold at a site, so that a conjunction of them says nothing new. -/
inductive Conjoins : Site → Clause → Prop where
  | search : Conjoins .search .restriction
  | members (clause : Clause) : Conjoins (.members clause .and) clause

/-- Groups of a clause may stand at a site. -/
inductive Admits : Site → Clause → Prop where
  | search (clause : Clause) : Admits .search clause
  | members (clause : Clause) (connective : Connective) : Admits (.members clause connective) clause

end Site

/-- Conditions at a site, and what may be written in their place. -/
inductive Respells (site : Site) : List Condition → List Condition → Prop where
  /-- Equality with a scalar is a comparison in the clause of the site. -/
  | equality (property : String) {value : Json} (h : value.IsScalar) :
      Respells site [.bare property value] [.compare site.clause .equal property value]
  /-- Null beside a property is a null check, which only the restriction has a keyword for. -/
  | nullCheck (property : String) (h : site.clause = .restriction) :
      Respells site [.bare property .null] [.isNull property]
  /-- A conjunction among conditions that must all hold is replaced by its members. -/
  | dissolve {clause : Clause} (members : List Condition) (h : site.Conjoins clause) :
      Respells site [.group clause .and members] members
  /-- A group without predicates is added. -/
  | insert {clause : Clause} {c : Condition} (hsite : site.Admits clause) (h : Hollow clause c) :
      Respells site [] [c]

/-- A list of conditions that is respelled in one place, at its site or at any depth below it. -/
inductive Rewrites : Site → List Condition → List Condition → Prop where
  | here {site : Site} {old new : List Condition} (before after : List Condition) (h : Respells site old new) :
      Rewrites site (before ++ old ++ after) (before ++ new ++ after)
  | inside {site : Site} {clause : Clause} {connective : Connective} {old new : List Condition}
      (before after : List Condition) (h : Rewrites (.members clause connective) old new) :
      Rewrites site (before ++ [.group clause connective old] ++ after)
        (before ++ [.group clause connective new] ++ after)

/-- All nodes of conditions are legal in a clause. -/
def LegalIn (clause : Clause) (cs : List Condition) : Prop := ∀ n ∈ nodesIn cs, Legal clause n

theorem legalIn_append {clause : Clause} {cs ds : List Condition} :
    LegalIn clause (cs ++ ds) ↔ LegalIn clause cs ∧ LegalIn clause ds := by
  rw [LegalIn, nodesIn_append]
  exact List.forall_mem_append

/-- A group is legal when it belongs to the clause and its members are legal there. -/
theorem legalIn_group {clause own : Clause} {connective : Connective} {members : List Condition} :
    LegalIn clause [.group own connective members] ↔ own = clause ∧ LegalIn clause members := by
  have hnode : Legal clause (.group own connective members) ↔ own = clause :=
    ⟨fun h => h.placed own rfl, fun h => ⟨fun other hother => Option.some.inj hother ▸ h, trivial⟩⟩
  have hnodes : nodesIn [.group own connective members] = .group own connective members :: nodesIn members :=
    List.append_nil _
  rw [LegalIn, hnodes, List.forall_mem_cons, hnode]
  rfl

theorem legalIn_of_atom {clause : Clause} {c : Condition} {a : Atom} (hatom : c.atom? = some a)
    (h : Legal clause c) : LegalIn clause [c] := by
  intro n hn
  have hnodes : nodesIn [c] = [c] := by rw [nodesIn, nodes_of_atom hatom]; rfl
  rw [hnodes, List.mem_singleton] at hn
  exact hn ▸ h

theorem allLegal_inspectedIn {clause : Clause} {conditions : List Condition} :
    AllLegal (inspectedIn clause conditions) ↔ LegalIn clause (routed clause conditions) := by
  simp [AllLegal, inspectedIn, LegalIn]

theorem allLegal_inspected {conditions : List Condition} :
    AllLegal (inspected conditions) ↔ ∀ clause, LegalIn clause (routed clause conditions) := by
  rw [inspected, allLegal_append, allLegal_inspectedIn, allLegal_inspectedIn]
  constructor
  · rintro ⟨hrestriction, hhaving⟩ clause
    cases clause
    · exact hrestriction
    · exact hhaving
  · intro h
    exact ⟨h .restriction, h .having⟩

end Condition

/-! ## Members -/

/-- Nothing tells two lists of conditions apart where they are members of a group with a connective in a clause: the
    second is legal when the first is, both bind the same values in the same order, and they contribute the same
    formulas to the normal form of the group. -/
structure Interchangeable (s : Scope) (clause : Clause) (connective : Connective) (cs ds : List Condition) :
    Prop where
  legal : LegalIn clause cs → LegalIn clause ds
  values : valuesIn ds = valuesIn cs
  formulas : ∀ b, Formula.normalizeIn connective (s.compileList ds b).1 =
    Formula.normalizeIn connective (s.compileList cs b).1

namespace Interchangeable

variable {s : Scope} {clause : Clause} {connective : Connective} {cs ds es : List Condition}

theorem refl (s : Scope) (clause : Clause) (connective : Connective) (cs : List Condition) :
    Interchangeable s clause connective cs cs := ⟨id, rfl, fun _ => rfl⟩

theorem trans (h : Interchangeable s clause connective cs ds) (h' : Interchangeable s clause connective ds es) :
    Interchangeable s clause connective cs es :=
  ⟨h'.legal ∘ h.legal, h'.values.trans h.values, fun b => (h'.formulas b).trans (h.formulas b)⟩

/-- Conditions around a place are compiled as before, because the place takes the same names. -/
theorem around (h : Interchangeable s clause connective cs ds) (before after : List Condition) :
    Interchangeable s clause connective (before ++ cs ++ after) (before ++ ds ++ after) := by
  constructor
  · simp only [legalIn_append]
    rintro ⟨⟨hbefore, hcs⟩, hafter⟩
    exact ⟨⟨hbefore, h.legal hcs⟩, hafter⟩
  · simp only [valuesIn_append, h.values]
  · intro b
    have hbinder : (s.compileList (before ++ ds) b).2 = (s.compileList (before ++ cs) b).2 := by
      simp only [Scope.compileList_binder, valuesIn_append, h.values]
    simp only [Scope.compileList_append, Formula.normalizeIn_append, hbinder, h.formulas]

/-- Two spellings of one atom. -/
theorem of_atom {c d : Condition} {a : Atom} (hc : c.atom? = some a) (hd : d.atom? = some a)
    (hlegal : Legal clause d) : Interchangeable s clause connective [c] [d] := by
  have hvalues : d.values = c.values := by rw [values_of_atom hc, values_of_atom hd]
  constructor
  · exact fun _ => legalIn_of_atom hd hlegal
  · rw [valuesIn_cons, valuesIn_cons, hvalues]
  · intro b
    show Formula.normalizeIn connective [(s.compile d b).1] = Formula.normalizeIn connective [(s.compile c b).1]
    rw [s.compile_of_atom hc, s.compile_of_atom hd]

/-- A group may be changed inside. Only one that belongs to the clause is legal at all. -/
theorem group {own : Clause} {inner : Connective} (h : Interchangeable s own inner cs ds) :
    Interchangeable s clause connective [.group own inner cs] [.group own inner ds] := by
  constructor
  · simp only [legalIn_group]
    rintro ⟨rfl, hcs⟩
    exact ⟨rfl, h.legal hcs⟩
  · simp only [valuesIn_cons, values_group, h.values]
  · intro b
    show Formula.normalizeIn connective [.group inner (s.compileList ds b).1] =
      Formula.normalizeIn connective [.group inner (s.compileList cs b).1]
    rw [Formula.normalizeIn_singleton, Formula.normalizeIn_singleton, Formula.normalize, Formula.normalize,
      h.formulas]

/-- A group with the connective of the group around it. -/
theorem dissolve (s : Scope) (clause : Clause) (connective : Connective) (members : List Condition) :
    Interchangeable s clause connective [.group clause connective members] members := by
  constructor
  · exact fun h => (legalIn_group.mp h).2
  · rw [valuesIn_cons, values_group]
    exact (List.append_nil _).symm
  · intro b
    exact (Formula.normalizeIn_group connective (s.compileList members b).1).symm

end Interchangeable

namespace Condition

theorem Hollow.atoms_eq_nil {clause : Clause} {c : Condition} (h : Hollow clause c) : c.atoms = [] := by
  induction h with
  | group connective _ ih =>
    rw [atoms_group, atomsIn, List.filterMap_eq_nil_iff]
    intro n hn
    obtain ⟨c, hc, hn⟩ := mem_nodesIn.mp hn
    exact List.filterMap_eq_nil_iff.mp (ih c hc) n hn

theorem Hollow.legal {clause : Clause} {c : Condition} (h : Hollow clause c) : LegalIn clause [c] := by
  induction h with
  | group connective _ ih =>
    refine legalIn_group.mpr ⟨rfl, fun n hn => ?_⟩
    obtain ⟨c, hc, hn⟩ := mem_nodesIn.mp hn
    exact ih c hc n (mem_nodesIn.mpr ⟨c, List.mem_singleton_self c, hn⟩)

end Condition

namespace Interchangeable

variable {s : Scope} {clause : Clause} {connective : Connective}

/-- A group without predicates binds nothing, and nothing is left of it in a normal form. -/
theorem insert {c : Condition} (h : Hollow clause c) : Interchangeable s clause connective [] [c] := by
  have hatoms : atomsIn [c] = [] := by rw [atomsIn_cons, h.atoms_eq_nil]; rfl
  have hvalues : valuesIn [c] = [] := by rw [valuesIn, hatoms]; rfl
  constructor
  · exact fun _ => h.legal
  · exact hvalues
  · intro b
    have hbinds : Bindings.Binds .empty (b.supply.label (valuesIn [c])) := by
      rw [hvalues]
      exact fun e he => absurd he List.not_mem_nil
    have hrenders := s.compileList_renders [c] hbinds
    rw [hatoms, List.forall₂_nil_left_iff] at hrenders
    exact Formula.normalize_of_no_leaves.2 _ hrenders connective

end Interchangeable

/-- Every replacement among the members of a group is one of interchangeable conditions. -/
theorem interchangeable_of_respells (s : Scope) {clause : Clause} {connective : Connective}
    {old new : List Condition} (h : Respells (.members clause connective) old new) :
    Interchangeable s clause connective old new := by
  cases h with
  | @equality property value hscalar =>
    obtain ⟨harray, hobject⟩ : value.isArray = false ∧ value.isObject = false := by
      simpa [Json.isComposite] using hscalar.2
    refine .of_atom (atom?_of_scalar property hscalar) rfl ⟨?_, harray, hobject⟩
    rintro own ⟨⟩
    rfl
  | nullCheck property hclause =>
    refine .of_atom rfl rfl ⟨?_, trivial⟩
    rintro own ⟨⟩
    exact hclause.symm
  | dissolve members hsite =>
    cases hsite
    exact .dissolve s clause .and new
  | insert hsite hhollow =>
    cases hsite
    exact .insert hhollow

/-- **Rewriting inside a group.** By induction on the depth of the place: a replacement is carried along the list it
    stands in, and then through the group around that list. -/
theorem interchangeable_of_rewrites (s : Scope) {clause : Clause} {connective : Connective}
    {cs ds : List Condition} (h : Rewrites (.members clause connective) cs ds) :
    Interchangeable s clause connective cs ds := by
  generalize hsite : Site.members clause connective = site at h
  induction h generalizing clause connective with
  | here before after h =>
    subst hsite
    exact (interchangeable_of_respells s h).around before after
  | inside before after _ ih => exact (ih rfl).group.around before after

/-! ## Searches -/

theorem routed_of_route {clause : Clause} {c : Condition} (h : c.route = clause) : routed clause [c] = [c] :=
  List.filter_cons_of_pos (by simpa using h)

theorem routed_of_route_ne {clause : Clause} {c : Condition} (h : c.route ≠ clause) : routed clause [c] = [] :=
  List.filter_cons_of_neg (by simpa using h)

/-- Conditions that are legal in the restriction are routed there. -/
theorem route_of_legal {c : Condition} (h : Legal .restriction c) : c.route = .restriction := by
  unfold route
  cases hclause : c.clause? with
  | none => rfl
  | some own => exact h.placed own hclause

theorem routed_of_legal {cs : List Condition} (h : LegalIn .restriction cs) (clause : Clause) :
    routed clause cs = if clause = .restriction then cs else [] := by
  have hroute : ∀ c ∈ cs, c.route = .restriction := by
    intro c hc
    refine route_of_legal (h c (mem_nodesIn.mpr ⟨c, hc, ?_⟩))
    cases c <;> exact List.mem_cons_self
  split
  · rename_i hclause
    exact List.filter_eq_self.mpr fun c hc => by simpa [hclause] using hroute c hc
  · rename_i hclause
    refine List.filter_eq_nil_iff.mpr fun c hc => ?_
    rw [hroute c hc]
    simpa using Ne.symm hclause

/-- A condition that is replaced by one of the same clause is replaced in that clause, and no other clause changes. -/
theorem interchangeable_routed_singleton {s : Scope} {c d : Condition} (hroute : d.route = c.route)
    (h : Interchangeable s c.route .and [c] [d]) (clause : Clause) :
    Interchangeable s clause .and (routed clause [c]) (routed clause [d]) := by
  by_cases hc : c.route = clause
  · subst hc
    rw [routed_of_route rfl, routed_of_route hroute]
    exact h
  · rw [routed_of_route_ne hc, routed_of_route_ne (hroute ▸ hc)]
    exact .refl ..

/-- A replacement in a search shows in one clause, as a replacement among the members of a conjunction. The members of
    a dissolved group all stay in the restriction because they were legal there. -/
theorem interchangeable_routed_of_respells (s : Scope) {old new : List Condition} (h : Respells .search old new)
    (hlegal : ∀ clause, LegalIn clause (routed clause old)) (clause : Clause) :
    Interchangeable s clause .and (routed clause old) (routed clause new) := by
  cases h with
  | @equality property value hscalar =>
    have hsame : Interchangeable s .restriction .and [.bare property value]
        [.compare .restriction .equal property value] :=
      interchangeable_of_respells s (.equality property hscalar)
    refine interchangeable_routed_singleton ?_ hsame clause
    rfl
  | nullCheck property hclause =>
    have hsame : Interchangeable s .restriction .and [.bare property .null] [.isNull property] :=
      interchangeable_of_respells s (.nullCheck property hclause)
    refine interchangeable_routed_singleton ?_ hsame clause
    rfl
  | dissolve members hsite =>
    cases hsite
    -- members of a legal group belong to its clause, so they are routed where the group was
    have hmembers : LegalIn .restriction new := by
      have hgroup := hlegal .restriction
      exact (legalIn_group.mp hgroup).2
    rw [routed_of_legal hmembers]
    cases clause with
    | restriction => exact .dissolve s .restriction .and new
    | having => exact .refl ..
  | @insert own c hsite hhollow =>
    -- the new condition is routed to one clause, and the other one does not change
    have hroute : c.route = own := by cases hhollow; rfl
    by_cases hclause : own = clause
    · subst hclause
      rw [routed_of_route hroute]
      exact .insert hhollow
    · rw [routed_of_route_ne (hroute ▸ hclause)]
      exact .refl ..

/-- **Rewriting a search.** What is replaced in a legal search is replaced in the conjunction of each clause. -/
theorem interchangeable_routed (s : Scope) {cs ds : List Condition} (h : Rewrites .search cs ds)
    (hlegal : ∀ clause, LegalIn clause (routed clause cs)) (clause : Clause) :
    Interchangeable s clause .and (routed clause cs) (routed clause ds) := by
  cases h with
  | here before after h =>
    simp only [routed_append, legalIn_append] at hlegal ⊢
    exact (interchangeable_routed_of_respells s h (fun k => (hlegal k).1.2) clause).around _ _
  | @inside _ own _ _ _ before after h =>
    simp only [routed_append]
    have hgroup := interchangeable_of_rewrites s h
    refine (interchangeable_routed_singleton ?_ hgroup.group clause).around _ _
    rfl

/-- Along any number of rewritings, a search stays legal and interchangeable with what it was. -/
theorem interchangeable_routed_of_reflTransGen (s : Scope) {cs ds : List Condition}
    (h : Relation.ReflTransGen (Rewrites .search) cs ds) (hlegal : ∀ clause, LegalIn clause (routed clause cs)) :
    ∀ clause, Interchangeable s clause .and (routed clause cs) (routed clause ds) := by
  induction h with
  | refl => exact fun clause => .refl ..
  | tail _ hstep ih =>
    have hnext := interchangeable_routed s hstep fun clause => (ih clause).legal (hlegal clause)
    exact fun clause => (ih clause).trans (hnext clause)

/-! ## Result -/

/-- The formula of a clause is the same for interchangeable conditions, whatever it restricts already. -/
theorem Interchangeable.conjunction_eq {s : Scope} {clause : Clause} {cs ds : List Condition}
    (h : Interchangeable s clause .and cs ds) (fs : List Formula) (b : Binder) :
    Formula.conjunction (fs ++ (s.compileList ds b).1) = Formula.conjunction (fs ++ (s.compileList cs b).1) := by
  apply Formula.conjunction_congr
  rw [Formula.normalizeIn_append, Formula.normalizeIn_append, h.formulas]

namespace Query

/-- The text of a query shows its formulas only through the two clauses. -/
theorem text_congr {q : Query} {fs gs : List Formula} (hrestriction : Formula.conjunction fs = q.restriction)
    (hhaving : Formula.conjunction gs = q.having) :
    Query.text { q with restrictions := fs, havings := gs } = q.text := by
  unfold text
  rw [← hrestriction, ← hhaving]
  rfl

end Query

namespace Scope

/-- **Spelling makes no difference.** A search that is accepted is still accepted after any rewritings, in any places
    and at any depth. Each clause of it compiles to the same formula with the same parameters in the same order, and
    leaves the supply at the same index; and the query it is applied to differs at most in how the formulas of a
    clause are nested before they are combined. -/
theorem rewriting_keeps_queries (s : Scope) (q : Query) {cs ds : List Condition} {supply after : NameSupply}
    {q₁ : Query} (hrewrites : Relation.ReflTransGen (Rewrites .search) cs ds)
    (haccepted : (s.applyConditions q cs).runOn supply = (.ok q₁, after)) :
    (∀ clause start, ∃ c d last,
        (s.compileClause cs clause).runOn start = (.ok c, last) ∧
          (s.compileClause ds clause).runOn start = (.ok d, last) ∧
          d.combined = c.combined ∧ d.bindings = c.bindings) ∧
      ∃ q₂, (s.applyConditions q ds).runOn supply = (.ok q₂, after) ∧
        q₂.restriction = q₁.restriction ∧ q₂.having = q₁.having ∧ q₂.text = q₁.text ∧
        q₂ = { q₁ with restrictions := q₂.restrictions, havings := q₂.havings } := by
  have hlegal : AllLegal (inspected cs) := ((s.vets_applyConditions q cs).accepts supply).mp ⟨_, _, haccepted⟩
  -- what is routed to either clause is interchangeable, so the other search is legal, too
  have hroutes := interchangeable_routed_of_reflTransGen s hrewrites (allLegal_inspected.mp hlegal)
  have hlegal' : AllLegal (inspected ds) :=
    allLegal_inspected.mpr fun clause => (hroutes clause).legal (allLegal_inspected.mp hlegal clause)
  refine ⟨fun clause start => ?_, ?_⟩
  · obtain ⟨c, last, hc⟩ := ((s.vets_compileClause cs clause).accepts start).mpr
      (allLegal_inspectedIn.mpr (allLegal_inspected.mp hlegal clause))
    obtain ⟨d, last', hd⟩ := ((s.vets_compileClause ds clause).accepts start).mpr
      (allLegal_inspectedIn.mpr (allLegal_inspected.mp hlegal' clause))
    obtain ⟨-, rfl, rfl⟩ := compileClause_ok hc
    obtain ⟨-, rfl, rfl⟩ := compileClause_ok hd
    rw [(hroutes clause).values] at hd
    exact ⟨_, _, _, hc, hd, (hroutes clause).conjunction_eq [] _, rfl⟩
  · -- both clauses of a query: the second one takes its names where the first one stopped
    obtain ⟨q₂, after', hd⟩ := ((s.vets_applyConditions q ds).accepts supply).mpr hlegal'
    obtain ⟨rfl, rfl⟩ := applyConditions_ok haccepted
    obtain ⟨rfl, rfl⟩ := applyConditions_ok hd
    have hdrawn : drawnBy ds = drawnBy cs := by
      rw [drawnBy, drawnBy, (hroutes .restriction).values, (hroutes .having).values]
    have hbinder : havingBinder ds supply = havingBinder cs supply := by
      rw [havingBinder, havingBinder, (hroutes .restriction).values]
    have hrestriction : (s.applied q ds supply).restriction = (s.applied q cs supply).restriction :=
      (hroutes .restriction).conjunction_eq q.restrictions _
    have hhaving : (s.applied q ds supply).having = (s.applied q cs supply).having := by
      have hsame := (hroutes .having).conjunction_eq q.havings (havingBinder cs supply)
      unfold Query.having applied
      rw [hbinder]
      exact hsame
    have hsame : s.applied q ds supply =
        { s.applied q cs supply with
          restrictions := (s.applied q ds supply).restrictions, havings := (s.applied q ds supply).havings } := by
      simp only [applied, hbinder, (hroutes .restriction).values, (hroutes .having).values]
    refine ⟨_, hdrawn ▸ hd, hrestriction, hhaving, ?_, hsame⟩
    rw [hsame]
    exact Query.text_congr hrestriction hhaving

/-- A conjunction dissolved, a scalar and a null respelled, a comparison made explicit after grouping, and a group
    without predicates added. -/
theorem rewriting_keeps_queries_five_times :
    let s : Scope := ⟨"entity", ⟨"Product", "product", ["name", "price"], [], ["id"]⟩⟩
    let cs : List Condition :=
      [.group .restriction .and [.bare "name" (.string "bike")],
        .group .restriction .or [.like "name" (.string "%a%"), .bare "parent" .null],
        .group .having .or [.compare .having .less "total" (.int 9), .bare "total" (.int 12)]]
    let ds : List Condition :=
      [.compare .restriction .equal "name" (.string "bike"),
        .group .restriction .or [.like "name" (.string "%a%"), .isNull "parent"],
        .group .having .and [.group .having .or []],
        .group .having .or [.compare .having .less "total" (.int 9), .compare .having .equal "total" (.int 12)]]
    ∃ q₁ q₂, (s.applyConditions s.base cs).runOn ⟨"p", 1⟩ = (.ok q₁, ⟨"p", 5⟩) ∧
      (s.applyConditions s.base ds).runOn ⟨"p", 1⟩ = (.ok q₂, ⟨"p", 5⟩) ∧
      q₂.restriction = q₁.restriction ∧ q₂.having = q₁.having ∧ q₂.text = q₁.text ∧
      q₂.bindings.toList =
        [("p_1", .string "bike"), ("p_2", .string "%a%"), ("p_3", .int 9), ("p_4", .int 12)] := by
  intro s cs ds
  let name : Condition := .compare .restriction .equal "name" (.string "bike")
  let anyOf (parent : Condition) : Condition := .group .restriction .or [.like "name" (.string "%a%"), parent]
  let either (total : Condition) : Condition :=
    .group .having .or [.compare .having .less "total" (.int 9), total]
  let dissolved := [.bare "name" (.string "bike"), anyOf (.bare "parent" .null), either (.bare "total" (.int 12))]
  let compared := [name, anyOf (.bare "parent" .null), either (.bare "total" (.int 12))]
  let checked := [name, anyOf (.isNull "parent"), either (.bare "total" (.int 12))]
  let grouped := [name, anyOf (.isNull "parent"), either (.compare .having .equal "total" (.int 12))]
  have hbike : Json.IsScalar (.string "bike") := ⟨nofun, rfl⟩
  have htwelve : Json.IsScalar (.int 12) := ⟨nofun, rfl⟩
  have hdissolve : Rewrites .search cs dissolved := .here [] [_, _] (.dissolve [_] .search)
  have hcompare : Rewrites .search dissolved compared := .here [] [_, _] (.equality "name" hbike)
  have hcheck : Rewrites .search compared checked := .inside [_] [_] (.here [_] [] (.nullCheck "parent" rfl))
  have hgroup : Rewrites .search checked grouped :=
    .inside [_, _] [] (.here [_] [] (.equality "total" htwelve))
  have hhollow : Hollow .having (.group .having .and [.group .having .or []]) :=
    .group .and fun c hc => List.mem_singleton.mp hc ▸ .group .or nofun
  have hinsert : Rewrites .search grouped ds := .here [_, _] [_] (.insert (.search .having) hhollow)
  have hrewrites : Relation.ReflTransGen (Rewrites .search) cs ds :=
    ((((Relation.ReflTransGen.single hdissolve).tail hcompare).tail hcheck).tail hgroup).tail hinsert
  have haccepted : ∃ q₁, (s.applyConditions s.base cs).runOn ⟨"p", 1⟩ = (.ok q₁, ⟨"p", 5⟩) ∧
      q₁.bindings.toList =
        [("p_1", .string "bike"), ("p_2", .string "%a%"), ("p_3", .int 9), ("p_4", .int 12)] := ⟨_, rfl, rfl⟩
  obtain ⟨q₁, hrun₁, hbindings⟩ := haccepted
  obtain ⟨-, q₂, hrun₂, hrestriction, hhaving, htext, hsame⟩ :=
    s.rewriting_keeps_queries s.base hrewrites hrun₁
  refine ⟨q₁, q₂, hrun₁, hrun₂, hrestriction, hhaving, htext, ?_⟩
  rw [hsame]
  exact hbindings

end Scope

end Criteria
