import Criteria.Proofs.Literal
import Criteria.Proofs.Requests

/-!
# `Criteria.Proofs.Placeholders` — the text of a query and its parameters agree

The names that a scanner reads in the text of a query are the names under which its values are bound, each once and
in the order of the table. Literals are written into the text as well; they may contain anything, since they are
quoted.

## Contents
- **Formulas.** `Predicate.Legible`; a formula contributes the parameters of its predicates
  (`Formula.scans_text`, `Formula.scans_clauseText`).
- **Queries.** `Query.Legible` and `Query.scans_text`: a query contributes the parameters of both clauses.
- **Requests.** `Scope.PlainlyWorded` says what the texts that are copied into a query must not contain;
  `found_legible`.
- **Result.** `placeholders_agree`.
-/

namespace Criteria

open Scanning Condition

/-! ## Formulas -/

/-- A predicate whose text shows its parameter, if it has one, and is read as nothing else. -/
structure Predicate.Legible (p : Predicate) : Prop where
  property : Plain p.property.text
  name : ∀ n, p.operand.parameter? = some n → IsName n
  /-- A null check does not write its operand. -/
  bare : p.test = .isNull ∨ p.test = .isNotNull → p.operand.parameter? = none

theorem scans_operand {o : Operand} (h : ∀ n, o.parameter? = some n → IsName n) :
    Scans o.scalarText o.parameter?.toList ∧ Scans o.listText o.parameter?.toList := by
  cases o with
  | parameter name => exact ⟨scans_parameter (h name rfl), scans_parameter (h name rfl)⟩
  | literals values =>
    refine ⟨?_, scans_listText values⟩
    cases values with
    | nil => exact Plain.scans (by decide)
    | cons v vs => exact scans_literal v
  | absent => exact ⟨Plain.scans (by decide), Plain.scans (by decide)⟩

theorem scans_predicate {p : Predicate} (h : p.Legible) : Scans p.text p.operand.parameter?.toList := by
  obtain ⟨hscalar, hlist⟩ := scans_operand h.name
  -- a parameter between parentheses ends at the closing one
  have hparens : ∀ word : String, Plain word →
      Scans (p.property.text ++ word ++ p.operand.listText ++ ")") p.operand.parameter?.toList := by
    intro word hword
    have hclose : Scans ")" [] := Plain.scans (by decide)
    have hscan := ((h.property.append hword).append_scans hlist).append hclose (by decide)
    rwa [List.append_nil] at hscan
  unfold Predicate.text
  cases htest : p.test with
  | isNull =>
    rw [h.bare (.inl htest)]
    exact (h.property.append (by decide)).scans
  | isNotNull =>
    rw [h.bare (.inr htest)]
    exact (h.property.append (by decide)).scans
  | inList => exact hparens " IN (" (by decide)
  | notInList => exact hparens " NOT IN (" (by decide)
  | like => exact (h.property.append (by decide)).append_scans hscalar
  | compare comparison =>
    have hsymbol : Plain comparison.symbol := by cases comparison <;> decide
    exact (((h.property.append (by decide)).append hsymbol).append (by decide)).append_scans hscalar

namespace Formula

theorem opens_restText (connective : Connective) (fs : List Formula) : Opens (restText connective fs) := by
  cases fs with
  | nil => exact nofun
  | cons f fs =>
    rw [restText, String.append_assoc]
    exact opens_keyword _ _

/-- The parameters of several formulas, from left to right. -/
def parameterNamesIn (fs : List Formula) : List String := (leavesIn fs).filterMap (·.operand.parameter?)

mutual

/-- A formula contributes its parameters to the text around it. -/
theorem scans_text : ∀ f : Formula, (∀ p ∈ f.leaves, p.Legible) → Scans f.text f.parameterNames
  | .leaf p, h => by
    have hp := scans_predicate (h p List.mem_cons_self)
    have hnames : parameterNames (.leaf p) = p.operand.parameter?.toList := by
      cases hparameter : p.operand.parameter? <;> simp [parameterNames, leaves, hparameter]
    rw [hnames]
    exact hp
  | .group _ [], _ => by
    show Scans "1=1" []
    exact Plain.scans (by decide)
  | .group connective [f], h => by
    have hleaves : (group connective [f]).leaves = f.leaves := List.append_nil _
    rw [parameterNames, hleaves]
    exact scans_text f (hleaves ▸ h)
  | .group connective (f :: g :: fs), h => by
    obtain ⟨hfirst, hrest⟩ := List.forall_mem_append.mp h
    have hparts := (scans_text f hfirst).append (scans_restText connective (g :: fs) hrest)
      (opens_restText connective (g :: fs))
    -- no name runs on into what follows it, so the parts can be scanned one by one
    have hopen : Plain "(" := by decide
    have hclose : Scans ")" [] := Plain.scans (by decide)
    have hscan := (hopen.append_scans hparts).append hclose (by decide)
    rw [List.append_nil, ← String.append_assoc] at hscan
    rw [text, parameterNames, leaves, leavesIn, List.filterMap_append]
    exact hscan

theorem scans_restText (connective : Connective) : ∀ fs : List Formula, (∀ p ∈ leavesIn fs, p.Legible) →
    Scans (restText connective fs) (parameterNamesIn fs)
  | [], _ => scans_empty
  | f :: fs, h => by
    obtain ⟨hfirst, hrest⟩ := List.forall_mem_append.mp h
    have hword : Plain connective.text := by cases connective <;> decide
    have hscan := ((plain_keyword hword).append_scans (scans_text f hfirst)).append (scans_restText connective fs hrest)
      (opens_restText connective fs)
    rw [restText, parameterNamesIn, leavesIn, List.filterMap_append]
    exact hscan

end

/-- A formula contributes its parameters to the text of its clause. -/
theorem scans_clauseText : ∀ f : Formula, (∀ p ∈ f.leaves, p.Legible) → Scans f.clauseText f.parameterNames
  | .leaf p, h => scans_text (.leaf p) h
  | .group connective [], h => scans_text (.group connective []) h
  | .group connective [f], h => scans_text (.group connective [f]) h
  | .group connective (f :: g :: fs), h => by
    obtain ⟨hfirst, hrest⟩ := List.forall_mem_append.mp h
    have hscan := (scans_text f hfirst).append (scans_restText connective (g :: fs) hrest)
      (opens_restText connective (g :: fs))
    rw [clauseText, parameterNames, leaves, leavesIn, List.filterMap_append]
    exact hscan

/-- A clause contributes the parameters of all formulas in it; normalization neither drops nor moves them. -/
theorem scans_conjunction {fs : List Formula} (h : ∀ p ∈ leavesIn fs, p.Legible) (clause : Clause) :
    Scans (Query.formulaClause clause (conjunction fs)) (parameterNamesIn fs) := by
  have hleaves := leaves_conjunction fs
  cases hconjunction : conjunction fs with
  | none =>
    rw [hconjunction] at hleaves
    rw [parameterNamesIn, ← hleaves]
    exact scans_empty
  | some f =>
    rw [hconjunction] at hleaves
    have hf : f.leaves = leavesIn fs := hleaves
    have hkeyword : Plain clause.text := by cases clause <;> decide
    rw [parameterNamesIn, ← hf]
    exact (plain_keyword hkeyword).append_scans (scans_clauseText f (hf ▸ h))

end Formula

/-! ## Queries -/

namespace Query

/-- A query whose words are plain and whose predicates are legible. -/
structure Legible (q : Query) : Prop where
  entity : Plain q.entity
  rootAlias : Plain q.rootAlias
  select : ∀ t ∈ q.select, Plain t
  joins : ∀ j ∈ q.joins, Plain j.text
  restrictions : ∀ p ∈ Formula.leavesIn q.restrictions, p.Legible
  groupBys : ∀ t ∈ q.groupBys, Plain t
  havings : ∀ p ∈ Formula.leavesIn q.havings, p.Legible
  order : ∀ k ∈ q.order, Plain k.1

theorem opens_formulaClause (clause : Clause) (f : Option Formula) : Opens (formulaClause clause f) := by
  cases f with
  | none => exact nofun
  | some f => exact opens_keyword _ _

theorem opens_listClause (keyword : String) (items : List String) : Opens (listClause keyword items) := by
  cases items with
  | nil => exact nofun
  | cons item items => exact opens_keyword _ _

theorem scans_listClause {keyword : String} (hkeyword : Plain keyword) {items : List String}
    (hitems : ∀ t ∈ items, Plain t) : Scans (listClause keyword items) [] := by
  cases items with
  | nil => exact scans_empty
  | cons item items =>
    exact (plain_keyword hkeyword).append_scans (scans_intercalate fun t ht => (hitems t ht).scans)

theorem plain_boundText {keyword : String} (hkeyword : Plain keyword) (bound : Option UInt64) :
    Plain (Window.boundText keyword bound) := by
  cases bound with
  | none => exact nofun
  | some n => exact (plain_keyword hkeyword).append (isName_toString _).plain

theorem opens_windowText (w : Window) : Opens w.text := by
  obtain ⟨limit, offset⟩ := w
  cases limit with
  | none =>
    rw [Window.text, show Window.boundText "LIMIT" none = "" from rfl, String.empty_append]
    cases offset with
    | none => exact nofun
    | some n => exact opens_keyword _ _
  | some n =>
    rw [Window.text, Window.boundText, String.append_assoc]
    exact opens_keyword _ _

theorem plain_joins {joins : List Join} (h : ∀ j ∈ joins, Plain j.text) :
    Plain (String.join (joins.map fun j => " " ++ j.text)) := by
  unfold Plain
  rw [String.toList_join]
  intro c hc
  obtain ⟨t, ht, hct⟩ := List.mem_flatMap.mp hc
  obtain ⟨j, hj, rfl⟩ := List.mem_map.mp ht
  exact Plain.append (by decide) (h j hj) c hct

theorem opens_joins (joins : List Join) : Opens (String.join (joins.map fun j => " " ++ j.text)) := by
  cases joins with
  | nil => exact nofun
  | cons j joins =>
    rw [List.map_cons, String.join_cons, String.append_assoc]
    exact opens_append (by decide) (by decide) _

/-- **A query contributes the parameters of both its clauses**, and no other part of its text is read as a
    parameter. -/
theorem scans_text {q : Query} (h : q.Legible) :
    Scans q.text (Formula.parameterNamesIn q.restrictions ++ Formula.parameterNamesIn q.havings) := by
  have hselect : Scans ("SELECT " ++ String.intercalate ", " q.select) [] :=
    Plain.append_scans (by decide) (scans_intercalate fun t ht => (h.select t ht).scans)
  have hfrom : Scans (" FROM " ++ q.entity ++ " " ++ q.rootAlias) [] :=
    (((Plain.append (by decide) h.entity).append (by decide)).append h.rootAlias).scans
  have hopens : Opens (" FROM " ++ q.entity ++ " " ++ q.rootAlias) := by
    rw [String.append_assoc, String.append_assoc]
    exact opens_append (by decide) (by decide) _
  have hhead := hselect.append hfrom hopens
  rw [← String.append_assoc, ← String.append_assoc, ← String.append_assoc] at hhead
  have hgroup : Scans (listClause "GROUP BY" q.groupBys) [] := scans_listClause (by decide) h.groupBys
  have horder : Scans (listClause "ORDER BY" (q.order.map fun k => k.1 ++ " " ++ k.2.text)) [] := by
    refine scans_listClause (by decide) fun t ht => ?_
    obtain ⟨⟨property, direction⟩, hk, rfl⟩ := List.mem_map.mp ht
    have hdirection : Plain direction.text := by cases direction <;> decide
    exact ((h.order _ hk).append (by decide)).append hdirection
  have hwindow : Scans q.window.text [] :=
    ((plain_boundText (by decide) _).append (plain_boundText (by decide) _)).scans
  -- from here on every section begins with a space, so it ends whatever stood before it
  have hjoins := hhead.append (plain_joins h.joins).scans (opens_joins q.joins)
  have hrestricted := hjoins.append (Formula.scans_conjunction h.restrictions .restriction)
    (opens_formulaClause .restriction _)
  have hgrouped := hrestricted.append hgroup (opens_listClause _ _)
  have hhaving := hgrouped.append (Formula.scans_conjunction h.havings .having) (opens_formulaClause .having _)
  have hordered := hhaving.append horder (opens_listClause _ _)
  have hscan := hordered.append hwindow (opens_windowText q.window)
  simp only [List.append_nil, List.nil_append] at hscan
  exact hscan

end Query

/-! ## Requests -/

/-- The texts of a select item. -/
def SelectItem.words : SelectItem → List String
  | .raw text => [text]
  | .aliased expression name => [expression, name]
  | .joined name => [name]

namespace Scope

/-- Every text that is copied into the query of a request as it is has neither a colon nor a quote. -/
structure PlainlyWorded (s : Scope) (r : FindRequest) : Prop where
  rootAlias : Plain s.rootAlias
  entity : Plain s.schema.name
  conditions : ∀ a ∈ atomsIn r.conditions, Plain a.property
  selects : ∀ item ∈ r.extras.selects.getD [], ∀ t ∈ item.words, Plain t
  joins : ∀ j ∈ r.extras.leftJoins ++ r.extras.innerJoins, Plain j.1 ∧ Plain j.2
  groupBys : ∀ t ∈ r.extras.groupBys, Plain t
  order : ∀ k ∈ r.order, Plain k.property

theorem plain_resolve {s : Scope} (hroot : Plain s.rootAlias) {name : String} (h : Plain name) :
    Plain (s.resolve name).text := by
  unfold resolve
  split
  · exact (hroot.append (by decide)).append h
  · exact h

/-- A null check has no operand, whether it is written as one or as a null beside a property. -/
theorem argument_of_nullCheck {c : Condition} {a : Atom} (h : c.atom? = some a)
    (htest : a.test = .isNull ∨ a.test = .isNotNull) : a.argument = .absent := by
  cases c with
  | bare property value =>
    cases value <;> (injection h with h; subst h)
    · rfl
    all_goals exact absurd htest (by simp)
  | group clause connective members => exact absurd h (by simp [atom?])
  | isNull property | isNotNull property =>
    injection h with h
    subst h
    rfl
  | _ =>
    injection h with h
    subst h
    exact absurd htest (by simp)

/-- The predicates of compiled conditions are legible when the stem of the supply is. -/
theorem legible_compile {s : Scope} (hroot : Plain s.rootAlias) {stem : String}
    (hstem : isPlainIdentifier stem = true) :
    (∀ c : Condition, ∀ b : Binder, b.supply.stem = stem → (∀ a ∈ c.atoms, Plain a.property) →
        ∀ p ∈ (s.compile c b).1.leaves, p.Legible) ∧
      ∀ cs : List Condition, ∀ b : Binder, b.supply.stem = stem → (∀ a ∈ atomsIn cs, Plain a.property) →
        ∀ p ∈ Formula.leavesIn (s.compileList cs b).1, p.Legible := by
  refine tree_induction ?atom ?group ?nil ?cons
  case atom =>
    intro c a h b hb hatoms p hp
    rw [s.compile_of_atom h] at hp
    obtain rfl := List.mem_singleton.mp hp
    rw [atoms_of_atom h] at hatoms
    refine ⟨plain_resolve hroot (hatoms a List.mem_cons_self), ?_, ?_⟩
    · -- only a parameter has a name, and it is one of the supply
      intro n hn
      cases hargument : a.argument with
      | parameter value =>
        rw [hargument] at hn
        obtain rfl := Option.some.inj hn
        exact isName_nameAt (hb ▸ hstem) b.supply.next
      | literals values =>
        rw [hargument] at hn
        cases hn
      | absent =>
        rw [hargument] at hn
        cases hn
    · -- a null check compares with nothing
      intro htest
      show (a.argument.operand b.supply).parameter? = none
      rw [argument_of_nullCheck h htest]
      rfl
  case group =>
    intro clause connective members ih b hb hatoms
    rw [atoms_group] at hatoms
    exact ih b hb hatoms
  case nil =>
    intro b _ _
    exact nofun
  case cons =>
    intro c cs ih ihs b hb hatoms
    rw [atomsIn_cons] at hatoms
    obtain ⟨hfirst, hrest⟩ := List.forall_mem_append.mp hatoms
    -- names of one supply have one stem
    have hnext : (s.compile c b).2.supply.stem = stem := by
      rw [s.compile_supply]
      exact hb
    exact List.forall_mem_append.mpr ⟨ih b hb hfirst, ihs _ hnext hrest⟩

theorem mem_atomsIn_of_routed {clause : Clause} {conditions : List Condition} {a : Atom}
    (h : a ∈ atomsIn (routed clause conditions)) : a ∈ atomsIn conditions := by
  obtain ⟨n, hn, ha⟩ := List.mem_filterMap.mp h
  obtain ⟨c, hc, hnode⟩ := mem_nodesIn.mp hn
  exact List.mem_filterMap.mpr ⟨n, mem_nodesIn.mpr ⟨c, (List.mem_filter.mp hc).1, hnode⟩, ha⟩

theorem plain_selectText {s : Scope} (hroot : Plain s.rootAlias) {item : SelectItem}
    (h : ∀ t ∈ item.words, Plain t) : Plain (s.selectText item) := by
  cases item with
  | raw text => exact h text List.mem_cons_self
  | joined name => exact h name List.mem_cons_self
  | aliased expression name =>
    have hname : Plain name := h name (List.mem_cons_of_mem _ List.mem_cons_self)
    have hexpression := plain_resolve hroot (h expression List.mem_cons_self)
    exact (hexpression.append (by decide)).append hname

theorem plain_joinText {s : Scope} (hroot : Plain s.rootAlias) (kind : JoinKind) {j : String × String}
    (h : Plain j.1 ∧ Plain j.2) : Plain (s.joinOf kind j).text := by
  have hkind : Plain kind.text := by cases kind <;> decide
  exact (((hkind.append (by decide)).append (plain_resolve hroot h.1)).append (by decide)).append h.2

theorem plain_groupByText {s : Scope} (hroot : Plain s.rootAlias) (extras : Extras) {name : String}
    (h : Plain name) : Plain (s.groupByText extras name) := by
  unfold groupByText
  split
  · exact h
  · exact plain_resolve hroot h

/-- The query of a plainly worded request is legible. -/
theorem found_legible {s : Scope} {r : FindRequest} {supply : NameSupply} (hwords : s.PlainlyWorded r)
    (hstem : isPlainIdentifier supply.stem = true) : (s.found r supply).Legible where
  entity := hwords.entity
  rootAlias := hwords.rootAlias
  select := by
    have hselects := hwords.selects
    show ∀ t ∈ s.selection r.extras, Plain t
    unfold selection
    cases hextras : r.extras.selects with
    | none => exact List.forall_mem_singleton.mpr hwords.rootAlias
    | some items =>
      rw [hextras] at hselects
      intro t ht
      obtain ⟨item, hitem, rfl⟩ := List.mem_map.mp ht
      exact plain_selectText hwords.rootAlias (hselects item hitem)
  joins := by
    obtain ⟨hleft, hinner⟩ := List.forall_mem_append.mp hwords.joins
    refine List.forall_mem_append.mpr ⟨?_, ?_⟩
    · intro j hj
      obtain ⟨pair, hpair, rfl⟩ := List.mem_map.mp hj
      exact plain_joinText hwords.rootAlias .left (hleft pair hpair)
    · intro j hj
      obtain ⟨pair, hpair, rfl⟩ := List.mem_map.mp hj
      exact plain_joinText hwords.rootAlias .inner (hinner pair hpair)
  restrictions := (legible_compile hwords.rootAlias hstem).2 _ _ rfl
    fun a ha => hwords.conditions a (mem_atomsIn_of_routed ha)
  groupBys := by
    intro t ht
    obtain ⟨name, hname, rfl⟩ := List.mem_map.mp ht
    exact plain_groupByText hwords.rootAlias r.extras (hwords.groupBys name hname)
  havings := (legible_compile hwords.rootAlias hstem).2 _ _ rfl
    fun a ha => hwords.conditions a (mem_atomsIn_of_routed ha)
  order := by
    intro k hk
    obtain ⟨key, hkey, rfl⟩ := List.mem_map.mp hk
    exact plain_resolve hwords.rootAlias (hwords.order key hkey)

/-- The parameters of both clauses are the keys of the table. -/
theorem found_parameterNames (s : Scope) (r : FindRequest) (supply : NameSupply) :
    Formula.parameterNamesIn (s.found r supply).restrictions ++
        Formula.parameterNamesIn (s.found r supply).havings = (s.found r supply).bindings.keys := by
  show (Formula.leavesIn _).filterMap _ ++ (Formula.leavesIn _).filterMap _ =
    (supply.label (boundBy r.conditions)).map Prod.fst
  rw [found, compileList_parameters, compileList_parameters, havingBinder_supply, boundBy,
    NameSupply.label_append, List.map_append, NameSupply.label_keys, NameSupply.label_keys]
  rfl

/-! ## Result -/

/-- **Text and table agree.** Let a request be plainly worded and its conditions legal, let names be drawn behind a
    plain stem, and let their counter not go round. Then the names that are read in the text of the query, with
    all literals skipped, are the keys of its table, in order. They are numbered without gap from the index of the
    supply, and no name comes twice. -/
theorem placeholders_agree (s : Scope) (r : FindRequest) (supply : NameSupply)
    (hstem : isPlainIdentifier supply.stem = true) (hwords : s.PlainlyWorded r)
    (hlegal : AllLegal (inspected r.conditions))
    (hroom : supply.next.toNat + drawnBy r.conditions ≤ UInt64.size) :
    ∃ q, (s.find r).runOn supply = (.ok q, supply.skip (drawnBy r.conditions)) ∧
      placeholders q.text = q.bindings.keys ∧
      q.bindings.keys = ((List.range (drawnBy r.conditions)).map fun i =>
        supply.stem ++ "_" ++ toString (supply.next.toNat + i)) ∧
      q.bindings.keys.Nodup := by
  have hdrawn : drawnBy r.conditions ≤ UInt64.size := by omega
  have hkeys : (s.found r supply).bindings.keys = supply.names (drawnBy r.conditions) := by
    rw [← length_boundBy]
    exact supply.label_keys _
  refine ⟨s.found r supply, s.find_of_legal r supply hlegal hdrawn, ?_, ?_, ?_⟩
  · -- the text mentions the parameters of both clauses in order, and these are the keys
    have hscan := Query.scans_text (found_legible hwords hstem)
    rw [found_parameterNames] at hscan
    exact hscan.placeholders_eq
  · -- the counter does not wrap, so a name has the number that is counted
    rw [hkeys, NameSupply.names_eq_map]
    refine List.map_congr_left fun i hi => NameSupply.name_skip_of_lt ?_
    have hi := List.mem_range.mp hi
    omega
  · rw [hkeys]
    exact supply.nodup_names hdrawn

/-- Literals that look like parameters, and a name that begins like another one. -/
theorem placeholders_agree_with_literals :
    let s : Scope := ⟨"entity", ⟨"Product", "product", ["name", "price"], ["category"], ["id"]⟩⟩
    let conditions : List Condition :=
      [.compare .having .less "total" (.int 2),
        .inList "status" [.string "it's :p_1", .string ":p_9", .string "'"],
        .group .restriction .or [.like "name" (.string "%"), .notInList "c.code" [.array [.string "':p_1"]]],
        .bare "price" (.int 5)]
    let extras : Extras := ⟨some [.raw "entity", .aliased "price" "total"], [("category", "c")], [], ["name"]⟩
    ∃ q, (s.find ⟨conditions, [⟨"name", .descending⟩], some 10, some 20, extras⟩).runOn ⟨"p", 9⟩ =
        (.ok q, ⟨"p", 12⟩) ∧
      placeholders q.text = ["p_9", "p_10", "p_11"] := by
  intro s conditions extras
  let r : FindRequest := ⟨conditions, [⟨"name", .descending⟩], some 10, some 20, extras⟩
  have hwords : s.PlainlyWorded r := by
    constructor <;> decide
  have hlegal : AllLegal (inspected r.conditions) := firstFlaw?_eq_none_iff.mp rfl
  obtain ⟨q, hrun, hnames, hkeys, -⟩ := s.placeholders_agree r ⟨"p", 9⟩ (by decide) hwords hlegal (by decide)
  have hdrawn : drawnBy r.conditions = 3 := rfl
  refine ⟨q, hrun, ?_⟩
  rw [hnames, hkeys, hdrawn]
  decide

end Scope

end Criteria
