import Criteria.Proofs.Renaming
import Criteria.Proofs.Requests

/-!
# `Criteria.Proofs.Composition` — conditions that are applied in two steps

Conditions may be applied all at once, or some of them first and the others later. Both ways accept the same
conditions and take the same names, but they hand them out differently: at once, the restriction of all
conditions is compiled before any condition after grouping, while in two steps the conditions after grouping of
the first step come before the restriction of the second. So two blocks of names change places, and this is all
that changes.

## Contents
- **Lists.** What `drawnBy` and `boundBy` make of a list that is put together.
- **Clauses.** `compileList_routed_append`: a clause is compiled in two pieces, up to names.
- **Tables.** `applied_bindings_label`: a table of labels grows at its end.
- **Names.** `mergeRenaming` lets the two blocks change places; `carries_mergeRenaming` follows the names of
  every list of conditions, and `label_merged` their values.
- **Result.** `Query.Permutes`, and `applyConditions_append`.
-/

namespace Criteria

open Condition NameSupply Scope

/-! ## Lists -/

theorem valuesIn_routed_append (clause : Clause) (as bs : List Condition) :
    valuesIn (routed clause (as ++ bs)) = valuesIn (routed clause as) ++ valuesIn (routed clause bs) := by
  rw [routed_append, valuesIn_append]

theorem boundBy_append (as bs : List Condition) :
    boundBy (as ++ bs) =
      valuesIn (routed .restriction as) ++ valuesIn (routed .restriction bs) ++
        (valuesIn (routed .having as) ++ valuesIn (routed .having bs)) := by
  rw [boundBy, valuesIn_routed_append, valuesIn_routed_append]

theorem drawnBy_append (as bs : List Condition) : drawnBy (as ++ bs) = drawnBy as + drawnBy bs := by
  simp only [drawnBy, valuesIn_routed_append, List.length_append]
  omega

namespace Scope

/-! ## Clauses -/

/-- A clause of conditions that are put together consists of the clauses of both, where a renaming carries the
    names that each of them draws on its own to those that it draws behind the other. -/
theorem compileList_routed_append (s : Scope) (clause : Clause) (as bs : List Condition) {ρ : String → String}
    {b₁ b₂ b : Binder} (hfirst : Carries ρ b₁.supply b.supply (valuesIn (routed clause as)).length)
    (hsecond : Carries ρ b₂.supply (b.supply.skip (valuesIn (routed clause as)).length)
      (valuesIn (routed clause bs)).length) :
    (s.compileList (routed clause (as ++ bs)) b).1 =
      ((s.compileList (routed clause as) b₁).1 ++ (s.compileList (routed clause bs) b₂).1).map
        (Formula.rename ρ) := by
  have hsupply : (s.compileList (routed clause as) b).2.supply =
      b.supply.skip (valuesIn (routed clause as)).length := by
    rw [s.compileList_binder, Binder.bindEach_supply]
  rw [← hsupply] at hsecond
  rw [routed_append, s.compileList_append, s.compileList_rename hfirst, s.compileList_rename hsecond,
    List.map_append]

/-! ## Tables -/

/-- **The step of a table.** Conditions that are applied to a table of labels put their own labels behind them. -/
theorem applied_bindings_label (s : Scope) {q : Query} {supply : NameSupply} {vs : List Json}
    {conditions : List Condition} (hq : q.bindings = ⟨supply.label vs⟩)
    (hroom : vs.length + drawnBy conditions ≤ UInt64.size) :
    (s.applied q conditions (supply.skip vs.length)).bindings = ⟨supply.label (vs ++ boundBy conditions)⟩ := by
  have hlength : (vs ++ boundBy conditions).length ≤ UInt64.size := by
    rwa [List.length_append, length_boundBy]
  rw [s.applied_bindings_eq_setAll q _ (by omega), hq, ← Bindings.ofList_label supply vs (by omega),
    ← Bindings.ofList_label supply _ hlength, label_append, OrderedMap.ofList, OrderedMap.ofList,
    OrderedMap.setAll_append]

/-- Conditions that are applied in two steps to a query without parameters fill its table in these steps. -/
theorem applied_applied_bindings (s : Scope) {q : Query} (hq : q.bindings = .empty) (as bs : List Condition)
    {supply : NameSupply} (hroom : drawnBy as + drawnBy bs ≤ UInt64.size) :
    (s.applied (s.applied q as supply) bs (supply.skip (drawnBy as))).bindings =
      ⟨supply.label (boundBy as ++ boundBy bs)⟩ := by
  have hfirst : (s.applied q as supply).bindings = ⟨supply.label (boundBy as)⟩ := by
    rw [s.applied_of_empty hq supply (by omega)]
  rw [← length_boundBy as] at hroom ⊢
  exact s.applied_bindings_label hfirst hroom

end Scope

/-! ## Names -/

/-- The renaming that turns the query of two steps into the query of one: the names that the first step draws
    after grouping and those that the second step draws for the restriction change places. -/
def mergeRenaming (as bs : List Condition) (supply : NameSupply) : Equiv.Perm String :=
  (supply.skip (valuesIn (routed .restriction as)).length).exchange (valuesIn (routed .having as)).length
    (valuesIn (routed .restriction bs)).length

theorem mergeRenaming_of_not_mem {as bs : List Condition} {supply : NameSupply} {name : String}
    (h : name ∉ supply.names (drawnBy (as ++ bs))) : mergeRenaming as bs supply name = name := by
  apply exchange_of_not_mem
  rw [mem_names] at h ⊢
  rintro ⟨i, hi, rfl⟩
  refine h ⟨(valuesIn (routed .restriction as)).length + i, ?_, by rw [skip_skip]⟩
  rw [drawnBy_append, drawnBy, drawnBy]
  omega

theorem mergeRenaming_eq_one {as bs : List Condition} (supply : NameSupply)
    (hroom : drawnBy (as ++ bs) ≤ UInt64.size)
    (h : valuesIn (routed .having as) = [] ∨ valuesIn (routed .restriction bs) = []) :
    mergeRenaming as bs supply = 1 := by
  rw [drawnBy_append, drawnBy, drawnBy] at hroom
  apply exchange_eq_one _ (by omega)
  simpa only [List.length_eq_zero_iff] using h

/-- What the renaming does to the names of the four lists of conditions, step by step and clause by clause. -/
theorem carries_mergeRenaming (as bs : List Condition) (supply : NameSupply)
    (hroom : drawnBy (as ++ bs) ≤ UInt64.size) :
    let ρ := mergeRenaming as bs supply
    let second := supply.skip (drawnBy as)
    let both := (havingBinder (as ++ bs) supply).supply
    Carries ρ supply supply (valuesIn (routed .restriction as)).length ∧
      Carries ρ (havingBinder as supply).supply both (valuesIn (routed .having as)).length ∧
      Carries ρ second (supply.skip (valuesIn (routed .restriction as)).length)
        (valuesIn (routed .restriction bs)).length ∧
      Carries ρ (havingBinder bs second).supply (both.skip (valuesIn (routed .having as)).length)
        (valuesIn (routed .having bs)).length := by
  rw [drawnBy_append, drawnBy, drawnBy, ← Nat.add_assoc] at hroom
  simp only [havingBinder_supply, skip_skip, drawnBy, valuesIn_routed_append, List.length_append]
  exact supply.exchange_blocks hroom

/-- The tables of two steps and of one bind the same values, up to the renaming. -/
theorem label_merged (as bs : List Condition) (supply : NameSupply)
    (hroom : drawnBy (as ++ bs) ≤ UInt64.size) :
    ((supply.label (boundBy as ++ boundBy bs)).map (Prod.map (mergeRenaming as bs supply) id)).Perm
      (supply.label (boundBy (as ++ bs))) := by
  rw [drawnBy_append, drawnBy, drawnBy, ← Nat.add_assoc] at hroom
  rw [boundBy_append]
  exact supply.label_exchange _ _ _ _ hroom

/-- Where no names change places, both ways label the values in the same order. -/
theorem boundBy_append_of_nil {as bs : List Condition}
    (h : valuesIn (routed .having as) = [] ∨ valuesIn (routed .restriction bs) = []) :
    boundBy (as ++ bs) = boundBy as ++ boundBy bs := by
  rw [boundBy_append, boundBy, boundBy]
  rcases h with h | h <;> simp [h]

/-! ## Result -/

/-- Two queries bind the same names, and a permutation of these names turns the one into the other. -/
structure Query.Permutes (names : List String) (ρ : Equiv.Perm String) (q q' : Query) : Prop where
  outside : ∀ name, name ∉ names → ρ name = name
  keys : q.bindings.keys = names
  keys' : q'.bindings.keys = names
  formulas : Query.Renames ρ q q'
  table : (q.bindings.toList.map (Prod.map ρ id)).Perm q'.bindings.toList
  /-- The other parts are those of the first query. -/
  others : q' = { q with restrictions := q'.restrictions, havings := q'.havings, bindings := q'.bindings }

namespace Scope

/-- The queries of two steps and of one have the same formulas in the same order, up to the renaming. -/
theorem renames_merged (s : Scope) {q : Query} (hwhere : q.restrictions = []) (hhaving : q.havings = [])
    (as bs : List Condition) (supply : NameSupply) (hroom : drawnBy (as ++ bs) ≤ UInt64.size) :
    Query.Renames (mergeRenaming as bs supply)
      (s.applied (s.applied q as supply) bs (supply.skip (drawnBy as))) (s.applied q (as ++ bs) supply) := by
  obtain ⟨hwa, hha, hwb, hhb⟩ := carries_mergeRenaming as bs supply hroom
  constructor
  · show q.restrictions ++ _ = List.map _ (q.restrictions ++ _ ++ _)
    rw [hwhere, List.nil_append, List.nil_append]
    exact s.compileList_routed_append .restriction as bs hwa hwb
  · show q.havings ++ _ = List.map _ (q.havings ++ _ ++ _)
    rw [hhaving, List.nil_append, List.nil_append]
    exact s.compileList_routed_append .having as bs hha hhb

/-- The query of two steps turns into the query of one. -/
theorem permutes_merged (s : Scope) (as bs : List Condition) (supply : NameSupply)
    (hroom : drawnBy (as ++ bs) ≤ UInt64.size) :
    Query.Permutes (supply.names (drawnBy (as ++ bs))) (mergeRenaming as bs supply)
      (s.applied (s.applied s.base as supply) bs (supply.skip (drawnBy as)))
      (s.applied s.base (as ++ bs) supply) := by
  have htwice : (s.applied (s.applied s.base as supply) bs (supply.skip (drawnBy as))).bindings =
      ⟨supply.label (boundBy as ++ boundBy bs)⟩ :=
    s.applied_applied_bindings rfl as bs (drawnBy_append as bs ▸ hroom)
  have honce : (s.applied s.base (as ++ bs) supply).bindings = ⟨supply.label (boundBy (as ++ bs))⟩ :=
    congrArg Query.bindings (s.applied_of_empty rfl supply hroom)
  constructor
  case outside => exact fun name => mergeRenaming_of_not_mem
  case keys =>
    rw [htwice]
    show (supply.label _).map Prod.fst = _
    rw [label_keys, List.length_append, length_boundBy, length_boundBy, ← drawnBy_append]
  case keys' =>
    rw [honce]
    show (supply.label _).map Prod.fst = _
    rw [label_keys, length_boundBy]
  case formulas => exact s.renames_merged rfl rfl as bs supply hroom
  case table =>
    rw [htwice, honce]
    exact label_merged as bs supply hroom
  case others => rfl

/-- Where no names change places, the query of two steps is the query of one. -/
theorem applied_append_of_nil (s : Scope) {as bs : List Condition} {supply : NameSupply}
    (hroom : drawnBy (as ++ bs) ≤ UInt64.size)
    (h : valuesIn (routed .having as) = [] ∨ valuesIn (routed .restriction bs) = []) :
    s.applied (s.applied s.base as supply) bs (supply.skip (drawnBy as)) = s.applied s.base (as ++ bs) supply := by
  have hpermutes := s.permutes_merged as bs supply hroom
  have hbindings : (s.applied (s.applied s.base as supply) bs (supply.skip (drawnBy as))).bindings =
      (s.applied s.base (as ++ bs) supply).bindings := by
    rw [s.applied_applied_bindings rfl as bs (drawnBy_append as bs ▸ hroom), s.applied_of_empty rfl supply hroom,
      boundBy_append_of_nil h]
  rw [mergeRenaming_eq_one supply hroom h] at hpermutes
  obtain ⟨hrestrictions, hhavings⟩ := hpermutes.formulas.formulas_eq
  rw [hpermutes.others, ← hrestrictions, ← hhavings, ← hbindings]

/-- **Conditions compose.** Conditions that are applied in two steps are accepted exactly when they are accepted
    at once. Both ways end at the same supply and bind the same names, and a permutation of these names turns the
    one query into the other. Where the first step binds nothing after grouping, or the second nothing in the
    restriction, the queries are equal. -/
theorem applyConditions_append (s : Scope) (as bs : List Condition) (supply : NameSupply) :
    let twice : Naming Query := do
      let q ← s.applyConditions s.base as
      s.applyConditions q bs
    let once : Naming Query := s.applyConditions s.base (as ++ bs)
    ((∃ q after, twice.runOn supply = (.ok q, after)) ↔ ∃ q after, once.runOn supply = (.ok q, after)) ∧
      ∀ q after q' after', twice.runOn supply = (.ok q, after) → once.runOn supply = (.ok q', after') →
        after = after' ∧ (drawnBy (as ++ bs) ≤ UInt64.size →
          ∃ ρ, Query.Permutes (supply.names (drawnBy (as ++ bs))) ρ q q' ∧
            (valuesIn (routed .having as) = [] ∨ valuesIn (routed .restriction bs) = [] → ρ = 1 ∧ q = q')) := by
  intro twice once
  refine ⟨?_, ?_⟩
  · -- both ways look at the same nodes, in another order
    have htwice := (s.vets_applyConditions s.base as).accepts_bind
      (fun q => s.vets_applyConditions q bs) supply
    have honce := (s.vets_applyConditions s.base (as ++ bs)).accepts supply
    rw [allLegal_inspected_append] at honce
    exact htwice.trans honce.symm
  · intro q after q' after' htwice honce
    -- what succeeds has a known result, so the two results can be compared
    obtain ⟨q₁, supply₁, hfirst, hsecond⟩ := Naming.bind_ok htwice
    obtain ⟨rfl, rfl⟩ := applyConditions_ok hfirst
    obtain ⟨rfl, rfl⟩ := applyConditions_ok hsecond
    obtain ⟨rfl, rfl⟩ := applyConditions_ok honce
    refine ⟨by rw [skip_skip, drawnBy_append], fun hroom => ?_⟩
    refine ⟨mergeRenaming as bs supply, s.permutes_merged as bs supply hroom, fun hnil => ?_⟩
    exact ⟨mergeRenaming_eq_one supply hroom hnil, s.applied_append_of_nil hroom hnil⟩

/-- A parameter after grouping in the first step, and one of the restriction in the second, on a supply in use;
    in the other order of the steps, nothing changes its place. -/
theorem applyConditions_append_interleaved :
    let s : Scope := ⟨"entity", ⟨"Product", "product", ["name", "price"], [], ["id"]⟩⟩
    let as : List Condition := [.compare .having .less "total" (.int 2), .like "name" (.string "%a%")]
    let bs : List Condition := [.group .restriction .or [.bare "status" (.bool true), .isNull "price"]]
    let twice (as bs : List Condition) : Naming Query := do
      let q ← s.applyConditions s.base as
      s.applyConditions q bs
    let once (as bs : List Condition) : Naming Query := s.applyConditions s.base (as ++ bs)
    (∃ q q' ρ, (twice as bs).runOn ⟨"p", 7⟩ = (.ok q, ⟨"p", 10⟩) ∧
        (once as bs).runOn ⟨"p", 7⟩ = (.ok q', ⟨"p", 10⟩) ∧ Query.Permutes ["p_7", "p_8", "p_9"] ρ q q' ∧
        q.bindings.toList = [("p_7", .string "%a%"), ("p_8", .int 2), ("p_9", .bool true)] ∧
        q'.bindings.toList = [("p_7", .string "%a%"), ("p_8", .bool true), ("p_9", .int 2)]) ∧
      ∃ q, (twice bs as).runOn ⟨"p", 7⟩ = (.ok q, ⟨"p", 10⟩) ∧ (once bs as).runOn ⟨"p", 7⟩ = (.ok q, ⟨"p", 10⟩) := by
  intro s as bs twice once
  refine ⟨?_, ?_⟩
  · have h := (s.applyConditions_append as bs ⟨"p", 7⟩).2 _ _ _ _ rfl rfl
    obtain ⟨ρ, hpermutes, -⟩ := h.2 (by decide)
    exact ⟨_, _, ρ, rfl, rfl, hpermutes, by rfl, by rfl⟩
  · have h := (s.applyConditions_append bs as ⟨"p", 7⟩).2 _ _ _ _ rfl rfl
    obtain ⟨ρ, -, hequal⟩ := h.2 (by decide)
    obtain ⟨-, hq⟩ := hequal (.inl rfl)
    exact ⟨_, rfl, congrArg (fun q => (Except.ok q, (⟨"p", 10⟩ : NameSupply))) hq.symm⟩

end Scope

end Criteria
