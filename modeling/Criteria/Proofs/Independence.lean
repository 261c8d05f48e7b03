import Criteria.Proofs.Requests

/-!
# `Criteria.Proofs.Independence` — bound values leave no mark on the text of a query

Values that are bound to parameters reach an engine beside the text of a query, never inside it. So two searches
that differ only in such values become the same text with the same parameters. This is a statement about two runs:
`Alike` relates what the runs are given, and each lemma carries it one step further, from single conditions to
whole queries.

## Contents
- **Searches.** `Json.Alike` relates values beside a bare property; `Condition.Alike` and `Condition.AlikeIn` relate
  conditions.
- **Induction.** `alike_induction`, with one case for atoms: alike atoms differ at most in the value of their
  parameter.
- **Steps.** Alike conditions are routed to the same clause (`AlikeIn.routed`), take equally many names
  (`AlikeIn.drawnBy_eq`) and become the same formulas (`compileList_alike`).
- **Result.** `find_independent_of_values`.
-/

namespace Criteria

/-! ## Searches -/

/-- A value that is neither null nor composite. -/
def Json.IsScalar (v : Json) : Prop := v ≠ .null ∧ v.isComposite = false

/-- Two values that may stand in for each other beside a bare property. -/
inductive Json.Alike : Json → Json → Prop where
  | null : Alike .null .null
  | array (items items' : List Json) : Alike (.array items) (.array items')
  | scalar {v w : Json} (hv : v.IsScalar) (hw : w.IsScalar) : Alike v w

namespace Condition

mutual

/-- Two conditions that differ at most in the values that are bound for them. The values of a membership operator
    are written into the query, so they are the same. -/
inductive Alike : Condition → Condition → Prop where
  | bare {v w : Json} (property : String) (h : v.Alike w) : Alike (.bare property v) (.bare property w)
  | group {cs ds : List Condition} (clause : Clause) (connective : Connective) (h : AlikeIn cs ds) :
      Alike (.group clause connective cs) (.group clause connective ds)
  | like (property : String) (v w : Json) : Alike (.like property v) (.like property w)
  | inList (property : String) (values : List Json) : Alike (.inList property values) (.inList property values)
  | notInList (property : String) (values : List Json) :
      Alike (.notInList property values) (.notInList property values)
  | isNull (property : String) : Alike (.isNull property) (.isNull property)
  | isNotNull (property : String) : Alike (.isNotNull property) (.isNotNull property)
  | compare (clause : Clause) (comparison : Comparison) (property : String) (v w : Json) :
      Alike (.compare clause comparison property v) (.compare clause comparison property w)

/-- Equally many conditions that are alike one by one. -/
inductive AlikeIn : List Condition → List Condition → Prop where
  | nil : AlikeIn [] []
  | cons {c d : Condition} {cs ds : List Condition} (h : Alike c d) (hs : AlikeIn cs ds) :
      AlikeIn (c :: cs) (d :: ds)

end

/-! ## Induction -/

/-- Two arguments that are written into a query in the same way. -/
inductive ArgumentAlike : Argument → Argument → Prop where
  | parameter (v w : Json) : ArgumentAlike (.parameter (some v)) (.parameter (some w))
  | same (argument : Argument) : ArgumentAlike argument argument

theorem ArgumentAlike.operand_eq {x y : Argument} (h : ArgumentAlike x y) (supply : NameSupply) :
    x.operand supply = y.operand supply := by
  cases h <;> rfl

theorem ArgumentAlike.length_value? {x y : Argument} (h : ArgumentAlike x y) :
    x.value?.toList.length = y.value?.toList.length := by
  cases h <;> rfl

/-- Two tests of the same kind on the same property. -/
structure AtomAlike (a a' : Atom) : Prop where
  property : a.property = a'.property
  test : a.test = a'.test
  argument : ArgumentAlike a.argument a'.argument

theorem atom?_of_scalar (property : String) {v : Json} (h : v.IsScalar) :
    (bare property v).atom? = some ⟨property, .compare .equal, .parameter (some v)⟩ := by
  obtain ⟨hnull, hcomposite⟩ := h
  cases v with
  | null => exact absurd rfl hnull
  | array | object => exact absurd hcomposite nofun
  | _ => rfl

section Induction

variable {motive : Condition → Condition → Prop} {motiveIn : List Condition → List Condition → Prop}

mutual

theorem alike_induction_node
    (atom : ∀ c d a a', c.atom? = some a → d.atom? = some a' → AtomAlike a a' → motive c d)
    (group : ∀ clause connective cs ds, motiveIn cs ds →
      motive (.group clause connective cs) (.group clause connective ds))
    (nil : motiveIn [] []) (cons : ∀ c d cs ds, motive c d → motiveIn cs ds → motiveIn (c :: cs) (d :: ds))
    {c d : Condition} : Alike c d → motive c d
  | .bare _ .null => atom _ _ _ _ rfl rfl ⟨rfl, rfl, .same _⟩
  | .bare _ (.array ..) => atom _ _ _ _ rfl rfl ⟨rfl, rfl, .parameter ..⟩
  | .bare property (.scalar hv hw) =>
    atom _ _ _ _ (atom?_of_scalar property hv) (atom?_of_scalar property hw) ⟨rfl, rfl, .parameter ..⟩
  | .group clause connective h =>
    group clause connective _ _ (alike_induction_list atom group nil cons h)
  | .like .. => atom _ _ _ _ rfl rfl ⟨rfl, rfl, .parameter ..⟩
  | .inList .. => atom _ _ _ _ rfl rfl ⟨rfl, rfl, .same _⟩
  | .notInList .. => atom _ _ _ _ rfl rfl ⟨rfl, rfl, .same _⟩
  | .isNull _ => atom _ _ _ _ rfl rfl ⟨rfl, rfl, .same _⟩
  | .isNotNull _ => atom _ _ _ _ rfl rfl ⟨rfl, rfl, .same _⟩
  | .compare .. => atom _ _ _ _ rfl rfl ⟨rfl, rfl, .parameter ..⟩

theorem alike_induction_list
    (atom : ∀ c d a a', c.atom? = some a → d.atom? = some a' → AtomAlike a a' → motive c d)
    (group : ∀ clause connective cs ds, motiveIn cs ds →
      motive (.group clause connective cs) (.group clause connective ds))
    (nil : motiveIn [] []) (cons : ∀ c d cs ds, motive c d → motiveIn cs ds → motiveIn (c :: cs) (d :: ds))
    {cs ds : List Condition} : AlikeIn cs ds → motiveIn cs ds
  | .nil => nil
  | .cons h hs =>
    cons _ _ _ _ (alike_induction_node atom group nil cons h) (alike_induction_list atom group nil cons hs)

end

/-- **Induction over alike conditions.** The cases are those of a single tree, with both trees side by side. -/
theorem alike_induction
    (atom : ∀ c d a a', c.atom? = some a → d.atom? = some a' → AtomAlike a a' → motive c d)
    (group : ∀ clause connective cs ds, motiveIn cs ds →
      motive (.group clause connective cs) (.group clause connective ds))
    (nil : motiveIn [] []) (cons : ∀ c d cs ds, motive c d → motiveIn cs ds → motiveIn (c :: cs) (d :: ds)) :
    (∀ c d, Alike c d → motive c d) ∧ ∀ cs ds, AlikeIn cs ds → motiveIn cs ds :=
  ⟨fun _ _ => alike_induction_node atom group nil cons, fun _ _ => alike_induction_list atom group nil cons⟩

end Induction

/-! ## Steps -/

theorem Alike.route_eq {c d : Condition} (h : Alike c d) : c.route = d.route := by
  cases h <;> rfl

/-- Routing looks at keywords only. -/
theorem AlikeIn.routed (clause : Clause) {cs ds : List Condition} :
    AlikeIn cs ds → AlikeIn (routed clause cs) (routed clause ds)
  | .nil => .nil
  | @AlikeIn.cons c d _ _ h hs => by
    unfold Criteria.routed
    by_cases hc : c.route = clause
    · have hd : d.route = clause := h.route_eq ▸ hc
      rw [List.filter_cons_of_pos (by simpa using hc), List.filter_cons_of_pos (by simpa using hd)]
      exact .cons h (hs.routed clause)
    · have hd : d.route ≠ clause := h.route_eq ▸ hc
      rw [List.filter_cons_of_neg (by simpa using hc), List.filter_cons_of_neg (by simpa using hd)]
      exact hs.routed clause

theorem length_values_of_atoms {c d : Condition} {a a' : Atom} (hc : c.atom? = some a) (hd : d.atom? = some a')
    (h : AtomAlike a a') : c.values.length = d.values.length := by
  rw [values_of_atom hc, values_of_atom hd]
  exact h.argument.length_value?

theorem length_values_of_alike :
    (∀ c d, Alike c d → c.values.length = d.values.length) ∧
      ∀ cs ds, AlikeIn cs ds → (valuesIn cs).length = (valuesIn ds).length := by
  apply alike_induction
  case atom =>
    intro c d a a' hc hd halike
    exact length_values_of_atoms hc hd halike
  case group =>
    intro clause connective cs ds ih
    rw [values_group, values_group]
    exact ih
  case nil =>
    rfl
  case cons =>
    intro c d cs ds ih ihs
    rw [valuesIn_cons, valuesIn_cons, List.length_append, List.length_append, ih, ihs]

/-- Alike conditions of a clause bind equally many values. -/
theorem AlikeIn.length_routed {cs ds : List Condition} (h : AlikeIn cs ds) (clause : Clause) :
    (valuesIn (Criteria.routed clause cs)).length = (valuesIn (Criteria.routed clause ds)).length :=
  length_values_of_alike.2 _ _ (h.routed clause)

/-- Alike searches take equally many names. -/
theorem AlikeIn.drawnBy_eq {cs ds : List Condition} (h : AlikeIn cs ds) : drawnBy cs = drawnBy ds := by
  rw [drawnBy, drawnBy, h.length_routed, h.length_routed]

end Condition

namespace Scope

open Condition

/-- What is compiled from alike conditions is the same, and so are the names that are left. -/
theorem compile_alike (s : Scope) :
    (∀ c d, Alike c d → ∀ b b' : Binder, b.supply = b'.supply →
        (s.compile c b).1 = (s.compile d b').1 ∧ (s.compile c b).2.supply = (s.compile d b').2.supply) ∧
      ∀ cs ds, AlikeIn cs ds → ∀ b b' : Binder, b.supply = b'.supply →
        (s.compileList cs b).1 = (s.compileList ds b').1 ∧
          (s.compileList cs b).2.supply = (s.compileList ds b').2.supply := by
  apply alike_induction
  case atom =>
    intro c d a a' hc hd halike b b' hb
    constructor
    · rw [s.compile_of_atom hc, s.compile_of_atom hd, halike.property, halike.test, hb,
        halike.argument.operand_eq]
    · rw [s.compile_supply, s.compile_supply, hb, length_values_of_atoms hc hd halike]
  case group =>
    intro clause connective cs ds ih b b' hb
    obtain ⟨hformulas, hsupply⟩ := ih b b' hb
    exact ⟨congrArg (Formula.group connective) hformulas, hsupply⟩
  case nil =>
    intro b b' hb
    exact ⟨rfl, hb⟩
  case cons =>
    intro c d cs ds ih ihs b b' hb
    obtain ⟨hfirst, hnext⟩ := ih b b' hb
    -- the first conditions draw as many names, so the others begin with the same supply
    obtain ⟨hrest, hlast⟩ := ihs _ _ hnext
    refine ⟨?_, hlast⟩
    show (s.compile c b).1 :: _ = (s.compile d b').1 :: _
    rw [hfirst]
    exact congrArg _ hrest

/-- Alike conditions become the same formulas when the next names are the same. -/
theorem compileList_alike (s : Scope) {cs ds : List Condition} (h : AlikeIn cs ds) {b b' : Binder}
    (hb : b.supply = b'.supply) : (s.compileList cs b).1 = (s.compileList ds b').1 :=
  (s.compile_alike.2 cs ds h b b' hb).1

/-- The queries of two alike requests have everything in common except for the values of their parameters. -/
theorem found_alike (s : Scope) (r : FindRequest) {conditions : List Condition}
    (halike : AlikeIn r.conditions conditions) (supply : NameSupply) :
    s.found { r with conditions } supply =
      { s.found r supply with bindings := ⟨supply.label (boundBy conditions)⟩ } := by
  have hrestriction : (s.compileList (routed .restriction r.conditions) (Binder.start supply)).1 =
      (s.compileList (routed .restriction conditions) (Binder.start supply)).1 :=
    s.compileList_alike (halike.routed .restriction) rfl
  have hsupply : (havingBinder r.conditions supply).supply = (havingBinder conditions supply).supply := by
    rw [havingBinder_supply, havingBinder_supply, halike.length_routed]
  have hhaving : (s.compileList (routed .having r.conditions) (havingBinder r.conditions supply)).1 =
      (s.compileList (routed .having conditions) (havingBinder conditions supply)).1 :=
    s.compileList_alike (halike.routed .having) hsupply
  unfold found
  rw [hrestriction, hhaving]

/-! ## Result -/

/-- **Bound values leave no mark on a query.** Two requests that differ only in values that are bound have the same
    formulas, the same text and the same parameters in the same order, and they leave the supply at the same index.
    Nothing but the values of the parameters tells them apart: these are the values of each request, those of the
    restriction first and in document order. -/
theorem find_independent_of_values (s : Scope) (r : FindRequest) (conditions : List Condition)
    (supply : NameSupply) (halike : AlikeIn r.conditions conditions)
    (hlegal : AllLegal (inspected r.conditions)) (hlegal' : AllLegal (inspected conditions))
    (hroom : drawnBy r.conditions ≤ UInt64.size) :
    ∃ q q' after,
      (s.find r).runOn supply = (.ok q, after) ∧
        (s.find { r with conditions }).runOn supply = (.ok q', after) ∧
        (q.restriction = q'.restriction ∧ q.having = q'.having ∧ q.text = q'.text) ∧
        q.bindings.keys = q'.bindings.keys ∧
        q' = { q with bindings := q'.bindings } ∧
        q.bindings.values = boundBy r.conditions ∧ q'.bindings.values = boundBy conditions := by
  have hdrawn := halike.drawnBy_eq
  have hfind := s.find_of_legal r supply hlegal hroom
  have hfind' := s.find_of_legal { r with conditions } supply hlegal' (hdrawn ▸ hroom)
  rw [s.found_alike r halike, ← hdrawn] at hfind'
  refine ⟨_, _, _, hfind, hfind', ⟨rfl, rfl, rfl⟩, ?_, rfl, ?_, ?_⟩
  · show (supply.label (boundBy r.conditions)).map Prod.fst = (supply.label (boundBy conditions)).map Prod.fst
    rw [NameSupply.label_keys, NameSupply.label_keys, length_boundBy, length_boundBy, hdrawn]
  · exact supply.label_values _
  · exact supply.label_values _

/-- Values that look like parts of a query, in both clauses and below a group. -/
theorem find_independent_of_values_hostile :
    let s : Scope := ⟨"entity", ⟨"Product", "product", ["name", "price"], [], ["id"]⟩⟩
    let search (name status total : String) : List Condition :=
      [.compare .having .less "total" (.string total),
        .group .restriction .or [.like "name" (.string name), .inList "price" [.int 1], .bare "parent" .null],
        .bare "status" (.string status)]
    let request (conditions : List Condition) : FindRequest := ⟨conditions, [], some 5, none, .none⟩
    let plain := search "a%" "new" "10"
    let hostile := search "' OR 1=1" ":p_2" "0) OR (1"
    ∃ q q' after,
      (s.find (request plain)).runOn ⟨"p", 1⟩ = (.ok q, after) ∧
        (s.find (request hostile)).runOn ⟨"p", 1⟩ = (.ok q', after) ∧
        q.text = q'.text ∧
        q.bindings.values = [.string "a%", .string "new", .string "10"] ∧
        q'.bindings.values = [.string "' OR 1=1", .string ":p_2", .string "0) OR (1"] := by
  intro s search request plain hostile
  have halike : AlikeIn plain hostile :=
    .cons (.compare ..)
      (.cons (.group _ _ (.cons (.like ..) (.cons (.inList ..) (.cons (.bare _ .null) .nil))))
        (.cons (.bare _ (.scalar ⟨nofun, rfl⟩ ⟨nofun, rfl⟩)) .nil))
  have hlegal : AllLegal (inspected plain) := firstFlaw?_eq_none_iff.mp rfl
  have hlegal' : AllLegal (inspected hostile) := firstFlaw?_eq_none_iff.mp rfl
  obtain ⟨q, q', after, hrun, hrun', ⟨-, -, htext⟩, -, -, hvalues, hvalues'⟩ :=
    s.find_independent_of_values (request plain) hostile ⟨"p", 1⟩ halike hlegal hlegal' (by decide)
  exact ⟨q, q', after, hrun, hrun', htext, hvalues, hvalues'⟩

end Scope

end Criteria
