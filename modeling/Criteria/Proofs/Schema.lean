import Criteria.Property
import Criteria.Stored

/-!
# `Criteria.Proofs.Schema` — what is known of a schema

A schema is made by declarations, or it is read from its stored form. Declarations keep every identifier among the
fields. The stored form may say anything, and then what is known of the schema is what `Schema.validate` checks.

## Contents
- **Checks.** `validate_eq_ok_iff`: what makes a schema valid.
- **Declarations.** `declareAll_induction`: what every declaration keeps, any number of them keeps.
  `identifiers_subset_fields` says what they keep of identifiers.
- **Storage.** `ofStored?_toStored`: there is no schema that cannot come out of storage.
- **References.** `Scope.resolve_eq`: which names are taken as properties of the root entity.
- **Lists.** `listed_declareAll`: each of the three lists of a schema takes the names that declarations give it.
- **Result.** `declarations_determine_schema`.
-/

namespace Criteria

namespace Schema

/-! ## Checks -/

/-- A schema is valid if it has a name and an identifier and none of its fields is an association. Whether the
    identifiers are fields is left open. -/
theorem validate_eq_ok_iff {s : Schema} :
    s.validate = .ok () ↔ s.name ≠ "" ∧ s.identifiers ≠ [] ∧ ∀ name ∈ s.fields, name ∉ s.associations := by
  have hclash : s.fields.find? s.hasAssociation = none ↔ ∀ name ∈ s.fields, name ∉ s.associations := by
    simp [hasAssociation]
  rw [← hclash, validate]
  by_cases hname : s.name = ""
  · simp [hname]
  by_cases hidentifiers : s.identifiers = []
  · simp [hname, hidentifiers]
  cases s.fields.find? s.hasAssociation <;> simp [hname, hidentifiers]

/-! ## Declarations -/

theorem mem_addName {name new : String} {names : List String} :
    name ∈ addName new names ↔ name ∈ names ∨ name = new := by
  rw [addName]
  split
  · case isTrue hnew =>
    refine ⟨.inl, ?_⟩
    rintro (hname | rfl)
    · exact hname
    · exact hnew
  · rw [List.mem_append, List.mem_singleton]

section Induction

variable {P : Schema → Prop} (field : ∀ s name, P s → P (s.addField name))
  (association : ∀ s name, P s → P (s.addAssociation name)) (identifier : ∀ s name, P s → P (s.addIdentifier name))

include field association identifier

theorem declare_induction (d : Declaration) {s : Schema} (h : P s) : P (s.declare d) := by
  cases d with
  | field name => exact field s name h
  | fields names =>
    show P (names.foldl addField s)
    induction names generalizing s with
    | nil => exact h
    | cons name names ih => exact ih (field s name h)
  | association name => exact association s name h
  | identifier name => exact identifier s name h

/-- What the three kinds of declaration keep, any number of declarations keeps. -/
theorem declareAll_induction (ds : List Declaration) {s : Schema} (h : P s) : P (s.declareAll ds) := by
  induction ds generalizing s with
  | nil => exact h
  | cons d ds ih => exact ih (declare_induction field association identifier d h)

end Induction

/-- **Declarations keep every identifier among the fields.** -/
theorem identifiers_subset_fields {s : Schema} (h : s.identifiers ⊆ s.fields) (ds : List Declaration) :
    (s.declareAll ds).identifiers ⊆ (s.declareAll ds).fields := by
  refine declareAll_induction (P := fun s => s.identifiers ⊆ s.fields) ?field ?association ?identifier ds h
  case field => exact fun s new h id hid => mem_addName.mpr (.inl (h hid))
  case association => exact fun s new h => h
  case identifier =>
    -- the new name goes into both lists
    intro s new h id hid
    exact mem_addName.mpr ((mem_addName.mp hid).imp_left (@h id))

/-! ## Storage -/

theorem list?_texts (names : List String) : Stored.list? Json.string? (Stored.texts names) = some names := by
  induction names with
  | nil => rfl
  | cons name names ih =>
    rw [Stored.texts, Stored.list?] at ih ⊢
    rw [List.map_cons, List.mapM_cons, ih]
    rfl

/-- Storage gives back every schema, valid or not. -/
theorem ofStored?_toStored (s : Schema) : ofStored? s.toStored = some s := by
  simp [ofStored?, toStored, Stored.fields?, Stored.required, List.lookup_cons, Json.string?, list?_texts]

end Schema

/-! ## References -/

/-- A name that is declared and has no dot stands for a property of the root entity, any other for itself. -/
theorem Scope.resolve_eq (s : Scope) (name : String) :
    s.resolve name =
      if '.' ∉ name.toList ∧ (name ∈ s.schema.fields ∨ name ∈ s.schema.associations) then .qualified s.rootAlias name
      else .verbatim name := by
  have hdeclares : s.declares name = true ↔
      '.' ∉ name.toList ∧ (name ∈ s.schema.fields ∨ name ∈ s.schema.associations) := by
    simp [declares, Schema.hasProperty, Schema.hasField, Schema.hasAssociation]
  rw [resolve]
  simp only [hdeclares]

/-! ## Lists -/

namespace Schema

/-- The roles that a declared name can have. -/
inductive Role where
  | field
  | association
  | identifier
  deriving DecidableEq, Repr

/-- The names that a schema lists in a role. -/
def listed (s : Schema) : Role → List String
  | .field => s.fields
  | .association => s.associations
  | .identifier => s.identifiers

/-- The names that a declaration gives a role. An identifier is a field too. -/
def Declaration.named : Declaration → Role → List String
  | .field name, .field => [name]
  | .fields names, .field => names
  | .association name, .association => [name]
  | .identifier name, .field => [name]
  | .identifier name, .identifier => [name]
  | _, _ => []

/-- The names that declarations give a role, one declaration after the other. -/
def named (ds : List Declaration) (role : Role) : List String := ds.flatMap fun d => d.named role

/-- Adds names one after the other. -/
def addNames (new names : List String) : List String := new.foldl (fun names name => addName name names) names

theorem addNames_append (new new' names : List String) :
    addNames (new ++ new') names = addNames new' (addNames new names) := List.foldl_append

theorem nodup_addNames {names : List String} (h : names.Nodup) (new : List String) : (addNames new names).Nodup := by
  induction new generalizing names with
  | nil => exact h
  | cons name new ih =>
    refine ih (?_ : (addName name names).Nodup)
    rw [addName]
    split
    · exact h
    · case isFalse hnew =>
      refine List.nodup_append.mpr ⟨h, by simp, fun a ha b hb => ?_⟩
      obtain rfl := List.mem_singleton.mp hb
      rintro rfl
      exact hnew ha

/-- **One declaration.** Each list takes the names that the declaration gives it. -/
theorem listed_declare (s : Schema) (d : Declaration) (role : Role) :
    (s.declare d).listed role = addNames (d.named role) (s.listed role) := by
  cases d with
  | fields names =>
    show (names.foldl addField s).listed role = _
    induction names generalizing s with
    | nil => cases role <;> rfl
    | cons name names ih =>
      rw [List.foldl_cons, ih]
      cases role <;> rfl
  | field | association | identifier => cases role <;> rfl

/-- **Any number of declarations.** -/
theorem listed_declareAll (s : Schema) (ds : List Declaration) (role : Role) :
    (s.declareAll ds).listed role = addNames (named ds role) (s.listed role) := by
  induction ds generalizing s with
  | nil => rfl
  | cons d ds ih =>
    show ((s.declare d).declareAll ds).listed role = _
    rw [ih, listed_declare, ← addNames_append]
    rfl

theorem addName_eraseDups (new : String) (names : List String) :
    addName new names.eraseDups = (names ++ [new]).eraseDups := by
  rw [List.eraseDups_append, addName]
  by_cases h : new ∈ names
  · have hnone : [new].removeAll names = [] := by simp [List.removeAll, h]
    rw [if_pos (List.mem_eraseDups.mpr h), hnone, List.eraseDups_nil, List.append_nil]
  · have hnew : [new].removeAll names = [new] := by simp [List.removeAll, h]
    rw [if_neg (mt List.mem_eraseDups.mp h), hnew]
    rfl

/-- Adding names one by one leaves each where it came first. -/
theorem addNames_eraseDups (new names : List String) : addNames new names.eraseDups = (names ++ new).eraseDups := by
  induction new generalizing names with
  | nil => rw [List.append_nil]; rfl
  | cons name new ih =>
    show addNames new (addName name names.eraseDups) = _
    rw [addName_eraseDups, ih, List.append_assoc, List.singleton_append]

theorem listed_blank (name table : String) (ds : List Declaration) (role : Role) :
    ((blank name table).declareAll ds).listed role = (named ds role).eraseDups := by
  have hnone : (blank name table).listed role = [].eraseDups := by cases role <;> rfl
  rw [listed_declareAll, hnone, addNames_eraseDups, List.nil_append]

theorem mem_listed_blank (name table : String) (ds : List Declaration) (role : Role) {p : String} :
    p ∈ ((blank name table).declareAll ds).listed role ↔ p ∈ named ds role := by
  rw [listed_blank, List.mem_eraseDups]

theorem nodup_listed (name table : String) (ds : List Declaration) (role : Role) :
    (((blank name table).declareAll ds).listed role).Nodup := by
  rw [listed_declareAll]
  exact nodup_addNames (by cases role <;> exact List.nodup_nil) _

theorem name_declareAll (s : Schema) (ds : List Declaration) : (s.declareAll ds).name = s.name := by
  refine declareAll_induction (P := fun s' => s'.name = s.name) ?_ ?_ ?_ ds rfl
  all_goals exact fun s' new h => h

theorem resolve_blank (name table : String) (ds : List Declaration) (rootAlias p : String) :
    Scope.resolve ⟨rootAlias, (blank name table).declareAll ds⟩ p =
      if '.' ∉ p.toList ∧ (p ∈ named ds .field ∨ p ∈ named ds .association) then .qualified rootAlias p
      else .verbatim p := by
  rw [Scope.resolve_eq]
  simp only [← mem_listed_blank name table ds]
  rfl

/-! ## Result -/

/-- **A schema made by declarations.** Each of its lists has the names that were declared for it, once and in order of
    first declaration, and every identifier is among the fields. So a name is a field or an association exactly when it
    was declared as one, and it is a property of the root entity exactly when it was declared as either and has no dot,
    whatever the order of the declarations and however often they were made. The schema is valid exactly when it has a
    name, some identifier was declared, and no name was declared both as a field and as an association. -/
theorem declarations_determine_schema (name table : String) (ds : List Declaration) :
    let s := (blank name table).declareAll ds
    (∀ role, (s.listed role).Nodup ∧ s.listed role = (named ds role).eraseDups) ∧
      s.identifiers ⊆ s.fields ∧
      (∀ p, (s.hasField p = true ↔ p ∈ named ds .field) ∧ (s.hasAssociation p = true ↔ p ∈ named ds .association)) ∧
      (∀ rootAlias p, Scope.resolve ⟨rootAlias, s⟩ p =
        if '.' ∉ p.toList ∧ (p ∈ named ds .field ∨ p ∈ named ds .association) then .qualified rootAlias p
        else .verbatim p) ∧
      (∀ ds', (∀ d, d ∈ ds' ↔ d ∈ ds) → ∀ rootAlias p,
        Scope.resolve ⟨rootAlias, (blank name table).declareAll ds'⟩ p = Scope.resolve ⟨rootAlias, s⟩ p) ∧
      (s.validate = .ok () ↔
        name ≠ "" ∧ named ds .identifier ≠ [] ∧ ∀ p ∈ named ds .field, p ∉ named ds .association) := by
  intro s
  have hfields (p : String) : p ∈ s.fields ↔ p ∈ named ds .field := mem_listed_blank name table ds .field
  have hassociations (p : String) : p ∈ s.associations ↔ p ∈ named ds .association :=
    mem_listed_blank name table ds .association
  refine ⟨?lists, ?identifiers, ?properties, resolve_blank name table ds, ?order, ?valid⟩
  case lists => exact fun role => ⟨nodup_listed name table ds role, listed_blank name table ds role⟩
  case identifiers => exact identifiers_subset_fields (s := .blank name table) (List.nil_subset _) ds
  case properties =>
    intro p
    rw [hasField, hasAssociation, decide_eq_true_iff, decide_eq_true_iff]
    exact ⟨hfields p, hassociations p⟩
  case order =>
    intro ds' hsame rootAlias p
    -- a name is declared in the one list if it is in the other, and only that counts
    have hnamed (role : Role) : p ∈ named ds' role ↔ p ∈ named ds role := by
      simp only [named, List.mem_flatMap, hsame]
    rw [resolve_blank, resolve_blank]
    simp only [hnamed]
  case valid =>
    have hidentifiers : s.identifiers = [] ↔ named ds .identifier = [] := by
      simp only [List.eq_nil_iff_forall_not_mem]
      exact forall_congr' fun p => not_congr (mem_listed_blank name table ds .identifier)
    rw [validate_eq_ok_iff, show s.name = name from name_declareAll _ ds, ne_eq s.identifiers, hidentifiers]
    simp only [hfields, hassociations, ne_eq]

end Schema

end Criteria
