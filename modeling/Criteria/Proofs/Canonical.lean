import Criteria.Compilation
import Criteria.Proofs.Rendering
import Criteria.Query

/-!
# `Criteria.Proofs.Canonical` — normal forms are canonical

Normalization works from the leaves up, once. Unwrapping a group can bring a group of the outer connective to
light, and dropping a group can leave its neighbour alone; still one pass is enough. What comes out is a formula of
a known shape, and every formula of this shape comes out as it went in.

Queries are written from normal forms, so that a group without members is never written at all.

## Contents
- **Words.** Every word of a normal form is the text of a predicate, unless it is an empty group
  (`word_mem_clauseTokens`).
- **Blanks.** `Formula.clauseTextWith` and `Query.textWith` write a given text for a group without members. For the
  text of a query it makes no difference which (`Query.textWith_eq`).
- **Result.** `normalize_canonical`.
-/

namespace Criteria

open Grammar

namespace Formula

/-! ## Words -/

theorem word_mem_restTokens {connective : Connective} {fs : List Formula} {text : String}
    (h : .word text ∈ restTokens connective fs) : ∃ f ∈ fs, .word text ∈ f.tokens := by
  induction fs with
  | nil => exact absurd h List.not_mem_nil
  | cons f fs ih =>
    rw [restTokens, List.mem_cons, List.mem_append] at h
    rcases h with hjoin | hf | hfs
    · cases hjoin
    · exact ⟨f, List.mem_cons_self, hf⟩
    · obtain ⟨g, hg, hword⟩ := ih hfs
      exact ⟨g, List.mem_cons_of_mem f hg, hword⟩

/-- A word among the tokens of joined members is a word of one of them. -/
theorem word_mem_joined {connective : Connective} {f : Formula} {fs : List Formula} {text : String}
    (h : .word text ∈ f.tokens ++ restTokens connective fs) : ∃ g ∈ f :: fs, .word text ∈ g.tokens := by
  rcases List.mem_append.mp h with hf | hfs
  · exact ⟨f, List.mem_cons_self, hf⟩
  · obtain ⟨g, hg, hword⟩ := word_mem_restTokens hfs
    exact ⟨g, List.mem_cons_of_mem f hg, hword⟩

/-- A text is the text of a predicate. -/
def IsPredicateText (text : String) : Prop := ∃ p : Predicate, p.text = text

theorem word_mem_tokens_and_list :
    (∀ f, ∀ outer, Settled outer f → ∀ text, .word text ∈ f.tokens → IsPredicateText text) ∧
      ∀ fs, ∀ outer, SettledIn outer fs → ∀ f ∈ fs, ∀ text, .word text ∈ f.tokens → IsPredicateText text := by
  refine tree_induction ?leaf ?group ?nil ?cons
  case leaf =>
    intro p outer _ text h
    rw [tokens, List.mem_singleton] at h
    exact ⟨p, (Token.word.inj h).symm⟩
  case group =>
    intro connective members ih outer h text hword
    obtain ⟨-, hlength, hmembers⟩ := h
    -- a settled group has two members or more, so no word is written for the group itself
    match members, hlength with
    | f :: g :: fs, _ =>
      rw [tokens, List.mem_cons, List.mem_append] at hword
      rcases hword with hopening | hjoined | hclosing
      · cases hopening
      · obtain ⟨e, he, hword⟩ := word_mem_joined hjoined
        exact ih connective hmembers e he text hword
      · cases List.mem_singleton.mp hclosing
  case nil => intro outer _ f hf; exact absurd hf List.not_mem_nil
  case cons =>
    intro f fs ihf ihfs outer h g hg
    rcases List.mem_cons.mp hg with rfl | hg
    · exact ihf outer h.1
    · exact ihfs outer h.2 g hg

/-- **The words of a normal form are texts of predicates**, unless it is an empty group. -/
theorem word_mem_clauseTokens {f : Formula} (h : Normal f) (hf : f.isEmptyGroup = false) {text : String}
    (hword : .word text ∈ f.clauseTokens) : IsPredicateText text := by
  match f with
  | .leaf p => exact word_mem_tokens_and_list.1 (.leaf p) .and trivial text hword
  | .group connective [] => cases hf
  | .group connective [g] =>
    obtain ⟨hlength, -⟩ := h.resolve_left (by simp)
    exact absurd hlength (by simp)
  | .group connective (g :: e :: fs) =>
    obtain ⟨-, hmembers⟩ := h.resolve_left (by simp)
    obtain ⟨e, he, hword⟩ := word_mem_joined hword
    exact word_mem_tokens_and_list.2 _ connective hmembers e he text hword

/-! ## Blanks -/

/-- The text of a token when `blank` is written for a group without members. -/
def tokenTextWith (blank : String) (t : Token) : String := if t = .word vacuous then blank else t.text

/-- The body of a clause when `blank` is written for a group without members. -/
def clauseTextWith (blank : String) (f : Formula) : String :=
  String.join (f.clauseTokens.map (tokenTextWith blank))

/-- `1=1` is what is written. -/
theorem clauseTextWith_vacuous (f : Formula) : f.clauseTextWith vacuous = f.clauseText := by
  rw [clauseText_eq, clauseTextWith, written]
  congr 2
  funext t
  by_cases ht : t = .word vacuous
  · rw [tokenTextWith, if_pos ht, ht]
    rfl
  · rw [tokenTextWith, if_neg ht]

theorem clauseTextWith_of_normal {f : Formula} (h : Normal f) (hf : f.isEmptyGroup = false) (blank : String) :
    f.clauseTextWith blank = f.clauseText := by
  rw [clauseText_eq, clauseTextWith, written]
  congr 1
  refine List.map_congr_left fun t ht => if_neg ?_
  rintro rfl
  obtain ⟨p, hp⟩ := word_mem_clauseTokens h hf ht
  exact predicate_text_ne_vacuous p hp

/-- A conjunction is a normal form in which there are predicates. -/
theorem normal_of_conjunction {fs : List Formula} {f : Formula} (h : conjunction fs = some f) :
    Normal f ∧ f.isEmptyGroup = false := by
  have hf := conjunction_eq_some h
  refine ⟨hf ▸ settled_normalize.1 _, ?_⟩
  unfold conjunction at h
  rw [← hf] at h
  by_cases he : f.isEmptyGroup = true
  · simp [he] at h
  · exact Bool.eq_false_iff.mpr he

end Formula

namespace Query

/-- A clause of a query when `blank` is written for a group without members. -/
def formulaClauseWith (blank : String) (clause : Clause) : Option Formula → String
  | some f => " " ++ clause.text ++ " " ++ f.clauseTextWith blank
  | none => ""

/-- The text of a query when `blank` is written for a group without members. -/
def textWith (blank : String) (q : Query) : String :=
  "SELECT " ++ String.intercalate ", " q.select ++ " FROM " ++ q.entity ++ " " ++ q.rootAlias ++
    String.join (q.joins.map fun j => " " ++ j.text) ++
    formulaClauseWith blank .restriction q.restriction ++
    listClause "GROUP BY" q.groupBys ++
    formulaClauseWith blank .having q.having ++
    listClause "ORDER BY" (q.order.map fun k => k.1 ++ " " ++ k.2.text) ++
    q.window.text

theorem formulaClauseWith_conjunction (blank : String) (clause : Clause) (fs : List Formula) :
    formulaClauseWith blank clause (Formula.conjunction fs) = formulaClause clause (Formula.conjunction fs) := by
  cases h : Formula.conjunction fs with
  | none => rfl
  | some f =>
    obtain ⟨hnormal, hf⟩ := Formula.normal_of_conjunction h
    rw [formulaClauseWith, formulaClause, Formula.clauseTextWith_of_normal hnormal hf]

/-- **No group without members is written in a query.** -/
theorem textWith_eq (blank : String) (q : Query) : q.textWith blank = q.text := by
  have hrestriction : formulaClauseWith blank .restriction q.restriction = formulaClause .restriction q.restriction :=
    formulaClauseWith_conjunction blank .restriction q.restrictions
  have hhaving : formulaClauseWith blank .having q.having = formulaClause .having q.having :=
    formulaClauseWith_conjunction blank .having q.havings
  unfold textWith text
  rw [hrestriction, hhaving]

end Query

namespace Formula

/-! ## Result -/

/-- **Normal forms are canonical.** Every normal form is a predicate, an empty group, or a group of two members or
    more in which groups of either connective alternate; it is an empty group exactly when there are no predicates.
    The formulas of this shape are those that normalization leaves alone, and those that come out of it. So a
    compiled clause and the clauses of a query are absent exactly when no formula of theirs has a predicate, and the
    text of a query is the same whatever is written for a group without members. -/
theorem normalize_canonical (f : Formula) (c : CompiledClause) (q : Query) :
    (Normal (normalize f) ∧ ((normalize f).isEmptyGroup = true ↔ f.leaves = []) ∧
        normalize (normalize f) = normalize f) ∧
      ((Normal f ↔ normalize f = f) ∧ (Normal f ↔ ∃ g, normalize g = f)) ∧
      (c.combined = none ↔ ∀ g ∈ c.formulas, g.leaves = []) ∧
      (q.restriction = none ↔ ∀ g ∈ q.restrictions, g.leaves = []) ∧
      (q.having = none ↔ ∀ g ∈ q.havings, g.leaves = []) ∧
      ∀ blank, q.textWith blank = q.text := by
  have hnormal : ∀ g, Normal (normalize g) := settled_normalize.1
  have hnone : ∀ fs, conjunction fs = none ↔ ∀ g ∈ fs, g.leaves = [] := by
    intro fs
    rw [conjunction_eq_none_iff, leavesIn_eq_nil_iff]
  refine ⟨⟨hnormal f, isEmptyGroup_normalize f, normalize_of_normal (hnormal f)⟩, ⟨?_, ?_⟩, hnone _, hnone _,
    hnone _, fun blank => q.textWith_eq blank⟩
  · exact ⟨normalize_of_normal, fun h => h ▸ hnormal f⟩
  · constructor
    · exact fun h => ⟨f, normalize_of_normal h⟩
    · rintro ⟨g, rfl⟩
      exact hnormal g

-- the conjunction is alone with a disjunction once the empty group is gone, and so the two disjunctions meet
example (p q : Predicate) :
    normalize (.group .or [.group .and [.group .or [.leaf p, .leaf q], .group .and []]]) =
      .group .or [.leaf p, .leaf q] := by
  rfl

end Formula

end Criteria
