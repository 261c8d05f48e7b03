import Criteria.Formula.Text
import Criteria.Proofs.Grammar
import Criteria.Proofs.Normal

/-!
# `Criteria.Proofs.Rendering` — formulas are read as they are meant

The text of a formula puts parentheses around every group of several members. So a reader who knows the
precedence of the connectives reads the formula itself, and one who does not know it reads the same.

## Contents
- **Tokens.** `Formula.tokens` and `Formula.clauseTokens`, whose texts make up the text of a formula
  (`text_eq`, `clauseText_eq`).
- **What is read.** `Formula.condensed` unwraps groups with one member; `factor_tokens` and
  `reads_clauseTokens` say that this is read.
- **Levels.** `watched_tokens`: a formula leaves the level around it alone, and its clause has one connective.
- **Result.** `rendering_decodable`.
-/

namespace Criteria

open Grammar

namespace Formula

/-! ## Tokens -/

mutual

/-- The tokens of a formula as a part of another. -/
def tokens : Formula → List Token
  | .leaf p => [.word p.text]
  | .group _ [] => [.word vacuous]
  | .group _ [f] => tokens f
  | .group connective (f :: g :: fs) =>
    .opening :: (tokens f ++ restTokens connective (g :: fs) ++ [.closing])

/-- The tokens of the members after the first, each behind its connective. -/
def restTokens (connective : Connective) : List Formula → List Token
  | [] => []
  | f :: fs => .join connective :: (tokens f ++ restTokens connective fs)

end

/-- The tokens of a formula as the whole body of a clause. -/
def clauseTokens : Formula → List Token
  | .group connective (f :: g :: fs) => tokens f ++ restTokens connective (g :: fs)
  | f => tokens f

/-- The text of tokens, one after the other. -/
def written (ts : List Token) : String := String.join (ts.map Token.text)

theorem written_append (ts us : List Token) : written (ts ++ us) = written ts ++ written us := by
  simp [written]

theorem written_cons (t : Token) (ts : List Token) : written (t :: ts) = t.text ++ written ts := by
  simp [written]

@[simp] theorem written_singleton (t : Token) : written [t] = t.text := by
  simp [written]

mutual

theorem text_eq : ∀ f : Formula, f.text = written f.tokens
  | .leaf p => (written_singleton (.word p.text)).symm
  | .group _ [] => (written_singleton (.word vacuous)).symm
  | .group _ [f] => text_eq f
  | .group connective (f :: g :: fs) => by
    rw [text, tokens, written_cons, written_append, written_append, written_singleton, text_eq f,
      restText_eq connective (g :: fs), ← String.append_assoc]
    rfl

theorem restText_eq (connective : Connective) :
    ∀ fs : List Formula, restText connective fs = written (restTokens connective fs)
  | [] => rfl
  | f :: fs => by
    rw [restText, restTokens, written_cons, written_append, text_eq f, restText_eq connective fs,
      ← String.append_assoc]
    rfl

end

theorem clauseText_eq : ∀ f : Formula, f.clauseText = written f.clauseTokens
  | .leaf p => text_eq (.leaf p)
  | .group connective [] => text_eq (.group connective [])
  | .group connective [f] => text_eq (.group connective [f])
  | .group connective (f :: g :: fs) => by
    rw [clauseText, clauseTokens, written_append, text_eq f, restText_eq connective (g :: fs)]

/-! ## What is read -/

mutual

/-- What is left of a formula in its text: a group with one member is that member, and a group without members
    has lost its connective. -/
def condensed : Formula → Tree
  | .leaf p => .leaf p.text
  | .group _ [] => .group .and []
  | .group _ [f] => condensed f
  | .group connective (f :: g :: fs) => .group connective (condensed f :: condensedIn (g :: fs))

/-- What is left of several formulas. -/
def condensedIn : List Formula → List Tree
  | [] => []
  | f :: fs => condensed f :: condensedIn fs

end

/-- The text of a predicate has a space in it, so it is not the word of an empty group. -/
theorem predicate_text_ne_vacuous (p : Predicate) : p.text ≠ vacuous := by
  have hspace : ' ' ∈ p.text.toList := by
    unfold Predicate.text
    cases p.test <;> simp
  intro h
  rw [h] at hspace
  exact absurd hspace (by decide)

theorem conjuncts_tokens {f : Formula} {fs : List Formula}
    (h : ∀ g ∈ f :: fs, Factor g.tokens g.condensed) :
    Conjuncts (f.tokens ++ restTokens .and fs) (f.condensed :: condensedIn fs) := by
  have hf := h f List.mem_cons_self
  induction fs generalizing f with
  | nil =>
    rw [restTokens, List.append_nil]
    exact .last hf
  | cons g fs ih =>
    have hrest : ∀ e ∈ g :: fs, Factor e.tokens e.condensed := fun e he => h e (List.mem_cons_of_mem _ he)
    exact .more hf (ih hrest (hrest g List.mem_cons_self))

theorem disjuncts_tokens {f : Formula} {fs : List Formula}
    (h : ∀ g ∈ f :: fs, Factor g.tokens g.condensed) :
    Disjuncts (f.tokens ++ restTokens .or fs) (f.condensed :: condensedIn fs) := by
  have hf : Conjuncts f.tokens [f.condensed] := .last (h f List.mem_cons_self)
  induction fs generalizing f with
  | nil =>
    rw [restTokens, List.append_nil]
    exact .last hf
  | cons g fs ih =>
    have hrest : ∀ e ∈ g :: fs, Factor e.tokens e.condensed := fun e he => h e (List.mem_cons_of_mem _ he)
    exact .more hf (ih hrest (.last (hrest g List.mem_cons_self)))

theorem factor_tokens_and_list :
    (∀ f : Formula, Factor f.tokens f.condensed) ∧
      ∀ fs : List Formula, ∀ f ∈ fs, Factor f.tokens f.condensed := by
  refine tree_induction ?leaf ?group ?nil ?cons
  case leaf =>
    intro p
    have h := Factor.word p.text
    rwa [Tree.ofWord, if_neg (predicate_text_ne_vacuous p)] at h
  case group =>
    intro connective members ih
    -- a group with one member is written as the member, and parentheses stand around the others
    match members, connective with
    | [], _ => exact .word vacuous
    | [f], _ => exact ih f List.mem_cons_self
    | f :: g :: fs, .and => exact .parens (.last (conjuncts_tokens ih))
    | f :: g :: fs, .or => exact .parens (disjuncts_tokens ih)
  case nil => exact nofun
  case cons =>
    intro f fs ihf ihfs g hg
    rcases List.mem_cons.mp hg with rfl | hg
    · exact ihf
    · exact ihfs g hg

/-- **A formula is read as what is left of it**, and nothing around it becomes a part of it. -/
theorem factor_tokens (f : Formula) : Factor f.tokens f.condensed := factor_tokens_and_list.1 f

/-- The body of a clause is read as its formula. -/
theorem reads_clauseTokens : ∀ f : Formula, Reads f.clauseTokens f.condensed
  | .leaf p => .of_factor (factor_tokens (.leaf p))
  | .group connective [] => .of_factor (factor_tokens (.group connective []))
  | .group connective [f] => .of_factor (factor_tokens (.group connective [f]))
  | .group .and (_ :: _ :: _) => .of_conjuncts (conjuncts_tokens fun e _ => factor_tokens e)
  | .group .or (_ :: _ :: _) => ⟨_, disjuncts_tokens fun e _ => factor_tokens e, rfl⟩

/-! ## Levels -/

/-- The first connective settles a level, as if it had been seen there before. -/
theorem watched_restTokens_of_none (connective : Connective) (levels : List (Option Connective)) (f : Formula)
    (fs : List Formula) : watched (none :: levels) (restTokens connective (f :: fs)) =
      watched (some connective :: levels) (restTokens connective (f :: fs)) := by
  rw [restTokens, watched_cons, watched_cons, watch, watch, if_pos rfl]

mutual

/-- A formula leaves the levels around it alone. -/
theorem watched_tokens (levels : List (Option Connective)) :
    ∀ f : Formula, watched levels f.tokens = some levels
  | .leaf _ => rfl
  | .group _ [] => rfl
  | .group _ [f] => watched_tokens levels f
  | .group connective (f :: g :: fs) => by
    rw [tokens, watched_cons]
    show watched (none :: levels) (f.tokens ++ restTokens connective (g :: fs) ++ [.closing]) = _
    rw [watched_append, watched_append, watched_tokens (none :: levels) f]
    show ((watched (none :: levels) (restTokens connective (g :: fs))).bind _) = _
    rw [watched_restTokens_of_none, watched_restTokens connective levels (g :: fs)]
    rfl

/-- The members after the first show one connective to the level they stand in. -/
theorem watched_restTokens (connective : Connective) (levels : List (Option Connective)) :
    ∀ fs : List Formula, watched (some connective :: levels) (restTokens connective fs) =
      some (some connective :: levels)
  | [] => rfl
  | f :: fs => by
    rw [restTokens, watched_cons, watch, if_pos rfl]
    show watched (some connective :: levels) (f.tokens ++ restTokens connective fs) = _
    rw [watched_append, watched_tokens _ f]
    exact watched_restTokens connective levels fs

end

/-- The body of a clause can be passed over from a level that has seen no connective. -/
theorem watched_clauseTokens :
    ∀ f : Formula, ∃ after, watched [none] f.clauseTokens = some after
  | .leaf p => ⟨_, watched_tokens [none] (.leaf p)⟩
  | .group connective [] => ⟨_, watched_tokens [none] (.group connective [])⟩
  | .group connective [f] => ⟨_, watched_tokens [none] (.group connective [f])⟩
  | .group connective (f :: g :: fs) => by
    refine ⟨[some connective], ?_⟩
    rw [clauseTokens, watched_append, watched_tokens [none] f]
    show watched [none] (restTokens connective (g :: fs)) = _
    rw [watched_restTokens_of_none]
    exact watched_restTokens connective [] (g :: fs)

/-! ## Result -/

/-- **The text of a formula can be read back.** As a part of another formula and as the body of a clause, a
    formula is written as tokens that are read as what is left of the formula and as nothing else. No two
    different connectives stand at one level of them. So formulas that are written with the same tokens have the
    same things left. -/
theorem rendering_decodable (f : Formula) :
    (f.text = written f.tokens ∧ f.clauseText = written f.clauseTokens) ∧
      (∀ t, Reads f.tokens t ↔ t = f.condensed) ∧
      (∀ t, Reads f.clauseTokens t ↔ t = f.condensed) ∧
      (Unmixed f.tokens ∧ Unmixed f.clauseTokens) ∧
      ∀ g : Formula, f.tokens = g.tokens ∨ f.clauseTokens = g.clauseTokens → f.condensed = g.condensed := by
  have hpart : ∀ e : Formula, Reads e.tokens e.condensed := fun e => .of_factor (factor_tokens e)
  refine ⟨⟨text_eq f, clauseText_eq f⟩, ?_, ?_, ⟨?_, ?_⟩, ?_⟩
  · exact fun t => ⟨fun h => h.unique (hpart f), fun h => h ▸ hpart f⟩
  · exact fun t => ⟨fun h => h.unique (reads_clauseTokens f), fun h => h ▸ reads_clauseTokens f⟩
  · exact unmixed_of_watched (watched_tokens [] f)
  · obtain ⟨after, hafter⟩ := watched_clauseTokens f
    exact unmixed_of_watched hafter
  · rintro g (h | h)
    · exact (hpart f).unique (h ▸ hpart g)
    · exact (reads_clauseTokens f).unique (h ▸ reads_clauseTokens g)

-- the conjunction keeps its parentheses, the empty group is a word, and a single member stands alone
example (p q r : Predicate) :
    (group .or [.group .and [.leaf p, .leaf q], .group .or [], .group .and [.leaf r]]).clauseTokens =
      [.opening, .word p.text, .join .and, .word q.text, .closing, .join .or, .word vacuous, .join .or,
        .word r.text] := by
  rfl

end Formula

end Criteria
