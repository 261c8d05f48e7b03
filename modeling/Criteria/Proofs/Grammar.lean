import Criteria.Vocabulary
import Mathlib.Algebra.Ring.Int.Defs

/-!
# `Criteria.Proofs.Grammar` — how the conditions of a query are read

The body of a clause is a list of tokens: the texts of predicates, the connectives between them, and
parentheses. A reader who knows the precedence of the connectives sees a disjunction of conjunctions of words
and parenthesized expressions. This module states that grammar as a relation between tokens and trees, and shows
that it is unambiguous.

## Contents
- **Tokens and trees.** `Token`, and `Tree` for what is read.
- **Grammar.** `Factor`, `Conjuncts` and `Disjuncts` are its three levels; `Reads` relates whole expressions to
  their trees.
- **Unambiguity.** `Reader.step` reads one token, with a stack of open parentheses. A reader finds the tree of
  every expression (`result_of_reads`), so that there is only one (`Reads.unique`).
- **Levels.** `Unmixed`: no two different connectives stand at one level of parentheses. `watch` checks this
  token by token (`unmixed_of_watched`).
-/

namespace Criteria.Grammar

/-! ## Tokens and trees -/

/-- A token of a boolean expression. -/
inductive Token where
  /-- The text of a predicate, or of an expression that always holds. -/
  | word (text : String)
  | join (connective : Connective)
  | opening
  | closing
  deriving DecidableEq, Repr

/-- The text of a token. -/
def Token.text : Token → String
  | .word text => text
  | .join connective => " " ++ connective.text ++ " "
  | .opening => "("
  | .closing => ")"

/-- A boolean expression as it is read. -/
inductive Tree where
  | leaf (text : String)
  | group (connective : Connective) (members : List Tree)
  deriving Repr

/-- The word that stands for a group without members. -/
def vacuous : String := "1=1"

/-- The tree of a word. The connective of a group without members is not written, and is read as `and`. -/
def Tree.ofWord (text : String) : Tree := if text = vacuous then .group .and [] else .leaf text

/-- The tree of joined members; a single member stands alone. -/
def Tree.joined (connective : Connective) : List Tree → Tree
  | [t] => t
  | ts => .group connective ts

/-! ## Grammar -/

mutual

/-- A word, or an expression in parentheses. -/
inductive Factor : List Token → Tree → Prop where
  | word (text : String) : Factor [.word text] (.ofWord text)
  | parens {ts : List Token} {xs : List Tree} (h : Disjuncts ts xs) :
      Factor (.opening :: (ts ++ [.closing])) (.joined .or xs)

/-- Factors joined by `and`. -/
inductive Conjuncts : List Token → List Tree → Prop where
  | last {ts : List Token} {t : Tree} (h : Factor ts t) : Conjuncts ts [t]
  | more {ts us : List Token} {t : Tree} {xs : List Tree} (h : Factor ts t) (hs : Conjuncts us xs) :
      Conjuncts (ts ++ .join .and :: us) (t :: xs)

/-- Conjunctions joined by `or`. -/
inductive Disjuncts : List Token → List Tree → Prop where
  | last {ts : List Token} {xs : List Tree} (h : Conjuncts ts xs) : Disjuncts ts [.joined .and xs]
  | more {ts us : List Token} {xs ys : List Tree} (h : Conjuncts ts xs) (hs : Disjuncts us ys) :
      Disjuncts (ts ++ .join .or :: us) (.joined .and xs :: ys)

end

/-- Tokens read as a tree: they are a disjunction of conjunctions, from the first token to the last. -/
def Reads (ts : List Token) (t : Tree) : Prop := ∃ xs, Disjuncts ts xs ∧ t = .joined .or xs

theorem Reads.of_conjuncts {ts : List Token} {xs : List Tree} (h : Conjuncts ts xs) :
    Reads ts (.joined .and xs) := ⟨_, .last h, rfl⟩

theorem Reads.of_factor {ts : List Token} {t : Tree} (h : Factor ts t) : Reads ts t :=
  .of_conjuncts (.last h)

/-! ## Unambiguity -/

/-- What has been read inside one pair of parentheses: finished conjunctions, and the factors of the next. -/
structure Level where
  disjuncts : List Tree
  conjuncts : List Tree

namespace Level

/-- A level in which nothing has been read. -/
def start : Level := ⟨[], []⟩

/-- Adds a factor. -/
def add (l : Level) (t : Tree) : Level := { l with conjuncts := l.conjuncts ++ [t] }

/-- The conjunctions, the unfinished one included. -/
def all (l : Level) : List Tree := l.disjuncts ++ [.joined .and l.conjuncts]

/-- Finishes a conjunction. -/
def next (l : Level) : Level := ⟨l.all, []⟩

end Level

/-- A reader between two tokens. -/
structure Reader where
  /-- The levels around the current one, innermost first. -/
  around : List Level
  level : Level
  /-- Whether a factor has to come next. -/
  expecting : Bool

namespace Reader

/-- A reader before the first token. -/
def start : Reader := ⟨[], .start, true⟩

/-- Reads one token, unless it cannot stand there. -/
def step (r : Reader) : Token → Option Reader
  | .word text =>
    if r.expecting then some { r with level := r.level.add (.ofWord text), expecting := false } else none
  | .opening => if r.expecting then some ⟨r.level :: r.around, .start, true⟩ else none
  | .closing =>
    match r.expecting, r.around with
    | false, outer :: around => some ⟨around, outer.add (.joined .or r.level.all), false⟩
    | _, _ => none
  | .join .and => if r.expecting then none else some { r with expecting := true }
  | .join .or => if r.expecting then none else some { r with level := r.level.next, expecting := true }

/-- Reads tokens one after the other. -/
def run (r : Reader) (ts : List Token) : Option Reader := ts.foldlM step r

/-- The tree that has been read, when no factor and no closing parenthesis is missing. -/
def result? (r : Reader) : Option Tree :=
  if r.expecting = false ∧ r.around = [] then some (.joined .or r.level.all) else none

theorem run_append (r : Reader) (ts us : List Token) : r.run (ts ++ us) = (r.run ts).bind (·.run us) :=
  List.foldlM_append ..

theorem run_cons (r : Reader) (t : Token) (ts : List Token) : r.run (t :: ts) = (r.step t).bind (·.run ts) :=
  List.foldlM_cons ..

end Reader

mutual

/-- A factor is added to the level it stands in. -/
theorem run_factor {ts : List Token} {t : Tree} (around : List Level) (l : Level) : Factor ts t →
    Reader.run ⟨around, l, true⟩ ts = some ⟨around, l.add t, false⟩
  | .word text => rfl
  | @Factor.parens ts _ h => by
    obtain ⟨inner, hall, hread⟩ := run_disjuncts (l :: around) [] h
    rw [Reader.run_cons]
    show Reader.run ⟨l :: around, ⟨[], []⟩, true⟩ (ts ++ [.closing]) = _
    rw [Reader.run_append, hread]
    show some (Reader.mk around (l.add (.joined .or inner.all)) false) = _
    rw [hall]
    rfl

/-- The factors of a conjunction are added one after the other. -/
theorem run_conjuncts {ts : List Token} {xs : List Tree} (around : List Level) (l : Level) :
    Conjuncts ts xs →
    Reader.run ⟨around, l, true⟩ ts = some ⟨around, ⟨l.disjuncts, l.conjuncts ++ xs⟩, false⟩
  | .last h => run_factor around l h
  | @Conjuncts.more _ _ t _ h hs => by
    rw [Reader.run_append, run_factor around l h]
    refine (run_conjuncts around (l.add t) hs).trans ?_
    rw [Level.add, List.append_assoc]
    rfl

/-- The conjunctions of a disjunction are finished one after the other; the last one stays open. -/
theorem run_disjuncts {ts : List Token} {xs : List Tree} (around : List Level) (ds : List Tree) :
    Disjuncts ts xs → ∃ l : Level, l.all = ds ++ xs ∧
      Reader.run ⟨around, ⟨ds, []⟩, true⟩ ts = some ⟨around, l, false⟩
  | @Disjuncts.last _ xs h => ⟨⟨ds, xs⟩, rfl, run_conjuncts around ⟨ds, []⟩ h⟩
  | @Disjuncts.more _ _ xs _ h hs => by
    obtain ⟨l, hall, hread⟩ := run_disjuncts around (ds ++ [.joined .and xs]) hs
    refine ⟨l, by rw [hall, List.append_assoc]; rfl, ?_⟩
    rw [Reader.run_append, run_conjuncts around ⟨ds, []⟩ h]
    exact hread

end

/-- The reader finds the tree of every expression. -/
theorem result_of_reads {ts : List Token} {t : Tree} (h : Reads ts t) :
    (Reader.start.run ts).bind Reader.result? = some t := by
  obtain ⟨xs, hxs, rfl⟩ := h
  obtain ⟨l, hall, hread⟩ := run_disjuncts [] [] hxs
  rw [List.nil_append] at hall
  rw [Reader.start, Level.start, hread, ← hall]
  rfl

/-- **The grammar is unambiguous.** Tokens are read as one tree at most. -/
theorem Reads.unique {ts : List Token} {t u : Tree} (h : Reads ts t) (hu : Reads ts u) : t = u :=
  Option.some.inj ((result_of_reads h).symm.trans (result_of_reads hu))

/-! ## Levels -/

/-- How many levels a token leads further in. -/
def Token.descent : Token → Int
  | .opening => 1
  | .closing => -1
  | _ => 0

/-- How many levels tokens lead further in. -/
def descent (ts : List Token) : Int := (ts.map Token.descent).sum

/-- Tokens that end at the level at which they begin and never leave it. -/
def Nested (ts : List Token) : Prop := descent ts = 0 ∧ ∀ us, us <+: ts → 0 ≤ descent us

/-- Two connectives at one level of parentheses are the same. -/
def Unmixed (ts : List Token) : Prop :=
  ∀ before o mid o' after, ts = before ++ .join o :: (mid ++ .join o' :: after) → Nested mid → o = o'

/-- Passes over a token, with the connective that has been seen at each level, innermost first. A level that
    has seen one connective takes no other. -/
def watch (levels : List (Option Connective)) : Token → Option (List (Option Connective))
  | .word _ => some levels
  | .opening => some (none :: levels)
  | .closing =>
    match levels with
    | _ :: outer => some outer
    | [] => none
  | .join o =>
    match levels with
    | none :: outer => some (some o :: outer)
    | some seen :: outer => if seen = o then some (some seen :: outer) else none
    | [] => none

/-- Passes over tokens one after the other. -/
def watched (levels : List (Option Connective)) (ts : List Token) : Option (List (Option Connective)) :=
  ts.foldlM watch levels

theorem watched_append (levels : List (Option Connective)) (ts us : List Token) :
    watched levels (ts ++ us) = (watched levels ts).bind (watched · us) := List.foldlM_append ..

theorem watched_cons (levels : List (Option Connective)) (t : Token) (ts : List Token) :
    watched levels (t :: ts) = (watch levels t).bind (watched · ts) := List.foldlM_cons ..

/-- A connective that is passed over is the one of its level from then on. -/
theorem watch_join {levels after : List (Option Connective)} {o : Connective}
    (h : watch levels (.join o) = some after) : ∃ outer, after = some o :: outer := by
  rcases levels with _ | ⟨_ | seen, outer⟩
  · cases h
  · exact ⟨outer, (Option.some.inj h).symm⟩
  · rw [watch] at h
    split at h
    · rename_i hseen
      exact ⟨outer, by rw [← Option.some.inj h, hseen]⟩
    · cases h

/-- A token changes no level outside the one it stands in. -/
theorem watch_above {seen : Connective} {inner levels after : List (Option Connective)} {t : Token}
    (hinside : 0 ≤ inner.length + t.descent) (h : watch (inner ++ some seen :: levels) t = some after) :
    ∃ inner' : List (Option Connective), after = inner' ++ some seen :: levels ∧
      (inner'.length : Int) = inner.length + t.descent := by
  cases t with
  | word text => exact ⟨inner, (Option.some.inj h).symm, (Int.add_zero _).symm⟩
  | opening => exact ⟨none :: inner, (Option.some.inj h).symm, rfl⟩
  | closing =>
    cases inner with
    | nil => exact absurd hinside (by decide)
    | cons level inner =>
      refine ⟨inner, (Option.some.inj h).symm, ?_⟩
      simp only [Token.descent, List.length_cons]
      omega
  | join o =>
    rcases inner with _ | ⟨_ | own, inner⟩
    · change (if seen = o then _ else none) = some after at h
      split at h
      · exact ⟨[], (Option.some.inj h).symm, rfl⟩
      · cases h
    · exact ⟨some o :: inner, (Option.some.inj h).symm, rfl⟩
    · change (if own = o then _ else none) = some after at h
      split at h
      · exact ⟨some own :: inner, (Option.some.inj h).symm, rfl⟩
      · cases h

/-- Tokens that do not leave a level do not change it, and they end as many levels further in as they lead. -/
theorem watched_above {seen : Connective} {levels after : List (Option Connective)} {ts : List Token}
    {inner : List (Option Connective)} (hinside : ∀ us, us <+: ts → 0 ≤ inner.length + descent us)
    (h : watched (inner ++ some seen :: levels) ts = some after) :
    ∃ inner' : List (Option Connective), after = inner' ++ some seen :: levels ∧
      (inner'.length : Int) = inner.length + descent ts := by
  induction ts generalizing inner with
  | nil => exact ⟨inner, (Option.some.inj h).symm, (Int.add_zero _).symm⟩
  | cons t ts ih =>
    rw [watched_cons] at h
    obtain ⟨next, hnext, hrest⟩ := Option.bind_eq_some_iff.mp h
    have hfirst := hinside [t] (List.prefix_append [t] ts)
    -- one token, then the rest from where it leads
    obtain ⟨inner₁, rfl, hlength⟩ := watch_above (by simpa [descent] using hfirst) hnext
    have hlater : ∀ us, us <+: ts → 0 ≤ inner₁.length + descent us := by
      intro us hus
      have h := hinside (t :: us) (List.cons_prefix_cons.mpr ⟨rfl, hus⟩)
      simp only [descent, List.map_cons, List.sum_cons] at h ⊢
      omega
    obtain ⟨inner₂, hafter, hlength₂⟩ := ih hlater hrest
    refine ⟨inner₂, hafter, ?_⟩
    simp only [descent, List.map_cons, List.sum_cons] at hlength₂ ⊢
    omega

/-- **Tokens that can be passed over are not mixed.** Between two connectives of one level, that level keeps the
    connective that it has seen. -/
theorem unmixed_of_watched {ts : List Token} {levels after : List (Option Connective)}
    (h : watched levels ts = some after) : Unmixed ts := by
  rintro before o mid o' rest rfl ⟨hdescent, hinside⟩
  rw [watched_append] at h
  obtain ⟨levels₁, -, h⟩ := Option.bind_eq_some_iff.mp h
  rw [watched_cons] at h
  obtain ⟨levels₂, hjoin, h⟩ := Option.bind_eq_some_iff.mp h
  -- the first connective leaves its mark on the level it stands on
  obtain ⟨outer, rfl⟩ := watch_join hjoin
  rw [watched_append] at h
  obtain ⟨levels₃, hmid, h⟩ := Option.bind_eq_some_iff.mp h
  have hinside' : ∀ us, us <+: mid → 0 ≤ (([] : List (Option Connective)).length : Int) + descent us := by
    simpa using hinside
  -- what is between the two connectives comes back to this level without leaving it
  obtain ⟨inner, rfl, hlength⟩ := watched_above hinside' hmid
  rw [hdescent] at hlength
  obtain rfl : inner = [] := List.eq_nil_of_length_eq_zero (by simpa using hlength)
  -- so the second connective meets the mark of the first
  rw [watched_cons] at h
  obtain ⟨levels₄, hjoin', -⟩ := Option.bind_eq_some_iff.mp h
  change (if o = o' then _ else none) = some levels₄ at hjoin'
  split at hjoin'
  · assumption
  · cases hjoin'

end Criteria.Grammar
