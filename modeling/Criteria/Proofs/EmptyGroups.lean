import Criteria.Proofs.Rendering
import Criteria.Proofs.Truth
import Criteria.Query
import Mathlib.Data.List.Nodup

/-!
# `Criteria.Proofs.EmptyGroups` — two readings of a group without predicates

A group without predicates restricts nothing, but there are two ways to say so. The text of a formula writes it
as `1=1`, which always holds; normalization leaves it out. Inside a conjunction both come to the same. Inside a
disjunction they do not: beside other alternatives, one that always holds lifts the whole restriction, and one that
is left out lifts nothing. So the raw texts of a clause and the text of its normal form may select different results.

## Contents
- **Reading.** `Tree.truth` is the truth of what is read in a text; `Formula.reading` is the same on the formula
  (`truth_condensed`).
- **Bound.** A formula is read as true wherever its value is true (`value_le_reading`).
- **Agreement.** `Uniform` formulas have no disjunction that mixes members with and without predicates; they are
  read as their value (`reading_of_uniform`). Normal forms are uniform (`uniform_normalize`).
- **Disagreement.** A formula of distinct predicates that is not uniform is read as true somewhere where its value
  is false (`exists_disagreement`).
- **Result.** `raw_text_bounds_normal_form`, and `raw_text_of_empty_alternative` for a clause whose texts select
  different results.
-/

namespace Criteria

/-! ## Reading -/

/-- The truth value that joining leaves unchanged. -/
def Connective.neutral : Connective → Bool
  | .and => true
  | .or => false

namespace Connective

@[simp] theorem join_neutral (connective : Connective) (b : Bool) :
    connective.join b connective.neutral = b := by
  cases connective <;> cases b <;> rfl

@[simp] theorem neutral_join (connective : Connective) (b : Bool) :
    connective.join connective.neutral b = b := by
  cases connective <;> cases b <;> rfl

theorem join_le_join (connective : Connective) {a b c d : Bool} (hab : a ≤ b) (hcd : c ≤ d) :
    connective.join a c ≤ connective.join b d := by
  cases connective with
  | and => exact inf_le_inf hab hcd
  | or => exact sup_le_sup hab hcd

/-- An absent value stands for the neutral one where values are joined. -/
theorem getD_merge (connective : Connective) (x y : Option Bool) :
    (x.merge connective.join y).getD connective.neutral =
      connective.join (x.getD connective.neutral) (y.getD connective.neutral) := by
  cases x <;> cases y <;> simp

/-- Where a member is true, the others need not be more than neutral. -/
theorem join_true (connective : Connective) {b : Bool} (h : connective.neutral ≤ b) :
    connective.join true b = true ∧ connective.join b true = true := by
  cases connective with
  | and =>
    obtain rfl : b = true := Bool.eq_true_of_true_le h
    exact ⟨rfl, rfl⟩
  | or => cases b <;> exact ⟨rfl, rfl⟩

/-- Where a member is false and the others are neutral or absent, the group is false. -/
theorem merge_false (connective : Connective) {x : Option Bool}
    (h : x.getD connective.neutral = connective.neutral) :
    (some false).merge connective.join x = some false ∧ x.merge connective.join (some false) = some false := by
  cases x with
  | none => exact ⟨rfl, rfl⟩
  | some b =>
    obtain rfl : b = connective.neutral := h
    simp

end Connective

namespace Grammar

mutual

/-- The truth of a tree when `holds` decides its words. The word `1=1` is read as a conjunction of nothing, which
    is true. -/
def Tree.truth (holds : String → Bool) : Tree → Bool
  | .leaf text => holds text
  | .group connective members => Tree.truthIn holds connective members

/-- The truth of trees joined by a connective. -/
def Tree.truthIn (holds : String → Bool) (connective : Connective) : List Tree → Bool
  | [] => connective.neutral
  | t :: ts => connective.join (Tree.truth holds t) (Tree.truthIn holds connective ts)

end

end Grammar

open Grammar

namespace Formula

mutual

/-- The truth of a formula as its text is read: a group without members always holds. -/
def reading (holds : Predicate → Bool) : Formula → Bool
  | .leaf p => holds p
  | .group connective members => members.isEmpty || readingIn holds connective members

/-- The truth of formulas joined by a connective, as their texts are read. -/
def readingIn (holds : Predicate → Bool) (connective : Connective) : List Formula → Bool
  | [] => connective.neutral
  | f :: fs => connective.join (reading holds f) (readingIn holds connective fs)

end

theorem compositional_reading : Compositional reading readingIn where
  leaf := ⟨id, fun _ _ => rfl⟩
  group := ⟨fun _ empty b => empty || b, fun _ _ _ => rfl⟩
  nil := ⟨Connective.neutral, fun _ _ => rfl⟩
  cons := ⟨Connective.join, fun _ _ _ _ => rfl⟩

mutual

/-- **A text is read as its formula.** The truth of what is read in the text of a formula is the reading of the
    formula, when a predicate holds as its text does. -/
theorem truth_condensed (words : String → Bool) :
    ∀ f : Formula, (condensed f).truth words = f.reading fun p => words p.text
  | .leaf p => rfl
  | .group _ [] => rfl
  | .group connective [f] => by
    have hf := truth_condensed words f
    simp [condensed, reading, readingIn, hf]
  | .group connective (f :: g :: fs) => by
    have hf := truth_condensed words f
    have hrest := truthIn_condensed words connective (g :: fs)
    simp [condensed, Tree.truth, Tree.truthIn, reading, readingIn, hf, hrest]

theorem truthIn_condensed (words : String → Bool) (connective : Connective) :
    ∀ fs : List Formula, Tree.truthIn words connective (condensedIn fs) =
      readingIn (fun p => words p.text) connective fs
  | [] => rfl
  | f :: fs => by
    have hf := truth_condensed words f
    have hfs := truthIn_condensed words connective fs
    simp [condensedIn, Tree.truthIn, readingIn, hf, hfs]

end

variable (holds : Predicate → Bool)

/-- The members of a conjunction are read one by one. -/
theorem readingIn_and (fs : List Formula) : readingIn holds .and fs = fs.all (reading holds) := by
  induction fs with
  | nil => rfl
  | cons f fs ih =>
    show (reading holds f && readingIn holds .and fs) = _
    rw [ih, List.all_cons]

/-- The members of a disjunction are read one by one. -/
theorem readingIn_or (fs : List Formula) : readingIn holds .or fs = fs.any (reading holds) := by
  induction fs with
  | nil => rfl
  | cons f fs ih =>
    show (reading holds f || readingIn holds .or fs) = _
    rw [ih, List.any_cons]

/-- A conjunction is read as the conjunction of its members, also where it has none. -/
theorem reading_and (fs : List Formula) : reading holds (.group .and fs) = fs.all (reading holds) := by
  rw [reading, readingIn_and]
  cases fs <;> rfl

/-! ## Bound -/

/-- Without predicates there is nothing that could fail. -/
theorem reading_of_no_leaves_and_list :
    (∀ f : Formula, f.leaves = [] → reading holds f = true) ∧
      ∀ fs : List Formula, leavesIn fs = [] → ∀ connective,
        (fs.isEmpty || readingIn holds connective fs) = true := by
  refine tree_induction ?leaf ?group ?nil ?cons
  case leaf => intro p h; exact absurd h (by simp [leaves])
  case group => intro connective members ih h; exact ih h connective
  case nil => intro _ connective; rfl
  case cons =>
    intro f fs ihf ihfs h connective
    obtain ⟨hf, hfs⟩ := List.append_eq_nil_iff.mp h
    have hrest := ihfs hfs connective
    rw [readingIn, ihf hf]
    cases fs with
    | nil => simp [readingIn]
    | cons g gs =>
      rw [List.isEmpty_cons, Bool.false_or] at hrest
      rw [hrest]
      cases connective <;> rfl

theorem reading_of_no_leaves {f : Formula} (h : f.leaves = []) : reading holds f = true :=
  (reading_of_no_leaves_and_list holds).1 f h

theorem value_eq_none_iff (f : Formula) : value holds f = none ↔ f.leaves = [] :=
  (value_eq_none_iff_and_list holds).1 f

/-- An absent value is read as true, which is no less than any neutral value. -/
theorem getD_neutral_le (connective : Connective) (x : Option Bool) :
    x.getD connective.neutral ≤ x.getD true := by
  cases x with
  | none => exact Bool.le_true _
  | some b => exact le_refl b

theorem value_le_reading_and_list :
    (∀ f, (value holds f).getD true ≤ reading holds f) ∧
      ∀ fs, ∀ connective, (valueIn holds connective fs).getD connective.neutral ≤
        readingIn holds connective fs := by
  refine tree_induction ?leaf ?group ?nil ?cons
  case leaf => intro p; exact le_refl _
  case group =>
    intro connective members ih
    cases hvalue : value holds (.group connective members) with
    | none =>
      -- a group without predicates has no value, and is read as true
      rw [reading_of_no_leaves holds ((value_eq_none_iff holds _).mp hvalue)]
      exact Bool.le_true _
    | some b =>
      have hmembers := ih connective
      rw [show valueIn holds connective members = some b from hvalue] at hmembers
      exact le_trans hmembers (Bool.le_iff_imp.mpr fun h => by simp [reading, h])
  case nil => intro connective; exact le_refl _
  case cons =>
    intro f fs ihf ihfs connective
    rw [valueIn, Connective.getD_merge, readingIn]
    exact connective.join_le_join (le_trans (getD_neutral_le connective _) ihf) (ihfs connective)

/-- **A formula is read as true wherever its value is true**, or absent. -/
theorem value_le_reading (f : Formula) : (value holds f).getD true ≤ reading holds f :=
  (value_le_reading_and_list holds).1 f

/-! ## Agreement -/

mutual

/-- No disjunction mixes members with predicates and members without. -/
def Uniform : Formula → Prop
  | .leaf _ => True
  | .group connective members =>
    (connective = .or → (∀ f ∈ members, f.leaves = []) ∨ ∀ f ∈ members, f.leaves ≠ []) ∧ UniformIn members

/-- None of several formulas has such a disjunction. -/
def UniformIn : List Formula → Prop
  | [] => True
  | f :: fs => Uniform f ∧ UniformIn fs

end

theorem uniformIn_iff (fs : List Formula) : UniformIn fs ↔ ∀ f ∈ fs, Uniform f := by
  induction fs with
  | nil => simp [UniformIn]
  | cons f fs ih => simp [UniformIn, ih]

theorem reading_of_uniform_and_list :
    (∀ f, Uniform f → reading holds f = (value holds f).getD true) ∧
      ∀ fs, UniformIn fs → ∀ connective, (connective = .or → ∀ f ∈ fs, f.leaves ≠ []) →
        readingIn holds connective fs = (valueIn holds connective fs).getD connective.neutral := by
  refine tree_induction ?leaf ?group ?nil ?cons
  case leaf => intro p _; rfl
  case group =>
    intro connective members ih h
    obtain ⟨hmixed, hmembers⟩ := h
    cases hvalue : value holds (.group connective members) with
    | none => exact reading_of_no_leaves holds ((value_eq_none_iff holds _).mp hvalue)
    | some b =>
      have hleaves : ¬ ∀ f ∈ members, f.leaves = [] := by
        rw [← leavesIn_eq_nil_iff, ← leaves, ← value_eq_none_iff holds, hvalue]
        simp
      have hread := ih hmembers connective fun hor => (hmixed hor).resolve_left hleaves
      rw [show valueIn holds connective members = some b from hvalue] at hread
      have hne : members.isEmpty = false := by
        cases members with
        | nil => exact absurd (List.forall_mem_nil _) hleaves
        | cons f fs => rfl
      rw [reading, hread, hne]
      rfl
  case nil => intro _ connective _; rfl
  case cons =>
    intro f fs ihf ihfs h connective hfilled
    obtain ⟨hf, hfs⟩ := h
    have hrest := ihfs hfs connective fun hor g hg => hfilled hor g (List.mem_cons_of_mem _ hg)
    -- the first member is read as its value, and an absent value is neutral in a conjunction
    have hfirst : (value holds f).getD true = (value holds f).getD connective.neutral := by
      cases connective with
      | and => rfl
      | or =>
        have hsome : value holds f ≠ none :=
          fun hnone => hfilled rfl f List.mem_cons_self ((value_eq_none_iff holds f).mp hnone)
        obtain ⟨b, hb⟩ := Option.ne_none_iff_exists'.mp hsome
        rw [hb]
        rfl
    rw [readingIn, valueIn, Connective.getD_merge, ihf hf, hrest, hfirst]

/-- **A uniform formula is read as its value**, and as true where it has none. -/
theorem reading_of_uniform {f : Formula} (h : Uniform f) : reading holds f = (value holds f).getD true :=
  (reading_of_uniform_and_list holds).1 f h

mutual

/-- The shape of normal forms: every member of a group has predicates. -/
def Trim : Formula → Prop
  | .leaf _ => True
  | .group _ members => TrimIn members

/-- Formulas that have predicates, and whose groups have only members with predicates. -/
def TrimIn : List Formula → Prop
  | [] => True
  | f :: fs => f.leaves ≠ [] ∧ Trim f ∧ TrimIn fs

end

theorem trimIn_append (fs gs : List Formula) : TrimIn (fs ++ gs) ↔ TrimIn fs ∧ TrimIn gs := by
  induction fs with
  | nil => simp [TrimIn]
  | cons f fs ih => simp [TrimIn, ih, and_assoc]

theorem TrimIn.filled {fs : List Formula} (h : TrimIn fs) : ∀ f ∈ fs, f.leaves ≠ [] := by
  induction fs with
  | nil => exact nofun
  | cons f fs ih =>
    intro g hg
    rcases List.mem_cons.mp hg with rfl | hg
    · exact h.1
    · exact ih h.2.2 g hg

/-- What a trim member contributes to its group is trim. -/
theorem trimIn_spliced (connective : Connective) {f : Formula} (h : Trim f) : TrimIn (spliced connective f) := by
  unfold spliced
  split
  · exact ⟨by simp [leaves], trivial, trivial⟩
  · trivial
  · rename_i own members hne
    split
    · exact h
    · refine ⟨?_, h, trivial⟩
      cases members with
      | nil => exact absurd rfl hne
      | cons g gs =>
        have hg : g.leaves ≠ [] := h.1
        simp [leaves, leavesIn, hg]

theorem trim_gathered (connective : Connective) {fs : List Formula} (h : TrimIn fs) :
    Trim (gathered connective fs) := by
  unfold gathered
  split
  · exact h.2.1
  · exact h

theorem trim_normalize_and_list :
    (∀ f, Trim (normalize f)) ∧ ∀ fs, ∀ connective, TrimIn (normalizeIn connective fs) := by
  refine tree_induction ?leaf ?group ?nil ?cons
  case leaf => intro p; trivial
  case group => intro connective members ih; exact trim_gathered connective (ih connective)
  case nil => intro connective; trivial
  case cons =>
    intro f fs ihf ihfs connective
    exact (trimIn_append _ _).mpr ⟨trimIn_spliced connective ihf, ihfs connective⟩

theorem uniform_of_trim_and_list : (∀ f, Trim f → Uniform f) ∧ ∀ fs, TrimIn fs → UniformIn fs := by
  refine tree_induction ?leaf ?group ?nil ?cons
  case leaf => intro p _; trivial
  case group =>
    intro connective members ih h
    have hfilled : ∀ f ∈ members, f.leaves ≠ [] := TrimIn.filled h
    exact ⟨fun _ => .inr hfilled, ih h⟩
  case nil => intro _; trivial
  case cons =>
    intro f fs ihf ihfs h
    exact ⟨ihf h.2.1, ihfs h.2.2⟩

/-- **Normal forms are uniform**, because normalization leaves out every member without predicates. -/
theorem uniform_normalize (f : Formula) : Uniform (normalize f) :=
  uniform_of_trim_and_list.1 _ (trim_normalize_and_list.1 f)

/-- The normal form of a formula is read as the value of the formula. -/
theorem reading_normalize (f : Formula) : reading holds (normalize f) = (value holds f).getD true := by
  rw [reading_of_uniform holds (uniform_normalize f), value_normalize]

/-! ## Disagreement -/

variable {holds}

/-- Predicates that all have one truth value give a formula that value, if any. -/
theorem value_of_constant_and_list {b : Bool} :
    (∀ f, (∀ p ∈ f.leaves, holds p = b) → (value holds f).getD b = b) ∧
      ∀ fs, (∀ p ∈ leavesIn fs, holds p = b) → ∀ connective, (valueIn holds connective fs).getD b = b := by
  refine tree_induction ?leaf ?group ?nil ?cons
  case leaf => intro p h; exact h p List.mem_cons_self
  case group => intro connective members ih h; exact ih h connective
  case nil => intro _ connective; rfl
  case cons =>
    intro f fs ihf ihfs h connective
    have hf := ihf fun p hp => h p (List.mem_append_left _ hp)
    have hfs := ihfs (fun p hp => h p (List.mem_append_right _ hp)) connective
    rw [valueIn]
    cases hx : value holds f <;> cases hy : valueIn holds connective fs
    · rfl
    · simpa [hy] using hfs
    · simpa [hx] using hf
    · have hboth : connective.join b b = b := by cases connective <;> cases b <;> rfl
      simp_all

/-- A truth value for some predicates, and one value for all others. -/
def within (ps : List Predicate) (holds : Predicate → Bool) (other : Bool) (p : Predicate) : Bool :=
  if p ∈ ps then holds p else other

theorem within_of_mem {ps : List Predicate} {p : Predicate} (holds : Predicate → Bool) (other : Bool)
    (h : p ∈ ps) : within ps holds other p = holds p := if_pos h

theorem within_of_not_mem {ps : List Predicate} {p : Predicate} (holds : Predicate → Bool) (other : Bool)
    (h : p ∉ ps) : within ps holds other p = other := if_neg h

/-- Neutral predicates do not keep a formula from being read as neutral. -/
theorem neutral_le_reading {connective : Connective} {f : Formula}
    (h : ∀ p ∈ f.leaves, holds p = connective.neutral) : connective.neutral ≤ reading holds f :=
  calc connective.neutral
    _ = (value holds f).getD connective.neutral := (value_of_constant_and_list.1 f h).symm
    _ ≤ (value holds f).getD true := getD_neutral_le connective _
    _ ≤ reading holds f := value_le_reading holds f

theorem neutral_le_readingIn {connective : Connective} {fs : List Formula}
    (h : ∀ p ∈ leavesIn fs, holds p = connective.neutral) : connective.neutral ≤ readingIn holds connective fs :=
  calc connective.neutral
    _ = (valueIn holds connective fs).getD connective.neutral :=
      (value_of_constant_and_list.2 fs h connective).symm
    _ ≤ readingIn holds connective fs := (value_le_reading_and_list holds).2 fs connective

/-- Where all predicates fail, a mixed disjunction is read as true for its member without predicates, and its value is
    false for its member with some. -/
theorem disagreement_of_mixed {members : List Formula} {e g : Formula} (he : e ∈ members) (hempty : e.leaves = [])
    (hg : g ∈ members) (hfilled : g.leaves ≠ []) :
    reading (fun _ => false) (.group .or members) = true ∧
      value (fun _ => false) (.group .or members) = some false := by
  constructor
  · have hany : members.any (reading fun _ => false) = true :=
      List.any_eq_true.mpr ⟨e, he, reading_of_no_leaves _ hempty⟩
    rw [reading, readingIn_or, hany, Bool.or_true]
  · have hnone : value (fun _ => false) (.group .or members) ≠ none := by
      rw [ne_eq, value_eq_none_iff, leaves, leavesIn_eq_nil_iff]
      exact fun hall => hfilled (hall g hg)
    obtain ⟨b, hb⟩ := Option.ne_none_iff_exists'.mp hnone
    have hfalse : (value (fun _ => false) (.group .or members)).getD false = false :=
      value_of_constant_and_list.1 _ fun _ _ => rfl
    rw [hb] at hfalse ⊢
    exact congrArg some hfalse

section Neighbours

variable {connective : Connective} {f : Formula} {fs : List Formula}

/-- A disagreement about the first member is one about all, once the predicates of the others are neutral. -/
theorem disagreement_of_head (hdisjoint : ∀ p ∈ leavesIn fs, p ∉ f.leaves)
    (h : ∃ holds, reading holds f = true ∧ value holds f = some false) :
    ∃ holds, readingIn holds connective (f :: fs) = true ∧ valueIn holds connective (f :: fs) = some false := by
  obtain ⟨holds, hread, hvalue⟩ := h
  have hkept : ∀ p ∈ f.leaves, within f.leaves holds connective.neutral p = holds p :=
    fun p hp => within_of_mem holds _ hp
  have hneutral : ∀ p ∈ leavesIn fs, within f.leaves holds connective.neutral p = connective.neutral :=
    fun p hp => within_of_not_mem holds _ (hdisjoint p hp)
  refine ⟨within f.leaves holds connective.neutral, ?_, ?_⟩
  · rw [readingIn, compositional_reading.congr.1 f hkept, hread]
    exact (connective.join_true (neutral_le_readingIn hneutral)).1
  · rw [valueIn, compositional_value.congr.1 f hkept, hvalue]
    exact (connective.merge_false (value_of_constant_and_list.2 fs hneutral connective)).1

/-- A disagreement about the other members is one about all, once the predicates of the first are neutral. -/
theorem disagreement_of_tail (hdisjoint : ∀ p ∈ f.leaves, p ∉ leavesIn fs)
    (h : ∃ holds, readingIn holds connective fs = true ∧ valueIn holds connective fs = some false) :
    ∃ holds, readingIn holds connective (f :: fs) = true ∧ valueIn holds connective (f :: fs) = some false := by
  obtain ⟨holds, hread, hvalue⟩ := h
  have hkept : ∀ p ∈ leavesIn fs, within (leavesIn fs) holds connective.neutral p = holds p :=
    fun p hp => within_of_mem holds _ hp
  have hneutral : ∀ p ∈ f.leaves, within (leavesIn fs) holds connective.neutral p = connective.neutral :=
    fun p hp => within_of_not_mem holds _ (hdisjoint p hp)
  refine ⟨within (leavesIn fs) holds connective.neutral, ?_, ?_⟩
  · rw [readingIn, compositional_reading.congr.2 fs hkept connective, hread]
    exact (connective.join_true (neutral_le_reading hneutral)).2
  · rw [valueIn, compositional_value.congr.2 fs hkept connective, hvalue]
    exact (connective.merge_false (value_of_constant_and_list.1 f hneutral)).2

end Neighbours

theorem exists_disagreement_and_list :
    (∀ f : Formula, f.leaves.Nodup → ¬ Uniform f →
        ∃ holds, reading holds f = true ∧ value holds f = some false) ∧
      ∀ fs : List Formula, (leavesIn fs).Nodup → ¬ UniformIn fs → ∀ connective,
        ∃ holds, readingIn holds connective fs = true ∧ valueIn holds connective fs = some false := by
  refine tree_induction ?leaf ?group ?nil ?cons
  case leaf => intro p _ h; exact absurd trivial h
  case group =>
    intro connective members ih hnodup h
    by_cases hmembers : UniformIn members
    · -- no member is to blame, so the group itself is a mixed disjunction
      have hmixed : ¬ (connective = .or → (∀ f ∈ members, f.leaves = []) ∨ ∀ f ∈ members, f.leaves ≠ []) :=
        fun hm => h ⟨hm, hmembers⟩
      push Not at hmixed
      obtain ⟨rfl, ⟨g, hg, hfilled⟩, e, he, hempty⟩ := hmixed
      exact ⟨_, disagreement_of_mixed he hempty hg hfilled⟩
    · obtain ⟨holds, hread, hvalue⟩ := ih hnodup hmembers connective
      exact ⟨holds, by rw [reading, hread, Bool.or_true], hvalue⟩
  case nil => intro _ h; exact absurd trivial h
  case cons =>
    intro f fs ihf ihfs hnodup h connective
    obtain ⟨hf, hfs, hdisjoint⟩ := List.nodup_append.mp hnodup
    by_cases hfirst : Uniform f
    · have hrest : ¬ UniformIn fs := fun hr => h ⟨hfirst, hr⟩
      exact disagreement_of_tail (fun p hp hq => hdisjoint p hp p hq rfl) (ihfs hfs hrest connective)
    · exact disagreement_of_head (fun p hp hq => hdisjoint p hq p hp rfl) (ihf hf hfirst)

/-- **Mixed disjunctions are read wrongly somewhere.** A formula of distinct predicates that is not uniform is read
    as true for some truth values of the predicates that make its value false. -/
theorem exists_disagreement {f : Formula} (hnodup : f.leaves.Nodup) (h : ¬ Uniform f) :
    ∃ holds, reading holds f = true ∧ value holds f = some false :=
  exists_disagreement_and_list.1 f hnodup h

/-! ## Result -/

/-- Where a clause has no formula, nothing is restricted. -/
theorem reading_conjunction (holds : Predicate → Bool) (fs : List Formula) :
    (conjunction fs).elim true (reading holds) = reading holds (normalize (.group .and fs)) := by
  cases h : conjunction fs with
  | none =>
    have hleaves : leavesIn fs = [] := (conjunction_eq_none_iff fs).mp h
    rw [reading_normalize, (value_eq_none_iff holds (.group .and fs)).mpr hleaves]
    rfl
  | some f => rw [conjunction_eq_some h]; rfl

theorem reading_of_conjunction {fs : List Formula} (holds : Predicate → Bool)
    (h : (conjunction fs).elim true (reading holds) = true) : fs.all (reading holds) = true := by
  rw [reading_conjunction, reading_normalize] at h
  rw [← reading_and]
  exact Bool.eq_true_of_true_le (h ▸ value_le_reading holds (.group .and fs))

theorem reading_of_uniform_conjunction {fs : List Formula} (holds : Predicate → Bool) (h : ∀ f ∈ fs, Uniform f) :
    fs.all (reading holds) = (conjunction fs).elim true (reading holds) := by
  have huniform : Uniform (.group .and fs) := ⟨nofun, (uniformIn_iff fs).mpr h⟩
  rw [reading_conjunction, reading_normalize, ← reading_and, reading_of_uniform holds huniform]

/-- **The text of a formula against the text of its normal form.** Every tree that is read in a text has the
    reading of its formula. A formula is read as true wherever its normal form is, and as the normal form where no
    disjunction mixes members with and without predicates. For formulas of distinct predicates this is the only
    way in which both are read alike. The same holds of the raw formulas of the clauses of a query, joined by `and`,
    and the formulas that the query makes of them. -/
theorem raw_text_bounds_normal_form (f : Formula) (q : Query) :
    (∀ words t, Reads f.tokens t → t.truth words = f.reading fun p => words p.text) ∧
      (∀ holds, f.normalize.reading holds = true → f.reading holds = true) ∧
      (f.Uniform → ∀ holds, f.reading holds = f.normalize.reading holds) ∧
      (f.leaves.Nodup → (∀ holds, f.reading holds = f.normalize.reading holds) → f.Uniform) ∧
      ∀ holds,
        ((q.restriction.elim true (reading holds) = true → q.restrictions.all (reading holds) = true) ∧
          (q.having.elim true (reading holds) = true → q.havings.all (reading holds) = true)) ∧
        ((∀ g ∈ q.restrictions, Uniform g) →
          q.restrictions.all (reading holds) = q.restriction.elim true (reading holds)) ∧
        ((∀ g ∈ q.havings, Uniform g) →
          q.havings.all (reading holds) = q.having.elim true (reading holds)) := by
  refine ⟨?_, ?_, ?_, ?_, ?_⟩
  · intro words t ht
    have htree : t = f.condensed := ht.unique (.of_factor (factor_tokens f))
    rw [htree, truth_condensed]
  · intro holds h
    rw [reading_normalize] at h
    exact Bool.eq_true_of_true_le (h ▸ value_le_reading holds f)
  · intro huniform holds
    rw [reading_normalize, reading_of_uniform holds huniform]
  · intro hnodup halike
    by_contra hmixed
    obtain ⟨holds, hread, hvalue⟩ := exists_disagreement hnodup hmixed
    have hboth := halike holds
    rw [hread, reading_normalize, hvalue] at hboth
    cases hboth
  · intro holds
    exact ⟨⟨reading_of_conjunction holds, reading_of_conjunction holds⟩,
      reading_of_uniform_conjunction holds, reading_of_uniform_conjunction holds⟩

/-- An empty disjunction inside a conjunction, and a disjunction whose members all have predicates. -/
theorem raw_text_bounds_normal_form_nested :
    let name : Predicate := ⟨.qualified "entity" "name", .compare .equal, .parameter "param_1"⟩
    let price : Predicate := ⟨.qualified "entity" "price", .isNull, .absent⟩
    let f : Formula := .group .and [.group .or [.leaf name, .leaf price], .group .or [.group .and []]]
    let q : Query := (Query.ofEntity "Product" "entity").addRestriction f
    (f.text = "((entity.name = :param_1 OR entity.price IS NULL) AND 1=1)" ∧ Reads f.tokens f.condensed) ∧
      (f.Uniform ∧ f.leaves.Nodup) ∧
      (∀ words, f.condensed.truth words = f.normalize.reading fun p => words p.text) ∧
      ∀ holds, q.restrictions.all (reading holds) = q.restriction.elim true (reading holds) := by
  intro name price f q
  have hreads : Reads f.tokens f.condensed := .of_factor (factor_tokens f)
  have huniform : f.Uniform := by simp [f, Uniform, UniformIn, leaves, leavesIn]
  obtain ⟨htree, -, halike, -, hclauses⟩ := raw_text_bounds_normal_form f q
  refine ⟨⟨by decide +kernel, hreads⟩, ⟨huniform, by decide⟩, ?_, ?_⟩
  · intro words
    rw [htree words _ hreads, halike huniform]
  · intro holds
    exact (hclauses holds).2.1 fun g hg => List.mem_singleton.mp hg ▸ huniform

/-- **An empty alternative lifts a restriction in one text and not in the other.** Where the name differs, the raw
    text holds and the text of the normal form does not. -/
theorem raw_text_of_empty_alternative :
    let name : Predicate := ⟨.qualified "entity" "name", .compare .equal, .parameter "param_1"⟩
    let f : Formula := .group .or [.leaf name, .group .and []]
    (f.text = "(entity.name = :param_1 OR 1=1)" ∧ f.normalize.text = "entity.name = :param_1") ∧
      ∃ t u, (Reads f.tokens t ∧ Reads f.normalize.tokens u) ∧
        t.truth (fun _ => false) = true ∧ u.truth (fun _ => false) = false := by
  intro name f
  exact ⟨⟨by decide +kernel, by decide +kernel⟩, f.condensed, f.normalize.condensed,
    ⟨.of_factor (factor_tokens f), .of_factor (factor_tokens f.normalize)⟩, rfl, rfl⟩

end Formula

end Criteria
