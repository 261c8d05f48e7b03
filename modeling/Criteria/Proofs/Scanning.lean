import Criteria.Formula.Text
import Criteria.Settings

/-!
# `Criteria.Proofs.Scanning` — reading parameters off a text

An engine finds the parameters of a query by scanning its text: a colon is followed by a name, and whatever stands
between single quotes is skipped. This module defines that scanner and says what it reads in the pieces that
queries are made of. A name and a literal only end where the next character says so, so every statement about a
piece is one about the piece with something behind it that starts with such a character.

## Contents
- **The scanner.** `placeholders`, by `scanOutside` and `scanInside`.
- **Pieces.** `Scans t names`: the piece `t` contributes these names. `Plain` pieces contribute none, a parameter
  contributes its name (`scans_parameter`), and a quoted text contributes none, whatever it contains
  (`scans_quoted`).
- **Composition.** Pieces are put together by `Scans.append`, `Plain.append_scans` and `scans_intercalate`.
  `Opens` says of a piece that it ends the name or the literal in front of it.
- **Names.** `isName_nameAt`: what is drawn from a supply with a plain stem is read as one name.
-/

namespace Criteria.Scanning

/-! ## The scanner -/

/-- Whether a character belongs to a name: an ASCII letter, a digit or the underscore. -/
def isNameChar (c : Char) : Bool := c.isAlphanum || c = '_'

mutual

/-- Scans from outside of all literals. A name is read as far as it goes; its characters are then passed over like
    others, since none of them is a colon or a quote. -/
def scanOutside : List Char → List String
  | [] => []
  | ':' :: cs => String.ofList (cs.takeWhile isNameChar) :: scanOutside cs
  | '\'' :: cs => scanInside cs
  | _ :: cs => scanOutside cs

/-- Scans from inside of a literal. A doubled quote stays inside. -/
def scanInside : List Char → List String
  | [] => []
  | '\'' :: '\'' :: cs => scanInside cs
  | '\'' :: cs => scanOutside cs
  | _ :: cs => scanInside cs

end

/-- The names that are read in a text from left to right. -/
def placeholders (text : String) : List String := scanOutside text.toList

theorem scanOutside_cons {c : Char} (hcolon : c ≠ ':') (hquote : c ≠ '\'') (cs : List Char) :
    scanOutside (c :: cs) = scanOutside cs := by
  rw [scanOutside]
  · exact hcolon
  · exact hquote

theorem scanInside_cons {c : Char} (hquote : c ≠ '\'') (cs : List Char) :
    scanInside (c :: cs) = scanInside cs := by
  rw [scanInside]
  · exact fun _ h _ => hquote h
  · exact hquote

/-! ## Pieces -/

/-- What starts with a character that ends a name and is no quote. -/
def Ends (cs : List Char) : Prop := ∀ c ∈ cs.head?, isNameChar c = false ∧ c ≠ '\''

/-- A piece that may follow a name or a literal. -/
def Opens (t : String) : Prop := Ends t.toList

-- the first character is looked at, not the type of characters
instance (t : String) : Decidable (Opens t) :=
  have : Decidable (∀ c ∈ t.toList.head?.toList, isNameChar c = false ∧ c ≠ '\'') := List.decidableBAll _ _
  decidable_of_iff (∀ c ∈ t.toList.head?.toList, isNameChar c = false ∧ c ≠ '\'') (by simp [Opens, Ends])

/-- A piece without colons and quotes. -/
def Plain (t : String) : Prop := ∀ c ∈ t.toList, c ≠ ':' ∧ c ≠ '\''

instance (t : String) : Decidable (Plain t) := List.decidableBAll _ t.toList

/-- A text that is read as one name behind a colon. -/
def IsName (t : String) : Prop := ∀ c ∈ t.toList, isNameChar c = true

instance (t : String) : Decidable (IsName t) := List.decidableBAll _ t.toList

/-- A piece contributes some names, whatever follows it. -/
def Scans (t : String) (names : List String) : Prop :=
  ∀ rest, Ends rest → scanOutside (t.toList ++ rest) = names ++ scanOutside rest

theorem Scans.placeholders_eq {t : String} {names : List String} (h : Scans t names) :
    placeholders t = names := by
  have hscan := h [] (fun _ hc => absurd hc (Option.not_mem_none _))
  rwa [List.append_nil, scanOutside, List.append_nil] at hscan

theorem ne_of_isNameChar {c : Char} (h : isNameChar c = true) : c ≠ ':' ∧ c ≠ '\'' := by
  constructor
  all_goals
    rintro rfl
    exact absurd h (by decide)

theorem IsName.plain {t : String} (h : IsName t) : Plain t := fun c hc => ne_of_isNameChar (h c hc)

theorem scanOutside_append {cs : List Char} (h : ∀ c ∈ cs, c ≠ ':' ∧ c ≠ '\'') (rest : List Char) :
    scanOutside (cs ++ rest) = scanOutside rest := by
  induction cs with
  | nil => rfl
  | cons c cs ih =>
    obtain ⟨hcolon, hquote⟩ := h c List.mem_cons_self
    rw [List.cons_append, scanOutside_cons hcolon hquote]
    exact ih fun d hd => h d (List.mem_cons_of_mem _ hd)

theorem Plain.scans {t : String} (h : Plain t) : Scans t [] := fun rest _ => scanOutside_append h rest

theorem scans_empty : Scans "" [] := Plain.scans (t := "") nofun

/-- **A parameter is read as its name.** The name ends where the next piece begins. -/
theorem scans_parameter {name : String} (h : IsName name) : Scans (":" ++ name) [name] := by
  intro rest hrest
  have htail : rest.takeWhile isNameChar = [] := by
    cases rest with
    | nil => rfl
    | cons c rest => rw [List.takeWhile_cons, (hrest c rfl).1, if_neg Bool.false_ne_true]
  have hname : (name.toList ++ rest).takeWhile isNameChar = name.toList := by
    rw [List.takeWhile_append_of_pos h, htail, List.append_nil]
  rw [String.toList_append]
  show scanOutside (':' :: (name.toList ++ rest)) = _
  rw [scanOutside, hname, String.ofList_toList, scanOutside_append h.plain]
  rfl

/-- What is doubled cannot end the literal it stands in. -/
theorem scanInside_doubled (cs rest : List Char) :
    scanInside (Literal.doubled cs ++ rest) = scanInside rest := by
  induction cs with
  | nil => rfl
  | cons c cs ih =>
    by_cases hc : c = '\''
    · subst hc
      rw [Literal.doubled_quote, List.cons_append, List.cons_append, scanInside, ih]
    · rw [Literal.doubled_cons hc, List.cons_append, scanInside_cons hc, ih]

/-- **A quoted text contributes no name**, even when it looks like a parameter or holds quotes. -/
theorem scans_quoted (s : String) : Scans (Literal.quoted s) [] := by
  intro rest hrest
  have hclose : scanInside ('\'' :: rest) = scanOutside rest := by
    rw [scanInside]
    rintro cs rfl
    exact (hrest '\'' rfl).2 rfl
  rw [Literal.quoted, String.toList_ofList, List.cons_append, List.cons_append, scanOutside,
    List.append_assoc, scanInside_doubled]
  exact hclose

-- the doubled quote stays inside, so the name behind it is not read
example : placeholders "a IN ('it''s :p_2', 3) AND b = :p_1)" = ["p_1"] := by decide

/-! ## Composition -/

theorem Plain.append {t u : String} (ht : Plain t) (hu : Plain u) : Plain (t ++ u) := by
  unfold Plain
  rw [String.toList_append]
  exact List.forall_mem_append.mpr ⟨ht, hu⟩

/-- The first character of a piece decides whether it may follow a name or a literal. -/
theorem opens_append {t : String} (ht : Opens t) (hne : t.toList ≠ []) (u : String) : Opens (t ++ u) := by
  unfold Opens at *
  rw [String.toList_append]
  cases h : t.toList with
  | nil => exact absurd h hne
  | cons c cs =>
    rw [h] at ht
    exact ht

/-- **Pieces one after the other.** The second one ends what the first one has begun. -/
theorem Scans.append {t u : String} {xs ys : List String} (ht : Scans t xs) (hu : Scans u ys)
    (hopens : Opens u) : Scans (t ++ u) (xs ++ ys) := by
  intro rest hrest
  have hends : Ends (u.toList ++ rest) := by
    unfold Opens at hopens
    cases h : u.toList with
    | nil => exact hrest
    | cons c cs =>
      rw [h] at hopens
      exact hopens
  rw [String.toList_append, List.append_assoc, ht _ hends, hu rest hrest, List.append_assoc]

/-- Behind plain text anything may follow. -/
theorem Plain.append_scans {t u : String} {ys : List String} (ht : Plain t) (hu : Scans u ys) :
    Scans (t ++ u) ys := by
  intro rest hrest
  rw [String.toList_append, List.append_assoc, scanOutside_append ht]
  exact hu rest hrest

theorem scans_intercalate {ts : List String} (h : ∀ t ∈ ts, Scans t []) :
    Scans (String.intercalate ", " ts) [] := by
  induction ts with
  | nil => exact scans_empty
  | cons t ts ih =>
    have ht := h t List.mem_cons_self
    cases ts with
    | nil => exact ht
    | cons u ts =>
      have hrest := ih fun v hv => h v (List.mem_cons_of_mem _ hv)
      have hcomma : Plain ", " := by decide
      rw [String.intercalate_cons_cons, String.append_assoc]
      exact ht.append (hcomma.append_scans hrest) (opens_append (by decide) (by decide) _)

/-- Keywords stand between spaces. -/
theorem plain_keyword {keyword : String} (h : Plain keyword) : Plain (" " ++ keyword ++ " ") :=
  (Plain.append (by decide) h).append (by decide)

theorem opens_keyword (keyword t : String) : Opens (" " ++ keyword ++ " " ++ t) := by
  rw [String.append_assoc, String.append_assoc]
  exact opens_append (by decide) (by decide) _

/-! ## Names -/

theorem IsName.append {t u : String} (ht : IsName t) (hu : IsName u) : IsName (t ++ u) := by
  unfold IsName
  rw [String.toList_append]
  exact List.forall_mem_append.mpr ⟨ht, hu⟩

theorem isName_of_isPlainIdentifier {t : String} (h : isPlainIdentifier t = true) : IsName t := by
  unfold isPlainIdentifier at h
  unfold IsName
  cases ht : t.toList with
  | nil => exact nofun
  | cons c cs =>
    rw [ht] at h
    obtain ⟨hfirst, hrest⟩ := Bool.and_eq_true _ _ ▸ h
    intro d hd
    rcases List.mem_cons.mp hd with rfl | hd
    · unfold isNameChar Char.isAlphanum
      rcases Bool.or_eq_true _ _ ▸ hfirst with halpha | hunderscore
      · rw [halpha]
        rfl
      · rw [hunderscore, Bool.or_true]
    · exact List.all_eq_true.mp hrest d hd

theorem isName_toString (n : Nat) : IsName (toString n) := by
  intro c hc
  have hdigits : (toString n).toList = Nat.toDigits 10 n := Nat.toList_repr
  rw [hdigits] at hc
  have hdigit := Nat.isDigit_of_mem_toDigits (by decide) (by decide) hc
  rw [isNameChar, Char.isAlphanum, hdigit, Bool.or_true]
  rfl

/-- **Drawn names are read as one name.** -/
theorem isName_nameAt {stem : String} (h : isPlainIdentifier stem = true) (index : UInt64) :
    IsName (NameSupply.nameAt stem index) := by
  have hunderscore : IsName "_" := by decide
  exact ((isName_of_isPlainIdentifier h).append hunderscore).append (isName_toString _)

end Criteria.Scanning
