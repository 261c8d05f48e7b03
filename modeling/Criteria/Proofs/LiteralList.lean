import Criteria.Formula.Text
import Criteria.Proofs.Literal
import Mathlib.Data.List.Forall2

/-!
# `Criteria.Proofs.LiteralList` — lists of literals are read back

The values of a membership test are written into the query, between parentheses and with commas between them. This
module defines a reader of such lists, which knows quotes, commas and the closing parenthesis and nothing about what was
written, and shows that it finds the values again, whatever they contain and whatever stands behind the list.

## Contents
- **The reader.** `readOutside` and `readInside` cut a list into its items. `Item.ofText` tells literals from bare
  words, and takes the doubling of quotes back. `readItems` is both together.
- **Values.** `Item.ofValue` is what a value is in a list; a literal is read as its value (`Item.ofText_text`).
- **Pieces.** What the reader does with harmless text, with a literal, and with a list (`readOutside_listText`).
- **Differences.** `WrittenAlike`: scalars that are written the same. All others are told apart, alone and in lists.
- **Result.** `literals_cannot_break_out`.
-/

namespace Criteria

namespace LiteralList

/-! ## The reader -/

mutual

/-- Reads on outside of all literals, after the beginning of an item, up to the parenthesis that closes the list. Gives
    the items and what stands behind the parenthesis. -/
def readOutside : List Char → List Char → Option (List (List Char) × List Char)
  | _, [] => none
  | item, ')' :: cs => some ([item], cs)
  | item, ',' :: ' ' :: cs => (readOutside [] cs).map fun read => (item :: read.1, read.2)
  | item, '\'' :: cs => readInside (item ++ ['\'']) cs
  | item, c :: cs => readOutside (item ++ [c]) cs

/-- Reads on inside a literal. A doubled quote stays inside. -/
def readInside : List Char → List Char → Option (List (List Char) × List Char)
  | _, [] => none
  | item, '\'' :: '\'' :: cs => readInside (item ++ ['\'', '\'']) cs
  | item, '\'' :: cs => readOutside (item ++ ['\'']) cs
  | item, c :: cs => readInside (item ++ [c]) cs

end

/-- Takes the doubling of quotes back. -/
def undoubled : List Char → List Char
  | '\'' :: '\'' :: cs => '\'' :: undoubled cs
  | c :: cs => c :: undoubled cs
  | [] => []

/-- An item of a list: a bare word, or a literal with its contents. -/
inductive Item where
  | bare (text : String)
  | literal (contents : String)
  deriving DecidableEq

/-- An item that starts with a quote is a literal; its contents stand between this quote and the last. -/
def Item.ofText : List Char → Item
  | '\'' :: cs => .literal (String.ofList (undoubled cs.dropLast))
  | cs => .bare (String.ofList cs)

/-- Reads the items of a list behind its opening parenthesis. -/
def readItems (cs : List Char) : Option (List Item × List Char) :=
  (readOutside [] cs).map fun read => (read.1.map Item.ofText, read.2)

/-! ## Values -/

/-- What a value is in a list. -/
def Item.ofValue : Json → Item
  | .null => .bare "NULL"
  | .bool true => .bare "true"
  | .bool false => .bare "false"
  | .number n => .bare n.text
  | .string s => .literal s
  | composite => .literal composite.text

theorem undoubled_cons {c : Char} (h : c ≠ '\'') (cs : List Char) : undoubled (c :: cs) = c :: undoubled cs := by
  rw [undoubled]
  rintro ds rfl
  exact absurd rfl h

theorem undoubled_doubled (cs : List Char) : undoubled (Literal.doubled cs) = cs := by
  induction cs with
  | nil => rfl
  | cons c cs ih =>
    by_cases hc : c = '\''
    · subst hc
      rw [Literal.doubled_quote, undoubled, ih]
    · rw [Literal.doubled_cons hc, undoubled_cons hc, ih]

/-- Text that neither separates items, nor closes the list, nor opens a literal. -/
def Harmless (cs : List Char) : Prop := ∀ c ∈ cs, c ≠ ')' ∧ c ≠ ',' ∧ c ≠ '\''

instance (cs : List Char) : Decidable (Harmless cs) := List.decidableBAll _ cs

theorem harmless_of_isNumeric {cs : List Char} (h : Decimal.IsNumeric cs) : Harmless cs := by
  intro c hc
  have hnumber := h c hc
  refine ⟨?_, ?_, ?_⟩
  all_goals
    rintro rfl
    exact absurd hnumber (by decide)

namespace Item

theorem ofText_of_harmless {cs : List Char} (h : Harmless cs) : ofText cs = .bare (String.ofList cs) := by
  cases cs with
  | nil => rfl
  | cons c cs =>
    obtain ⟨-, -, hquote⟩ := h c List.mem_cons_self
    rw [ofText]
    rintro ds hds
    exact hquote (List.cons.inj hds).1

theorem ofText_quoted (s : String) : ofText (Literal.quoted s).toList = .literal s := by
  rw [Literal.quoted, String.toList_ofList, List.cons_append, ofText, List.dropLast_concat, undoubled_doubled,
    String.ofList_toList]

/-- **A literal is read as its value.** -/
theorem ofText_text (v : Json) : ofText (Literal.text v).toList = ofValue v := by
  cases v with
  | null => exact ofText_of_harmless (by decide)
  | bool b => cases b <;> exact ofText_of_harmless (by decide)
  | number n =>
    rw [Literal.text, ofText_of_harmless (harmless_of_isNumeric n.isNumeric_text), String.ofList_toList]
    rfl
  | string s => exact ofText_quoted s
  | array items => exact ofText_quoted _
  | object entries => exact ofText_quoted _

end Item

/-! ## Pieces -/

theorem readOutside_cons {c : Char} (h : c ≠ ')' ∧ c ≠ ',' ∧ c ≠ '\'') (item cs : List Char) :
    readOutside item (c :: cs) = readOutside (item ++ [c]) cs := by
  obtain ⟨hclose, hcomma, hquote⟩ := h
  rw [readOutside]
  · exact hclose
  · exact fun _ hc _ => hcomma hc
  · exact hquote

theorem readInside_cons {c : Char} (h : c ≠ '\'') (item cs : List Char) :
    readInside item (c :: cs) = readInside (item ++ [c]) cs := by
  rw [readInside]
  · exact fun _ hc _ => h hc
  · exact h

/-- Harmless text goes into the item as it is. -/
theorem readOutside_harmless {cs : List Char} (h : Harmless cs) (item rest : List Char) :
    readOutside item (cs ++ rest) = readOutside (item ++ cs) rest := by
  induction cs generalizing item with
  | nil => rw [List.nil_append, List.append_nil]
  | cons c cs ih =>
    have hcs : Harmless cs := fun d hd => h d (List.mem_cons_of_mem _ hd)
    rw [List.cons_append, readOutside_cons (h c List.mem_cons_self), ih hcs, List.append_assoc]
    rfl

/-- What is doubled cannot end the literal it stands in. -/
theorem readInside_doubled (cs item rest : List Char) :
    readInside item (Literal.doubled cs ++ rest) = readInside (item ++ Literal.doubled cs) rest := by
  induction cs generalizing item with
  | nil => rw [Literal.doubled, List.flatMap_nil, List.nil_append, List.append_nil]
  | cons c cs ih =>
    by_cases hc : c = '\''
    · subst hc
      rw [Literal.doubled_quote, List.cons_append, List.cons_append, readInside, ih, List.append_assoc]
      rfl
    · rw [Literal.doubled_cons hc, List.cons_append, readInside_cons hc, ih, List.append_assoc]
      rfl

theorem cons_ne_quote {c : Char} (h : c ≠ '\'') {rest : List Char} (cs : List Char) : c :: rest ≠ '\'' :: cs :=
  fun heq => h (List.cons.inj heq).1

/-- **A literal goes into one item**, whatever it contains. A quote behind it would reopen it, so there must be none. -/
theorem readOutside_quoted (s : String) (item : List Char) {rest : List Char} (h : ∀ cs, rest ≠ '\'' :: cs) :
    readOutside item ((Literal.quoted s).toList ++ rest) = readOutside (item ++ (Literal.quoted s).toList) rest := by
  have hclose : ∀ item, readInside item ('\'' :: rest) = readOutside (item ++ ['\'']) rest := by
    intro item
    rw [readInside]
    exact h
  rw [Literal.quoted, String.toList_ofList, List.cons_append, List.cons_append, readOutside, List.append_assoc,
    readInside_doubled]
  show readInside _ ('\'' :: rest) = _
  rw [hclose, List.append_assoc, List.append_assoc]
  rfl

/-- A literal is a bare word, or a text between quotes. -/
theorem bare_or_quoted (v : Json) :
    ((Literal.text v).toList ≠ [] ∧ Harmless (Literal.text v).toList) ∨ ∃ s, Literal.text v = Literal.quoted s := by
  cases v with
  | null => exact .inl (by decide)
  | bool b => cases b <;> exact .inl (by decide)
  | number n => exact .inl ⟨n.text_ne_nil, harmless_of_isNumeric n.isNumeric_text⟩
  | string s => exact .inr ⟨s, rfl⟩
  | array items | object entries => exact .inr ⟨_, rfl⟩

theorem readOutside_text (v : Json) (item : List Char) {rest : List Char} (h : ∀ cs, rest ≠ '\'' :: cs) :
    readOutside item ((Literal.text v).toList ++ rest) = readOutside (item ++ (Literal.text v).toList) rest := by
  rcases bare_or_quoted v with ⟨-, hbare⟩ | ⟨s, hs⟩
  · exact readOutside_harmless hbare item rest
  · rw [hs]
    exact readOutside_quoted s item h

theorem text_ne_nil (v : Json) : (Literal.text v).toList ≠ [] := by
  rcases bare_or_quoted v with ⟨hbare, -⟩ | ⟨s, hs⟩
  · exact hbare
  · rw [hs, Literal.quoted, String.toList_ofList]
    exact List.cons_ne_nil _ _

theorem toList_listText_cons_cons (v w : Json) (vs : List Json) :
    (Literal.listText (v :: w :: vs)).toList =
      (Literal.text v).toList ++ ',' :: ' ' :: (Literal.listText (w :: vs)).toList := by
  unfold Literal.listText
  rw [List.map_cons, List.map_cons, String.intercalate_cons_cons, String.toList_append, String.toList_append,
    List.append_assoc]
  rfl

/-- **A list is cut into its literals.** -/
theorem readOutside_listText (v : Json) (vs : List Json) (rest : List Char) :
    readOutside [] ((Literal.listText (v :: vs)).toList ++ ')' :: rest) =
      some ((v :: vs).map fun w => (Literal.text w).toList, rest) := by
  induction vs generalizing v with
  | nil =>
    have hlist : Literal.listText [v] = Literal.text v := rfl
    rw [hlist, readOutside_text v [] (cons_ne_quote (by decide)), List.nil_append, readOutside]
    rfl
  | cons w ws ih =>
    rw [toList_listText_cons_cons, List.append_assoc, List.cons_append, List.cons_append,
      readOutside_text v [] (cons_ne_quote (by decide)), List.nil_append, readOutside, ih w]
    rfl

theorem readItems_listText {values : List Json} (h : values ≠ []) (rest : List Char) :
    readItems ((Literal.listText values).toList ++ ')' :: rest) = some (values.map Item.ofValue, rest) := by
  obtain ⟨v, vs, rfl⟩ := List.exists_cons_of_ne_nil h
  rw [readItems, readOutside_listText, Option.map_some, List.map_map]
  have hitem : Item.ofText ∘ (fun w => (Literal.text w).toList) = Item.ofValue := funext Item.ofText_text
  rw [hitem]

/-! ## Differences -/

/-- Two scalars that are written the same: they are of one kind, and equal up to numbers with the same text. -/
inductive WrittenAlike : Json → Json → Prop where
  | null : WrittenAlike .null .null
  | bool (b : Bool) : WrittenAlike (.bool b) (.bool b)
  | number {n m : Number} (h : n.text = m.text) : WrittenAlike (.number n) (.number m)
  | string (s : String) : WrittenAlike (.string s) (.string s)

theorem WrittenAlike.text_eq {v w : Json} (h : WrittenAlike v w) : Literal.text v = Literal.text w := by
  cases h with
  | number h => exact h
  | null | bool | string => rfl

/-- A word with another character is not the text of a number. -/
theorem text_ne_of_mem {c : Char} {word : String} (hc : c ∈ word.toList) (hother : Decimal.isNumberChar c = false)
    (n : Number) : n.text ≠ word := by
  rintro rfl
  rw [n.isNumeric_text c hc] at hother
  exact Bool.noConfusion hother

/-- The kind of the scalar that an item stands for. -/
def Item.kind : Item → Json.Kind
  | .literal _ => .string
  | .bare text => if text = "NULL" then .null else if text = "true" ∨ text = "false" then .boolean else .number

/-- The kind of a scalar can be read off its item. -/
theorem Item.kind_ofValue {v : Json} (h : v.isComposite = false) : (ofValue v).kind = v.kind := by
  cases v with
  | null => rfl
  | bool b => cases b <;> rfl
  | number n =>
    have hnull : n.text ≠ "NULL" := text_ne_of_mem (c := 'N') (by decide) (by decide) n
    have htrue : n.text ≠ "true" := text_ne_of_mem (c := 't') (by decide) (by decide) n
    have hfalse : n.text ≠ "false" := text_ne_of_mem (c := 'f') (by decide) (by decide) n
    exact (if_neg hnull).trans (if_neg (not_or.mpr ⟨htrue, hfalse⟩))
  | string s => rfl
  | array items | object entries => exact Bool.noConfusion h

/-- Scalars with the same item are written alike. -/
theorem writtenAlike_of_ofValue_eq {v w : Json} (hv : v.isComposite = false) (hw : w.isComposite = false)
    (h : Item.ofValue v = Item.ofValue w) : WrittenAlike v w := by
  have hkind : v.kind = w.kind := by rw [← Item.kind_ofValue hv, ← Item.kind_ofValue hw, h]
  cases v with
  | null =>
    cases w <;> cases hkind
    exact .null
  | bool b =>
    cases w <;> cases hkind
    rename_i c
    obtain rfl : b = c := by revert h; cases b <;> cases c <;> decide
    exact .bool b
  | number n =>
    cases w <;> cases hkind
    exact .number (Item.bare.inj h)
  | string s =>
    cases w <;> cases hkind
    obtain rfl := Item.literal.inj h
    exact .string s
  | array items | object entries => exact Bool.noConfusion hv

/-- Scalars side by side with the same items are written alike. -/
theorem forall₂_of_map_ofValue_eq {values others : List Json} (hvalues : ∀ v ∈ values, v.isComposite = false)
    (hothers : ∀ v ∈ others, v.isComposite = false) (h : values.map Item.ofValue = others.map Item.ofValue) :
    List.Forall₂ WrittenAlike values others := by
  induction values generalizing others with
  | nil =>
    obtain rfl : others = [] := List.map_eq_nil_iff.mp h.symm
    exact .nil
  | cons v vs ih =>
    obtain _ | ⟨w, ws⟩ := others
    · exact absurd h (List.cons_ne_nil _ _)
    · obtain ⟨hv, hvs⟩ := List.forall_mem_cons.mp hvalues
      obtain ⟨hw, hws⟩ := List.forall_mem_cons.mp hothers
      obtain ⟨hitem, hitems⟩ := List.cons.inj h
      exact .cons (writtenAlike_of_ofValue_eq hv hw hitem) (ih hvs hws hitems)

theorem listText_cons_ne_empty (v : Json) (vs : List Json) : Literal.listText (v :: vs) ≠ "" := by
  intro hempty
  have hnil : (Literal.listText (v :: vs)).toList = [] := congrArg String.toList hempty
  cases vs with
  | nil => exact text_ne_nil v hnil
  | cons w ws =>
    rw [toList_listText_cons_cons] at hnil
    exact text_ne_nil v (List.append_eq_nil_iff.mp hnil).1

/-- **Lists of scalars that are not written alike, value by value, are different text.** -/
theorem listText_eq_iff {values others : List Json} (hvalues : ∀ v ∈ values, v.isComposite = false)
    (hothers : ∀ v ∈ others, v.isComposite = false) :
    Literal.listText values = Literal.listText others ↔ List.Forall₂ WrittenAlike values others := by
  constructor
  · intro h
    rcases values with _ | ⟨v, vs⟩ <;> rcases others with _ | ⟨w, ws⟩
    · exact .nil
    · exact absurd h.symm (listText_cons_ne_empty w ws)
    · exact absurd h (listText_cons_ne_empty v vs)
    · -- both are read back from the same text
      have hread := readItems_listText (List.cons_ne_nil v vs) []
      rw [h, readItems_listText (List.cons_ne_nil w ws)] at hread
      have hitems := congrArg Prod.fst (Option.some.inj hread)
      exact forall₂_of_map_ofValue_eq hvalues hothers hitems.symm
  · intro h
    have htexts : values.map Literal.text = others.map Literal.text := by
      induction h with
      | nil => rfl
      | cons h _ ih =>
        rw [List.map_cons, List.map_cons, h.text_eq, ih (List.forall_mem_cons.mp hvalues).2
          (List.forall_mem_cons.mp hothers).2]
    rw [Literal.listText, htexts, Literal.listText]

end LiteralList

open LiteralList

/-! ## Result -/

/-- The text of a membership test ends with its list and the parenthesis that closes it. -/
theorem Predicate.text_membership {test : Test} {word : String}
    (h : (test, word) ∈ [(Test.inList, " IN ("), (.notInList, " NOT IN (")]) (property : Property)
    (values : List Json) :
    (Predicate.mk property test (.literals values)).text =
      property.text ++ word ++ (Literal.listText values ++ ")") := by
  rcases List.mem_cons.mp h with h | h
  · obtain ⟨rfl, rfl⟩ := Prod.mk.inj h
    exact String.append_assoc
  · obtain ⟨rfl, rfl⟩ := Prod.mk.inj (List.mem_singleton.mp h)
    exact String.append_assoc

/-- **Literals cannot break out.** The values of a membership test are any values, but at least one.

    - A reader that keeps everything between single quotes together, doubled quotes included, and otherwise cuts at a
      comma with a blank and stops at a closing parenthesis, cuts the list into the literals of the values, one item for
      each and in order. It stops at the parenthesis of the test and leaves alone what stands behind it.
    - Each item is read as its value: a string as itself, an array or object as its compact text, all others as the bare
      word `NULL`, `true`, `false` or the text of the number.
    - The same holds of the text of a test for being in the list or not in it, after the word that opens the list.
    - Lists of scalars are the same text only if they have the same length and are written alike, value by value: of the
      same kind, and with the same string, truth value or text of a number. -/
theorem literals_cannot_break_out (values : List Json) (h : values ≠ []) :
    (∀ rest, readOutside [] ((Literal.listText values).toList ++ ')' :: rest) =
        some (values.map fun v => (Literal.text v).toList, rest)) ∧
      (∀ v ∈ values, Item.ofText (Literal.text v).toList = Item.ofValue v) ∧
      (∀ property test word, (test, word) ∈ [(Test.inList, " IN ("), (.notInList, " NOT IN (")] →
        ∃ tail, (Predicate.mk property test (.literals values)).text = property.text ++ word ++ tail ∧
          ∀ rest, readItems (tail.toList ++ rest) = some (values.map Item.ofValue, rest)) ∧
      ((∀ v ∈ values, v.isComposite = false) → ∀ others, (∀ v ∈ others, v.isComposite = false) →
        (Literal.listText values = Literal.listText others ↔ List.Forall₂ WrittenAlike values others)) := by
  refine ⟨?cut, fun v _ => Item.ofText_text v, ?tests, fun hvalues others hothers => listText_eq_iff hvalues hothers⟩
  case cut =>
    intro rest
    obtain ⟨v, vs, rfl⟩ := List.exists_cons_of_ne_nil h
    exact readOutside_listText v vs rest
  case tests =>
    intro property test word hword
    refine ⟨Literal.listText values ++ ")", Predicate.text_membership hword property values, fun rest => ?_⟩
    rw [String.toList_append, List.append_assoc]
    exact readItems_listText h rest

/-- Strings that try to end their literal, the list or the test, and every other kind of value, are read back from a
    test for not being in the list. -/
theorem literals_cannot_break_out_quotes :
    let values : List Json := [.string "it's', '", .string "')", .string "", .string "'", .string "NULL", .null,
      .bool true, .int (-3), .array [.string "','", .int 1], .object [("it's", .string ")")]]
    values ≠ [] ∧ ∃ tail,
      (Predicate.mk (.qualified "e" "name") .notInList (.literals values)).text = "e.name NOT IN (" ++ tail ∧
        readItems (tail.toList ++ " OR 1=1".toList) =
          some ([.literal "it's', '", .literal "')", .literal "", .literal "'", .literal "NULL", .bare "NULL",
            .bare "true", .bare "-3", .literal "[\"','\",1]", .literal "\x7b\"it's\":\")\"\x7d"],
            " OR 1=1".toList) := by
  intro values
  have hvalues : values ≠ [] := List.cons_ne_nil _ _
  obtain ⟨-, -, htests, -⟩ := literals_cannot_break_out values hvalues
  obtain ⟨tail, htext, hread⟩ := htests (.qualified "e" "name") .notInList " NOT IN (" (by decide)
  refine ⟨hvalues, tail, htext.trans ?_, (hread _).trans ?_⟩
  · rfl
  · decide

end Criteria
