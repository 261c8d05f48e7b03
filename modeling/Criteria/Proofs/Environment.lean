import Criteria.Proofs.OrderedMap
import Criteria.Settings.File
import Mathlib.Data.List.Basic
import Mathlib.Data.List.Induction

/-!
# `Criteria.Proofs.Environment` — settings from variables, with a file and without

Settings can be taken from variables alone, which looks up two names as they stand, or from a file with the whole
environment laid over it, where every variable whose name begins with the stem of settings is written into the table of
the file, in any case of its letters and at any place. This module says which variables reach a setting of a file, and
which environments are read alike in both ways. The format of the file and the order in which variables are written
are those of any `Loader`.

## Contents
- **Variables.** `target?`: the place in a table that a variable is written to. `reaches` and `lastFor`: the variables
  that have something to say about a setting, and the one that decides.
- **Order.** `written`: the variables that are written, in the order in which they are. `map_written` and
  `forall_written_iff`: it is a matter of names, and no setting is missed.
- **Tables.** `lookup_overlay`: what an environment leaves under a setting.
- **Values.** `text_overlay_iff` and `order_overlay_eq_nil_iff`: how the value is read.
- **Loading.** `load_eq_ok_iff` and `ofLookup_eq_ok_iff`: when the two ways give settings, and which.
- **Agreement.** `ReadAlike`: what the names of variables must be for both ways to read the same. That it suffices is
  shown for any values, and that it is needed by an environment that marks who has spoken (`probe`).
- **Result.** `loaders_agree_iff`.
-/

namespace Criteria.Settings

/-! ## Variables -/

/-- The place in a table of settings that a variable is written to. -/
def target? (name : String) : Option Place := (variableKey? name).map fun key => Place.ofKey (lowered key)

/-- Whether a variable is written to a setting or to a part of it. -/
def reaches (setting name : String) : Bool := (target? name).any fun p => p.name = setting

/-- The last variable that is written to a setting. -/
def lastFor (setting : String) (environment : List (String × String)) : Option (String × String) :=
  (environment.filter fun v => reaches setting v.1).getLast?

theorem reaches_iff {setting name : String} :
    reaches setting name = true ↔ ∃ steps, target? name = some ⟨setting, steps⟩ := by
  rw [reaches]
  cases target? name with
  | none => exact iff_of_false nofun nofun
  | some p =>
    obtain ⟨key, steps⟩ := p
    simp

theorem reaches_of_lastFor {setting : String} {environment : List (String × String)} {v : String × String}
    (h : lastFor setting environment = some v) : v ∈ environment ∧ reaches setting v.1 = true := by
  have hmem : v ∈ environment.filter fun v => reaches setting v.1 := List.mem_of_getLast? h
  rw [List.mem_filter] at hmem
  exact hmem

theorem lastFor_eq_none_iff {setting : String} {environment : List (String × String)} :
    lastFor setting environment = none ↔ ∀ v ∈ environment, reaches setting v.1 = false := by
  rw [lastFor, List.getLast?_eq_none_iff, List.filter_eq_nil_iff]
  simp only [Bool.not_eq_true]

/-! ## Order -/

section Written

variable {α β : Type} {name : α → String} {a : Arrangement} {vs : List α} {v : α} {key setting : String}

/-- The last of some variables with a key. -/
def lastWith (name : α → String) (key : String) (vs : List α) : Option α :=
  (vs.filter fun v => variableKey? (name v) = some key).getLast?

/-- The variables that are written to a table, in the order in which they are: of those with one key the last. -/
def written (name : α → String) (a : Arrangement) (vs : List α) : List α :=
  (a.arrange (vs.filterMap fun v => variableKey? (name v)).eraseDups).filterMap fun key => lastWith name key vs

theorem mem_of_lastWith (h : lastWith name key vs = some v) : v ∈ vs ∧ variableKey? (name v) = some key := by
  simpa using List.mem_of_getLast? h

theorem mem_of_written (h : v ∈ written name a vs) : v ∈ vs := by
  obtain ⟨key, -, hlast⟩ := List.mem_filterMap.mp h
  exact (mem_of_lastWith hlast).1

/-- Every key has its variable among those that are written. -/
theorem exists_written (a : Arrangement) (hv : v ∈ vs) (hkey : variableKey? (name v) = some key) :
    ∃ w ∈ written name a vs, variableKey? (name w) = some key := by
  have harranged : key ∈ a.arrange (vs.filterMap fun v => variableKey? (name v)).eraseDups := by
    rw [(a.perm _).mem_iff, List.mem_eraseDups]
    exact List.mem_filterMap.mpr ⟨v, hv, hkey⟩
  cases hlast : lastWith name key vs with
  | none =>
    have hnone := List.getLast?_eq_none_iff.mp hlast
    exact absurd (decide_eq_true hkey) (List.filter_eq_nil_iff.mp hnone v hv)
  | some w => exact ⟨w, List.mem_filterMap.mpr ⟨key, harranged, hlast⟩, (mem_of_lastWith hlast).2⟩

/-- Which variables are written is a matter of their names. -/
theorem map_written (f : α → β) (name : β → String) (a : Arrangement) (vs : List α) :
    (written (fun v => name (f v)) a vs).map f = written name a (vs.map f) := by
  have hlast (key : String) : (lastWith (fun v => name (f v)) key vs).map f = lastWith name key (vs.map f) := by
    simp only [lastWith, List.filter_map, List.getLast?_map, Function.comp_def]
  simp only [written, List.map_filterMap, hlast, List.filterMap_map, Function.comp_def]

/-- A setting is reached by a variable that is written if it is reached at all. -/
theorem forall_written_iff (name : α → String) (a : Arrangement) (setting : String) (vs : List α) :
    (∀ v ∈ written name a vs, reaches setting (name v) = false) ↔ ∀ v ∈ vs, reaches setting (name v) = false := by
  refine ⟨fun h v hv => ?_, fun h v hv => h v (mem_of_written hv)⟩
  cases hkey : variableKey? (name v) with
  | none => simp [reaches, target?, hkey]
  | some key =>
    -- the variable may be replaced, but then by one with the same key, which is written to the same place
    obtain ⟨w, hw, hsame⟩ := exists_written a hv hkey
    have hnot := h w hw
    unfold reaches target? at hnot ⊢
    rwa [hsame, ← hkey] at hnot

end Written

/-! ## Tables -/

/-- Writes a variable into a table of settings. -/
def overlaid (table : Table) (v : String × String) : Table :=
  match target? v.1 with
  | some p => p.put (.string v.2) table
  | none => table

/-- The table that an environment alone leaves. -/
def overlay (environment : List (String × String)) : Table := environment.foldl overlaid []

theorem filter_entryFor? (key : String) (environment : List (String × String)) :
    ((environment.filterMap entryFor?).filter fun e => e.1 = key) =
      (environment.filter fun v => variableKey? v.1 = some key).map fun v => (key, .string v.2) := by
  induction environment with
  | nil => rfl
  | cons v environment ih =>
    cases hkey : variableKey? v.1 with
    | none =>
      have hentry : entryFor? v = none := by simp [hkey, entryFor?]
      simpa [List.filterMap_cons_none hentry, hkey] using ih
    | some own =>
      have hentry : entryFor? v = some (own, .string v.2) := by simp [hkey, entryFor?]
      rw [List.filterMap_cons_some hentry]
      by_cases hown : own = key <;> simp [hkey, hown, ih]

theorem keys_environmentEntries (environment : List (String × String)) :
    (environmentEntries environment).map Prod.fst = (environment.filterMap fun v => variableKey? v.1).eraseDups := by
  have hkey (v : String × String) : (entryFor? v).map Prod.fst = variableKey? v.1 := by
    cases hkey : variableKey? v.1 <;> simp [hkey, entryFor?]
  have hkeys : (environment.filterMap entryFor?).map Prod.fst = environment.filterMap fun v => variableKey? v.1 := by
    simp only [List.map_filterMap, hkey]
  rw [← hkeys]
  exact OrderedMap.keys_ofList _

/-- Of the variables with one key the last has its value in the entries. -/
theorem lookup_environmentEntries (key : String) (environment : List (String × String)) :
    (environmentEntries environment).lookup key =
      (lastWith Prod.fst key environment).map fun v => .string v.2 := by
  have hentries : (environmentEntries environment).lookup key =
      (OrderedMap.ofList (environment.filterMap entryFor?)).get? key := (OrderedMap.get?_eq_lookup _ key).symm
  rw [hentries, OrderedMap.ofList, OrderedMap.get?_setAll, filter_entryFor?, List.getLast?_map, lastWith]
  cases (environment.filter fun v => variableKey? v.1 = some key).getLast? <;> rfl

/-- The entries of an environment are those of the variables that are written. -/
theorem entries_environmentEntries (a : Arrangement) (environment : List (String × String)) :
    a.entries (environmentEntries environment) = (written Prod.fst a environment).filterMap entryFor? := by
  have hentry (key : String) :
      ((environmentEntries environment).lookup key).map (fun v => (key, v)) =
        (lastWith Prod.fst key environment).bind entryFor? := by
    rw [lookup_environmentEntries]
    cases hlast : lastWith Prod.fst key environment with
    | none => rfl
    | some v => simp [(mem_of_lastWith hlast).2, entryFor?]
  rw [Arrangement.entries, keys_environmentEntries, written, List.filterMap_filterMap]
  exact List.filterMap_congr fun key _ => hentry key

/-- The variables that are written are those whose entries an environment has. -/
theorem merged_environmentEntries (a : Arrangement) (environment : List (String × String)) :
    merged a [] (environmentEntries environment) = overlay (written Prod.fst a environment) := by
  rw [overlay, merged, entries_environmentEntries, List.foldl_filterMap]
  refine List.foldl_ext _ _ [] fun t v _ => ?_
  cases hkey : variableKey? v.1 <;> simp [overlaid, target?, entryFor?, hkey]

theorem overlay_concat (environment : List (String × String)) (v : String × String) :
    overlay (environment ++ [v]) = overlaid (overlay environment) v := by
  rw [overlay, overlay, List.foldl_append, List.foldl_cons, List.foldl_nil]

theorem lookup_putEntry (key setting : String) (v : Json) (table : Table) :
    (Json.putEntry key v table).lookup setting = if key = setting then some v else table.lookup setting := by
  rw [← OrderedMap.get?_eq_lookup, ← OrderedMap.get?_eq_lookup]
  exact OrderedMap.get?_set ⟨table⟩ key setting v

section Last

variable {setting : String} {environment : List (String × String)} {v : String × String}

theorem lastFor_concat : lastFor setting (environment ++ [v]) =
    if reaches setting v.1 then some v else lastFor setting environment := by
  rw [lastFor, List.filter_append, List.getLast?_append]
  by_cases h : reaches setting v.1 = true <;> simp [h, lastFor]

theorem lookup_overlaid {table : Table} {steps : List Step} (h : target? v.1 = some ⟨setting, steps⟩) :
    (overlaid table v).lookup setting = some (placed (.string v.2) steps ((table.lookup setting).getD .null)) := by
  rw [overlaid, h]
  exact (lookup_putEntry setting setting _ table).trans (if_pos rfl)

/-- A variable that does not reach a setting leaves it alone. -/
theorem lookup_overlaid_of_not_reaches (table : Table) (h : reaches setting v.1 = false) :
    (overlaid table v).lookup setting = table.lookup setting := by
  rw [overlaid]
  cases htarget : target? v.1 with
  | none => rfl
  | some p =>
    have hname : p.name ≠ setting := fun hname => by simp [reaches, htarget, hname] at h
    exact (lookup_putEntry p.name setting _ table).trans (if_neg hname)

/-- **The last variable decides.** A setting that no variable reaches is not in the table, and any other is as the last
    variable that reaches it leaves it. -/
theorem lookup_overlay (setting : String) (environment : List (String × String)) :
    (lastFor setting environment = none → (overlay environment).lookup setting = none) ∧
      ∀ v, lastFor setting environment = some v →
        ∃ steps old, target? v.1 = some ⟨setting, steps⟩ ∧
          (overlay environment).lookup setting = some (placed (.string v.2) steps old) := by
  induction environment using List.reverseRecOn with
  | nil => exact ⟨fun _ => rfl, nofun⟩
  | append_singleton environment w ih =>
    rw [lastFor_concat, overlay_concat]
    by_cases hreaches : reaches setting w.1 = true
    · rw [if_pos hreaches]
      obtain ⟨steps, htarget⟩ := reaches_iff.mp hreaches
      refine ⟨nofun, ?_⟩
      rintro v ⟨⟩
      exact ⟨steps, _, htarget, lookup_overlaid htarget⟩
    · rw [if_neg hreaches, lookup_overlaid_of_not_reaches _ (Bool.eq_false_iff.mpr hreaches)]
      exact ih

end Last

/-! ## Values -/

theorem setItem_ne_nil (items : List Json) (i : Nat) (v : Json) : setItem items i v ≠ [] := by
  refine List.ne_nil_of_length_pos ?_
  rw [setItem, List.length_set, List.length_append, List.length_replicate]
  omega

/-- A text that is written beyond a setting makes a mapping or a list of it, and the list is not empty. -/
theorem placed_of_ne_nil {steps : List Step} (h : steps ≠ []) (v old : Json) :
    (∃ entries, placed v steps old = .object entries) ∨ ∃ items, items ≠ [] ∧ placed v steps old = .array items := by
  cases steps with
  | nil => exact absurd rfl h
  | cons step steps =>
    cases step with
    | name key => exact .inl ⟨_, rfl⟩
    | position index =>
      exact .inr ⟨_, setItem_ne_nil _ _ _, rfl⟩

/-- **Texts.** Of a setting that is a text, the last variable that reaches it is the value, if it is written to the
    setting itself; written to a part of it, the variable leaves no text. -/
theorem text_overlay_iff (setting fallback : String) (environment : List (String × String)) (t : String) :
    Stored.optional fallback scalarText? ((overlay environment).lookup setting) = some t ↔
      (lastFor setting environment = none ∧ t = fallback) ∨
        ∃ v, lastFor setting environment = some v ∧ target? v.1 = some ⟨setting, []⟩ ∧ t = v.2 := by
  obtain ⟨habsent, hlast⟩ := lookup_overlay setting environment
  cases hdecides : lastFor setting environment with
  | none =>
    rw [habsent hdecides]
    simp [Stored.optional, eq_comm]
  | some v =>
    obtain ⟨steps, old, htarget, hvalue⟩ := hlast v hdecides
    rw [hvalue]
    cases steps with
    | nil =>
      show some v.2 = some t ↔ _
      simp [htarget, eq_comm]
    | cons step steps =>
      have hnone : scalarText? (placed (.string v.2) (step :: steps) old) = none := by cases step <;> rfl
      show scalarText? _ = some t ↔ _
      rw [hnone]
      simp [htarget]

/-- Whatever a text is written to, the empty order is not what comes out. -/
theorem order_placed_ne_nil (s : String) (steps : List Step) (old : Json) :
    Stored.list? sortKey? (placed (.string s) steps old) ≠ some [] := by
  obtain rfl | hsteps := eq_or_ne steps []
  · exact nofun
  obtain ⟨entries, hplaced⟩ | ⟨items, hitems, hplaced⟩ := placed_of_ne_nil hsteps (.string s) old
  · rw [hplaced]
    exact nofun
  · rw [hplaced]
    cases items with
    | nil => exact absurd rfl hitems
    | cons item items => simp [Stored.list?, List.mapM_cons, Option.bind_eq_some_iff]

/-- **The order.** If the order can be read at all, it is empty exactly when no variable reaches it. -/
theorem order_overlay_eq_nil_iff {environment : List (String × String)} {order : SortOrder}
    (h : Stored.optional [] (Stored.list? sortKey?)
      ((overlay environment).lookup "default_order_by") = some order) :
    order = [] ↔ ∀ v ∈ environment, reaches "default_order_by" v.1 = false := by
  rw [← lastFor_eq_none_iff]
  obtain ⟨habsent, hlast⟩ := lookup_overlay "default_order_by" environment
  cases hdecides : lastFor "default_order_by" environment with
  | none =>
    rw [habsent hdecides] at h
    exact iff_of_true (Option.some.inj h).symm rfl
  | some v =>
    obtain ⟨steps, old, -, hvalue⟩ := hlast v hdecides
    rw [hvalue] at h
    refine iff_of_false ?_ nofun
    rintro rfl
    exact order_placed_ne_nil v.2 steps old h

/-! ## Loading -/

/-- Two ways of loading agree when they give the same settings or fail both. -/
def Agree (x y : Except Fault Settings) : Prop := ∀ s, x = .ok s ↔ y = .ok s

theorem checked_eq_ok_iff {s s' : Settings} : s.checked = .ok s' ↔ s' = s ∧ s.validate = .ok () := by
  rw [checked]
  cases s.validate with
  | error fault => exact iff_of_false nofun fun h => nomatch h.2
  | ok u =>
    show Except.ok s = Except.ok s' ↔ _
    simp [eq_comm]

/-- Variables alone give two settings as they stand, and never an order. -/
theorem ofLookup_eq_ok_iff {lookup : String → Option String} {s : Settings} :
    ofLookup lookup = .ok s ↔
      s.rootAlias = (lookup rootAliasVariable).getD default.rootAlias ∧
        s.stem = (lookup stemVariable).getD default.stem ∧ s.defaultOrder = [] ∧ s.validate = .ok () := by
  rw [ofLookup, checked_eq_ok_iff]
  constructor
  · rintro ⟨rfl, hvalid⟩
    exact ⟨rfl, rfl, rfl, hvalid⟩
  · obtain ⟨rootAlias, stem, order⟩ := s
    rintro ⟨rfl, rfl, rfl, hvalid⟩
    exact ⟨rfl, hvalid⟩

theorem ofTable?_eq_some_iff {table : Table} {s : Settings} :
    ofTable? table = some s ↔
      Stored.optional default.rootAlias scalarText? (table.lookup "root_alias") = some s.rootAlias ∧
        Stored.optional default.stem scalarText? (table.lookup "parameter_prefix") = some s.stem ∧
        Stored.optional [] (Stored.list? sortKey?) (table.lookup "default_order_by") = some s.defaultOrder := by
  obtain ⟨rootAlias, stem, order⟩ := s
  rw [ofTable?]
  simp only [Option.bind_eq_bind, Option.bind_eq_some_iff, Option.pure_def, Option.some.injEq, mk.injEq]
  constructor
  · rintro ⟨_, hrootAlias, _, hstem, _, horder, rfl, rfl, rfl⟩
    exact ⟨hrootAlias, hstem, horder⟩
  · rintro ⟨hrootAlias, hstem, horder⟩
    exact ⟨_, hrootAlias, _, hstem, _, horder, rfl, rfl, rfl⟩

/-- Writing nothing leaves nothing. -/
theorem merged_nil (a : Arrangement) : merged a [] [] = [] := by
  have hentries : a.entries [] = [] := by
    unfold Arrangement.entries
    rw [List.map_nil, (a.perm []).eq_nil, List.filterMap_nil]
  unfold merged
  rw [hentries, List.foldl_nil]

section EmptyFile

variable {l : Loader} {format text : String} {environment : List (String × String)}

/-- Under a file that holds an empty table, the settings are those of the environment. -/
theorem load_of_empty (hfile : l.fileTable? format text = some []) :
    l.load format (some text) environment =
      (ofTable? (overlay (written Prod.fst l.variableOrder environment))).elim
        (.error (.settings .unreadable)) checked := by
  have htable : l.layered? format text environment =
      ofTable? (overlay (written Prod.fst l.variableOrder environment)) := by
    unfold Loader.layered?
    simp only [hfile, Option.bind_eq_bind, Option.bind_some, merged_nil, merged_environmentEntries]
  rw [Loader.load, Option.bind_some, htable]
  cases ofTable? (overlay (written Prod.fst l.variableOrder environment)) <;> rfl

/-- **Loading a file that holds an empty table.** Every setting is what the environment leaves of it. -/
theorem load_eq_ok_iff (hfile : l.fileTable? format text = some []) {s : Settings} :
    l.load format (some text) environment = .ok s ↔
      ofTable? (overlay (written Prod.fst l.variableOrder environment)) = some s ∧ s.validate = .ok () := by
  rw [load_of_empty hfile]
  cases ofTable? (overlay (written Prod.fst l.variableOrder environment)) with
  | none => exact iff_of_false nofun fun h => nomatch h.1
  | some settings =>
    show settings.checked = .ok s ↔ _
    rw [checked_eq_ok_iff, Option.some.injEq, eq_comm]
    constructor
    · rintro ⟨rfl, hvalid⟩
      exact ⟨rfl, hvalid⟩
    · rintro ⟨rfl, hvalid⟩
      exact ⟨rfl, hvalid⟩

/-- A variable for the order as a whole puts a text in its place, which is no order. -/
theorem load_eq_unreadable (hfile : l.fileTable? format text = some []) {v : String × String}
    (hlast : lastFor "default_order_by" (written Prod.fst l.variableOrder environment) = some v)
    (htarget : target? v.1 = some ⟨"default_order_by", []⟩) :
    l.load format (some text) environment = .error (.settings .unreadable) := by
  have hvalue : (overlay (written Prod.fst l.variableOrder environment)).lookup "default_order_by" =
      some (.string v.2) := by
    obtain ⟨steps, old, hsteps, hvalue⟩ := (lookup_overlay "default_order_by" _).2 v hlast
    obtain rfl : [] = steps := congrArg Place.steps (Option.some.inj (htarget.symm.trans hsteps))
    exact hvalue
  rw [load_of_empty hfile]
  cases hread : ofTable? (overlay (written Prod.fst l.variableOrder environment)) with
  | none => rfl
  | some settings =>
    have horder := (ofTable?_eq_some_iff.mp hread).2.2
    rw [hvalue] at horder
    exact nomatch horder

end EmptyFile

/-! ## Agreement -/

theorem target?_rootAliasVariable : target? rootAliasVariable = some ⟨"root_alias", []⟩ := by decide +kernel

theorem target?_stemVariable : target? stemVariable = some ⟨"parameter_prefix", []⟩ := by decide +kernel

/-- The variables that decide on a file, in the order in which they are written, are those that are looked up without
    one. -/
structure ReadAlike (a : Arrangement) (names : List String) : Prop where
  order : ∀ n ∈ names, reaches "default_order_by" n = false
  rootAlias : ∀ n, ((written id a names).filter (reaches "root_alias")).getLast? = some n → n = rootAliasVariable
  stem : ∀ n, ((written id a names).filter (reaches "parameter_prefix")).getLast? = some n → n = stemVariable

/-- If no other variables reach the settings, the order in which they are written does not matter. -/
theorem ReadAlike.of_forall {names : List String} (horder : ∀ n ∈ names, reaches "default_order_by" n = false)
    (hrootAlias : ∀ n ∈ names, reaches "root_alias" n = true → n = rootAliasVariable)
    (hstem : ∀ n ∈ names, reaches "parameter_prefix" n = true → n = stemVariable) (a : Arrangement) :
    ReadAlike a names := by
  have hlast {setting n : String} (h : ((written id a names).filter (reaches setting)).getLast? = some n) :
      n ∈ names ∧ reaches setting n = true := by
    have hmem := List.mem_of_getLast? h
    rw [List.mem_filter] at hmem
    exact ⟨mem_of_written hmem.1, hmem.2⟩
  refine ⟨horder, fun n h => ?_, fun n h => ?_⟩
  · exact hrootAlias n (hlast h).1 (hlast h).2
  · exact hstem n (hlast h).1 (hlast h).2

theorem getLast?_reaches (a : Arrangement) (setting : String) (environment : List (String × String)) :
    ((written id a (environment.map Prod.fst)).filter (reaches setting)).getLast? =
      (lastFor setting (written Prod.fst a environment)).map Prod.fst := by
  have hnames : written id a (environment.map Prod.fst) = (written Prod.fst a environment).map Prod.fst :=
    (map_written Prod.fst id a environment).symm
  simp only [hnames, lastFor, List.filter_map, List.getLast?_map, Function.comp_def]

/-- If the variable that decides on a setting is the one that is looked up, both ways read the same text. -/
theorem text_overlay_iff_lookup (a : Arrangement) {environment : List (String × String)}
    (hdistinct : (environment.map Prod.fst).Nodup) {setting name : String} (htarget : target? name = some ⟨setting, []⟩)
    (hlast : ∀ v, lastFor setting (written Prod.fst a environment) = some v → v.1 = name) (fallback t : String) :
    Stored.optional fallback scalarText? ((overlay (written Prod.fst a environment)).lookup setting) = some t ↔
      t = (environment.lookup name).getD fallback := by
  rw [text_overlay_iff, ← OrderedMap.get?_eq_lookup]
  cases hdecides : lastFor setting (written Prod.fst a environment) with
  | none =>
    -- nothing decides, so the variable that is looked up cannot be there: it would reach the setting
    have hnot := (forall_written_iff Prod.fst a setting environment).mp (lastFor_eq_none_iff.mp hdecides)
    have habsent : name ∉ environment.map Prod.fst := by
      intro hname
      obtain ⟨v, hv, rfl⟩ := List.mem_map.mp hname
      exact absurd (reaches_iff.mpr ⟨[], htarget⟩) (Bool.eq_false_iff.mp (hnot v hv))
    rw [OrderedMap.get?_eq_none_iff.mpr habsent]
    simp
  | some v =>
    obtain rfl := hlast v hdecides
    have hmem := mem_of_written (reaches_of_lastFor hdecides).1
    have hvalue := (OrderedMap.mem_toList_iff (m := ⟨environment⟩) hdistinct).mp hmem
    rw [hvalue]
    simp [htarget]

section EmptyFile

variable {l : Loader} {format text : String}

theorem agree_of_readAlike (hfile : l.fileTable? format text = some []) {environment : List (String × String)}
    (hdistinct : (environment.map Prod.fst).Nodup) (h : ReadAlike l.variableOrder (environment.map Prod.fst)) :
    Agree (l.load format (some text) environment) (ofLookup fun name => environment.lookup name) := by
  intro s
  have hlast {setting name : String}
      (hname : ∀ n, ((written id l.variableOrder (environment.map Prod.fst)).filter (reaches setting)).getLast? =
        some n → n = name) :
      ∀ v, lastFor setting (written Prod.fst l.variableOrder environment) = some v → v.1 = name :=
    fun v hv => hname v.1 (by rw [getLast?_reaches, hv]; rfl)
  have hnot : ∀ v ∈ written Prod.fst l.variableOrder environment, reaches "default_order_by" v.1 = false :=
    fun v hv => h.order v.1 (List.mem_map_of_mem (mem_of_written hv))
  have horder : (overlay (written Prod.fst l.variableOrder environment)).lookup "default_order_by" = none :=
    (lookup_overlay "default_order_by" _).1 (lastFor_eq_none_iff.mpr hnot)
  rw [load_eq_ok_iff hfile, ofTable?_eq_some_iff, ofLookup_eq_ok_iff, horder,
    text_overlay_iff_lookup _ hdistinct target?_rootAliasVariable (hlast h.rootAlias),
    text_overlay_iff_lookup _ hdistinct target?_stemVariable (hlast h.stem)]
  simp [Stored.optional, eq_comm, and_assoc]

/-- An environment in which the variables that are looked up differ from all others. -/
def probe (names : List String) : List (String × String) :=
  names.map fun n => (n, if n = rootAliasVariable ∨ n = stemVariable then "x" else "y")

theorem names_probe (names : List String) : (probe names).map Prod.fst = names := by
  rw [probe, List.map_map]
  exact List.map_id names

theorem lookup_probe (names : List String) {name : String} (hname : name = rootAliasVariable ∨ name = stemVariable) :
    (probe names).lookup name = none ∨ (probe names).lookup name = some "x" := by
  cases hvalue : (probe names).lookup name with
  | none => exact .inl rfl
  | some t =>
    obtain ⟨before, after, hprobe, -⟩ := List.lookup_eq_some_iff.mp hvalue
    have hmem : (name, t) ∈ probe names := by simp [hprobe]
    obtain ⟨n, -, heq⟩ := List.mem_map.mp hmem
    obtain ⟨rfl, rfl⟩ := Prod.mk.inj heq
    exact .inr (by rw [if_pos hname])

/-- If a text of the probe is not that of other variables, a variable that is looked up has decided on it. -/
theorem eq_of_probe {a : Arrangement} {names : List String} {setting fallback t n : String}
    (hread : Stored.optional fallback scalarText? ((overlay (written Prod.fst a (probe names))).lookup setting) =
      some t)
    (ht : t ≠ "y") (hlast : ((written id a names).filter (reaches setting)).getLast? = some n) :
    target? n = some ⟨setting, []⟩ ∧ (n = rootAliasVariable ∨ n = stemVariable) := by
  rw [← names_probe names, getLast?_reaches] at hlast
  obtain ⟨v, hv, rfl⟩ := Option.map_eq_some_iff.mp hlast
  obtain ⟨hnone, -⟩ | ⟨w, hw, htarget, rfl⟩ := (text_overlay_iff _ _ _ _).mp hread
  · exact absurd (hnone.symm.trans hv) nofun
  · obtain rfl := Option.some.inj (hw.symm.trans hv)
    refine ⟨htarget, ?_⟩
    obtain ⟨n, -, rfl⟩ := List.mem_map.mp (mem_of_written (reaches_of_lastFor hv).1)
    by_contra hother
    exact ht (if_neg hother)

theorem readAlike_of_agree (hfile : l.fileTable? format text = some []) {names : List String}
    (h : Agree (l.load format (some text) (probe names)) (ofLookup fun name => (probe names).lookup name)) :
    ReadAlike l.variableOrder names := by
  have hrootAlias := lookup_probe names (.inl rfl)
  have hstem := lookup_probe names (.inr rfl)
  -- variables alone give settings, whichever of the two there are
  let s : Settings := ⟨((probe names).lookup rootAliasVariable).getD default.rootAlias,
    ((probe names).lookup stemVariable).getD default.stem, []⟩
  have hvalid : s.validate = .ok () := by
    obtain h | h := hrootAlias <;> obtain h' | h' := hstem <;> simp only [s, h, h'] <;> rfl
  have hload := (h s).mpr (ofLookup_eq_ok_iff.mpr ⟨rfl, rfl, rfl, hvalid⟩)
  obtain ⟨hreadRootAlias, hreadStem, hreadOrder⟩ := ofTable?_eq_some_iff.mp ((load_eq_ok_iff hfile).mp hload).1
  have hneRootAlias : s.rootAlias ≠ "y" := by
    obtain h | h := hrootAlias <;> simp only [s, h] <;> decide
  have hneStem : s.stem ≠ "y" := by
    obtain h | h := hstem <;> simp only [s, h] <;> decide
  -- and so a file gives them, too; every setting of the file shows who has decided on it
  refine ⟨?order, ?rootAlias, ?stem⟩
  case order =>
    intro n hn
    rw [← names_probe names] at hn
    obtain ⟨v, hv, rfl⟩ := List.mem_map.mp hn
    have hnot := (order_overlay_eq_nil_iff hreadOrder).mp rfl
    exact (forall_written_iff Prod.fst l.variableOrder "default_order_by" _).mp hnot v hv
  case rootAlias =>
    intro n hlast
    obtain ⟨htarget, rfl | rfl⟩ := eq_of_probe hreadRootAlias hneRootAlias hlast
    · rfl
    · exact absurd (target?_stemVariable.symm.trans htarget) (by decide)
  case stem =>
    intro n hlast
    obtain ⟨htarget, rfl | rfl⟩ := eq_of_probe hreadStem hneStem hlast
    · exact absurd (target?_rootAliasVariable.symm.trans htarget) (by decide)
    · rfl

end EmptyFile

/-! ## Result -/

/-- An environment with a documented variable, one of other programs, and one of the stem that names no setting. -/
def documented : List (String × String) :=
  [("ENTITY_QUERY_ROOT_ALIAS", "root"), ("PATH", "/bin"), ("ENTITY_QUERY_ENV", "production")]

/-- **Which environments are read alike.** A file that holds an empty table and the variables alone give the same
    settings, whatever the values, exactly when no variable reaches the order and the last one that is written to the
    root alias, or the stem, is the one that is looked up for it. The order of a loaded file is empty only if no
    variable reaches it; a variable for the order as a whole keeps the file from being loaded. Variables alone never
    give an order. All this holds of any format of files and any order in which variables are written. -/
theorem loaders_agree_iff {l : Loader} {format text : String} (hfile : l.fileTable? format text = some [])
    {environment : List (String × String)} (hdistinct : (environment.map Prod.fst).Nodup) :
    ((∀ environment' : List (String × String), environment'.map Prod.fst = environment.map Prod.fst →
        Agree (l.load format (some text) environment') (ofLookup fun name => environment'.lookup name)) ↔
      ReadAlike l.variableOrder (environment.map Prod.fst)) ∧
    (∀ s, l.load format (some text) environment = .ok s →
      (s.defaultOrder = [] ↔ ∀ v ∈ environment, reaches "default_order_by" v.1 = false)) ∧
    (∀ v, lastFor "default_order_by" (written Prod.fst l.variableOrder environment) = some v →
      target? v.1 = some ⟨"default_order_by", []⟩ →
      l.load format (some text) environment = .error (.settings .unreadable)) ∧
    ∀ (lookup : String → Option String) (s : Settings), ofLookup lookup = .ok s → s.defaultOrder = [] := by
  refine ⟨⟨?_, ?_⟩, ?_, ?_, ?_⟩
  · intro h
    exact readAlike_of_agree hfile (h (probe _) (names_probe _))
  · intro h environment' hnames
    exact agree_of_readAlike hfile (hnames ▸ hdistinct) (hnames ▸ h)
  · intro s hload
    have hread := ((load_eq_ok_iff hfile).mp hload).1
    rw [order_overlay_eq_nil_iff (ofTable?_eq_some_iff.mp hread).2.2]
    exact forall_written_iff Prod.fst l.variableOrder "default_order_by" environment
  · exact fun v hlast htarget => load_eq_unreadable hfile hlast htarget
  · exact fun lookup s h => (ofLookup_eq_ok_iff.mp h).2.2.1

/-- With the documented variables and others besides, both ways give the same settings. -/
theorem loaders_agree_iff_documented :
    Loader.plain.fileTable? "json" "{}" = some [] ∧
      documented.map Prod.fst = ["ENTITY_QUERY_ROOT_ALIAS", "PATH", "ENTITY_QUERY_ENV"] ∧
      (documented.map Prod.fst).Nodup ∧ ReadAlike .inserted (documented.map Prod.fst) ∧
      Agree (Loader.plain.load "json" (some "{}") documented) (ofLookup fun name => documented.lookup name) ∧
      Loader.plain.load "json" (some "{}") documented = .ok { default with rootAlias := "root" } := by
  have hfile : Loader.plain.fileTable? "json" "{}" = some [] := by decide +kernel
  have hdistinct : (documented.map Prod.fst).Nodup := by decide +kernel
  have halike : ReadAlike .inserted (documented.map Prod.fst) :=
    .of_forall (by decide +kernel) (by decide +kernel) (by decide +kernel) _
  have hagree := (loaders_agree_iff (l := Loader.plain) hfile hdistinct).1.mpr halike documented rfl
  exact ⟨hfile, rfl, hdistinct, halike, hagree, (hagree _).mpr rfl⟩

/-- A variable for the order, which a file alone is to give, keeps a file from being loaded, and nothing else. -/
theorem variable_for_order_divides_loaders :
    Loader.plain.fileTable? "json" "{}" = some [] ∧
      Loader.plain.load "json" (some "{}") [("ENTITY_QUERY_DEFAULT_ORDER_BY", "name")] =
        .error (.settings .unreadable) ∧
      (ofLookup fun name => [("ENTITY_QUERY_DEFAULT_ORDER_BY", "name")].lookup name) = .ok default ∧
      ¬ Agree (Loader.plain.load "json" (some "{}") [("ENTITY_QUERY_DEFAULT_ORDER_BY", "name")])
        (ofLookup fun name => [("ENTITY_QUERY_DEFAULT_ORDER_BY", "name")].lookup name) := by
  have hfile : Loader.plain.fileTable? "json" "{}" = some [] := by decide +kernel
  have hload : Loader.plain.load "json" (some "{}") [("ENTITY_QUERY_DEFAULT_ORDER_BY", "name")] =
      .error (.settings .unreadable) :=
    load_eq_unreadable hfile (v := ("ENTITY_QUERY_DEFAULT_ORDER_BY", "name")) (by decide +kernel) (by decide +kernel)
  refine ⟨hfile, hload, rfl, fun hagree => ?_⟩
  exact nomatch hload.symm.trans ((hagree default).mpr rfl)

end Criteria.Settings
