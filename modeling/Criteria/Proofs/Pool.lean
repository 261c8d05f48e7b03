import Criteria.Naming.Pool
import Criteria.Proofs.Lists
import Criteria.Proofs.Naming

/-!
# `Criteria.Proofs.Pool` — names drawn from shared counters

Supplies and binders of a pool are used in any order. What they have in common is the history: the list of all
demands for a name, each with the supply it goes to and the answer it gets. This module reads names and
tables off the history and shows that the pool, which only has counters, agrees with it.

## Contents
- **Histories.** `Drawing` is one demand for a name; `history` lists the demands of a run, `drawnFrom` those that
  go to one counter, and `boundThrough` the values that one binder binds beside their names.
- **Names.** `Named`: the names from one counter are numbered without gap. `Named.name_eq_iff` tells names of a
  history apart.
- **Invariants.** `Counted` ties the counters to the history and `Filed` ties the tables to it. Every step keeps
  them (`Tracks.step`), and so does every run (`Tracks.run`).
- **Result.** `names_fresh`.
-/

namespace Criteria

namespace Pool

open NameSupply

/-! ## Histories -/

/-- The name in an outcome. -/
def Outcome.name? : Outcome → Option String
  | .name text => some text
  | .bound text _ => some text
  | _ => none

/-- A demand for a name, and what it gives. -/
structure Drawing where
  /-- The supply that the name is demanded of. -/
  source : Handle
  /-- The binder that demands it, beside the value to bind; absent when the supply is asked directly. -/
  through : Option (Nat × Json)
  outcome : Outcome

/-- The value that a binder binds by a drawing, beside its name. -/
def Drawing.bound? (i : Nat) (d : Drawing) : Option (String × Json) :=
  match d.through, d.outcome.name? with
  | some (j, value), some name => if j = i then some (name, value) else none
  | _, _ => none

theorem Drawing.bound?_eq_some_iff {i : Nat} {d : Drawing} {text : String} {value : Json} :
    d.bound? i = some (text, value) ↔ d.through = some (i, value) ∧ d.outcome.name? = some text := by
  unfold bound?
  split
  · rename_i j value' text' hthrough hname
    rw [hthrough, hname]
    by_cases hj : j = i <;> simp [hj, and_comm]
  · rename_i hnone
    refine ⟨nofun, fun ⟨hthrough, hname⟩ => ?_⟩
    exact absurd hname (hnone i value text hthrough)

/-- The supply that an action demands a name of, and the binder and value it does so for. Actions on supplies or
    binders that are not there demand nothing. -/
def demand? (p : Pool) : Action → Option (Handle × Option (Nat × Json))
  | .draw i => p.handles[i]?.map (·, none)
  | .bind i value =>
    match p.binders[i]? with
    | some ⟨h, some _⟩ => some (h, some (i, value))
    | _ => none
  | _ => none

/-- What an action adds to the history. -/
def drawn (p : Pool) (a : Action) : List Drawing :=
  (p.demand? a).toList.map fun demand => ⟨demand.1, demand.2, (p.step a).1⟩

/-- The pool after some actions. -/
def run (p : Pool) (actions : List Action) : Pool := actions.foldl (fun p a => (p.step a).2) p

/-- The drawings of some actions, in the order in which they happen. -/
def history : Pool → List Action → List Drawing
  | _, [] => []
  | p, a :: as => p.drawn a ++ history (p.step a).2 as

/-- The drawings from one counter. -/
def drawnFrom (counter : Nat) (log : List Drawing) : List Drawing :=
  log.filter (·.source.counter = counter)

/-- The values bound through one binder, each beside the name returned for it. -/
def boundThrough (i : Nat) (log : List Drawing) : List (String × Json) := log.filterMap (·.bound? i)

theorem drawnFrom_append (counter : Nat) (log log' : List Drawing) :
    drawnFrom counter (log ++ log') = drawnFrom counter log ++ drawnFrom counter log' :=
  List.filter_append ..

theorem drawnFrom_concat_self (log : List Drawing) (d : Drawing) :
    drawnFrom d.source.counter (log ++ [d]) = drawnFrom d.source.counter log ++ [d] := by
  rw [drawnFrom_append]
  simp [drawnFrom]

theorem drawnFrom_concat_of_ne {counter : Nat} (log : List Drawing) {d : Drawing}
    (h : d.source.counter ≠ counter) : drawnFrom counter (log ++ [d]) = drawnFrom counter log := by
  rw [drawnFrom_append]
  simp [drawnFrom, h]

theorem length_drawnFrom_le_concat (counter : Nat) (log : List Drawing) (d : Drawing) :
    (drawnFrom counter log).length ≤ (drawnFrom counter (log ++ [d])).length := by
  rw [drawnFrom_append, List.length_append]
  exact Nat.le_add_right ..

theorem boundThrough_concat (i : Nat) (log : List Drawing) (d : Drawing) :
    boundThrough i (log ++ [d]) = boundThrough i log ++ (d.bound? i).toList := by
  rw [boundThrough, List.filterMap_append]
  cases h : d.bound? i <;> simp [boundThrough, h]

/-! ## Names -/

/-- The index of the name that a counter gives after some others. -/
def index (drawn : Nat) : UInt64 := UInt64.ofNat (1 + drawn)

theorem index_inj {i j : Nat} : index i = index j ↔ (1 + i) % UInt64.size = (1 + j) % UInt64.size := by
  rw [← UInt64.toNat_inj]
  rfl

theorem index_succ (i : Nat) : index i + 1 = index (i + 1) := (UInt64.ofNat_add (1 + i) 1).symm

theorem index_inj_of_lt {i j : Nat} (hi : i < UInt64.size) (hj : j < UInt64.size) :
    index i = index j ↔ i = j := by
  rw [index, index, UInt64.ofNat_add, UInt64.ofNat_add, UInt64.add_right_inj, ← UInt64.toNat_inj,
    UInt64.toNat_ofNat_of_lt' hi, UInt64.toNat_ofNat_of_lt' hj]

/-- Names from one counter are numbered in the order in which they are drawn, beginning with one. -/
def Named (log : List Drawing) : Prop :=
  ∀ counter i d, (drawnFrom counter log)[i]? = some d →
    d.outcome.name? = some (nameAt d.source.stem (index i))

/-- A drawing continues the numbering when its name carries the number of drawings from its counter. -/
theorem Named.concat {log : List Drawing} {d : Drawing} (h : Named log)
    (hname : d.outcome.name? =
      some (nameAt d.source.stem (index (drawnFrom d.source.counter log).length))) :
    Named (log ++ [d]) := by
  intro counter i e he
  by_cases hcounter : d.source.counter = counter
  · subst hcounter
    rw [drawnFrom_concat_self] at he
    rcases getElem?_concat_eq_some he with hold | ⟨rfl, rfl⟩
    · exact h _ i e hold
    · exact hname
  · rw [drawnFrom_concat_of_ne log hcounter] at he
    exact h counter i e he

/-- **Names of a history are told apart by stem and number.** -/
theorem Named.name_eq_iff {log : List Drawing} (h : Named log) {c c' i j : Nat} {d e : Drawing}
    (hd : (drawnFrom c log)[i]? = some d) (he : (drawnFrom c' log)[j]? = some e) :
    d.outcome.name? = e.outcome.name? ↔
      d.source.stem = e.source.stem ∧ (1 + i) % UInt64.size = (1 + j) % UInt64.size := by
  rw [h c i d hd, h c' j e he, Option.some.injEq, nameAt_inj, index_inj]

/-- The drawings of one turn of a counter have different names. -/
theorem Named.nodup_names {log : List Drawing} (h : Named log) (counter : Nat) :
    (((drawnFrom counter log).take UInt64.size).map (·.outcome.name?)).Nodup := by
  rw [List.nodup_iff_getElem?_ne_getElem?]
  intro i j hij hj heq
  rw [List.length_map, List.length_take] at hj
  have hi : i < UInt64.size := by omega
  have hj' : j < UInt64.size := by omega
  rw [List.getElem?_map, List.getElem?_map, List.getElem?_take_of_lt hi,
    List.getElem?_take_of_lt hj', List.getElem?_eq_getElem (by omega),
    List.getElem?_eq_getElem (by omega), Option.map_some, Option.map_some, Option.some.injEq] at heq
  have hsame := (h.name_eq_iff (List.getElem?_eq_getElem (by omega))
    (List.getElem?_eq_getElem (by omega))).mp heq
  have hindex := (index_inj_of_lt hi hj').mp (index_inj.mpr hsame.2)
  omega

/-! ## Invariants -/

/-- The counters agree with a history: each stands at the number of the names drawn from it, and all supplies,
    binders and drawings refer to counters that are there. -/
structure Counted (p : Pool) (log : List Drawing) : Prop where
  handles : ∀ h ∈ p.handles, h.counter < p.counters.length
  binders : ∀ b ∈ p.binders, b.handle.counter < p.counters.length
  drawings : ∀ d ∈ log, d.source.counter < p.counters.length
  counts : ∀ counter, p.counters.getD counter 1 = index (drawnFrom counter log).length
  named : Named log

/-- The tables agree with a history: each lists the values bound through its binder, until its counter has gone
    round, and every drawing through a binder goes to the supply of the binder. -/
structure Filed (p : Pool) (log : List Drawing) : Prop where
  through : ∀ d ∈ log, ∀ i value, d.through = some (i, value) →
    (p.binders[i]?).map OpenBinder.handle = some d.source
  tables : ∀ i h t, p.binders[i]? = some ⟨h, some t⟩ →
    (drawnFrom h.counter log).length ≤ UInt64.size → t.toList = boundThrough i log

/-- A pool agrees with a history. -/
structure Tracks (p : Pool) (log : List Drawing) : Prop where
  counted : Counted p log
  filed : Filed p log

theorem tracks_empty : Tracks empty [] := by
  refine ⟨⟨nofun, nofun, nofun, fun _ => rfl, fun _ _ _ h => ?_⟩, ⟨nofun, nofun⟩⟩
  cases h

section Steps

variable {p : Pool} {log : List Drawing} {h : Handle}

theorem Counted.supply_name (hp : Counted p log) (h : Handle) :
    (p.supply h).name = nameAt h.stem (index (drawnFrom h.counter log).length) := by
  rw [← hp.counts]
  rfl

/-- A new counter has given no name. -/
theorem Tracks.addCounter (hp : Tracks p log) : Tracks { p with counters := p.counters ++ [1] } log := by
  have hle : p.counters.length ≤ (p.counters ++ [1]).length := by simp
  refine ⟨⟨?_, ?_, ?_, ?_, hp.counted.named⟩, ⟨hp.filed.through, hp.filed.tables⟩⟩
  · exact fun h hh => Nat.lt_of_lt_of_le (hp.counted.handles h hh) hle
  · exact fun b hb => Nat.lt_of_lt_of_le (hp.counted.binders b hb) hle
  · exact fun d hd => Nat.lt_of_lt_of_le (hp.counted.drawings d hd) hle
  · intro counter
    rw [← hp.counted.counts]
    show (p.counters ++ [1]).getD counter 1 = _
    rw [List.getD_eq_getElem?_getD, List.getElem?_append, List.getD_eq_getElem?_getD]
    split
    · rfl
    · rename_i hge
      rw [List.getElem?_eq_none (Nat.le_of_not_lt hge), List.getElem?_singleton]
      split <;> rfl

theorem Tracks.addHandle (hp : Tracks p log) (hh : h.counter < p.counters.length) :
    Tracks (p.addHandle h).2 log := by
  refine ⟨{ hp.counted with handles := ?_ }, ⟨hp.filed.through, hp.filed.tables⟩⟩
  intro h' hh'
  rcases List.mem_append.mp hh' with hold | hnew
  · exact hp.counted.handles h' hold
  · rwa [List.mem_singleton.mp hnew]

/-- A new binder has bound nothing. -/
theorem Tracks.addBinder (hp : Tracks p log) (hh : h.counter < p.counters.length) :
    Tracks { p with binders := p.binders ++ [⟨h, some .empty⟩] } log := by
  have hnone : boundThrough p.binders.length log = [] := by
    refine List.eq_nil_iff_forall_not_mem.mpr fun ⟨text, value⟩ hmem => ?_
    obtain ⟨d, hd, hbound⟩ := List.mem_filterMap.mp hmem
    -- a drawing through the new place would go through a binder that was not there
    have hplace := hp.filed.through d hd _ value (Drawing.bound?_eq_some_iff.mp hbound).1
    rw [List.getElem?_eq_none (Nat.le_refl _)] at hplace
    cases hplace
  refine ⟨{ hp.counted with binders := ?_ }, ⟨?_, ?_⟩⟩
  · intro b hb
    rcases List.mem_append.mp hb with hold | hnew
    · exact hp.counted.binders b hold
    · rwa [List.mem_singleton.mp hnew]
  · intro d hd i value hthrough
    have hplace := hp.filed.through d hd i value hthrough
    obtain ⟨b, hb, -⟩ := Option.map_eq_some_iff.mp hplace
    show ((p.binders ++ _)[i]?).map OpenBinder.handle = _
    rwa [List.getElem?_append_left (List.getElem?_eq_some_iff.mp hb).1]
  · intro i h' t hi hcount
    rcases getElem?_concat_eq_some hi with hold | ⟨rfl, hnew⟩
    · exact hp.filed.tables i h' t hold hcount
    · injection hnew with hhandle htable
      rw [hnone, Option.some.inj htable]
      rfl

/-- A binder keeps its supply whatever becomes of its table. -/
theorem handle_set {i : Nat} {t : Option Bindings} (hi : p.binders[i]? = some ⟨h, t⟩)
    (t' : Option Bindings) (j : Nat) :
    ((p.binders.set i ⟨h, t'⟩)[j]?).map OpenBinder.handle = (p.binders[j]?).map OpenBinder.handle := by
  rw [getElem?_set_of_some hi]
  split
  · rename_i hij
    rw [← hij, hi]
    rfl
  · rfl

theorem Counted.setBinder (hp : Counted p log) {i : Nat} {t : Option Bindings}
    (hi : p.binders[i]? = some ⟨h, t⟩) (t' : Option Bindings) :
    Counted { p with binders := p.binders.set i ⟨h, t'⟩ } log := by
  refine { hp with binders := fun b hb => ?_ }
  rcases List.mem_or_eq_of_mem_set hb with hold | rfl
  · exact hp.binders b hold
  · exact hp.binders ⟨h, t⟩ (List.mem_of_getElem? hi)

/-- A table that is taken out is no longer kept in step. -/
theorem Tracks.close (hp : Tracks p log) {i : Nat} {t : Option Bindings}
    (hi : p.binders[i]? = some ⟨h, t⟩) : Tracks { p with binders := p.binders.set i ⟨h, none⟩ } log := by
  refine ⟨hp.counted.setBinder hi none, ⟨?_, ?_⟩⟩
  · intro d hd j value hthrough
    exact (handle_set hi none j).trans (hp.filed.through d hd j value hthrough)
  · intro j h' t' hj hcount
    change (p.binders.set i ⟨h, none⟩)[j]? = _ at hj
    rw [getElem?_set_of_some hi] at hj
    split at hj
    · cases hj
    · exact hp.filed.tables j h' t' hj hcount

/-- A drawing moves its counter on by one and leaves the others. -/
theorem Counted.draw (hp : Counted p log) {d : Drawing} (hsource : d.source.counter < p.counters.length)
    (hname : d.outcome.name? = some (p.supply d.source).name) :
    Counted (p.draw d.source).2 (log ++ [d]) := by
  have hlength : (p.draw d.source).2.counters.length = p.counters.length := List.length_set
  rw [hp.supply_name] at hname
  refine ⟨?_, ?_, ?_, ?_, hp.named.concat hname⟩
  · rw [hlength]; exact hp.handles
  · rw [hlength]; exact hp.binders
  · rw [hlength]
    intro e he
    rcases List.mem_append.mp he with hold | hnew
    · exact hp.drawings e hold
    · rwa [List.mem_singleton.mp hnew]
  · intro counter
    show (p.counters.set d.source.counter (p.counters.getD d.source.counter 1 + 1)).getD counter 1 = _
    rw [List.getD_eq_getElem?_getD, List.getElem?_set]
    -- one counter is one further, as is its list of drawings
    by_cases hcounter : d.source.counter = counter
    · subst hcounter
      rw [if_pos rfl, if_pos hsource, drawnFrom_concat_self, List.length_append, hp.counts, index_succ]
      rfl
    · rw [if_neg hcounter, drawnFrom_concat_of_ne log hcounter, ← List.getD_eq_getElem?_getD]
      exact hp.counts counter

/-- A name drawn directly is in no table. -/
theorem Tracks.draw (hp : Tracks p log) (hh : h.counter < p.counters.length) :
    Tracks (p.draw h).2 (log ++ [⟨h, none, .name (p.draw h).1⟩]) := by
  refine ⟨hp.counted.draw (d := ⟨h, none, _⟩) hh rfl, ⟨?_, ?_⟩⟩
  · intro d hd i value hthrough
    rcases List.mem_append.mp hd with hold | hnew
    · exact hp.filed.through d hold i value hthrough
    · rw [List.mem_singleton.mp hnew] at hthrough
      cases hthrough
  · intro i h' t hi hcount
    rw [boundThrough_concat]
    have hle := length_drawnFrom_le_concat h'.counter log ⟨h, none, .name (p.draw h).1⟩
    rw [hp.filed.tables i h' t hi (Nat.le_trans hle hcount)]
    exact (List.append_nil _).symm

/-- A name drawn for a binder is new to its table, as long as the counter has not gone round. -/
theorem Tracks.name_not_mem (hp : Tracks p log) {i : Nat} {t : Bindings}
    (hi : p.binders[i]? = some ⟨h, some t⟩) (hcount : (drawnFrom h.counter log).length < UInt64.size) :
    (p.supply h).name ∉ t.keys := by
  have htable : t.entries = boundThrough i log := hp.filed.tables i h t hi (Nat.le_of_lt hcount)
  rw [hp.counted.supply_name, OrderedMap.keys, htable]
  intro hmem
  obtain ⟨⟨text, value⟩, hentry, htext⟩ := List.mem_map.mp hmem
  obtain ⟨d, hd, hbound⟩ := List.mem_filterMap.mp hentry
  obtain ⟨hthrough, hname⟩ := Drawing.bound?_eq_some_iff.mp hbound
  have hplace := hp.filed.through d hd i value hthrough
  rw [hi] at hplace
  obtain rfl : h = d.source := Option.some.inj hplace
  obtain ⟨k, hk⟩ := List.mem_iff_getElem?.mp
    (List.mem_filter.mpr ⟨hd, decide_eq_true rfl⟩ : d ∈ drawnFrom d.source.counter log)
  have hlt : k < (drawnFrom d.source.counter log).length := (List.getElem?_eq_some_iff.mp hk).1
  rw [hp.counted.named _ k d hk, Option.some.injEq] at hname
  rw [← hname, nameAt_inj] at htext
  have hsame := (index_inj_of_lt (by omega) hcount).mp htext.2
  omega

/-- The drawing that binds a value through a binder. -/
def binding (p : Pool) (h : Handle) (i : Nat) (t : Bindings) (value : Json) : Drawing :=
  ⟨h, some (i, value), .bound (p.supply h).name (t.set (p.supply h).name value)⟩

/-- A bound value goes to the end of its table, under the name that was drawn for it. -/
theorem Tracks.bind (hp : Tracks p log) {i : Nat} {t : Bindings} (value : Json)
    (hi : p.binders[i]? = some ⟨h, some t⟩) :
    Tracks { (p.draw h).2 with binders := p.binders.set i ⟨h, some (t.set (p.supply h).name value)⟩ }
      (log ++ [p.binding h i t value]) := by
  have hh : h.counter < p.counters.length := hp.counted.binders _ (List.mem_of_getElem? hi)
  have hcounted : Counted (p.draw h).2 (log ++ [p.binding h i t value]) :=
    hp.counted.draw (d := p.binding h i t value) hh rfl
  refine ⟨hcounted.setBinder hi _, ⟨?_, ?_⟩⟩
  · -- what was bound through a binder is still filed under it
    intro d hd j value' hthrough
    refine (handle_set hi _ j).trans ?_
    rcases List.mem_append.mp hd with hold | hnew
    · exact hp.filed.through d hold j value' hthrough
    · rw [List.mem_singleton.mp hnew] at hthrough ⊢
      obtain ⟨rfl, -⟩ := Prod.mk.inj (Option.some.inj hthrough)
      exact congrArg (Option.map OpenBinder.handle) hi
  · intro j h' t' hj hcount
    change (p.binders.set i _)[j]? = _ at hj
    rw [getElem?_set_of_some hi] at hj
    rw [boundThrough_concat]
    by_cases hij : i = j
    · -- the binder that binds: its new entry is the last, because the name is new to its table
      subst hij
      rw [if_pos rfl, Option.some.injEq, OpenBinder.mk.injEq, Option.some.injEq] at hj
      obtain ⟨rfl, rfl⟩ := hj
      have hroom : (drawnFrom h.counter log).length < UInt64.size := by
        have hlength := congrArg List.length (drawnFrom_concat_self log (p.binding h i t value))
        rw [List.length_append] at hlength
        exact Nat.lt_of_succ_le (Nat.le_trans (Nat.le_of_eq hlength.symm) hcount)
      rw [Drawing.bound?_eq_some_iff.mpr ⟨rfl, rfl⟩, ← hp.filed.tables _ _ t hi (Nat.le_of_lt hroom)]
      exact OrderedMap.toList_set_of_not_mem value (hp.name_not_mem hi hroom)
    · rw [if_neg hij] at hj
      have hle := length_drawnFrom_le_concat h'.counter log (p.binding h i t value)
      have hother : Drawing.bound? j (p.binding h i t value) = none := if_neg hij
      rw [hp.filed.tables j h' t' hj (Nat.le_trans hle hcount), hother]
      exact (List.append_nil _).symm

theorem drawn_of_demand {p : Pool} {a : Action} {h : Handle} {through : Option (Nat × Json)}
    (hdemand : p.demand? a = some (h, through)) : p.drawn a = [⟨h, through, (p.step a).1⟩] := by
  rw [drawn, hdemand]
  rfl

theorem drawn_of_no_demand {p : Pool} {a : Action} (h : p.demand? a = none) : p.drawn a = [] := by
  rw [drawn, h]
  rfl

/-- **The invariant step.** Whatever a step does, the pool agrees with the history that the step extends. -/
theorem Tracks.step (hp : Tracks p log) (a : Action) : Tracks (p.step a).2 (log ++ p.drawn a) := by
  -- only `draw` and `bind` ask for a name; the other actions leave the history as it is
  cases a with
  | create stem =>
    rw [drawn_of_no_demand rfl, List.append_nil]
    exact hp.addCounter.addHandle (by simp)
  | clone i =>
    rw [drawn_of_no_demand rfl, List.append_nil, Pool.step]
    cases hi : p.handles[i]? with
    | none => exact hp
    | some h => exact hp.addHandle (hp.counted.handles h (List.mem_of_getElem? hi))
  | draw i =>
    cases hi : p.handles[i]? with
    | none =>
      rw [drawn_of_no_demand (by simp [demand?, hi]), List.append_nil, Pool.step, hi]
      exact hp
    | some h =>
      have hdemand : p.demand? (.draw i) = some (h, none) := by simp [demand?, hi]
      rw [drawn_of_demand hdemand, Pool.step, hi]
      exact hp.draw (hp.counted.handles h (List.mem_of_getElem? hi))
  | peek i =>
    rw [drawn_of_no_demand rfl, List.append_nil]
    exact hp
  | binder i =>
    rw [drawn_of_no_demand rfl, List.append_nil, Pool.step]
    cases hi : p.handles[i]? with
    | none => exact hp
    | some h => exact hp.addBinder (hp.counted.handles h (List.mem_of_getElem? hi))
  | bind i value =>
    rcases hi : p.binders[i]? with _ | ⟨h, _ | t⟩
    · rw [drawn_of_no_demand (by simp [demand?, hi]), List.append_nil, Pool.step, bindAt, hi]
      exact hp
    · rw [drawn_of_no_demand (by simp [demand?, hi]), List.append_nil, Pool.step, bindAt, hi]
      exact hp
    · have hdemand : p.demand? (.bind i value) = some (h, some (i, value)) := by simp [demand?, hi]
      rw [drawn_of_demand hdemand, Pool.step, bindAt, hi]
      exact hp.bind value hi
  | take i =>
    rw [drawn_of_no_demand rfl, List.append_nil, Pool.step, takeAt]
    split
    · rename_i hi
      exact hp.close hi
    · exact hp

/-- **Runs.** After any actions, in any order, the pool agrees with their history. -/
theorem Tracks.run (hp : Tracks p log) (actions : List Action) :
    Tracks (p.run actions) (log ++ p.history actions) := by
  induction actions generalizing p log with
  | nil => rwa [history, List.append_nil]
  | cons a as ih =>
    rw [history, ← List.append_assoc]
    exact ih (hp.step a)

end Steps

/-! ## Result -/

/-- **Names are fresh in every run.** Let supplies be made, cloned and asked for names, and let binders bind
    through them, in any order.

    The names from one counter are numbered from one on, and the numbers wrap at 64 bits, whichever clone or
    binder draws them. Names of the whole run are equal exactly when their stems and numbers are, so one turn of a
    counter gives different names. Until its counter has gone round, the table of a binder holds exactly the values
    bound through it, in their order, each under the name that was returned for it. A new supply has a counter
    that no name was drawn from; a clone and a binder draw from the counter of their supply. -/
theorem names_fresh (actions : List Action) :
    let p := empty.run actions
    let log := empty.history actions
    (∀ counter i d, (drawnFrom counter log)[i]? = some d →
        d.outcome.name? = some (d.source.stem ++ "_" ++ toString ((1 + i) % UInt64.size))) ∧
      (∀ c c' i j d e, (drawnFrom c log)[i]? = some d → (drawnFrom c' log)[j]? = some e →
        (d.outcome.name? = e.outcome.name? ↔
          d.source.stem = e.source.stem ∧ (1 + i) % UInt64.size = (1 + j) % UInt64.size)) ∧
      (∀ counter, (((drawnFrom counter log).take UInt64.size).map (·.outcome.name?)).Nodup) ∧
      (∀ i h t, p.binders[i]? = some ⟨h, some t⟩ → (drawnFrom h.counter log).length ≤ UInt64.size →
        t.toList = boundThrough i log) ∧
      (∀ stem, ∃ counter, (p.step (.create stem)).2.handles = p.handles ++ [⟨stem, counter⟩] ∧
        drawnFrom counter log = [] ∧ ∀ h ∈ p.handles, h.counter ≠ counter) ∧
      ∀ i h, p.handles[i]? = some h →
        (p.step (.clone i)).2.handles = p.handles ++ [h] ∧
          (p.step (.binder i)).2.binders = p.binders ++ [⟨h, some .empty⟩] := by
  intro p log
  have htracks : Tracks p log := tracks_empty.run actions
  have hnamed := htracks.counted.named
  refine ⟨?_, ?_, hnamed.nodup_names, htracks.filed.tables, ?_, ?_⟩
  · intro counter i d hd
    exact hnamed counter i d hd
  · intro c c' i j d e hd he
    exact hnamed.name_eq_iff hd he
  · intro stem
    refine ⟨p.counters.length, rfl, ?_, ?_⟩
    · -- the counter of the new supply is not there yet, so no drawing can be from it
      refine List.filter_eq_nil_iff.mpr fun d hd => ?_
      rw [decide_eq_true_iff]
      exact Nat.ne_of_lt (htracks.counted.drawings d hd)
    · exact fun h hh => Nat.ne_of_lt (htracks.counted.handles h hh)
  · intro i h hi
    rw [step, step, hi]
    exact ⟨rfl, rfl⟩

/-- Two binders on clones of one supply, beside a supply whose stem ends like a name of the other. -/
theorem names_fresh_shared :
    let actions : List Action := [.create "p", .clone 0, .create "p_1", .binder 0, .binder 1, .draw 1,
      .bind 0 (.int 5), .draw 2, .bind 1 .null, .bind 0 (.bool true), .bind 7 .null]
    ((empty.history actions).map (·.outcome.name?) =
        [some "p_1", some "p_2", some "p_1_1", some "p_3", some "p_4"]) ∧
      ∃ t, (empty.run actions).binders[0]? = some ⟨⟨"p", 0⟩, some t⟩ ∧
        (drawnFrom 0 (empty.history actions)).length ≤ UInt64.size ∧
        t.toList = [("p_2", .int 5), ("p_4", .bool true)] := by
  intro actions
  refine ⟨by decide, _, rfl, by decide, ?_⟩
  exact ((names_fresh actions).2.2.2.1 0 ⟨"p", 0⟩ _ rfl (by decide)).trans (by decide)

end Pool

end Criteria
