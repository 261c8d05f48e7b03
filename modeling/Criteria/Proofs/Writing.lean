import Criteria.Engine.Memory
import Criteria.Facade
import Criteria.Proofs.Record
import Criteria.Proofs.Requests

/-!
# `Criteria.Proofs.Writing` — which calls a write makes

A facade writes by a script of calls. It makes them in order and stops at the first that fails, so what an engine
has seen after a write is a prefix of the script. Nothing is assumed of the engine.

## Contents
- **Scripts.** `Engine.Passes`: calls that all succeed. `Engine.Plays`: a script up to its first failure.
- **Sessions.** `Session.Makes` says what a session does in one world; a session `Follows` a script when it does
  nothing else than play it. Scripts compose as sessions do.
- **Single entities.** `saveMany` and `deleteMany` follow scripts that end in a flush.
- **Every entity.** `Facade.Deletes`: the records to remove are those that the engine answers with.
- **Result.** `writes_stop_at_first_failure`.
- **Counters.** What is known of the statement that resets the counter of a table.
-/

namespace Criteria

/-! ## Scripts -/

namespace Engine

variable {ρ σ α : Type} {e : Engine ρ σ} {a b d : σ} {calls calls' made : List (Call ρ)}

/-- Calls that all succeed lead from one state to another. -/
inductive Passes (e : Engine ρ σ) : σ → List (Call ρ) → σ → Prop where
  | nil (a : σ) : Passes e a [] a
  | cons {a b d : σ} {c : Call ρ} {calls : List (Call ρ)} {answer : c.Answer}
      (hcall : e.perform c a = (.ok answer, b)) (hrest : Passes e b calls d) : Passes e a (c :: calls) d

theorem Passes.append (h : e.Passes a calls b) (h' : e.Passes b calls' d) : e.Passes a (calls ++ calls') d := by
  induction h with
  | nil a => exact h'
  | cons hcall hrest ih => exact .cons hcall (ih h')

/-- The calls at the front of a list succeed when all of them do. -/
theorem Passes.front (h : e.Passes a (calls ++ calls') d) : ∃ b, e.Passes a calls b := by
  induction calls generalizing a with
  | nil => exact ⟨a, .nil a⟩
  | cons c calls ih =>
    cases h with
    | cons hcall hrest =>
      obtain ⟨b, hpasses⟩ := ih hrest
      exact ⟨b, .cons hcall hpasses⟩

/-- From a state a script is played: either every call of it succeeds, or the calls in front of the first failure
    do, and nothing is called behind it. `made` are the calls made, with the failure at their end. -/
inductive Plays (e : Engine ρ σ) (a : σ) (script : List (Call ρ)) : List (Call ρ) → Except Fault α → σ → Prop where
  | through {b : σ} (x : α) (hpasses : e.Passes a script b) : Plays e a script script (.ok x) b
  | stopped {before after : List (Call ρ)} {c : Call ρ} {b d : σ} {fault : Fault}
      (hscript : script = before ++ c :: after) (hpasses : e.Passes a before b)
      (hcall : e.perform c b = (.error fault, d)) : Plays e a script (before ++ [c]) (.error fault) d

/-- A single call is played, whatever it answers. -/
theorem plays_single (e : Engine ρ σ) (c : Call ρ) (a : σ) :
    e.Plays a [c] [c] (e.perform c a).1 (e.perform c a).2 := by
  rcases h : e.perform c a with ⟨fault | answer, b⟩
  · have hscript : [c] = [] ++ c :: [] := rfl
    exact .stopped hscript (.nil a) h
  · exact .through answer (.cons h (.nil b))

/-- Calls that succeed are played in front of any script. -/
theorem Plays.prepend {script : List (Call ρ)} {result : Except Fault α} (h : e.Passes a calls b)
    (hplays : e.Plays b script made result d) : e.Plays a (calls ++ script) (calls ++ made) result d := by
  cases hplays with
  | through x hpasses => exact .through x (h.append hpasses)
  | @stopped before after c _ _ _ hscript hpasses hcall =>
    have hall : calls ++ script = (calls ++ before) ++ c :: after := by rw [hscript, List.append_assoc]
    rw [← List.append_assoc]
    exact .stopped hall (h.append hpasses) hcall

/-- A failure stops any longer script as well. -/
theorem Plays.extend {β : Type} {fault : Fault} {script : List (Call ρ)} (after : List (Call ρ))
    (h : e.Plays a script made (.error fault : Except Fault α) b) :
    e.Plays a (script ++ after) made (.error fault : Except Fault β) b := by
  cases h with
  | @stopped before rest c _ _ _ hscript hpasses hcall =>
    have hall : script ++ after = before ++ c :: (rest ++ after) := by
      rw [hscript, List.append_assoc, List.cons_append]
    exact .stopped hall hpasses hcall

/-- **A flush at the end of a script is called only when all calls in front of it have succeeded.** -/
theorem Plays.passes_of_flush {result : Except Fault α} (h : e.Plays a (calls ++ [.flush]) made result b)
    (hcalls : Call.flush ∉ calls) (hmade : Call.flush ∈ made) :
    made = calls ++ [.flush] ∧ ∃ d, e.Passes a calls d := by
  cases h with
  | through x hpasses => exact ⟨rfl, hpasses.front⟩
  | @stopped before after c b d fault hscript hpasses hcall =>
    -- a failure in front of the flush would leave the flush out
    rcases List.eq_nil_or_concat after with rfl | ⟨after', last, rfl⟩
    · obtain ⟨rfl, hflush⟩ := List.append_inj' hscript rfl
      exact ⟨by rw [hflush], _, hpasses⟩
    · rw [List.concat_eq_append, ← List.cons_append, ← List.append_assoc] at hscript
      obtain ⟨rfl, -⟩ := List.append_inj' hscript rfl
      refine absurd ?_ hcalls
      rw [List.append_cons before c after']
      exact List.mem_append_left after' hmade

/-- A flush ends the calls made, and each call in front of it succeeded. -/
def FlushesLast (e : Engine ρ σ) (a : σ) (made : List (Call ρ)) : Prop :=
  Call.flush ∈ made → ∃ before d, made = before ++ [.flush] ∧ Call.flush ∉ before ∧ e.Passes a before d

theorem Plays.flushesLast {result : Except Fault α} (h : e.Plays a (calls ++ [.flush]) made result b)
    (hcalls : Call.flush ∉ calls) : e.FlushesLast a made := by
  intro hmade
  obtain ⟨rfl, d, hpasses⟩ := h.passes_of_flush hcalls hmade
  exact ⟨calls, d, rfl, hcalls, hpasses⟩

end Engine

/-! ## Sessions -/

namespace Session

variable {ρ σ α β : Type} {e : Engine ρ σ} {w : World ρ σ} {made made' : List (Call ρ)} {a b : σ}

/-- What a session does in a world when it draws no name: the calls it makes, its result, and the state in which it
    leaves the engine. -/
def Makes (x : Session ρ σ α) (w : World ρ σ) (made : List (Call ρ)) (result : Except Fault α) (b : σ) : Prop :=
  x.runIn w = (result, { w with engine := b, calls := w.calls ++ made })

theorem Makes.bind_ok {x : Session ρ σ α} {next : α → Session ρ σ β} {v : α} {result : Except Fault β}
    (h : x.Makes w made (.ok v) a)
    (hnext : (next v).Makes { w with engine := a, calls := w.calls ++ made } made' result b) :
    (x >>= next).Makes w (made ++ made') result b := by
  unfold Makes at h hnext ⊢
  rw [runIn_bind, h]
  simpa only [List.append_assoc] using hnext

theorem Makes.bind_error {x : Session ρ σ α} {fault : Fault} (h : x.Makes w made (.error fault) a)
    (next : α → Session ρ σ β) : (x >>= next).Makes w made (.error fault) a := by
  unfold Makes at h ⊢
  rw [runIn_bind, h]

/-- A check behind a session makes no call. -/
theorem Makes.check {x : Session ρ σ α} {result : Except Fault α} (h : x.Makes w made result a)
    (test : α → Except Fault β) : (x >>= fun v => checked (test v)).Makes w made (result.bind test) a :=
  runIn_bind_checked h test

/-- A session follows a script when all it does, in any world, is to play the script. -/
def Follows (x : Session ρ σ α) (e : Engine ρ σ) (script : List (Call ρ)) : Prop :=
  ∀ w, ∃ made result b, e.Plays w.engine script made result b ∧ x.Makes w made result b

theorem follows_pure (e : Engine ρ σ) (v : α) : (pure v : Session ρ σ α).Follows e [] := by
  intro w
  refine ⟨[], .ok v, w.engine, .through v (.nil _), ?_⟩
  unfold Makes
  rw [runIn_pure, List.append_nil]

theorem follows_ask (e : Engine ρ σ) (c : Call ρ) : (ask e c).Follows e [c] :=
  fun w => ⟨[c], _, _, e.plays_single c w.engine, runIn_ask e c w⟩

/-- **Scripts compose as sessions do.** -/
theorem Follows.bind {x : Session ρ σ α} {next : α → Session ρ σ β} {script script' : List (Call ρ)}
    (h : x.Follows e script) (hnext : ∀ v, (next v).Follows e script') :
    (x >>= next).Follows e (script ++ script') := by
  intro w
  obtain ⟨made, result, a, hplays, hmakes⟩ := h w
  -- a failure of the first script stops the whole; otherwise the second starts in the state that the first leaves
  cases result with
  | error fault => exact ⟨made, .error fault, a, hplays.extend script', hmakes.bind_error next⟩
  | ok v =>
    cases hplays with
    | through v hpasses =>
      obtain ⟨made', result, b, hplays', hmakes'⟩ := hnext v { w with engine := a, calls := w.calls ++ script }
      exact ⟨script ++ made', result, b, hplays'.prepend hpasses, hmakes.bind_ok hmakes'⟩

end Session

/-! ## Single entities -/

namespace Facade

open Engine Session

variable {ρ σ : Type} (f : Facade ρ σ)

/-- A call for each record makes a script of all calls. -/
theorem follows_askAll {call : ρ → Session ρ σ Unit} {c : ρ → Call ρ} (h : ∀ r, (call r).Follows f.engine [c r])
    (rs : List ρ) : (f.askAll call rs).Follows f.engine (rs.map c) := by
  induction rs with
  | nil => exact follows_pure f.engine ()
  | cons r rs ih => exact (h r).bind fun _ => ih

theorem follows_removeMany (rs : List ρ) : (f.removeMany rs).Follows f.engine (rs.map .remove) :=
  f.follows_askAll (fun r => follows_ask f.engine (.remove r)) rs

theorem follows_flush : f.flush.Follows f.engine [.flush] := follows_ask f.engine .flush

theorem follows_saveMany (rs : List ρ) : (f.saveMany rs).Follows f.engine (rs.map .persist ++ [.flush]) :=
  (f.follows_askAll (fun r => follows_ask f.engine (.persist r)) rs).bind fun _ => f.follows_flush

theorem follows_deleteMany (rs : List ρ) : (f.deleteMany rs).Follows f.engine (rs.map .remove ++ [.flush]) :=
  (f.follows_removeMany rs).bind fun _ => f.follows_flush

/-! ## Every entity -/

/-- The query for every entity: it has no conditions, and the default order. -/
def everything : Query := { f.scope.base with order := f.scope.sorting f.defaultOrder }

theorem runOn_find_all (supply : NameSupply) :
    (f.scope.find (f.request (.all none))).runOn supply = (.ok f.everything, supply) := by
  have hrun := f.scope.find_of_legal (f.request (.all none)) supply
    (fun _ h => absurd h List.not_mem_nil) (Nat.zero_le _)
  rw [show drawnBy (f.request (.all none)).conditions = 0 from rfl, NameSupply.skip_zero] at hrun
  exact hrun

variable [Record ρ]

/-- Asking for every entity is one call, and a check of what it answers. -/
theorem makes_findAll (w : World ρ σ) :
    (f.findAll none).Makes w [.results f.everything]
      ((f.engine.perform (.results f.everything) w.engine).1.bind fun rs => rs.mapM (ofType f.type))
      (f.engine.perform (.results f.everything) w.engine).2 := by
  have hrecords : (f.records (.all none)).Makes w [.results f.everything]
      (f.engine.perform (.results f.everything) w.engine).1
      (f.engine.perform (.results f.everything) w.engine).2 :=
    f.runIn_records (f.runOn_find_all w.supply)
  exact hrecords.check fun rs => rs.mapM (ofType f.type)

/-- How the deletion of every entity goes from a state of the engine, when the calls `closing` come behind the
    removals. -/
inductive Deletes (closing : List (Call ρ)) (a : σ) : List (Call ρ) → Except Fault Unit → σ → Prop where
  /-- The query fails. -/
  | unanswered {fault : Fault} {b : σ} (hquery : f.engine.perform (.results f.everything) a = (.error fault, b)) :
      Deletes closing a [.results f.everything] (.error fault) b
  /-- The answer has a record of another type in it, and nothing is removed. -/
  | foreign {rs : List ρ} {r : ρ} {b : σ} (hquery : f.engine.perform (.results f.everything) a = (.ok rs, b))
      (hforeign : FirstForeign f.type rs r) :
      Deletes closing a [.results f.everything] (.error (.typeMismatch f.type.name (Record.type r).name)) b
  /-- The records of the answer are removed in their order, and `closing` follows, up to the first failure. -/
  | played {rs : List ρ} {b d : σ} {made : List (Call ρ)} {result : Except Fault Unit}
      (hquery : f.engine.perform (.results f.everything) a = (.ok rs, b)) (hall : AllOf f.type rs)
      (hplays : f.engine.Plays b (rs.map .remove ++ closing) made result d) :
      Deletes closing a (.results f.everything :: made) result d

variable {f} {closing made : List (Call ρ)} {result : Except Fault Unit} {a b : σ}

/-- **A flush behind the removals is called only when the query, the removals and all else in front of it have
    succeeded.** -/
theorem Deletes.passes_of_flush (h : f.Deletes (closing ++ [.flush]) a made result b)
    (hclosing : Call.flush ∉ closing) (hmade : Call.flush ∈ made) :
    ∃ before d, made = before ++ closing ++ [.flush] ∧ Call.flush ∉ before ∧
      f.engine.Passes a (before ++ closing) d := by
  cases h with
  | unanswered hquery => exact absurd hmade (by simp)
  | foreign hquery hforeign => exact absurd hmade (by simp)
  | @played rs b d made result hquery hall hplays =>
    -- the flush is among the calls behind the query, and so at the end of their script
    have hmade : Call.flush ∈ made := (List.mem_cons.mp hmade).resolve_left nofun
    have hremovals : Call.flush ∉ rs.map Call.remove := by simp
    rw [← List.append_assoc] at hplays
    obtain ⟨rfl, d, hpasses⟩ := hplays.passes_of_flush (by simp [hclosing]) hmade
    refine ⟨.results f.everything :: rs.map .remove, d, rfl, ?_, .cons hquery hpasses⟩
    exact fun hmem => hremovals ((List.mem_cons.mp hmem).resolve_left nofun)

theorem Deletes.flushesLast (h : f.Deletes [.flush] a made result b) : f.engine.FlushesLast a made := by
  have h : f.Deletes ([] ++ [.flush]) a made result b := h
  intro hmade
  obtain ⟨before, d, hbefore, hflush, hpasses⟩ := h.passes_of_flush nofun hmade
  rw [List.append_nil] at hbefore hpasses
  exact ⟨before, d, hbefore, hflush, hpasses⟩

/-- Deleting every entity goes as its last steps go. -/
theorem deletes_of_follows {reset : Bool}
    (h : (f.resetIf reset >>= fun _ => f.flush).Follows f.engine closing) (w : World ρ σ) :
    ∃ made result b, f.Deletes closing w.engine made result b ∧ (f.deleteAll reset).Makes w made result b := by
  have hall := f.makes_findAll w
  have hsteps : f.deleteAll reset =
      f.findAll none >>= fun rs => f.removeMany rs >>= fun _ => f.resetIf reset >>= fun _ => f.flush := by
    simp only [deleteAll, removeAll, bind_assoc]
  rw [hsteps]
  rcases hquery : f.engine.perform (.results f.everything) w.engine with ⟨fault | rs, a⟩ <;> rw [hquery] at hall
  · exact ⟨_, _, _, .unanswered hquery, hall.bind_error _⟩
  · have hall : (f.findAll none).Makes w _ (rs.mapM (ofType f.type)) a := hall
    -- the whole answer is checked before the first removal
    rcases allOf_or_firstForeign f.type rs with htyped | ⟨r, hforeign⟩
    · rw [mapM_ofType_of_allOf htyped] at hall
      have hrest := (f.follows_removeMany rs).bind fun _ => h
      obtain ⟨made, result, b, hplays, hmakes⟩ := hrest { w with engine := a, calls := w.calls ++ [_] }
      exact ⟨_, result, b, .played hquery htyped hplays, hall.bind_ok hmakes⟩
    · rw [mapM_ofType_of_firstForeign hforeign] at hall
      exact ⟨_, _, _, .foreign hquery hforeign, hall.bind_error _⟩

/-! ## Result -/

/-- **Writes stop at the first failure.** On any engine, in any state: saving entities plays the script that persists
    them in order and flushes; deleting them plays the script that removes them in order and flushes; and deleting
    every entity asks once for all of them, in the default order and without conditions, rejects the answer for its
    first record of another type, or else removes its records in their order and flushes. Each of them ends with the
    failure of the first call that fails, unchanged, and makes no call behind it. So a flush only follows calls that
    have succeeded. -/
theorem writes_stop_at_first_failure (f : Facade ρ σ) (rs : List ρ) (w : World ρ σ) :
    (∃ made result b, f.engine.Plays w.engine (rs.map .persist ++ [.flush]) made result b ∧
        (f.saveMany rs).Makes w made result b ∧ f.engine.FlushesLast w.engine made) ∧
      (∃ made result b, f.engine.Plays w.engine (rs.map .remove ++ [.flush]) made result b ∧
        (f.deleteMany rs).Makes w made result b ∧ f.engine.FlushesLast w.engine made) ∧
      ∃ made result b, f.Deletes [.flush] w.engine made result b ∧
        (f.deleteAll false).Makes w made result b ∧ f.engine.FlushesLast w.engine made := by
  refine ⟨?_, ?_, ?_⟩
  · obtain ⟨made, result, b, hplays, hmakes⟩ := f.follows_saveMany rs w
    exact ⟨made, result, b, hplays, hmakes, hplays.flushesLast (by simp)⟩
  · obtain ⟨made, result, b, hplays, hmakes⟩ := f.follows_deleteMany rs w
    exact ⟨made, result, b, hplays, hmakes, hplays.flushesLast (by simp)⟩
  · have hlast : (f.resetIf false >>= fun _ => f.flush).Follows f.engine [.flush] :=
      (follows_pure f.engine ()).bind fun _ => f.follows_flush
    obtain ⟨made, result, b, hdeletes, hmakes⟩ := deletes_of_follows hlast w
    exact ⟨made, result, b, hdeletes, hmakes, hdeletes.flushesLast⟩

/-- Of three rows to save the second fails. -/
example :
    let row : String → Row := fun label => ⟨label, ⟨0, "Product"⟩, []⟩
    let f : Facade Row Memory := ⟨Memory.engine, ⟨0, "Product"⟩, ⟨"entity", ⟨"Product", "product", [], [], []⟩⟩, []⟩
    let full : Fault := .reported .persistence "disk full"
    let w : World Row Memory := ⟨.ofStem "param", { Memory.ofRows [] with traps := [⟨.persist, 1, full⟩] }, []⟩
    ∃ w', (f.saveMany [row "a", row "b", row "c"]).runIn w = (.error full, w') ∧
      w'.calls = [.persist (row "a"), .persist (row "b")] := ⟨_, rfl, rfl⟩

/-! ## Counters -/

/-- The call that resets the counter of the table. -/
def resetCall (f : Facade ρ σ) : Call ρ := .execute ("ALTER TABLE " ++ f.scope.schema.table ++ " AUTO_INCREMENT = 1")

omit [Record ρ] in
theorem follows_resetIf_true (f : Facade ρ σ) : (f.resetIf true).Follows f.engine [f.resetCall] := by
  have hreset : f.resetIf true = ask f.engine f.resetCall >>= fun _ => pure () := by
    -- the name of the table stands in the middle, so that the text of the number has to be split off
    rw [resetCall, show " AUTO_INCREMENT = 1" = " AUTO_INCREMENT = " ++ toString (1 : UInt64).toNat from rfl,
      ← String.append_assoc]
    rfl
  rw [hreset]
  exact (follows_ask f.engine f.resetCall).bind fun _ => follows_pure f.engine ()

/-- **The counter is reset in front of the flush.** Deleting every entity with a reset plays the script that removes
    the records of the answer, resets the counter and flushes, up to the first failure. So the counter is reset while
    the removals are only scheduled, and a flush is called only after the reset has succeeded: when the flush fails,
    the statement has been executed. -/
theorem deleteAll_resets_before_flush (f : Facade ρ σ) (w : World ρ σ) :
    ∃ made result b, f.Deletes [f.resetCall, .flush] w.engine made result b ∧
      (f.deleteAll true).Makes w made result b ∧
      (Call.flush ∈ made → ∃ before d, made = before ++ [f.resetCall, .flush] ∧ Call.flush ∉ before ∧
        f.engine.Passes w.engine (before ++ [f.resetCall]) d) := by
  have hlast : (f.resetIf true >>= fun _ => f.flush).Follows f.engine ([f.resetCall] ++ [.flush]) :=
    f.follows_resetIf_true.bind fun _ => f.follows_flush
  obtain ⟨made, result, b, hdeletes, hmakes⟩ := deletes_of_follows hlast w
  refine ⟨made, result, b, hdeletes, hmakes, fun hmade => ?_⟩
  obtain ⟨before, d, hbefore, hflush, hpasses⟩ := hdeletes.passes_of_flush (by simp [resetCall]) hmade
  refine ⟨before, d, ?_, hflush, hpasses⟩
  rw [hbefore, List.append_assoc]
  rfl

/-- The flush fails, and the row stays; but the counter of its table has been reset. -/
theorem deleteAll_resets_in_spite_of_failed_flush :
    let f : Facade Row Memory := ⟨Memory.engine, ⟨0, "Product"⟩, ⟨"entity", ⟨"Product", "product", [], [], ["id"]⟩⟩, []⟩
    let bike : Row := ⟨"bike", ⟨0, "Product"⟩, [("id", .integer 1)]⟩
    let full : Fault := .reported .persistence "disk full"
    let w : World Row Memory := ⟨.ofStem "param", { Memory.ofRows [bike] with traps := [⟨.flush, 0, full⟩] }, []⟩
    let run := (f.deleteAll true).runIn w
    run.1 = .error full ∧ run.2.engine.rows = [bike] ∧
      run.2.calls =
        [.results f.everything, .remove bike, .execute "ALTER TABLE product AUTO_INCREMENT = 1", .flush] := by
  decide +kernel

end Facade

end Criteria
