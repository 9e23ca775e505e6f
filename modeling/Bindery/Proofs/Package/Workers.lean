import Bindery.Package.Workers
import Bindery.Proofs.Package.Passed
import Bindery.Proofs.Package.Reports
import Bindery.Proofs.Run
import Mathlib.Algebra.GroupWithZero.Nat
import Mathlib.Data.List.Perm.Basic
import Mathlib.Order.WellFounded

/-!
Modules that are generated by several workers. Each place of the list stands with one worker or one
collected outcome from the moment when it is taken (`Pool.Sound`), and a step keeps that
(`Pool.Sound.step`). Every step uses up effort, and some worker can act as long as not all have
stopped (`Pool.effort_lt_of_step`, `Pool.exists_step`), so all runs end, with the report that one
worker alone gives (`Package.generateModules_by_workers`).
-/

set_option autoImplicit false
set_option relaxedAutoImplicit false

namespace Bindery

namespace Worker

/-- The place that a worker has taken and not given back with an outcome. -/
def taken : Worker → List (String × Nat)
  | .busy place module => [(module, place)]
  | .holding outcome => [outcome.entry]
  | .free | .stopped => []

/-- The outcome that waits to be collected. -/
def held : Worker → List Outcome
  | .holding outcome => [outcome]
  | .free | .busy _ _ | .stopped => []

/-- The steps up to the end of a worker that takes no other place. -/
def effort : Worker → Nat
  | .free => 1
  | .busy _ _ => 3
  | .holding _ => 2
  | .stopped => 0

variable {α : Type} (f : Worker → List α) (before after : List Worker)

/-- What one worker has stands first, up to the order. -/
theorem perm_flatMap (worker : Worker) :
    ((before ++ worker :: after).flatMap f).Perm (f worker ++ (before ++ after).flatMap f) :=
  List.perm_middle.flatMap_right f

theorem flatMap_congr (worker worker' : Worker) (h : f worker = f worker') :
    (before ++ worker :: after).flatMap f = (before ++ worker' :: after).flatMap f := by
  simp [h]

variable {f before after} {worker worker' : Worker} {a : α} {rest l : List α}

/-- What a worker gets comes in addition, up to the order. -/
theorem perm_of_get (h : f worker' = a :: f worker)
    (hperm : ((before ++ worker :: after).flatMap f ++ rest).Perm l) :
    ((before ++ worker' :: after).flatMap f ++ rest).Perm (l ++ [a]) := by
  have hold := (perm_flatMap f before after worker).append_right rest
  have hnew := (perm_flatMap f before after worker').append_right rest
  rw [h] at hnew
  exact hnew.trans (((hold.symm.trans hperm).cons a).trans (List.perm_append_singleton a l).symm)

/-- What a worker hands over is not lost, up to the order. -/
theorem perm_of_give (h : f worker = a :: f worker')
    (hperm : ((before ++ worker :: after).flatMap f ++ rest).Perm l) :
    ((before ++ worker' :: after).flatMap f ++ (rest ++ [a])).Perm l := by
  have hold := (perm_flatMap f before after worker).append_right rest
  have hnew := (perm_flatMap f before after worker').append_right rest
  rw [h] at hold
  rw [← List.append_assoc]
  exact (List.perm_append_singleton a _).trans ((hnew.cons a).trans (hold.symm.trans hperm))

end Worker

namespace Pool

variable {ends : Ending} {names modules : List String} {jobs : Nat} {session : Session}
  {pool pool' : Pool}

/-! ### What a step keeps -/

/-- Each place below the counter is taken by a worker or has an outcome. -/
structure Sound (names : List String) (pool : Pool) : Prop where
  staffed : pool.workers ≠ []
  calls : pool.calls = names.take pool.next
  taken : (pool.workers.flatMap Worker.taken ++ pool.outcomes.map Outcome.entry).Perm
    (names.zipIdx.take pool.next)
  returned : ((pool.workers.flatMap Worker.held ++ pool.outcomes).map Outcome.returned).Perm
    pool.returns
  stopped : .stopped ∈ pool.workers → names.length ≤ pool.next

theorem sound_start (modules : List String) (jobs : Nat) (session : Session) :
    (start modules jobs session).Sound (addAllNew [] modules) where
  staffed := by
    simp only [start, ne_eq, List.replicate_eq_nil_iff]
    omega
  calls := rfl
  taken := by simp [start, Worker.taken]
  returned := by simp [start, Worker.held]
  stopped := by simp [start, List.mem_replicate]

theorem Sound.step (h : pool.Sound names) (hstep : Step ends names pool pool') :
    pool'.Sound names := by
  obtain ⟨-, hcalls, htaken, hreturned, hstopped⟩ := h
  rw [List.map_append, List.map_flatMap] at hreturned
  -- what the acting worker has is compared before and after the step
  cases hstep with
  | take before after module hworkers hmodule =>
    rw [hworkers] at htaken hreturned hstopped
    have hplace : names.zipIdx[pool.next]? = some (module, pool.next) := by simpa using hmodule
    refine ⟨by simp, ?_, ?_, ?_, fun hmem ↦ ?_⟩
    · rw [List.take_add_one, hmodule, hcalls]
      rfl
    · rw [List.take_add_one, hplace]
      exact Worker.perm_of_get rfl htaken
    · rw [List.map_append, List.map_flatMap]
      rwa [Worker.flatMap_congr _ before after .free (.busy pool.next module) rfl] at hreturned
    · have hlt : pool.next < names.length := (List.getElem?_eq_some_iff.1 hmodule).1
      have hle := hstopped (by simpa using hmem)
      omega
  | stop before after hworkers hnone =>
    have hle : names.length ≤ pool.next := List.getElem?_eq_none_iff.1 hnone
    have hplaces : names.zipIdx.length ≤ pool.next := by simpa using hle
    rw [hworkers] at htaken hreturned
    refine ⟨by simp, ?_, ?_, ?_, fun _ ↦ Nat.le_succ_of_le hle⟩
    · rw [hcalls, List.take_of_length_le hle, List.take_of_length_le (Nat.le_succ_of_le hle)]
    · rw [List.take_of_length_le hplaces,
        Worker.flatMap_congr _ before after .free .stopped rfl] at htaken
      rwa [List.take_of_length_le (Nat.le_succ_of_le hplaces)]
    · rw [List.map_append, List.map_flatMap]
      rwa [Worker.flatMap_congr _ before after .free .stopped rfl] at hreturned
  | finish before after place module result session hworkers hends =>
    rw [hworkers] at htaken hreturned hstopped
    refine ⟨by simp, hcalls, ?_, ?_, fun hmem ↦ hstopped (by simpa using hmem)⟩
    · rwa [Worker.flatMap_congr _ before after (.busy place module)
        (.holding ⟨place, module, result⟩) rfl] at htaken
    · rw [List.map_append, List.map_flatMap]
      exact Worker.perm_of_get rfl hreturned
  | collect before after outcome hworkers =>
    rw [hworkers] at htaken hreturned hstopped
    refine ⟨by simp, hcalls, ?_, ?_, fun hmem ↦ hstopped (by simpa using hmem)⟩
    · rw [List.map_append]
      exact Worker.perm_of_give rfl htaken
    · rw [List.map_append, List.map_flatMap, List.map_append]
      exact Worker.perm_of_give rfl hreturned

/-- Of all places, a pool in which all workers have stopped has one outcome each. -/
theorem Sound.perm_entries (h : pool.Sound names) (hdone : pool.IsDone) :
    pool.calls = names ∧ (pool.outcomes.map Outcome.entry).Perm names.zipIdx ∧
      (pool.outcomes.map Outcome.returned).Perm pool.returns := by
  obtain ⟨worker, hworker⟩ := List.exists_mem_of_ne_nil _ h.staffed
  have hle : names.length ≤ pool.next := h.stopped (hdone worker hworker ▸ hworker)
  have hnone {α : Type} {f : Worker → List α} (hf : f .stopped = []) :
      pool.workers.flatMap f = [] :=
    List.flatMap_eq_nil_iff.2 fun worker hmem ↦ hdone worker hmem ▸ hf
  refine ⟨by rw [h.calls, List.take_of_length_le hle], ?_, ?_⟩
  · have htaken := h.taken
    rwa [hnone rfl, List.nil_append, List.take_of_length_le (by simpa using hle)] at htaken
  · have hreturned := h.returned
    rwa [hnone rfl, List.nil_append] at hreturned

theorem Sound.of_reaches (h : Reaches ends modules jobs session pool) :
    pool.Sound (addAllNew [] modules) := by
  induction h with
  | refl => exact sound_start modules jobs session
  | tail _ hstep ih => exact ih.step hstep

/-! ### The end of a run -/

/-- The steps that the workers can still do. -/
def effort (names : List String) (pool : Pool) : Nat :=
  (pool.workers.map Worker.effort).sum + 3 * (names.length - pool.next)

theorem effort_lt_of_step (hstep : Step ends names pool pool') :
    effort names pool' < effort names pool := by
  cases hstep with
  | take before after module hworkers hmodule =>
    have hlt : pool.next < names.length := (List.getElem?_eq_some_iff.1 hmodule).1
    simp only [effort, hworkers, List.map_append, List.map_cons, List.sum_append, List.sum_cons,
      Worker.effort]
    omega
  | stop before after hworkers | finish before after place module result session hworkers
  | collect before after outcome hworkers =>
    simp only [effort, hworkers, List.map_append, List.map_cons, List.sum_append, List.sum_cons,
      Worker.effort]
    omega

/-- No run goes on for ever. -/
theorem wellFounded_step (ends : Ending) (names : List String) :
    WellFounded fun pool' pool ↦ Step ends names pool pool' :=
  Subrelation.wf effort_lt_of_step (measure (effort names)).wf

/-- When all generations end, some worker can act until all have stopped. -/
theorem exists_step (hends : ∀ s module, ∃ result t, ends s module result t)
    (hdone : ¬pool.IsDone) : ∃ pool', Step ends names pool pool' := by
  obtain ⟨worker, hmem, hstopped⟩ : ∃ worker ∈ pool.workers, worker ≠ .stopped := by
    simpa [IsDone] using hdone
  obtain ⟨before, after, hworkers⟩ := List.append_of_mem hmem
  cases worker with
  | free =>
    cases hmodule : names[pool.next]? with
    | some module => exact ⟨_, .take pool before after module hworkers hmodule⟩
    | none => exact ⟨_, .stop pool before after hworkers hmodule⟩
  | busy place module =>
    obtain ⟨result, t, hend⟩ := hends pool.session module
    exact ⟨_, .finish pool before after place module result t hworkers hend⟩
  | holding outcome => exact ⟨_, .collect pool before after outcome hworkers⟩
  | stopped => exact (hstopped rfl).elim

theorem exists_isDone (hends : ∀ s module, ∃ result t, ends s module result t) (pool : Pool) :
    ∃ done, Relation.ReflTransGen (Step ends names) pool done ∧ done.IsDone := by
  induction pool using (wellFounded_step ends names).induction with
  | _ pool ih =>
    by_cases hdone : pool.IsDone
    · exact ⟨pool, .refl, hdone⟩
    · obtain ⟨pool', hstep⟩ := @exists_step ends names pool hends hdone
      obtain ⟨done, hsteps, hdone'⟩ := ih pool' hstep
      exact ⟨done, .head hstep hsteps, hdone'⟩

/-! ### One worker alone -/

/-- Free workers stop when no place is left. -/
theorem exists_stopped {before : List Worker} {n : Nat}
    (hworkers : pool.workers = before ++ List.replicate n .free)
    (hbefore : ∀ worker ∈ before, worker = .stopped) (hle : names.length ≤ pool.next) :
    ∃ done, Relation.ReflTransGen (Step ends names) pool done ∧ done.IsDone ∧
      done.outcomes = pool.outcomes ∧ done.session = pool.session := by
  induction n generalizing pool before with
  | zero =>
    refine ⟨pool, .refl, fun worker hmem ↦ hbefore worker ?_, rfl, rfl⟩
    simpa [hworkers] using hmem
  | succ n ih =>
    rw [List.replicate_succ] at hworkers
    have hstep : Step ends names pool _ :=
      .stop pool before _ hworkers (List.getElem?_eq_none_iff.2 hle)
    have hstopped : ∀ worker ∈ before ++ [.stopped], worker = Worker.stopped := fun worker hmem ↦
      (List.mem_append.1 hmem).elim (hbefore worker) List.mem_singleton.1
    obtain ⟨done, hsteps, hdone⟩ := @ih
      { pool with workers := before ++ .stopped :: List.replicate n .free, next := pool.next + 1 }
      (before ++ [.stopped]) (by simp) hstopped (Nat.le_succ_of_le hle)
    exact ⟨done, .head hstep hsteps, hdone⟩

/-- The first worker generates the next module. -/
theorem steps_generate {package : Package} {others : List Worker} {module : String}
    {result : Except Error Unit} {t : Session} (hworkers : pool.workers = .free :: others)
    (hmodule : names[pool.next]? = some module)
    (hgenerate : (package.generate module).run pool.session = (result, t)) :
    Relation.ReflTransGen (Step package.ending names) pool
      { workers := .free :: others
        next := pool.next + 1
        calls := pool.calls ++ [module]
        returns := pool.returns ++ [(module, result)]
        outcomes := pool.outcomes ++ [⟨pool.next, module, result⟩]
        session := t } :=
  .head (.take pool [] others module hworkers hmodule) <|
    .head (.finish _ [] others pool.next module result t rfl hgenerate) <|
      .single (.collect _ [] others _ rfl)

theorem run_generateAt {package : Package} {module : String} {place : Nat} {s t : Session}
    {result : Except Error Unit} (h : (package.generate module).run s = (result, t)) :
    (package.generateAt (module, place)).run s = (⟨place, module, result⟩, t) := by
  rw [Package.generateAt, StateT.run_bind]
  change (match (package.generate module).run s with
    | (r, u) => (pure ⟨place, module, r⟩ : StateM Session Outcome).run u) = _
  rw [h]
  rfl

/-- A worker that acts alone generates the modules that are left one after the other. -/
theorem exists_generated (package : Package) {rest : List String} {others : List Worker}
    (hworkers : pool.workers = .free :: others) (hrest : names.drop pool.next = rest) :
    ∃ pool' outcomes, Relation.ReflTransGen (Step package.ending names) pool pool' ∧
      pool'.workers = .free :: others ∧ names.length ≤ pool'.next ∧
      pool'.outcomes = pool.outcomes ++ outcomes ∧
      ((rest.zipIdx pool.next).mapM package.generateAt).run pool.session =
        (outcomes, pool'.session) := by
  induction rest generalizing pool with
  | nil => exact ⟨pool, [], .refl, hworkers, List.drop_eq_nil_iff.1 hrest, by simp, rfl⟩
  | cons module rest ih =>
    have hmodule : names[pool.next]? = some module := by
      have hhead := congrArg (·[0]?) hrest
      simpa using hhead
    rcases hgenerate : (package.generate module).run pool.session with ⟨result, t⟩
    have hfirst := steps_generate hworkers hmodule hgenerate
    have hdrop : names.drop (pool.next + 1) = rest := by
      rw [← List.drop_drop, hrest, List.drop_one, List.tail_cons]
    obtain ⟨pool', outcomes, hsteps, hworkers', hle, houtcomes, hrun⟩ :=
      @ih ⟨_, _, _, _, _, _⟩ rfl hdrop
    refine ⟨pool', ⟨pool.next, module, result⟩ :: outcomes, hfirst.trans hsteps, hworkers', hle,
      by simpa using houtcomes, ?_⟩
    rw [List.zipIdx_cons, List.mapM_cons, StateT.run_bind, run_generateAt hgenerate]
    exact congrArg (fun r ↦ (⟨pool.next, module, result⟩ :: r.1, r.2)) hrun

/-- Workers can give the report and the session that come from generating one module after the
other. -/
theorem exists_reaches_run (package : Package) (modules : List String) (jobs : Nat)
    (session : Session) : ∃ pool, Reaches package.ending modules jobs session pool ∧ pool.IsDone ∧
      (package.generateModules modules).run session = (pool.report, pool.session) := by
  obtain ⟨n, hn⟩ : ∃ n, min (max jobs 1) (max (addAllNew [] modules).length 1) = n + 1 :=
    Nat.exists_eq_add_of_le' (by omega)
  have hworkers : (start modules jobs session).workers = .free :: List.replicate n .free := by
    rw [start, hn, List.replicate_succ]
  obtain ⟨pool, outcomes, hsteps, hworkers', hle, houtcomes, hrun⟩ :=
    exists_generated package hworkers rfl
  have hfree : pool.workers = [] ++ List.replicate (n + 1) .free := by
    rw [hworkers', List.replicate_succ, List.nil_append]
  obtain ⟨done, hstops, hdone, hsame, hsession⟩ := exists_stopped hfree (by simp) hle
  refine ⟨done, hsteps.trans hstops, hdone, ?_⟩
  rw [report, hsame, houtcomes, hsession]
  exact congrArg (fun r ↦ (GenerationReport.ofOutcomes r.1, r.2)) hrun

end Pool

namespace Package

/-- Some modules are generated by workers, whose number and whose turns are open. When all workers
have stopped, each module has been generated once, and the report tells once what came of it, in
the order of first requests and whatever the order of collection was. All runs come to that when
generations end, and what one module after the other gives is the end of such a run. -/
theorem generateModules_by_workers (package : Package) (modules : List String) (jobs : Nat)
    (session : Session) :
    (∀ ends pool, Pool.Reaches ends modules jobs session pool → pool.IsDone →
      (∀ module, pool.calls.count module = if module ∈ modules then 1 else 0) ∧
      (∀ module, (pool.returns.map Prod.fst).count module = if module ∈ modules then 1 else 0) ∧
      pool.report.Tells modules pool.returns ∧
      (∀ outcomes, outcomes.Perm pool.outcomes →
        GenerationReport.ofOutcomes outcomes = pool.report) ∧
      ∀ ends' jobs' session' pool', Pool.Reaches ends' modules jobs' session' pool' →
        pool'.IsDone → (∀ r, r ∈ pool'.returns ↔ r ∈ pool.returns) → pool'.report = pool.report) ∧
    (∀ ends, (∀ s module, ∃ result t, ends s module result t) →
      WellFounded (fun pool' pool ↦ Pool.Step ends (addAllNew [] modules) pool pool') ∧
      ∀ pool, Pool.Reaches ends modules jobs session pool →
        ∃ done, Relation.ReflTransGen (Pool.Step ends (addAllNew [] modules)) pool done ∧
          done.IsDone) ∧
    ∃ pool, Pool.Reaches package.ending modules jobs session pool ∧ pool.IsDone ∧
      (package.generateModules modules).run session = (pool.report, pool.session) := by
  refine ⟨fun ends pool hreaches hdone ↦ ?_, fun ends hends ↦ ?_,
    Pool.exists_reaches_run package modules jobs session⟩
  · have hcount {l : List String} (hl : l.Perm (addAllNew [] modules)) (module : String) :
        l.count module = if module ∈ modules then 1 else 0 := by
      rw [hl.count_eq, (nodup_addAllNew List.nodup_nil modules).count]
      simp [mem_addAllNew]
    have htells {ends jobs session pool} (hreaches : Pool.Reaches ends modules jobs session pool)
        (hdone : pool.IsDone) : pool.report.Tells modules pool.returns := by
      obtain ⟨-, hentries, hreturns⟩ := (Pool.Sound.of_reaches hreaches).perm_entries hdone
      exact (GenerationReport.tells_ofOutcomes hentries).of_returns fun r ↦ hreturns.mem_iff
    obtain ⟨hcalls, hentries, hreturns⟩ := (Pool.Sound.of_reaches hreaches).perm_entries hdone
    refine ⟨hcount (.of_eq hcalls), hcount ?_, htells hreaches hdone, fun outcomes hperm ↦ ?_,
      fun ends' jobs' session' pool' hreaches' hdone' hsame ↦
        (htells hreaches' hdone').unique (htells hreaches hdone) hsame⟩
    · have hnames := hentries.map Prod.fst
      rw [List.map_map, List.zipIdx_map_fst] at hnames
      have hmodules := hreturns.map Prod.fst
      rw [List.map_map] at hmodules
      exact hmodules.symm.trans hnames
    · exact (GenerationReport.tells_ofOutcomes ((hperm.map _).trans hentries)).unique
        (GenerationReport.tells_ofOutcomes hentries) fun r ↦ (hperm.map _).mem_iff
  · exact ⟨Pool.wellFounded_step ends _, fun pool _ ↦ Pool.exists_isDone hends pool⟩

namespace Drawing

open Pool

def ringsFault : Error := .config (.unknownModule "Rings" "Drawing")

/-- The session after the shapes have been generated. -/
def drawn : Session := ((drawing.generate "Shapes").run {}).2

theorem generate_rings : (drawing.generate "Rings").run {} = (.error ringsFault, {}) := by
  have hrings : drawing.policy "Rings" = .error ringsFault := by
    have hnone : drawing.policies.find? (·.moduleName == "Rings") = none := by decide
    rw [policy, hnone]
    rfl
  have hrule : (drawing.writeRule "Rings").run {} = (.error ringsFault, {}) := by
    rw [writeRule, hrings]
    rfl
  exact Run.run_bind_of_error hrule _

theorem generate_shapes : (drawing.generate "Shapes").run {} = (.ok (), drawn) := by
  have hok : ((drawing.generate "Shapes").run {}).1.toOption = some () := by decide +kernel
  rw [drawn]
  exact Run.run_eq_of_toOption hok

-- the session is not worked out where pools are compared
attribute [irreducible] drawn

theorem addAllNew_shapes : addAllNew [] ["Shapes", "Rings", "Shapes"] = ["Shapes", "Rings"] := by
  decide +kernel

/-- The second worker was the first to end, with a module that is not there. -/
def drawnPool : Pool where
  workers := [.stopped, .stopped]
  next := 4
  calls := ["Shapes", "Rings"]
  returns := [("Rings", .error ringsFault), ("Shapes", .ok ())]
  outcomes := [⟨1, "Rings", .error ringsFault⟩, ⟨0, "Shapes", .ok ()⟩]
  session := drawn

theorem reaches_drawnPool :
    Pool.Reaches drawing.ending ["Shapes", "Rings", "Shapes"] 2 {} drawnPool := by
  have hstart : start ["Shapes", "Rings", "Shapes"] 2 {} =
      { workers := [.free, .free], session := {} } := by
    rw [start, addAllNew_shapes]
    rfl
  rw [Pool.Reaches, hstart, addAllNew_shapes]
  refine .head (.take _ [] [.free] "Shapes" rfl rfl) ?_
  refine .head (.take _ [.busy 0 "Shapes"] [] "Rings" rfl rfl) ?_
  refine .head (.finish _ [.busy 0 "Shapes"] [] 1 "Rings" _ _ rfl generate_rings) ?_
  refine .head (.collect _ [.busy 0 "Shapes"] [] _ rfl) ?_
  refine .head (.stop _ [.busy 0 "Shapes"] [] rfl rfl) ?_
  refine .head (.finish _ [] [.stopped] 0 "Shapes" _ _ rfl generate_shapes) ?_
  refine .head (.collect _ [] [.stopped] _ rfl) ?_
  exact .single (.stop _ [] [.stopped] rfl rfl)

theorem isDone_drawnPool : drawnPool.IsDone := by simp [IsDone, drawnPool]

end Drawing

open Drawing in
/-- Of shapes that are asked for twice and rings that are not there, each is generated once. The
report has the shapes first, though the rings were collected before them. -/
theorem generate_shapes_and_rings :
    Pool.Reaches drawing.ending ["Shapes", "Rings", "Shapes"] 2 {} drawnPool ∧
      drawnPool.IsDone ∧
      (∀ module, drawnPool.calls.count module =
        if module ∈ ["Shapes", "Rings", "Shapes"] then 1 else 0) ∧
      drawnPool.report.Tells ["Shapes", "Rings", "Shapes"] drawnPool.returns ∧
      GenerationReport.ofOutcomes drawnPool.outcomes.reverse = drawnPool.report ∧
      (∀ s module, ∃ result t, drawing.ending s module result t) ∧
      ∃ done, Relation.ReflTransGen (Pool.Step drawing.ending ["Shapes", "Rings"]) drawnPool done ∧
        done.IsDone := by
  obtain ⟨hall, hends, -⟩ :=
    drawing.generateModules_by_workers ["Shapes", "Rings", "Shapes"] 2 {}
  have htotal : ∀ s module, ∃ result t, drawing.ending s module result t :=
    fun s module ↦ ⟨_, _, rfl⟩
  obtain ⟨hcalls, -, htells, hperm, -⟩ := hall _ _ reaches_drawnPool isDone_drawnPool
  exact ⟨reaches_drawnPool, isDone_drawnPool, hcalls, htells,
    hperm _ (List.reverse_perm _), htotal, (hends _ htotal).2 _ reaches_drawnPool⟩

end Package

end Bindery
