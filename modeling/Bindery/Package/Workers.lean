import Bindery.Package.Generation
import Mathlib.Logic.Relation

/-!
Generation of modules by several workers. The modules stand in one list, and all workers take their
places from one counter. A worker that has taken a place generates the module there, puts the
outcome with those that are collected already, and goes on; when no place is left it stops. Which
worker acts next is open, and so is what a generation does to a session that others change too.
-/

set_option autoImplicit false
set_option relaxedAutoImplicit false

namespace Bindery

/-- What a worker is doing. -/
inductive Worker where
  | free
  | busy (place : Nat) (module : String)
  /-- The module is generated, and its outcome not collected yet. -/
  | holding (outcome : Outcome)
  | stopped

/-- Workers that generate modules together. Calls and returns are in the order in which generations
started and ended, and outcomes in the order in which they were collected. -/
structure Pool where
  workers : List Worker
  next : Nat := 0
  calls : List String := []
  returns : List (String × Except Error Unit) := []
  outcomes : List Outcome := []
  session : Session

/-- The ways in which the generation of a module can end: from the session that is there at the end
of it, with a result, and with the session that it leaves. -/
abbrev Ending := Session → String → Except Error Unit → Session → Prop

namespace Pool

/-- There is a worker at least, and no more than there are modules to generate. -/
def start (modules : List String) (jobs : Nat) (session : Session) : Pool where
  workers := List.replicate (min (max jobs 1) (max (addAllNew [] modules).length 1)) .free
  session

/-- What one worker can do next, with the modules of the list. -/
inductive Step (ends : Ending) (modules : List String) : Pool → Pool → Prop where
  | take (pool : Pool) (before after : List Worker) (module : String)
      (hworkers : pool.workers = before ++ .free :: after)
      (hmodule : modules[pool.next]? = some module) :
      Step ends modules pool
        { pool with
          workers := before ++ .busy pool.next module :: after
          next := pool.next + 1
          calls := pool.calls ++ [module] }
  | stop (pool : Pool) (before after : List Worker)
      (hworkers : pool.workers = before ++ .free :: after)
      (hnone : modules[pool.next]? = none) :
      Step ends modules pool
        { pool with workers := before ++ .stopped :: after, next := pool.next + 1 }
  | finish (pool : Pool) (before after : List Worker) (place : Nat) (module : String)
      (result : Except Error Unit) (session : Session)
      (hworkers : pool.workers = before ++ .busy place module :: after)
      (hends : ends pool.session module result session) :
      Step ends modules pool
        { pool with
          workers := before ++ .holding ⟨place, module, result⟩ :: after
          returns := pool.returns ++ [(module, result)]
          session }
  | collect (pool : Pool) (before after : List Worker) (outcome : Outcome)
      (hworkers : pool.workers = before ++ .holding outcome :: after) :
      Step ends modules pool
        { pool with
          workers := before ++ .free :: after
          outcomes := pool.outcomes ++ [outcome] }

/-- What some jobs can lead to when they are asked for modules. -/
def Reaches (ends : Ending) (modules : List String) (jobs : Nat) (session : Session) :
    Pool → Prop :=
  Relation.ReflTransGen (Step ends (addAllNew [] modules)) (start modules jobs session)

def IsDone (pool : Pool) : Prop := ∀ worker ∈ pool.workers, worker = .stopped

/-- The report of what has been collected. -/
def report (pool : Pool) : GenerationReport := .ofOutcomes pool.outcomes

end Pool

/-- Generations of a package that do not overlap. -/
def Package.ending (package : Package) : Ending := fun s module result t ↦
  (package.generate module).run s = (result, t)

end Bindery
