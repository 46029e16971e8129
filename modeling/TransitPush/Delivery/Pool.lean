/-!
# The pool of push workers

Every push runs as a task of its own, but only as many at once as there are workers: a push needs one
of their permits to start. Two counters tell how many pushes wait and how many run. A push goes
through its phases one step at a time, and steps of different pushes may come in any order. What a push
does while it runs, and the gauges that show the counters, are not modelled.

* `Pool.spawn`, `Pool.advance?`: the steps.
* `Pool.inFlight`: the pushes that wait or run, by the counters.
* `Pool.settle`: a run in which each push in turn goes as far as it can.
-/
namespace TransitPush

/-- Where a push is on its way through the pool. It is counted as active before it stops counting as
queued, and gives its permit back after it stopped counting as active. Mirrors `spawn` and the
life of a `WorkerGuard`. -/
inductive Phase where
  | waiting
  | admitted
  | entered
  | running
  | left
  | done
deriving DecidableEq

structure Pool where
  workers : Nat
  permits : Nat
  active : Nat
  queued : Nat
  pushes : List Phase
deriving DecidableEq

namespace Pool

def defaultWorkers : Nat := 50

/-- The pool without pushes. It has at least one worker. -/
def ofWorkers (n : Nat) : Pool :=
  ⟨max n 1, max n 1, 0, 0, []⟩

def spawn (p : Pool) : Pool :=
  { p with queued := p.queued + 1, pushes := p.pushes ++ [.waiting] }

/-- The next step of a push, if it can take one: it waits for nothing but a permit. -/
def advance? (p : Pool) (i : Nat) : Option Pool :=
  let moved (phase : Phase) := p.pushes.set i phase
  match p.pushes[i]? with
  | some .waiting =>
    if p.permits = 0 then none
    else some { p with permits := p.permits - 1, pushes := moved .admitted }
  | some .admitted => some { p with active := p.active + 1, pushes := moved .entered }
  | some .entered => some { p with queued := p.queued - 1, pushes := moved .running }
  | some .running => some { p with active := p.active - 1, pushes := moved .left }
  | some .left => some { p with permits := p.permits + 1, pushes := moved .done }
  | some .done | none => none

/-- Mirrors `in_flight`. -/
def inFlight (p : Pool) : Nat :=
  p.active + p.queued

def finished (p : Pool) : Nat :=
  p.pushes.count .done

/-! ## Runs -/

/-- Several steps of one push, as long as it can take them. -/
def steps (p : Pool) (i : Nat) : Nat → Pool
  | 0 => p
  | n + 1 =>
    match p.advance? i with
    | some p => p.steps i n
    | none => p

def start (p : Pool) (i : Nat) : Pool :=
  if p.pushes[i]? = some .waiting then p.steps i 3 else p

/-- One push goes as far as it can; it ends only if there is a grant for it. -/
def settleOne (p : Pool) (grants : Nat) (i : Nat) : Pool × Nat :=
  let p := p.start i
  if p.pushes[i]? = some .running ∧ grants ≠ 0 then (p.steps i 2, grants - 1) else (p, grants)

/-- Each push in turn goes as far as it can, while at most `grants` of them end. The grants that were
not used are left over. -/
def settle (p : Pool) (grants : Nat) : Pool × Nat :=
  (List.range p.pushes.length).foldl (fun (p, grants) i => p.settleOne grants i) (p, grants)

def drain (p : Pool) : Pool :=
  (p.settle p.inFlight).1

end Pool
end TransitPush
