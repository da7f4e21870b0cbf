import ClusterFleet.World

namespace ClusterFleet

/-- What a task does: it may change the world as it begins, and then runs a program. -/
abbrev Work (α : Type) := World → Program α × World

namespace Work

def change (f : World → α × World) : Work α := fun w =>
  let (a, w) := f w
  (.done a, w)

def program (p : Program α) : Work α := fun w => (p, w)

def run (work : Work α) (w : World) : Option α × World :=
  let (p, w) := work w
  p.run w

end Work

inductive Progress (α : Type) where
  | unstarted (work : Work α)
  /-- Goes on at a time. An action that has begun takes place under the faults it began with. -/
  | due (time : Nat) (begun : Option Faults) (rest : Program α)
  /-- Goes on when it is its turn. -/
  | waiting (rest : Program α)
  /-- With the world as it was then. -/
  | finished (time : Nat) (result : α) (world : World)
  | crashed

structure PoolTask (α : Type) where
  start : Nat
  progress : Progress α

/-- Tasks that run at the same time. Each one goes on until it has to let time pass or to wait for
its turn; then the one that is due first goes on. -/
structure Pool (α : Type) where
  world : World
  time : Nat := 0
  tasks : List (PoolTask α)

namespace Pool

/-- Runs a program until it pauses, is done, or crashes. -/
def advance (task time : Nat) (begun : Option Faults) : Program α → World → Progress α × World
  | .done a, w => (.finished time a w, w)
  | .crash, w => (.crashed, w)
  | .call (.sleep ms) next, w => (.due (time + ms) none (next ()), w)
  | .call act next, w =>
    if begun.isNone && w.latency act ≠ 0 then
      (.due (time + w.latency act) (some w.faults) (.call act next), w)
    else
      match w.stepUnder (begun.getD w.faults) task act with
      | (some r, w) => advance task time none (next r) w
      | (none, w) => (.waiting (.call act next), w)

/-- When a task can go on: one that waits does so as soon as it holds the turn. -/
def wakeTime? (p : Pool α) (task : Nat) (t : PoolTask α) : Option Nat :=
  match t.progress with
  | .unstarted _ => some t.start
  | .due time _ _ => some time
  | .waiting _ => if p.world.turn.holder = some task then some p.time else none
  | _ => none

/-- The task that can go on first, and when; of several the one that stands first. -/
def next? (p : Pool α) : Option (Nat × Nat) :=
  p.tasks.zipIdx.foldl (fun best (t, i) =>
    match p.wakeTime? i t, best with
    | some time, none => some (time, i)
    | some time, some (time', j) => if time < time' then some (time, i) else some (time', j)
    | none, best => best) none

def resume (task time : Nat) (progress : Progress α) (w : World) : Progress α × World :=
  match progress with
  | .unstarted work => let (p, w) := work w; advance task time none p w
  | .due _ begun rest => advance task time begun rest w
  | .waiting rest => advance task time none rest w
  | done => (done, w)

def goOn (p : Pool α) (time task : Nat) : Pool α :=
  match p.tasks[task]? with
  | none => p
  | some t =>
    let (progress, world) := resume task time t.progress p.world
    { world, time, tasks := p.tasks.set task { t with progress } }

def runFor : Nat → Pool α → Pool α
  | 0, p => p
  | fuel + 1, p =>
    match p.next? with
    | none => p
    | some (time, task) => runFor fuel (p.goOn time task)

/-- More pauses than the tasks of a pool make. -/
def patience : Nat := 1000000

def run (p : Pool α) : Pool α := runFor patience p

def ofWork (world : World) (work : List (Nat × Work α)) : Pool α where
  world := world
  tasks := work.map fun (start, w) => ⟨start, .unstarted w⟩

structure TaskResult (α : Type) where
  result : α
  /-- How many milliseconds it took. -/
  took : Nat
  world : World

def results? (p : Pool α) : Option (List (TaskResult α)) :=
  p.tasks.mapM fun t =>
    match t.progress with
    | .finished time a w => some ⟨a, time - t.start, w⟩
    | _ => none

end Pool
end ClusterFleet
