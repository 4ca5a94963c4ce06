import HildonThumbnail.Lib.Run
import HildonThumbnail.Thumbnailer.Work

/-! The main thread and the workers of the thumbnailer, interleaved at the
sections under `priv->mutex` (`thumbnailer_queue`, `thumbnailer_unqueue`,
`thumbnailer_crash_out` and `do_the_work` in daemon/thumbnailer.c). -/

namespace HildonThumbnail

inductive Pool
  | normal
  | large
deriving DecidableEq

def Pool.maxThreads : Pool → Nat
  | .normal => 2
  | .large => 1

/-- Where the worker of a task is. Past the removal from the list it still has
to emit `rest`. -/
inductive WorkerPc
  | pushed
  | started
  | working (rest : List Signal)
  | done
deriving DecidableEq

def WorkerPc.running : WorkerPc → Bool
  | .started | .working _ => true
  | .pushed | .done => false

structure PoolTask where
  task : WorkTask
  pool : Pool
  pc : WorkerPc

/-- What the daemon puts on the bus, in the order of sending. A signal carries
the task whose emission it is, for the statements only. -/
inductive Message
  | signal (task : Nat) (signal : Signal)
  | methodReturn (context : Nat) (num : UInt32)
  | methodError (context : Nat) (message : String)
deriving DecidableEq

/-- `tasks` is `priv->tasks`; `num` is the static counter of handles;
`returning` is the call whose task is pushed and whose reply is not sent. -/
structure Thumbnailer where
  num : UInt32
  tasks : List Nat
  memory : KeyTable Nat PoolTask
  pushed : Nat
  returning : Option (Nat × UInt32)
  sent : List Message

def thumbnailerInit : Thumbnailer := ⟨0, [], ∅, 0, none, []⟩

inductive Action
  | queue (context : Nat) (urls : Option (List String)) (mimeHints : Option (List String))
      (handleToUnqueue : UInt32)
  | methodReturn
  | unqueue (handle : UInt32)
  | crashOut
  | worker (t : Nat)
deriving DecidableEq

def markUnqueued (handle : UInt32) (task : WorkTask) : WorkTask :=
  if task.num = handle then { task with unqueued := true, unqueued_of_dead := fun _ => rfl } else task

def crashQueued (task : WorkTask) : WorkTask :=
  { task with unqueued := true, dead := true, unqueued_of_dead := fun _ => rfl }

def Thumbnailer.foreachTask (s : Thumbnailer) (f : WorkTask → WorkTask) : Thumbnailer :=
  { s with memory := s.memory.mapValues fun t e => if t ∈ s.tasks then { e with task := f e.task } else e }

def Thumbnailer.num? (s : Thumbnailer) (t : Nat) : Option UInt32 := (s.memory.lookup t).map (·.task.num)

def thumbnailerUnqueue (s : Thumbnailer) (handle : UInt32) : Thumbnailer :=
  s.foreachTask (markUnqueued handle)

/-- `crash_queued` emits as it marks. -/
def thumbnailerCrashOut (s : Thumbnailer) : Thumbnailer :=
  { s.foreachTask crashQueued with
    sent := s.sent ++ s.tasks.filterMap fun t => (s.num? t).map fun num => .signal t (.finished num) }

/-- `thumbnailer_queue` up to its unlocking of the mutex. -/
def thumbnailerQueue (s : Thumbnailer) (context : Nat) (urls mimeHints : Option (List String))
    (handleToUnqueue : UInt32) : Thumbnailer :=
  match urls with
  | none => { s with sent := s.sent ++ [.methodError context "Assertion `urls != NULL' failed"] }
  | some urls =>
    let num := s.num + 1
    let task := WorkTask.new urls mimeHints num
    let pool := if urls.length > 50 then .large else .normal
    let marked := s.foreachTask (markUnqueued handleToUnqueue)
    { marked with
      num := num
      tasks := s.pushed :: s.tasks
      memory := marked.memory.insert s.pushed ⟨task, pool, .pushed⟩
      pushed := s.pushed + 1
      returning := some (context, num) }

/-- One section of `do_the_work`, and what it emits. -/
def doTheWorkStep (env : WorkEnv) (e : PoolTask) : Option (PoolTask × List Signal) :=
  match e.pc with
  | .pushed => some ({ e with pc := .started }, [.started e.task.num])
  | .started => some ({ e with pc := .working (if e.task.unqueued then [] else workBody env e.task) }, [])
  | .working (x :: rest) => some ({ e with pc := .working rest }, [x])
  | .working [] => some ({ e with pc := .done }, if e.task.dead then [] else [.finished e.task.num])
  | .done => none

/-- A pushed task gets a worker when its pool has a thread for it. -/
def Thumbnailer.hasThread (s : Thumbnailer) (e : PoolTask) : Bool :=
  e.pc ≠ .pushed ||
    s.memory.tally (fun o => if o.pool = e.pool && o.pc.running then 1 else 0) < e.pool.maxThreads

def Thumbnailer.worker (env : Nat → WorkEnv) (s : Thumbnailer) (t : Nat) : Option Thumbnailer :=
  match s.memory.lookup t with
  | none => none
  | some e =>
    if s.hasThread e then
      (doTheWorkStep (env t) e).map fun r =>
        { s with
          tasks := if e.pc = .started then s.tasks.erase t else s.tasks
          memory := s.memory.insert t r.1
          sent := s.sent ++ r.2.map (.signal t) }
    else none

/-- The main thread takes no other call before it has replied. -/
def Thumbnailer.step (env : Nat → WorkEnv) (s : Thumbnailer) : Action → Option Thumbnailer
  | .queue context urls mimeHints handle =>
    if s.returning = none then some (thumbnailerQueue s context urls mimeHints handle) else none
  | .methodReturn =>
    s.returning.map fun r => { s with returning := none, sent := s.sent ++ [.methodReturn r.1 r.2] }
  | .unqueue handle => if s.returning = none then some (thumbnailerUnqueue s handle) else none
  | .crashOut => if s.returning = none then some (thumbnailerCrashOut s) else none
  | .worker t => s.worker env t

def Action.names : Action → Option UInt32
  | .queue _ (some _) _ handle => some handle
  | .unqueue handle => some handle
  | .queue _ none _ _ | .methodReturn | .crashOut | .worker _ => none

def Message.emission (t : Nat) : Message → Option Signal
  | .signal t' x => if t' = t then some x else none
  | .methodReturn _ _ | .methodError _ _ => none

def Thumbnailer.emissions (s : Thumbnailer) (t : Nat) : List Signal := s.sent.filterMap (Message.emission t)

end HildonThumbnail
