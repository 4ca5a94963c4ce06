import HildonThumbnail.Albumart.Path
import HildonThumbnail.Lib.KeyTable
import HildonThumbnail.Lib.Run

/-! The main thread and the worker of the album art service, interleaved at the
sections under `priv->mutex` (`albumart_queue`, `albumart_unqueue` and
`do_the_work` in daemon/albumart.c). -/

namespace HildonThumbnail

inductive AlbumartSignal
  | started (num : UInt32)
  | finished (num : UInt32)
  | error (num : UInt32) (code : Int) (message : String)
  | ready (artist album kind path : Option String)
deriving DecidableEq

inductive AlbumartMessage
  | signal (signal : AlbumartSignal)
  | methodReturn (context : Nat) (num : UInt32)
deriving DecidableEq

def AlbumartSignal.finishes : AlbumartSignal → Option UInt32
  | .finished num => some num
  | .started _ | .error _ _ _ | .ready _ _ _ _ => none

def AlbumartMessage.finishes : AlbumartMessage → Option UInt32
  | .signal x => x.finishes
  | .methodReturn _ _ => none

def AlbumartMessage.returns : AlbumartMessage → Option UInt32
  | .signal _ => none
  | .methodReturn _ num => some num

/-- What a worker meets: the test for the file, and for each handler the error
of its Fetch, if there is one. -/
structure AlbumartWorkEnv where
  albumart : AlbumartEnv
  fileTest : Option String → Bool
  fetches : List (Option String)

/-- `fetching` keeps the handlers that have not been asked. -/
inductive AlbumartPc
  | pushed
  | started
  | fetching (rest : List (Option String))
  | done
deriving DecidableEq

structure AlbumartPoolTask where
  num : UInt32
  task : AlbumartTask
  unqueued : Bool
  pc : AlbumartPc

/-- `tasks` is `priv->tasks`, `num` the static counter of handles; `returning` is
the call whose task is pushed and whose reply is not sent. -/
structure Albumart where
  num : UInt32
  tasks : List Nat
  memory : KeyTable Nat AlbumartPoolTask
  pushed : Nat
  returning : Option (Nat × UInt32)
  sent : List AlbumartMessage

def albumartInit : Albumart := ⟨0, [], ∅, 0, none, []⟩

inductive AlbumartAction
  | queue (context : Nat) (artistOrTitle album kind : String) (handleToUnqueue : UInt32)
  | methodReturn
  | unqueue (handle : UInt32)
  | worker (t : Nat)
deriving DecidableEq

namespace Albumart

def foreachTask (s : Albumart) (f : AlbumartPoolTask → AlbumartPoolTask) : Albumart :=
  { s with memory := s.memory.mapValues fun t e => if t ∈ s.tasks then f e else e }

def markUnqueued (handle : UInt32) (e : AlbumartPoolTask) : AlbumartPoolTask :=
  if e.num = handle then { e with unqueued := true } else e

def unqueue (s : Albumart) (handle : UInt32) : Albumart := s.foreachTask (markUnqueued handle)

/-- What `albumart_queue` does under the mutex. -/
def push (s : Albumart) (task : AlbumartTask) (handleToUnqueue : UInt32) : Albumart :=
  let num := s.num + 1
  let marked := s.foreachTask (markUnqueued handleToUnqueue)
  { marked with
    num := num
    tasks := s.pushed :: s.tasks
    memory := marked.memory.insert s.pushed ⟨num, task, false, .pushed⟩
    pushed := s.pushed + 1 }

/-- `albumart_queue` up to its unlocking of the mutex. -/
def queue (s : Albumart) (context : Nat) (artistOrTitle album kind : String)
    (handleToUnqueue : UInt32) : Albumart :=
  let num := s.num + 1
  match albumartQueue (some artistOrTitle) (some album) (some kind) with
  | none => { s with num := num, sent := s.sent ++ [.methodReturn context num] }
  | some task => { s.push task handleToUnqueue with returning := some (context, num) }

def path (env : AlbumartWorkEnv) (task : AlbumartTask) : Option String :=
  hildonThumbnailUtilGetAlbumartPath env.albumart task.artist task.album task.kind

/-- One section of `do_the_work`, and what it emits. -/
def doTheWorkStep (env : AlbumartWorkEnv) (e : AlbumartPoolTask) :
    Option (AlbumartPoolTask × List AlbumartSignal) :=
  match e.pc with
  | .pushed => some ({ e with pc := .started }, [.started e.num])
  | .started =>
    let rest := if e.unqueued || env.fileTest (path env e.task) then [] else env.fetches
    some ({ e with pc := .fetching rest }, [])
  | .fetching (some message :: rest) => some ({ e with pc := .fetching rest }, [.error e.num 1 message])
  | .fetching (none :: _) =>
    some ({ e with pc := .fetching [] }, [.ready e.task.artist e.task.album e.task.kind (path env e.task)])
  | .fetching [] => some ({ e with pc := .done }, [.finished e.num])
  | .done => none

/-- The pool has one thread. -/
def hasThread (s : Albumart) (e : AlbumartPoolTask) : Bool :=
  e.pc ≠ .pushed || s.memory.tally (fun o => if o.pc = .pushed ∨ o.pc = .done then 0 else 1) = 0

def worker (env : Nat → AlbumartWorkEnv) (s : Albumart) (t : Nat) : Option Albumart :=
  match s.memory.lookup t with
  | none => none
  | some e =>
    if s.hasThread e then
      (doTheWorkStep (env t) e).map fun r =>
        { s with
          tasks := if e.pc = .started then s.tasks.erase t else s.tasks
          memory := s.memory.insert t r.1
          sent := s.sent ++ r.2.map .signal }
    else none

/-- The main thread takes no other call before it has replied. -/
def step (env : Nat → AlbumartWorkEnv) (s : Albumart) : AlbumartAction → Option Albumart
  | .queue context artistOrTitle album kind handle =>
    if s.returning = none then some (s.queue context artistOrTitle album kind handle) else none
  | .methodReturn =>
    s.returning.map fun r => { s with returning := none, sent := s.sent ++ [.methodReturn r.1 r.2] }
  | .unqueue handle => if s.returning = none then some (s.unqueue handle) else none
  | .worker t => s.worker env t

def Drained (s : Albumart) : Prop := ∀ t e, s.memory.lookup t = some e → e.pc = .done

/-- The handles that callers get, the one of the call under way included. -/
def returned (s : Albumart) : List UInt32 :=
  s.sent.filterMap AlbumartMessage.returns ++ (s.returning.map Prod.snd).toList

def finished (s : Albumart) : List UInt32 := s.sent.filterMap AlbumartMessage.finishes

end Albumart

def AlbumartAction.nameless : AlbumartAction → Bool
  | .queue _ artistOrTitle album _ _ => artistOrTitle = "" && album = ""
  | .methodReturn | .unqueue _ | .worker _ => false

end HildonThumbnail
