import HildonThumbnail.Thumbnailer.TaskList
import HildonThumbnail.Thumbs.Steps

/-! The thumbnailer and one client of the request API on a bus that delivers
in the order of sending. Each side's log is read through a position. -/

namespace HildonThumbnail

structure System where
  daemon : Thumbnailer
  client : Client
  taken : Nat
  delivered : Nat

def systemInit : System := ⟨thumbnailerInit, clientInit, 0, 0⟩

/-- `refuse` is a call that the bus never hands over. `callError` is the reply
that the bus makes up for a Queue call, because of that or of a timeout, and
`unqueueError` the one for an Unqueue call, which the daemon never answers.
An error leaves `handle` as it was in memory. -/
inductive Move
  | op (op : Op)
  | idle (r : Nat) (ops : List Op)
  | takeCall
  | refuse
  | methodReturn
  | worker (t : Nat)
  | deliver (handle : UInt32) (ops : List Op)
  | callError (r : Nat) (handle : UInt32) (message : String)
  | unqueueError (r : Nat)

namespace System

/-- The calls are handled by the main thread, one after another. -/
def takeCall (env : Nat → WorkEnv) (s : System) : Option System :=
  match s.client.calls[s.taken]? with
  | none => none
  | some (.queue context urls mimeHints handle) =>
    (s.daemon.step env (.queue context (some urls) mimeHints handle)).map fun d =>
      { s with daemon := d, taken := s.taken + 1 }
  | some (.unqueue handle) =>
    (s.daemon.step env (.unqueue handle)).map fun d => { s with daemon := d, taken := s.taken + 1 }

/-- The reply to a call that has been answered by the bus is dropped, and the
client listens to no other signals. -/
def receive (c : Client) (handle : UInt32) (ops : List Op) : Message → Option Client
  | .signal _ (.finished num) => c.dispatch .request (.taskFinished num ops)
  | .signal _ (.error num _ _ message) => c.dispatch .request (.taskError num message)
  | .signal _ (.started _) => some c
  | .signal _ (.ready _) => some c
  | .methodReturn r num =>
    if r ∈ c.queueCalls then c.dispatch .request (.gotHandle r num none []) else some c
  | .methodError r message =>
    if r ∈ c.queueCalls then c.dispatch .request (.gotHandle r handle (some message) []) else some c

def deliver (s : System) (handle : UInt32) (ops : List Op) : Option System :=
  match s.daemon.sent[s.delivered]? with
  | none => none
  | some message =>
    (receive s.client handle ops message).map fun c => { s with client := c, delivered := s.delivered + 1 }

def onClient (s : System) (c : Option Client) : Option System := c.map fun c => { s with client := c }

def onDaemon (s : System) (d : Option Thumbnailer) : Option System := d.map fun d => { s with daemon := d }

def step (env : Nat → WorkEnv) (s : System) : Move → Option System
  | .op op => s.onClient (s.client.step .request (.op op))
  | .idle r ops => s.onClient (s.client.dispatch .request (.idle r ops))
  | .takeCall => s.takeCall env
  | .refuse => if s.taken < s.client.calls.length then some { s with taken := s.taken + 1 } else none
  | .methodReturn => s.onDaemon (s.daemon.step env .methodReturn)
  | .worker t => s.onDaemon (s.daemon.step env (.worker t))
  | .deliver handle ops => s.deliver handle ops
  | .callError r handle message => s.onClient (s.client.dispatch .request (.gotHandle r handle (some message) []))
  | .unqueueError r => s.onClient (s.client.dispatch .request (.unqueued r))

/-- Every call is taken or refused, every task processed, every reply to a
Queue call and every signal delivered, and every idle source has run. -/
structure Quiet (s : System) : Prop where
  calls : s.taken = s.client.calls.length
  returning : s.daemon.returning = none
  tasks : ∀ t e, s.daemon.memory.lookup t = some e → e.pc = .done
  messages : s.delivered = s.daemon.sent.length
  replies : s.client.queueCalls = []
  idles : s.client.idles = []

/-- Every request is unqueued or has been called back once, and the table of
tasks is empty. -/
def Served (s : System) : Prop :=
  (∀ r < s.client.created, s.client.isUnqueued r = false → s.client.called r = 1) ∧ s.client.tasks.keys = []

end System

end HildonThumbnail
