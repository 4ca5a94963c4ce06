import HildonThumbnail.Lib.KeyTable
import HildonThumbnail.Lib.Run

/-! The client library: the request API (thumbs/hildon-thumbnail-obj.c) and the
handle API (thumbs/hildon-thumbnail-factory.c) over one kind of state. -/

namespace HildonThumbnail

/-- A HildonThumbnailRequest or a ThumbsItem. The key is the handle that the
key's text is printed from. `callbacks` holds the error of each invocation of
the callback. In the handle API `unqueued` says that cancel was called, which
the code itself does not record. -/
structure Request where
  uri : String
  key : Option UInt32
  unqueued : Bool
  errors : Option String
  callbacks : List (Option String)

def Request.new (uri : String) : Request := ⟨uri, none, false, none, []⟩

inductive Call
  | queue (context : Nat) (urls : List String) (mimeHints : Option (List String)) (handleToUnqueue : UInt32)
  | unqueue (handle : UInt32)

/-- `queueCalls` and `unqueueCalls` are the requests whose call has no reply
yet, `calls` are all calls made, in order. -/
structure Client where
  requests : KeyTable Nat Request
  created : Nat
  tasks : KeyTable UInt32 Nat
  waitingForCb : Bool
  idles : List Nat
  queueCalls : List Nat
  unqueueCalls : List Nat
  calls : List Call

def clientInit : Client := ⟨∅, 0, ∅, false, [], [], [], []⟩

namespace Client

def change (c : Client) (r : Nat) (f : Request → Request) : Client :=
  { c with requests := c.requests.mapValues fun r' q => if r' = r then f q else q }

def key (c : Client) (r : Nat) : Option UInt32 := (c.requests.lookup r).bind Request.key

def isUnqueued (c : Client) (r : Nat) : Bool := (c.requests.lookup r).any Request.unqueued

def invoke (c : Client) (r : Nat) (error : Request → Option String) : Client :=
  c.change r fun q => { q with callbacks := q.callbacks ++ [error q] }

def setKey (c : Client) (r : Nat) (handle : UInt32) : Client := c.change r fun q => { q with key := some handle }

def setUnqueued (c : Client) (r : Nat) : Client := c.change r fun q => { q with unqueued := true }

def newRequest (c : Client) (uri : String) : Client :=
  { c with requests := c.requests.insert c.created (.new uri), created := c.created + 1 }

def unqueueCall (c : Client) (r : Nat) (handle : UInt32) : Client :=
  { c with unqueueCalls := c.unqueueCalls ++ [r], calls := c.calls ++ [.unqueue handle] }

end Client

/-- What the program does: a new request, for which the thumbnails are found up
to date or not, and unqueueing or cancelling one. -/
inductive Op
  | request (uri : String) (mimeType : Option String) (upToDate : Bool)
  | unqueue (r : Nat)

namespace Obj

def requestGeneric (c : Client) (uri : String) (mimeType : Option String) (upToDate : Bool) : Client :=
  let r := c.created
  let c := { c.newRequest uri with waitingForCb := true }
  if upToDate then { c with idles := c.idles ++ [r] }
  else
    { c with
      queueCalls := c.queueCalls ++ [r]
      calls := c.calls ++ [.queue r [uri] (some mimeType.toList) 0] }

def requestUnqueue (c : Client) (r : Nat) : Client :=
  let c := c.setUnqueued r
  match c.key r with
  | none => c
  | some handle => c.unqueueCall r handle

def op (c : Client) : Op → Client
  | .request uri mimeType upToDate => requestGeneric c uri mimeType upToDate
  | .unqueue r => requestUnqueue c r

/-- `on_got_handle` up to the clearing of the flag; the error of the call is
not looked at. -/
def registerHandle (c : Client) (r : Nat) (handle : UInt32) : Client :=
  let c := { c with queueCalls := c.queueCalls.erase r }
  if c.isUnqueued r then c
  else { c.setKey r handle with tasks := c.tasks.insert handle r }

/-- `have_all_for_request_cb` up to the clearing of the flag. -/
def idleCallback (c : Client) (r : Nat) (ops : List Op) : Client :=
  ops.foldl op (({ c with idles := c.idles.erase r } : Client).invoke r Request.errors)

def onTaskFinished (c : Client) (handle : UInt32) (ops : List Op) : Client :=
  match c.tasks.lookup handle with
  | none => c
  | some r =>
    let c := if c.isUnqueued r then c else ops.foldl op (c.invoke r Request.errors)
    { c with tasks := c.tasks.erase handle }

def onUnqueued (c : Client) (r : Nat) : Client :=
  let c := { c with unqueueCalls := c.unqueueCalls.erase r }
  match c.key r with
  | none => c
  | some handle => { c with tasks := c.tasks.erase handle }

end Obj

namespace Factory

/-- A cache hit leaves the flag alone. -/
def loadCustom (c : Client) (uri : String) (mimeType : Option String) (haveAll : Bool) : Client :=
  let r := c.created
  let c := c.newRequest uri
  if haveAll then { c with idles := c.idles ++ [r] }
  else
    { c with
      waitingForCb := true
      queueCalls := c.queueCalls ++ [r]
      calls := c.calls ++ [.queue r [uri] (mimeType.map fun m => [m]) 0] }

/-- An item without a handle keeps running. -/
def cancel (c : Client) (r : Nat) : Client :=
  let c := c.setUnqueued r
  match c.key r with
  | none => c
  | some handle =>
    if handle = 0 then c else { c with tasks := c.tasks.erase handle }.unqueueCall r handle

def op (c : Client) : Op → Client
  | .request uri mimeType haveAll => loadCustom c uri mimeType haveAll
  | .unqueue r => cancel c r

/-- `on_got_handle` up to the clearing of the flag. -/
def registerHandle (c : Client) (r : Nat) (handle : UInt32) (error : Option String) (ops : List Op) : Client :=
  let c := ({ c with queueCalls := c.queueCalls.erase r } : Client).setKey r handle
  match error with
  | none => { c with tasks := c.tasks.insert handle r }
  | some message => ops.foldl op (c.invoke r fun _ => some message)

def haveAllCb (c : Client) (r : Nat) (ops : List Op) : Client :=
  ops.foldl op (({ c with idles := c.idles.erase r } : Client).invoke r Request.errors)

def onTaskFinished (c : Client) (handle : UInt32) (ops : List Op) : Client :=
  match c.tasks.lookup handle with
  | none => c
  | some r =>
    let c := ops.foldl op (c.invoke r Request.errors)
    { c with tasks := c.tasks.erase handle }

def onCancelled (c : Client) (r : Nat) : Client := { c with unqueueCalls := c.unqueueCalls.erase r }

end Factory

inductive Api
  | request
  | handle
deriving DecidableEq

/-- What the main loop dispatches, with what the program does in the callback
if the handler invokes one. -/
inductive Event
  | gotHandle (r : Nat) (handle : UInt32) (error : Option String) (ops : List Op)
  | unqueued (r : Nat)
  | idle (r : Nat) (ops : List Op)
  | taskError (handle : UInt32) (message : String)
  | taskFinished (handle : UInt32) (ops : List Op)

namespace Client

def op : Api → Client → Op → Client
  | .request => Obj.op
  | .handle => Factory.op

def registerHandle : Api → Client → Nat → UInt32 → Option String → List Op → Client
  | .request, c, r, handle, _, _ => Obj.registerHandle c r handle
  | .handle, c, r, handle, error, ops => Factory.registerHandle c r handle error ops

def onGotHandle (api : Api) (c : Client) (r : Nat) (handle : UInt32) (error : Option String) (ops : List Op) :
    Client :=
  { c.registerHandle api r handle error ops with waitingForCb := false }

def onUnqueued : Api → Client → Nat → Client
  | .request => Obj.onUnqueued
  | .handle => Factory.onCancelled

/-- Only the request API clears the flag. -/
def onIdle : Api → Client → Nat → List Op → Client
  | .request, c, r, ops => { Obj.idleCallback c r ops with waitingForCb := false }
  | .handle, c, r, ops => Factory.haveAllCb c r ops

def onTaskFinished : Api → Client → UInt32 → List Op → Client
  | .request => Obj.onTaskFinished
  | .handle => Factory.onTaskFinished

def addError (q : Request) (message : String) : Request :=
  match q.errors with
  | none => { q with errors := some message }
  | some errors => { q with errors := some (errors ++ " - " ++ message) }

theorem addError_fields (message : String) (q : Request) : (addError q message).callbacks = q.callbacks ∧
    (addError q message).unqueued = q.unqueued ∧ (addError q message).key = q.key := by
  rw [addError]
  split <;> exact ⟨rfl, rfl, rfl⟩

def onTaskError (c : Client) (handle : UInt32) (message : String) : Client :=
  match c.tasks.lookup handle with
  | none => c
  | some r => c.change r fun q => addError q message

def dispatch (api : Api) (c : Client) : Event → Option Client
  | .gotHandle r handle error ops =>
    if r ∈ c.queueCalls then some (c.onGotHandle api r handle error ops) else none
  | .unqueued r => if r ∈ c.unqueueCalls then some (c.onUnqueued api r) else none
  | .idle r ops => if r ∈ c.idles then some (c.onIdle api r ops) else none
  | .taskError handle message => some (c.onTaskError handle message)
  | .taskFinished handle ops => some (c.onTaskFinished api handle ops)

inductive Label
  | op (op : Op)
  | event (event : Event)

def step (api : Api) (c : Client) : Label → Option Client
  | .op op => some (c.op api op)
  | .event event => c.dispatch api event

/-- One `g_main_context_iteration`: some of the ready sources, or none. -/
def iteration (api : Api) (c : Client) (events : List Event) : Option Client :=
  StepRun.run (dispatch api) c events

/-- `hildon_thumbnail_factory_join`, and `hildon_thumbnail_factory_wait` in the
handle API; it returns a state when the iterations are those it makes. -/
def join (api : Api) (c : Client) (iterations : List (List Event)) : Option Client :=
  (StepRun.loop (iteration api) waitingForCb c iterations).bind fun waited =>
    (StepRun.loop (iteration api) (fun c => c.tasks.keys ≠ []) waited.1 waited.2).bind fun drained =>
      if drained.2 = [] then some drained.1 else none

end Client

end HildonThumbnail
