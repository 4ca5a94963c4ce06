import HildonThumbnail.Lib.KeyTable
import HildonThumbnail.Lib.Run

/-! The video thumbnailer process (gst-thumb-thumber.c): its queues, its states
and the sources it installs in the main context. -/

namespace HildonThumbnail

inductive ThumberState
  | null
  | pendingStop
  | stopped
  | paused
  | working
deriving DecidableEq

structure TaskInfo where
  id : UInt32
  mime : String
  files : List String

structure ThumberPipe where
  standard : Bool
  cropped : Bool

inductive ThumberSignal
  | started (id : UInt32)
  | finished (id : UInt32)
  | ready (uri : String)
  | error (uri : String) (code : Int) (message : String)
deriving DecidableEq

inductive SourceFunc
  | thumberProcessFunc
  | quitTimeoutCb
deriving DecidableEq

inductive PbState
  | play
  | stop
  | other

/-- `sources` and `nextSource` are the main context's, `requests` what was asked
of libplayback, `hasQuit` says that the main loop was told to quit. -/
structure Thumber where
  standard : Bool
  cropped : Bool
  idleId : Nat
  quitTimeoutId : Nat
  quitTimeout : Int
  currentTask : Option TaskInfo
  taskQueue : List TaskInfo
  fileQueue : List String
  pipe : Option ThumberPipe
  state : ThumberState
  idCounter : UInt32
  sources : KeyTable Nat SourceFunc
  nextSource : Nat
  requests : List PbState
  signals : List ThumberSignal
  hasQuit : Bool

/-- Source identifiers count from one: zero stands for none. -/
def thumberInit (standard cropped : Bool) (quitTimeout : Int) : Thumber where
  standard := standard
  cropped := cropped
  idleId := 0
  quitTimeoutId := 0
  quitTimeout := quitTimeout
  currentTask := none
  taskQueue := []
  fileQueue := []
  pipe := none
  state := .null
  idCounter := 0
  sources := ∅
  nextSource := 1
  requests := []
  signals := []
  hasQuit := false

def taskInfoAddUri (info : TaskInfo) (uri : String) : TaskInfo :=
  if uri ≠ "" then { info with files := uri :: info.files } else info

def taskInfoAddUris (info : TaskInfo) (uris : List String) : TaskInfo := uris.foldl taskInfoAddUri info

namespace Thumber

def addSource (t : Thumber) (f : SourceFunc) : Thumber :=
  { t with sources := t.sources.insert t.nextSource f, nextSource := t.nextSource + 1 }

def removeSource (t : Thumber) (id : Nat) : Thumber := { t with sources := t.sources.erase id }

def installIdle (t : Thumber) : Thumber :=
  if t.idleId = 0 then { t.addSource .thumberProcessFunc with idleId := t.nextSource } else t

def removeIdle (t : Thumber) : Thumber :=
  if t.idleId ≠ 0 then { t.removeSource t.idleId with idleId := 0 } else t

def installQuitTimeout (t : Thumber) : Thumber :=
  if t.quitTimeoutId = 0 then { t.addSource .quitTimeoutCb with quitTimeoutId := t.nextSource } else t

def removeQuitTimeout (t : Thumber) : Thumber :=
  if t.quitTimeoutId ≠ 0 then { t.removeSource t.quitTimeoutId with quitTimeoutId := 0 } else t

def emit (t : Thumber) (s : ThumberSignal) : Thumber := { t with signals := t.signals ++ [s] }

end Thumber

/-- Only on the way to STOPPED is the timer set for a negative timeout too. -/
def thumberSetState (t : Thumber) (state : ThumberState) : Thumber :=
  let t := match state with
    | .working => t.installIdle.removeQuitTimeout
    | .paused => t.removeIdle.removeQuitTimeout
    | .pendingStop => if 0 ≤ t.quitTimeout then t.removeIdle.installQuitTimeout else t.removeIdle
    | .stopped => t.removeIdle.installQuitTimeout
    | .null => t
  { t with state := state }

/-- `playback` is HAVE_PLAYBACK of the build. -/
def requestResources (playback : Bool) (t : Thumber) : Thumber :=
  if t.state ≠ .working then
    if playback then thumberSetState { t with requests := t.requests ++ [.play] } .paused
    else thumberSetState t .working
  else t

def releaseResources (playback : Bool) (t : Thumber) : Thumber :=
  if t.state ≠ .stopped then
    if playback then thumberSetState { t with requests := t.requests ++ [.stop] } .pendingStop
    else thumberSetState t .stopped
  else t

def libplaybackStateHintHandler (playback : Bool) (t : Thumber) (allowedStop allowedPlay : Bool) : Thumber :=
  match t.state with
  | .pendingStop => if allowedStop then releaseResources playback t else t
  | .paused => if allowedPlay then requestResources playback t else t
  | _ => t

def libplaybackStateRequestHandler (t : Thumber) (reqState : PbState) : Thumber :=
  match reqState with
  | .play => if t.state = .paused then thumberSetState t .working else t
  | .stop => if t.state = .working then thumberSetState t .paused else t
  | .other => t

def libplaybackStateReply (t : Thumber) (grantedState : PbState) : Thumber :=
  match grantedState with
  | .play => if t.state = .paused then thumberSetState t .working else t
  | .stop => if t.state = .pendingStop then thumberSetState t .stopped else t
  | .other => t

def thumberStart (t : Thumber) : Thumber := thumberSetState t .stopped

def taskInfoNew (t : Thumber) (mime : String) : TaskInfo := ⟨t.idCounter + 1, mime, []⟩

def addTask (t : Thumber) (info : TaskInfo) : Thumber :=
  { t with idCounter := info.id, taskQueue := t.taskQueue ++ [info] }

def thumberDbusMethodCreate (playback : Bool) (t : Thumber) (uri mimeHint : String) : Thumber :=
  requestResources playback (addTask t (taskInfoAddUri (taskInfoNew t mimeHint) uri))

def thumberDbusMethodCreateMany (playback : Bool) (t : Thumber) (uris : List String)
    (mimeHint : String) : Thumber :=
  requestResources playback (addTask t (taskInfoAddUris (taskInfoNew t mimeHint) uris))

/-- What `thumber_pipe_run` returns, and the error it sets. -/
inductive PipeRun
  | success
  | failure (error : Option String)

def PipeRun.signal (run : PipeRun) (uri : String) : ThumberSignal :=
  match run with
  | .success => .ready uri
  | .failure (some message) => .error uri 1 message
  | .failure none => .error uri 0 "Undefined error"

def finishTask (t : Thumber) : Thumber :=
  match t.currentTask with
  | some task => { t.emit (.finished task.id) with currentTask := none }
  | none => t

/-- The new state, and whether the source stays installed. -/
def thumberProcessFunc (playback : Bool) (t : Thumber) (run : PipeRun) : Thumber × Bool :=
  match t.pipe, t.fileQueue with
  | some _, uri :: files => ({ t with fileQueue := files }.emit (run.signal uri), true)
  | _, _ =>
    let t := finishTask t
    match t.taskQueue with
    | task :: tasks =>
      ({ t with
          taskQueue := tasks
          pipe := some ⟨t.standard, t.cropped⟩
          fileQueue := t.fileQueue ++ task.files
          currentTask := some task }.emit (.started task.id), true)
    | [] => ({ releaseResources playback { t with pipe := none } with idleId := 0 }, false)

inductive ThumberEvent
  | create (uri mimeHint : String)
  | createMany (uris : List String) (mimeHint : String)
  | hint (allowedStop allowedPlay : Bool)
  | request (reqState : PbState)
  | reply (grantedState : PbState)
  | process (source : Nat) (run : PipeRun)
  | quit (source : Nat)

namespace Thumber

def handle (playback : Bool) (t : Thumber) : ThumberEvent → Thumber
  | .create uri mimeHint => thumberDbusMethodCreate playback t uri mimeHint
  | .createMany uris mimeHint => thumberDbusMethodCreateMany playback t uris mimeHint
  | .hint allowedStop allowedPlay => libplaybackStateHintHandler playback t allowedStop allowedPlay
  | .request reqState => libplaybackStateRequestHandler t reqState
  | .reply grantedState => libplaybackStateReply t grantedState
  | .process source run =>
    let r := thumberProcessFunc playback t run
    if r.2 then r.1 else r.1.removeSource source
  | .quit source => { t with hasQuit := true }.removeSource source

def enabled (playback : Bool) (t : Thumber) : ThumberEvent → Bool
  | .create _ _ | .createMany _ _ => true
  | .hint _ _ | .request _ | .reply _ => playback
  | .process source _ => t.sources.lookup source = some .thumberProcessFunc
  | .quit source => t.sources.lookup source = some .quitTimeoutCb

/-- No callback is dispatched in the midst of another: `thumber_pipe_run` does
not run the main loop. -/
def step (playback : Bool) (t : Thumber) (e : ThumberEvent) : Option Thumber :=
  if t.hasQuit = false ∧ t.enabled playback e = true then some (t.handle playback e) else none

end Thumber

end HildonThumbnail
