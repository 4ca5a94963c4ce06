import HildonThumbnail.Albumart.Tasks
import HildonThumbnail.Lib.Replies
import HildonThumbnail.OutPlugin.JpegCleanup
import HildonThumbnail.OutPlugin.Outplugins
import HildonThumbnail.OutPlugin.PngCleanup
import HildonThumbnail.Thumbnailer.Supported
import HildonThumbnail.Thumbnailer.Tasks

/-! The D-Bus methods of the daemon's three objects and the replies that they
give (daemon/thumbnailer.c, daemon/albumart.c and daemon/thumbnail-manager.c). -/

namespace HildonThumbnail

/-- What the plugins' cleanups meet; `fuel` bounds the turns of a loop. -/
structure CleanupEnv where
  cache : CacheEnv
  order : KeyTable.Order Path
  sqlite : JpegDb.Sqlite
  fuel : Nat

def OutPlugin.cleanup (env : CleanupEnv) (uriMatch : String) (since : UInt32) (c : JpegCache) (p : OutPlugin) :
    Option JpegCache :=
  if p.isActive then
    match p.format with
    | .png => (Png.cleanup env.cache env.order c.files uriMatch since).map fun files => { c with files := files }
    | .jpeg => Jpeg.cleanup env.fuel env.cache env.sqlite c uriMatch since
  else some c

def outpluginsCleanup (env : CleanupEnv) (plugins : List OutPlugin) (uriMatch : String) (since : UInt32)
    (c : JpegCache) : Option JpegCache :=
  plugins.foldlM (OutPlugin.cleanup env uriMatch since) c

/-- `mediaArt` are the files of album art, by their paths. -/
structure Daemon where
  thumbnailer : Thumbnailer
  albumart : Albumart
  manager : LockedManager
  cache : JpegCache
  mediaArt : KeyTable String Unit

structure DaemonEnv extends CleanupEnv where
  albumart : AlbumartEnv
  outplugins : List OutPlugin
  keyOrder : KeyTable.Order String

inductive Answer
  | methodReturn
  | methodReturnHandle (num : UInt32)
  | methodReturnSupported (supported : List String)
  | methodReturnError (message : String)
deriving DecidableEq

/-- A call with its arguments; a NULL is told where the code can meet one. -/
inductive MethodCall
  | thumbnailerQueue (urls mimeHints : Option (List String)) (handleToUnqueue : UInt32)
  | thumbnailerUnqueue (handle : UInt32)
  | thumbnailerMove (fromUrls toUrls : Option (List String))
  | thumbnailerCopy (fromUrls toUrls : Option (List String))
  | thumbnailerDelete (urls : Option (List String))
  | thumbnailerCleanup (uriPrefix : String) (since : UInt32)
  | albumartQueue (artistOrTitle album kind : Option String) (handleToUnqueue : UInt32)
  | albumartUnqueue (handle : UInt32)
  | albumartDelete (artistOrTitle album kind : Option String)
  | managerRegister (uriScheme mimeType : Option String) (sender : String)
  | managerGetSupported

def MethodCall.unqueues : MethodCall → Bool
  | .thumbnailerUnqueue _ | .albumartUnqueue _ => true
  | _ => false

namespace Methods

open Replies

abbrev Method := Handler Daemon Answer Unit

/-- `dbus_async_return_if_fail` where the expression fails. -/
def asyncReturnError (expr : String) : Method := reply (.methodReturnError ("Assertion `" ++ expr ++ "' failed"))

/-- What `thumbnailer_queue` does under the mutex; the reply is given here. -/
def pushTask (t : Thumbnailer) (urls : List String) (mimeHints : Option (List String)) (handleToUnqueue : UInt32) :
    Thumbnailer :=
  { HildonThumbnail.thumbnailerQueue t 0 (some urls) mimeHints handleToUnqueue with returning := none }

def thumbnailerQueue (urls mimeHints : Option (List String)) (handleToUnqueue : UInt32) : Method :=
  match urls with
  | none => asyncReturnError "urls != NULL"
  | some urls => do
    update fun d => { d with thumbnailer := pushTask d.thumbnailer urls mimeHints handleToUnqueue }
    let d ← current
    reply (.methodReturnHandle d.thumbnailer.num)

def thumbnailerUnqueue (handle : UInt32) : Method :=
  update fun d => { d with thumbnailer := HildonThumbnail.thumbnailerUnqueue d.thumbnailer handle }

def updateFiles (f : Files → Files) : Method :=
  update fun d => { d with cache := { d.cache with files := f d.cache.files } }

/-- Move and copy differ in what they do with the files alone. -/
def eachPair (fromUrls toUrls : Option (List String)) (f : List String → List String → Files → Files) : Method :=
  match fromUrls, toUrls with
  | none, _ => asyncReturnError "from_urls != NULL"
  | some _, none => asyncReturnError "to_urls != NULL"
  | some fromUrls, some toUrls => do
    updateFiles (f fromUrls toUrls)
    reply .methodReturn

section
variable (env : DaemonEnv)

def thumbnailerMove (fromUrls toUrls : Option (List String)) : Method :=
  eachPair fromUrls toUrls (HildonThumbnail.thumbnailerMove env.cache)

def thumbnailerCopy (fromUrls toUrls : Option (List String)) : Method :=
  eachPair fromUrls toUrls (HildonThumbnail.thumbnailerCopy env.cache)

def thumbnailerDelete (urls : Option (List String)) : Method :=
  match urls with
  | none => asyncReturnError "urls != NULL"
  | some urls => do
    updateFiles (HildonThumbnail.thumbnailerDelete env.cache urls)
    reply .methodReturn

def thumbnailerCleanup (uriPrefix : String) (since : UInt32) : Method := do
  attempt fun d =>
    (outpluginsCleanup env.toCleanupEnv env.outplugins uriPrefix since d.cache).map fun c => { d with cache := c }
  reply .methodReturn

/-- `strlen (album)` of a NULL, which a NULL kind saves it from, is the end. -/
def albumartQueue (artistOrTitle album kind : Option String) (handleToUnqueue : UInt32) : Method :=
  if kind ≠ none ∧ album = none then failure
  else do
    match HildonThumbnail.albumartQueue artistOrTitle album kind with
    | none => update fun d => { d with albumart := { d.albumart with num := d.albumart.num + 1 } }
    | some task => update fun d => { d with albumart := d.albumart.push task handleToUnqueue }
    let d ← current
    reply (.methodReturnHandle d.albumart.num)

def albumartUnqueue (handle : UInt32) : Method :=
  update fun d => { d with albumart := d.albumart.unqueue handle }

def albumartDelete (artistOrTitle album kind : Option String) : Method := do
  match hildonThumbnailUtilGetAlbumartPath env.albumart artistOrTitle album kind with
  | none => pure ()
  | some path => update fun d => { d with mediaArt := d.mediaArt.erase path }
  reply .methodReturn

def managerRegister [DBusGlib] (uriScheme mimeType : Option String) (sender : String) : Method :=
  match mimeType, uriScheme with
  | none, _ => asyncReturnError "mime_type != NULL"
  | some _, none => asyncReturnError "uri_scheme != NULL"
  | some mimeType, some uriScheme => do
    attempt fun d =>
      (thumbnailManagerRegister d.manager ⟨uriScheme, mimeType, sender⟩).map fun m => { d with manager := m }
    reply .methodReturn

def managerGetSupported : Method := do
  attempt fun d => d.manager.lock.map fun m => { d with manager := m.unlock }
  let d ← current
  reply (.methodReturnSupported (thumbnailManagerGetSupported env.keyOrder d.manager.manager))

def method [DBusGlib] : MethodCall → Method
  | .thumbnailerQueue urls mimeHints handle => thumbnailerQueue urls mimeHints handle
  | .thumbnailerUnqueue handle => thumbnailerUnqueue handle
  | .thumbnailerMove fromUrls toUrls => thumbnailerMove env fromUrls toUrls
  | .thumbnailerCopy fromUrls toUrls => thumbnailerCopy env fromUrls toUrls
  | .thumbnailerDelete urls => thumbnailerDelete env urls
  | .thumbnailerCleanup uriPrefix since => thumbnailerCleanup env uriPrefix since
  | .albumartQueue artistOrTitle album kind handle => albumartQueue artistOrTitle album kind handle
  | .albumartUnqueue handle => albumartUnqueue handle
  | .albumartDelete artistOrTitle album kind => albumartDelete env artistOrTitle album kind
  | .managerRegister uriScheme mimeType sender => managerRegister uriScheme mimeType sender
  | .managerGetSupported => managerGetSupported env

end

section Answers
variable {env : DaemonEnv} {d d' : Daemon} {answers : List Answer}

theorem gives_update_reply (f : Daemon → Daemon) (a : Answer) : Gives 1 (do update f; reply a : Method) :=
  gives_bind (gives_update f) fun _ => gives_reply a

theorem gives_current_reply (f : Daemon → Answer) : Gives 1 (do reply (f (← current)) : Method) :=
  gives_bind gives_current fun d => gives_reply (f d)

theorem gives_thumbnailerQueue (urls mimeHints : Option (List String)) (handle : UInt32) :
    Gives 1 (thumbnailerQueue urls mimeHints handle) := by
  cases urls with
  | none => exact gives_reply _
  | some urls => exact gives_bind (gives_update _) fun _ => gives_current_reply _

theorem gives_thumbnailerUnqueue (handle : UInt32) : Gives 0 (thumbnailerUnqueue handle) := gives_update _

theorem gives_albumartUnqueue (handle : UInt32) : Gives 0 (albumartUnqueue handle) := gives_update _

theorem gives_eachPair (fromUrls toUrls : Option (List String)) (f : List String → List String → Files → Files) :
    Gives 1 (eachPair fromUrls toUrls f) := by
  cases fromUrls with
  | none => exact gives_reply _
  | some fromUrls =>
    cases toUrls with
    | none => exact gives_reply _
    | some toUrls => exact gives_update_reply _ _

theorem gives_thumbnailerDelete (urls : Option (List String)) : Gives 1 (thumbnailerDelete env urls) := by
  cases urls with
  | none => exact gives_reply _
  | some urls => exact gives_update_reply _ _

theorem gives_albumartQueue (artistOrTitle album kind : Option String) (handle : UInt32) :
    Gives 1 (albumartQueue artistOrTitle album kind handle) := by
  rw [albumartQueue]
  split
  · exact gives_failure 1
  · split
    · exact gives_bind (gives_update _) fun _ => gives_current_reply _
    · exact gives_bind (gives_update _) fun _ => gives_current_reply _

theorem gives_albumartDelete (artistOrTitle album kind : Option String) :
    Gives 1 (albumartDelete env artistOrTitle album kind) := by
  rw [albumartDelete]
  split
  · exact gives_bind (gives_pure ()) fun _ => gives_reply _
  · exact gives_update_reply _ _

theorem gives_managerRegister [DBusGlib] (uriScheme mimeType : Option String) (sender : String) :
    Gives 1 (managerRegister uriScheme mimeType sender) := by
  cases mimeType with
  | none => exact gives_reply _
  | some mimeType =>
    cases uriScheme with
    | none => exact gives_reply _
    | some uriScheme => exact gives_bind (gives_attempt _) fun _ => gives_reply _

/-- The two methods that unqueue return without a reply. -/
theorem gives_method [DBusGlib] (call : MethodCall) : Gives (if call.unqueues then 0 else 1) (method env call) := by
  cases call with
  | thumbnailerQueue urls mimeHints handle => exact gives_thumbnailerQueue urls mimeHints handle
  | thumbnailerUnqueue handle => exact gives_thumbnailerUnqueue handle
  | thumbnailerMove fromUrls toUrls => exact gives_eachPair fromUrls toUrls _
  | thumbnailerCopy fromUrls toUrls => exact gives_eachPair fromUrls toUrls _
  | thumbnailerDelete urls => exact gives_thumbnailerDelete urls
  | thumbnailerCleanup uriPrefix since => exact gives_bind (gives_attempt _) fun _ => gives_reply _
  | albumartQueue artistOrTitle album kind handle => exact gives_albumartQueue artistOrTitle album kind handle
  | albumartUnqueue handle => exact gives_albumartUnqueue handle
  | albumartDelete artistOrTitle album kind => exact gives_albumartDelete artistOrTitle album kind
  | managerRegister uriScheme mimeType sender => exact gives_managerRegister uriScheme mimeType sender
  | managerGetSupported => exact gives_bind (gives_attempt _) fun _ => gives_current_reply _

/-- In any state a call that comes to its end is answered exactly once, unless
its method is one of the two that unqueue. -/
theorem answered_once_iff [DBusGlib] {call : MethodCall} (h : answer (method env call) d = some (d', answers)) :
    answers.length = 1 ↔ call.unqueues = false := by
  rw [length_answer (gives_method call) h]
  cases call.unqueues <;> simp

def daemonInit : Daemon := ⟨thumbnailerInit, albumartInit, LockedManager.init, ⟨∅, .missing⟩, ∅⟩

def sampleEnv : DaemonEnv where
  cache := ⟨["home", "user"], id⟩
  order := .stored Path
  sqlite := Jpeg.sampleDb
  fuel := 0
  albumart := ⟨"/home/user/.cache", id, id⟩
  outplugins := [⟨.png, true⟩, ⟨.jpeg, true⟩]
  keyOrder := .stored String

theorem unqueue_unanswered : ¬ ∀ (env : DaemonEnv) (call : MethodCall) (d d' : Daemon) (answers : List Answer),
    answer (method env call) d = some (d', answers) → answers.length = 1 := by
  intro h
  have hanswers := h sampleEnv (.thumbnailerUnqueue 1) daemonInit _ _ rfl
  exact absurd hanswers (by decide)

theorem answered_once_move : ∃ d answers, answer (method sampleEnv (.thumbnailerMove (some ["file:///a.jpg"]) none))
    daemonInit = some (d, answers) ∧ answers.length = 1 :=
  have h : answer (method sampleEnv (.thumbnailerMove (some ["file:///a.jpg"]) none)) daemonInit =
      some (daemonInit, [.methodReturnError "Assertion `to_urls != NULL' failed"]) := rfl
  ⟨_, _, h, (answered_once_iff h).mpr rfl⟩

end Answers

end Methods

end HildonThumbnail
