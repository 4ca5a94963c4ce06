import HildonThumbnail.Thumbnailer.Work
import HildonThumbnail.Lib.Run

/-! The handshake of a worker with a specialised thumbnailer: the worker waits on a
condition for the callbacks that the main loop runs, one turn for each URI. The
sections of the two threads interleave in any order. -/

namespace HildonThumbnail

/-- What arrives from the specialised thumbnailer, for whichever URI. -/
inductive Incoming where
  | ready (uri : String)
  | error (uri : String) (errorCode : Int) (errorMsg : String)
deriving DecidableEq

def Incoming.uri : Incoming → String
  | .ready uri => uri
  | .error uri _ _ => uri

def Incoming.errorMsg : Incoming → Option String
  | .ready _ => none
  | .error _ _ errorMsg => some errorMsg

inductive Party where
  | worker
  | main
deriving DecidableEq

inductive TurnFailure where
  | timeout
  | told (errorMsg : String)
deriving DecidableEq

/-- What the worker makes of a turn, with what the callbacks had stored by then and
whether the wait ended without a broadcast. -/
structure TurnAnswer where
  uri : String
  failure : Option TurnFailure
  heard : List Incoming
  gaveUp : Bool
deriving DecidableEq

inductive TurnPc where
  | init
  | connectReady
  | connectError
  | create
  | lock
  | test
  | waiting (notified : Bool)
  | unlock
  | examine
  | message (timedOut : Bool)
  | disconnectError (answer : TurnAnswer)
  | disconnectReady (answer : TurnAnswer)
  | report (answer : TurnAnswer)
deriving DecidableEq

def TurnPc.notify : TurnPc → TurnPc
  | .waiting _ => .waiting true
  | pc => pc

inductive CallbackPc where
  | idle
  | called (x : Incoming)
  | storing (x : Incoming)
  | locking
  | broadcasting
  | setting
  | unlocking
deriving DecidableEq

structure Handshake where
  rest : List String
  uri : String
  info : SpecializedInfo
  holder : Option Party
  readyConnected : Bool
  errorConnected : Bool
  worker : TurnPc
  main : CallbackPc
  created : List (String × String)
  heard : List Incoming
  gaveUp : Bool
  emitted : List TurnAnswer

namespace Handshake

def start (urlss : List String) : Handshake where
  rest := urlss
  uri := ""
  info := ⟨false, none, 0⟩
  holder := none
  readyConnected := false
  errorConnected := false
  worker := .init
  main := .idle
  created := []
  heard := []
  gaveUp := false
  emitted := []

/-- The first error is kept: a message that comes after the timeout was noted is not
put over it. -/
def failure (timedOut : Bool) (errorMsg : Option String) : Option TurnFailure :=
  if timedOut then some .timeout else errorMsg.map .told

/-- A section of the loop over the URIs of a group. -/
def workerStep (mimeType : String) (s : Handshake) : Option Handshake :=
  match s.worker with
  | .init =>
    match s.rest with
    | [] => none
    | uri :: rest =>
      some { s with
        rest := rest
        uri := uri
        info := ⟨false, none, s.info.errorCode⟩
        holder := none
        worker := .connectReady
        heard := []
        gaveUp := false }
  | .connectReady => some { s with readyConnected := true, worker := .connectError }
  | .connectError => some { s with errorConnected := true, worker := .create }
  | .create => some { s with created := s.created ++ [(s.uri, mimeType)], worker := .lock }
  | .lock => if s.holder = none then some { s with holder := some .worker, worker := .test } else none
  | .test =>
    if s.info.hadCallback then some { s with worker := .unlock }
    else some { s with holder := none, worker := .waiting false }
  | .waiting notified =>
    if notified ∧ s.holder = none then some { s with holder := some .worker, worker := .unlock } else none
  | .unlock => some { s with holder := none, worker := .examine }
  | .examine => some { s with worker := .message (!s.info.hadCallback) }
  | .message timedOut =>
    some { s with worker := .disconnectError ⟨s.uri, failure timedOut s.info.errorMsg, s.heard, s.gaveUp⟩ }
  | .disconnectError answer => some { s with errorConnected := false, worker := .disconnectReady answer }
  | .disconnectReady answer => some { s with readyConnected := false, worker := .report answer }
  | .report answer => some { s with emitted := s.emitted ++ [answer], worker := .init }

/-- The wait is over without a broadcast: the time is up, or for no reason at all. -/
def wakeStep (s : Handshake) : Option Handshake :=
  if s.worker = .waiting false ∧ s.holder = none then
    some { s with holder := some .worker, worker := .unlock, gaveUp := true }
  else none

/-- A section of `specialized_ready` or `specialized_error`. -/
def mainStep (s : Handshake) : Option Handshake :=
  match s.main with
  | .idle => none
  | .called x => some { s with main := if s.uri = x.uri then .storing x else .idle }
  | .storing x =>
    some { s with
      info := match x with
        | .ready _ => { s.info with errorMsg := none }
        | .error _ errorCode errorMsg => { s.info with errorMsg := some errorMsg, errorCode := errorCode }
      heard := s.heard ++ [x]
      main := .locking }
  | .locking => if s.holder = none then some { s with holder := some .main, main := .broadcasting } else none
  | .broadcasting => some { s with worker := s.worker.notify, main := .setting }
  | .setting => some { s with info := { s.info with hadCallback := true }, main := .unlocking }
  | .unlocking => some { s with holder := none, main := .idle }

def connected (s : Handshake) : Incoming → Bool
  | .ready _ => s.readyConnected
  | .error _ _ _ => s.errorConnected

/-- The main loop dispatches a signal to the callback that is connected to it. -/
def deliverStep (s : Handshake) (x : Incoming) : Option Handshake :=
  if s.main = .idle ∧ s.connected x = true then some { s with main := .called x } else none

inductive Label where
  | worker
  | wake
  | main
  | deliver (x : Incoming)
deriving DecidableEq

def step (mimeType : String) (s : Handshake) : Label → Option Handshake
  | .worker => s.workerStep mimeType
  | .wake => s.wakeStep
  | .main => s.mainStep
  | .deliver x => s.deliverStep x

/-- A turn begins when no callback of the turn before is still running: the next turn
uses the same `SpecializedInfo`. -/
def Orderly (s : Handshake) : Label → Prop
  | .worker => s.worker = .init → s.main = .idle
  | _ => True

instance (s : Handshake) : ∀ l, Decidable (Orderly s l)
  | .worker => inferInstanceAs (Decidable (s.worker = .init → s.main = .idle))
  | .wake | .main | .deliver _ => isTrue trivial

/-- What one section does, for each place of the thread that takes it. -/
inductive Step (mimeType : String) (s : Handshake) : Label → Handshake → Prop where
  | init {uri rest} (hpc : s.worker = .init) (hrest : s.rest = uri :: rest) :
    Step mimeType s .worker { s with
      rest := rest
      uri := uri
      info := ⟨false, none, s.info.errorCode⟩
      holder := none
      worker := .connectReady
      heard := []
      gaveUp := false }
  | connectReady (hpc : s.worker = .connectReady) :
    Step mimeType s .worker { s with readyConnected := true, worker := .connectError }
  | connectError (hpc : s.worker = .connectError) :
    Step mimeType s .worker { s with errorConnected := true, worker := .create }
  | create (hpc : s.worker = .create) :
    Step mimeType s .worker { s with created := s.created ++ [(s.uri, mimeType)], worker := .lock }
  | lock (hpc : s.worker = .lock) (hfree : s.holder = none) :
    Step mimeType s .worker { s with holder := some .worker, worker := .test }
  | pass (hpc : s.worker = .test) (hcallback : s.info.hadCallback = true) :
    Step mimeType s .worker { s with worker := .unlock }
  | sleep (hpc : s.worker = .test) (hcallback : s.info.hadCallback = false) :
    Step mimeType s .worker { s with holder := none, worker := .waiting false }
  | woken (hpc : s.worker = .waiting true) (hfree : s.holder = none) :
    Step mimeType s .worker { s with holder := some .worker, worker := .unlock }
  | unlock (hpc : s.worker = .unlock) : Step mimeType s .worker { s with holder := none, worker := .examine }
  | examine (hpc : s.worker = .examine) :
    Step mimeType s .worker { s with worker := .message (!s.info.hadCallback) }
  | message {timedOut} (hpc : s.worker = .message timedOut) :
    Step mimeType s .worker { s with
      worker := .disconnectError ⟨s.uri, failure timedOut s.info.errorMsg, s.heard, s.gaveUp⟩ }
  | disconnectError {answer} (hpc : s.worker = .disconnectError answer) :
    Step mimeType s .worker { s with errorConnected := false, worker := .disconnectReady answer }
  | disconnectReady {answer} (hpc : s.worker = .disconnectReady answer) :
    Step mimeType s .worker { s with readyConnected := false, worker := .report answer }
  | report {answer} (hpc : s.worker = .report answer) :
    Step mimeType s .worker { s with emitted := s.emitted ++ [answer], worker := .init }
  | giveUp (hpc : s.worker = .waiting false) (hfree : s.holder = none) :
    Step mimeType s .wake { s with holder := some .worker, worker := .unlock, gaveUp := true }
  | other {x} (hpc : s.main = .called x) (huri : s.uri ≠ x.uri) : Step mimeType s .main { s with main := .idle }
  | mine {x} (hpc : s.main = .called x) (huri : s.uri = x.uri) : Step mimeType s .main { s with main := .storing x }
  | store {x} {info : SpecializedInfo} (hpc : s.main = .storing x) (hmsg : info.errorMsg = x.errorMsg)
      (hcallback : info.hadCallback = s.info.hadCallback) :
    Step mimeType s .main { s with info := info, heard := s.heard ++ [x], main := .locking }
  | enter (hpc : s.main = .locking) (hfree : s.holder = none) :
    Step mimeType s .main { s with holder := some .main, main := .broadcasting }
  | broadcast (hpc : s.main = .broadcasting) :
    Step mimeType s .main { s with worker := s.worker.notify, main := .setting }
  | set (hpc : s.main = .setting) :
    Step mimeType s .main { s with info := { s.info with hadCallback := true }, main := .unlocking }
  | leave (hpc : s.main = .unlocking) : Step mimeType s .main { s with holder := none, main := .idle }
  | deliver {x} (hpc : s.main = .idle) (hconnected : s.connected x = true) :
    Step mimeType s (.deliver x) { s with main := .called x }

section
variable {mimeType : String} {s s' : Handshake} {l : Label}

theorem Step.of_workerStep (h : s.workerStep mimeType = some s') : Step mimeType s .worker s' := by
  rw [workerStep.eq_def] at h
  split at h
  · next hpc =>
    split at h
    · cases h
    · next hrest =>
      obtain rfl := Option.some.inj h
      exact .init hpc hrest
  · next hpc => exact Option.some.inj h ▸ .connectReady hpc
  · next hpc => exact Option.some.inj h ▸ .connectError hpc
  · next hpc => exact Option.some.inj h ▸ .create hpc
  · next hpc =>
    obtain ⟨hfree, h⟩ := Option.ite_none_right_eq_some.mp h
    exact Option.some.inj h ▸ .lock hpc hfree
  · next hpc =>
    split at h
    · next hcallback => exact Option.some.inj h ▸ .pass hpc hcallback
    · next hcallback => exact Option.some.inj h ▸ .sleep hpc (Bool.eq_false_iff.mpr hcallback)
  · next hpc =>
    obtain ⟨⟨hnotified, hfree⟩, h⟩ := Option.ite_none_right_eq_some.mp h
    exact Option.some.inj h ▸ .woken (hnotified ▸ hpc) hfree
  · next hpc => exact Option.some.inj h ▸ .unlock hpc
  · next hpc => exact Option.some.inj h ▸ .examine hpc
  · next hpc => exact Option.some.inj h ▸ .message hpc
  · next hpc => exact Option.some.inj h ▸ .disconnectError hpc
  · next hpc => exact Option.some.inj h ▸ .disconnectReady hpc
  · next hpc => exact Option.some.inj h ▸ .report hpc

theorem Step.of_mainStep (h : s.mainStep = some s') : Step mimeType s .main s' := by
  rw [mainStep.eq_def] at h
  split at h
  · cases h
  · next hpc =>
    obtain rfl := Option.some.inj h
    split
    · next huri => exact .mine hpc huri
    · next huri => exact .other hpc huri
  · next x hpc =>
    obtain rfl := Option.some.inj h
    cases x with
    | ready uri => exact .store hpc rfl rfl
    | error uri errorCode errorMsg => exact .store hpc rfl rfl
  · next hpc =>
    obtain ⟨hfree, h⟩ := Option.ite_none_right_eq_some.mp h
    exact Option.some.inj h ▸ .enter hpc hfree
  · next hpc => exact Option.some.inj h ▸ .broadcast hpc
  · next hpc => exact Option.some.inj h ▸ .set hpc
  · next hpc => exact Option.some.inj h ▸ .leave hpc

theorem Step.of_step (h : step mimeType s l = some s') : Step mimeType s l s' := by
  cases l with
  | worker => exact .of_workerStep h
  | wake =>
    obtain ⟨⟨hpc, hfree⟩, h⟩ := Option.ite_none_right_eq_some.mp h
    exact Option.some.inj h ▸ .giveUp hpc hfree
  | main => exact .of_mainStep h
  | deliver x =>
    obtain ⟨⟨hpc, hconnected⟩, h⟩ := Option.ite_none_right_eq_some.mp h
    exact Option.some.inj h ▸ .deliver hpc hconnected

end
end Handshake

def TurnPc.rank : TurnPc → Nat
  | .init => 0
  | .connectReady => 12
  | .connectError => 11
  | .create => 10
  | .lock => 9
  | .test => 8
  | .waiting _ => 7
  | .unlock => 6
  | .examine => 5
  | .message _ => 4
  | .disconnectError _ => 3
  | .disconnectReady _ => 2
  | .report _ => 1

def CallbackPc.rank : CallbackPc → Nat
  | .idle => 0
  | .called _ => 6
  | .storing _ => 5
  | .locking => 4
  | .broadcasting => 3
  | .setting => 2
  | .unlocking => 1

/-- What an answer rests on: a wait that was given up, or the callback for its URI that
was the last to store something. -/
def TurnAnswer.Justified (a : TurnAnswer) : Prop :=
  (∀ x ∈ a.heard, x.uri = a.uri) ∧
    match a.failure with
    | some .timeout => a.gaveUp = true
    | some (.told errorMsg) => ∃ x, a.heard.getLast? = some x ∧ x.errorMsg = some errorMsg
    | none => a.heard.getLast? = some (.ready a.uri)

def TurnAnswer.signal (num : UInt32) (a : TurnAnswer) : Signal :=
  match a.failure with
  | some .timeout => .error num [a.uri] 1 ("Timeout for " ++ a.uri)
  | some (.told errorMsg) => .error num [a.uri] 1 errorMsg
  | none => .ready [a.uri]

def TurnPc.answer : TurnPc → Option TurnAnswer
  | .disconnectError answer | .disconnectReady answer | .report answer => some answer
  | _ => none

namespace Handshake

/-- The URI of the turn that is under way. -/
def current (s : Handshake) : List String := if s.worker = .init then [] else [s.uri]

def asked (s : Handshake) : List String :=
  match s.worker with
  | .init | .connectReady | .connectError | .create => []
  | _ => [s.uri]

/-- The mutex is held in the critical sections of the two threads alone. -/
structure Mutex (s : Handshake) : Prop where
  worker : s.holder = some .worker ↔ s.worker = .test ∨ s.worker = .unlock
  main : s.holder = some .main ↔ s.main = .broadcasting ∨ s.main = .setting ∨ s.main = .unlocking

/-- What the callbacks have stored is what was heard for the URI of this turn. -/
structure Stored (s : Handshake) : Prop where
  heard_uri : ∀ x ∈ s.heard, x.uri = s.uri
  storing_uri : ∀ x, s.main = .storing x → x.uri = s.uri
  errorMsg : s.info.errorMsg = s.heard.getLast?.bind Incoming.errorMsg
  heard : s.info.hadCallback = true ∨ s.main = .locking ∨ s.main = .broadcasting ∨ s.main = .setting ∨
    s.main = .unlocking → s.heard ≠ []

structure Wakeup (s : Handshake) : Prop where
  asleep : s.worker = .waiting false → s.info.hadCallback = false ∧ s.main ≠ .setting
  notified : s.worker = .waiting true → s.info.hadCallback = true ∨ s.main = .setting
  woken : s.worker = .unlock ∨ s.worker = .examine → s.info.hadCallback = true ∨ s.gaveUp = true
  examined : ∀ timedOut, s.worker = .message timedOut →
    if timedOut then s.gaveUp = true else s.info.hadCallback = true

/-- The places between connecting a signal and disconnecting it. -/
structure Connected (s : Handshake) : Prop where
  ready : s.readyConnected = true ↔ s.worker ≠ .init ∧ s.worker ≠ .connectReady ∧ ∀ a, s.worker ≠ .report a
  error : s.errorConnected = true ↔ s.worker ≠ .init ∧ s.worker ≠ .connectReady ∧ s.worker ≠ .connectError ∧
    ∀ a, s.worker ≠ .disconnectReady a ∧ s.worker ≠ .report a

/-- The URIs that have been answered, the one under way and those to come; each has been
asked for once, the one under way from `create` on. -/
structure Progress (mimeType : String) (urlss : List String) (s : Handshake) : Prop where
  uris : s.emitted.map TurnAnswer.uri ++ s.current ++ s.rest = urlss
  created : s.created = (s.emitted.map TurnAnswer.uri ++ s.asked).map (·, mimeType)
  answer : ∀ a, s.worker.answer = some a → a.uri = s.uri ∧ a.Justified
  emitted : ∀ a ∈ s.emitted, a.Justified

section Steps
variable {mimeType : String} {s s' : Handshake} {l : Label}

theorem Mutex.step (h : Mutex s) (ho : Orderly s l) (hs : Step mimeType s l s') : Mutex s' := by
  obtain ⟨hworker, hmain⟩ := h
  cases hs with
  | init hpc hrest =>
    have hidle : s.main = .idle := ho hpc
    constructor <;> simp [hidle]
  | broadcast hpc =>
    have hheld : s.holder = some .main := hmain.mpr (.inl hpc)
    have htest : ¬ (s.worker = .test ∨ s.worker = .unlock) := fun h => by simp [hworker.mpr h] at hheld
    refine ⟨iff_of_false (by simp [hheld]) ?_, by simp [hheld]⟩
    cases hw : s.worker <;> simp_all [TurnPc.notify]
  | _ => constructor <;> simp_all

theorem Stored.step (h : Stored s) (ho : Orderly s l) (hs : Step mimeType s l s') : Stored s' := by
  obtain ⟨hheard, hstoring, hmsg, hcalled⟩ := h
  cases hs with
  | init hpc hrest =>
    have hidle : s.main = .idle := ho hpc
    constructor <;> simp [hidle]
  | store hpc hinfo hcallback =>
    refine ⟨?_, nofun, ?_, by simp⟩
    · intro y hy
      rcases List.mem_append.mp hy with hy | hy
      · exact hheard y hy
      · obtain rfl := List.mem_singleton.mp hy
        exact hstoring y hpc
    · rw [hinfo, List.getLast?_concat]
      rfl
  | _ => constructor <;> simp_all

theorem Wakeup.step (h : Wakeup s) (hm : Mutex s) (hs : Step mimeType s l s') : Wakeup s' := by
  obtain ⟨hasleep, hnotified, hwoken, hexamined⟩ := h
  cases hs with
  | sleep hpc hcallback =>
    -- the mutex is the worker's, so the main loop is not about to set the flag
    have hset : s.main ≠ .setting := by
      intro hset
      have hheld := hm.main.mpr (.inr (.inl hset))
      rw [hm.worker.mpr (.inl hpc)] at hheld
      cases hheld
    exact ⟨fun _ => ⟨hcallback, hset⟩, nofun, nofun, nofun⟩
  | woken hpc hfree =>
    have hset : s.main ≠ .setting := by
      intro hset
      rw [hm.main.mpr (.inr (.inl hset))] at hfree
      cases hfree
    exact ⟨nofun, nofun, fun _ => .inl ((hnotified hpc).resolve_right hset), nofun⟩
  | examine hpc =>
    refine ⟨nofun, nofun, nofun, ?_⟩
    rintro timedOut ⟨⟩
    rcases Bool.eq_false_or_eq_true s.info.hadCallback with hcallback | hcallback
    · simp [hcallback]
    · simpa [hcallback] using hwoken (.inr hpc)
  | broadcast hpc =>
    cases hw : s.worker <;> constructor <;> simp_all [TurnPc.notify]
  | _ => constructor <;> simp_all

theorem Connected.step (h : Connected s) (hs : Step mimeType s l s') : Connected s' := by
  obtain ⟨hready, herror⟩ := h
  cases hs with
  | broadcast hpc => cases hw : s.worker <;> constructor <;> simp_all [TurnPc.notify]
  | _ => constructor <;> simp_all

theorem failure_justified (hstored : Stored s) (hwakeup : Wakeup s) {timedOut : Bool}
    (hpc : s.worker = .message timedOut) :
    TurnAnswer.Justified ⟨s.uri, failure timedOut s.info.errorMsg, s.heard, s.gaveUp⟩ := by
  refine ⟨hstored.heard_uri, ?_⟩
  have hexamined := hwakeup.examined timedOut hpc
  cases timedOut with
  | true => exact hexamined
  | false =>
    have hheard : s.heard ≠ [] := hstored.heard (.inl hexamined)
    have hlast : s.heard.getLast? = some (s.heard.getLast hheard) := List.getLast?_eq_some_getLast hheard
    have huri := hstored.heard_uri _ (List.getLast_mem hheard)
    have hmsg := hstored.errorMsg
    rw [hlast] at hmsg ⊢
    generalize s.heard.getLast hheard = x at hmsg huri ⊢
    cases x with
    | ready uri =>
      rw [show s.info.errorMsg = none from hmsg]
      exact congrArg (fun u => some (Incoming.ready u)) huri
    | error uri errorCode errorMsg =>
      rw [show s.info.errorMsg = some errorMsg from hmsg]
      exact ⟨_, rfl, rfl⟩

theorem Progress.step {urlss : List String} (h : Progress mimeType urlss s) (hstored : Stored s)
    (hwakeup : Wakeup s) (hs : Step mimeType s l s') : Progress mimeType urlss s' := by
  obtain ⟨huris, hcreated, hanswer, hemitted⟩ := h
  cases hs with
  | init hpc hrest =>
    simp only [current, hpc, hrest] at huris
    simp only [asked, hpc] at hcreated
    refine ⟨?_, hcreated, nofun, hemitted⟩
    simpa [current] using huris
  | message hpc =>
    simp only [current, hpc] at huris
    simp only [asked, hpc] at hcreated
    refine ⟨huris, hcreated, ?_, hemitted⟩
    rintro a ⟨⟩
    exact ⟨rfl, failure_justified hstored hwakeup hpc⟩
  | @report answer hpc =>
    obtain ⟨huri, hjust⟩ := hanswer answer (by rw [hpc]; rfl)
    simp only [current, hpc] at huris
    simp only [asked, hpc] at hcreated
    refine ⟨?_, ?_, nofun, ?_⟩
    · simpa [current, huri] using huris
    · simpa [asked, huri] using hcreated
    · intro a ha
      rcases List.mem_append.mp ha with ha | ha
      · exact hemitted a ha
      · exact List.mem_singleton.mp ha ▸ hjust
  | broadcast hpc =>
    cases hw : s.worker <;> constructor <;> simp_all [TurnPc.notify, current, asked, TurnPc.answer]
  | _ => constructor <;> simp_all [current, asked, TurnPc.answer]

/-- What the two threads have still to do. -/
def todo (s : Handshake) : Nat := 13 * s.rest.length + s.worker.rank + s.main.rank

def Label.delivery : Label → Nat
  | .deliver _ => 1
  | _ => 0

theorem Step.todo_le (hs : Step mimeType s l s') : s'.todo + 1 ≤ s.todo + 7 * l.delivery := by
  cases hs with
  | init hpc hrest =>
    simp only [todo, hpc, hrest, List.length_cons, TurnPc.rank, Label.delivery]
    omega
  | broadcast hpc => cases hw : s.worker <;> simp [todo, hpc, hw, TurnPc.notify, TurnPc.rank, CallbackPc.rank]
  | deliver hpc hconnected =>
    simp only [todo, hpc, CallbackPc.rank, Label.delivery]
    omega
  | _ =>
    simp only [todo, *, TurnPc.rank, CallbackPc.rank, Label.delivery]
    omega

/-- One of the two threads can go on, or the wait can be given up, until all is done. -/
theorem enabled_or_done (mimeType : String) (h : Mutex s) : (s.worker = .init ∧ s.rest = [] ∧ s.main = .idle) ∨
    ∃ l, l.delivery = 0 ∧ Orderly s l ∧ step mimeType s l ≠ none := by
  by_cases hmain : s.main = .idle
  · have hnot : s.holder ≠ some .main := fun hheld => by simpa [hmain] using h.main.mp hheld
    have hfree : ¬ (s.worker = .test ∨ s.worker = .unlock) → s.holder = none := by
      intro hw
      cases hh : s.holder with
      | none => rfl
      | some party =>
        cases party with
        | worker => exact absurd (h.worker.mp hh) hw
        | main => exact absurd hh hnot
    cases hw : s.worker with
    | init =>
      cases hrest : s.rest with
      | nil => exact .inl ⟨rfl, rfl, hmain⟩
      | cons uri rest => exact .inr ⟨.worker, rfl, fun _ => hmain, by simp [step, workerStep, hw, hrest]⟩
    | waiting notified =>
      have hfree := hfree (by simp [hw])
      cases notified with
      | false => exact .inr ⟨.wake, rfl, trivial, by simp [step, wakeStep, hw, hfree]⟩
      | true => exact .inr ⟨.worker, rfl, fun _ => hmain, by simp [step, workerStep, hw, hfree]⟩
    | test => exact .inr ⟨.worker, rfl, fun _ => hmain, by simp only [step, workerStep, hw]; split <;> simp⟩
    | lock =>
      have hfree := hfree (by simp [hw])
      exact .inr ⟨.worker, rfl, fun _ => hmain, by simp [step, workerStep, hw, hfree]⟩
    | _ => exact .inr ⟨.worker, rfl, fun _ => hmain, by simp [step, workerStep, hw]⟩
  · by_cases hblocked : s.main = .locking ∧ s.holder ≠ none
    · -- the main loop waits for the worker, which is in its critical section
      obtain ⟨hlocking, hheld⟩ := hblocked
      have hnot : s.holder ≠ some .main := fun hheld => by simpa [hlocking] using h.main.mp hheld
      have hworker : s.holder = some .worker := by
        cases hh : s.holder with
        | none => exact absurd hh hheld
        | some party =>
          cases party with
          | worker => rfl
          | main => exact absurd hh hnot
      rcases h.worker.mp hworker with hw | hw
      · exact .inr ⟨.worker, rfl, by simp [Orderly, hw], by simp only [step, workerStep, hw]; split <;> simp⟩
      · exact .inr ⟨.worker, rfl, by simp [Orderly, hw], by simp [step, workerStep, hw]⟩
    · refine .inr ⟨.main, rfl, trivial, ?_⟩
      cases hm : s.main <;> simp_all [step, mainStep]

/-- Only what was delivered is ever stored. -/
structure Delivered (labels : List Label) (s : Handshake) : Prop where
  called : ∀ x, s.main = .called x ∨ s.main = .storing x → .deliver x ∈ labels
  heard : ∀ x ∈ s.heard, .deliver x ∈ labels
  answer : ∀ a, s.worker.answer = some a → ∀ x ∈ a.heard, .deliver x ∈ labels
  emitted : ∀ a ∈ s.emitted, ∀ x ∈ a.heard, .deliver x ∈ labels

theorem Delivered.mono {labels more : List Label} (h : Delivered labels s) : Delivered (labels ++ more) s where
  called x hx := List.mem_append_left _ (h.called x hx)
  heard x hx := List.mem_append_left _ (h.heard x hx)
  answer a ha x hx := List.mem_append_left _ (h.answer a ha x hx)
  emitted a ha x hx := List.mem_append_left _ (h.emitted a ha x hx)

theorem Delivered.step {labels : List Label} (h : Delivered labels s) (hl : l ∈ labels)
    (hs : Step mimeType s l s') : Delivered labels s' := by
  obtain ⟨hcalled, hheard, hanswer, hemitted⟩ := h
  cases hs with
  | init hpc hrest => exact ⟨hcalled, nofun, nofun, hemitted⟩
  | message hpc =>
    refine ⟨hcalled, hheard, ?_, hemitted⟩
    rintro a ⟨⟩
    exact hheard
  | report hpc =>
    refine ⟨hcalled, hheard, nofun, ?_⟩
    intro a ha
    rcases List.mem_append.mp ha with ha | ha
    · exact hemitted a ha
    · obtain rfl := List.mem_singleton.mp ha
      exact hanswer a (by rw [hpc]; rfl)
  | other hpc huri => exact ⟨nofun, hheard, hanswer, hemitted⟩
  | mine hpc huri =>
    refine ⟨?_, hheard, hanswer, hemitted⟩
    rintro x (⟨⟨⟩⟩ | ⟨⟨⟩⟩)
    exact hcalled _ (.inl hpc)
  | store hpc hinfo hcallback =>
    refine ⟨nofun, ?_, hanswer, hemitted⟩
    intro x hx
    rcases List.mem_append.mp hx with hx | hx
    · exact hheard x hx
    · obtain rfl := List.mem_singleton.mp hx
      exact hcalled x (.inr hpc)
  | broadcast hpc =>
    refine ⟨nofun, hheard, ?_, hemitted⟩
    intro a ha
    have hnotify : s.worker.notify.answer = s.worker.answer := by cases s.worker <;> rfl
    exact hanswer a (hnotify ▸ ha)
  | deliver hpc hconnected =>
    refine ⟨?_, hheard, hanswer, hemitted⟩
    rintro x (⟨⟨⟩⟩ | ⟨⟨⟩⟩)
    exact hl
  | enter hpc hfree | set hpc | leave hpc => exact ⟨nofun, hheard, hanswer, hemitted⟩
  | disconnectError hpc | disconnectReady hpc =>
    refine ⟨hcalled, hheard, ?_, hemitted⟩
    rintro a ⟨⟩
    exact hanswer _ (by rw [hpc]; rfl)
  | _ => exact ⟨hcalled, hheard, nofun, hemitted⟩

structure Sound (mimeType : String) (urlss : List String) (s : Handshake) : Prop where
  mutex : Mutex s
  stored : Stored s
  wakeup : Wakeup s
  connected : Connected s
  progress : Progress mimeType urlss s

theorem Sound.start (mimeType : String) (urlss : List String) : Sound mimeType urlss (start urlss) where
  mutex := by constructor <;> simp [Handshake.start]
  stored := by constructor <;> simp [Handshake.start]
  wakeup := by constructor <;> simp [Handshake.start]
  connected := by constructor <;> simp [Handshake.start]
  progress := by constructor <;> simp [Handshake.start, current, asked, TurnPc.answer]

theorem Sound.step {urlss : List String} (h : Sound mimeType urlss s) (ho : Orderly s l)
    (hs : Step mimeType s l s') : Sound mimeType urlss s' where
  mutex := h.mutex.step ho hs
  stored := h.stored.step ho hs
  wakeup := h.wakeup.step h.mutex hs
  connected := h.connected.step hs
  progress := h.progress.step h.stored h.wakeup hs

theorem run_delivered {urlss : List String} {labels : List Label}
    (h : StepRun.run (step mimeType) (start urlss) labels = some s) : Delivered labels s := by
  induction labels using List.reverseRecOn generalizing s with
  | nil =>
    obtain rfl := Option.some.inj h
    constructor <;> simp [Handshake.start, TurnPc.answer]
  | append_singleton labels l ih =>
    obtain ⟨u, hu, hs⟩ := StepRun.run_snoc _ |>.mp h
    exact (ih hu).mono.step (List.mem_append_right _ (List.mem_singleton_self l)) (.of_step hs)

theorem run_todo {labels : List Label} (h : StepRun.run (step mimeType) s labels = some s') :
    labels.length + s'.todo ≤ s.todo + 7 * (labels.map Label.delivery).sum := by
  induction labels generalizing s with
  | nil =>
    obtain rfl := Option.some.inj h
    simp
  | cons l labels ih =>
    obtain ⟨u, hu, hr⟩ := Option.bind_eq_some_iff.mp h
    have hfirst := (Step.of_step hu).todo_le
    have hrest := ih hr
    simp only [List.length_cons, List.map_cons, List.sum_cons]
    omega

end Steps

/-- What a turn amounts to for the task, which looks at it as one answer. -/
def answered (a : TurnAnswer) : SpecializedInfo where
  hadCallback := a.failure ≠ some .timeout
  errorMsg := match a.failure with
    | some (.told errorMsg) => some errorMsg
    | _ => none
  errorCode := 0

def answeredAt (answers : List TurnAnswer) (o : Nat) : SpecializedInfo :=
  (answers[o]?.map answered).getD ⟨false, none, 0⟩

theorem answered_error (a : TurnAnswer) : ((answered a).error a.uri).isSome = a.failure.isSome := by
  obtain ⟨uri, failure, heard, gaveUp⟩ := a
  rcases failure with _ | _ | _ <;> rfl

theorem specializedSignal_answered (num : UInt32) (a : TurnAnswer) :
    specializedSignal num a.uri (answered a) = a.signal num := by
  obtain ⟨uri, failure, heard, gaveUp⟩ := a
  rcases failure with _ | _ | _ <;> rfl

/-- The turns together are what the model of a whole task takes as one step. -/
theorem createSpecialized_answered (env : WorkEnv) (num : UInt32) (uriScheme : String) (proxy : DBusGProxy)
    (mimeType : String) (answers : List TurnAnswer) :
    createSpecialized { env with specialized := fun _ _ _ => answeredAt answers } num uriScheme proxy mimeType
        (answers.map TurnAnswer.uri) =
      ⟨answers.map (TurnAnswer.signal num), answers.any fun a => a.failure.isSome⟩ := by
  rw [createSpecialized, GroupOutcome.mk.injEq]
  constructor
  · apply List.ext_getElem (by simp)
    intro o ho ho'
    simp at ho
    simp [answeredAt, ho, specializedSignal_answered]
  · have hmap : (answers.map TurnAnswer.uri).mapIdx (fun o uri =>
        ((answeredAt answers o).error uri).isSome) = answers.map fun a => a.failure.isSome := by
      apply List.ext_getElem (by simp)
      intro o ho ho'
      simp at ho
      simp [answeredAt, ho, answered_error]
    rw [hmap, List.any_map]
    rfl

/-- Over any orderly run, with callbacks, timeouts and spurious wakeups at any point:
each URI is asked for once and answered once, in order; each answer rests on what was
delivered for its URI, or on a wait that was given up; no broadcast is missed; between two
turns no callback is connected; and the run ends, with what the task counts on. -/
theorem specialized_handshake (mimeType : String) (urlss : List String) (labels : List Label) (s : Handshake)
    (hrun : StepRun.run (step mimeType) (start urlss) labels = some s)
    (horderly : StepRun.Guarded (step mimeType) Orderly (start urlss) labels) :
    (s.emitted.map TurnAnswer.uri ++ s.current ++ s.rest = urlss ∧
      s.created = (s.emitted.map TurnAnswer.uri ++ s.asked).map (·, mimeType)) ∧
    (∀ a ∈ s.emitted, a.Justified ∧ ∀ x ∈ a.heard, .deliver x ∈ labels) ∧
    (s.worker = .waiting false → s.info.hadCallback = false ∧ s.main ≠ .setting) ∧
    (s.worker = .init → s.readyConnected = false ∧ s.errorConnected = false) ∧
    labels.length ≤ 13 * urlss.length + 7 * (labels.map Label.delivery).sum ∧
    ((∀ l, l.delivery = 0 → Orderly s l → step mimeType s l = none) →
      s.emitted.map TurnAnswer.uri = urlss ∧
        ∀ (env : WorkEnv) (num : UInt32) (uriScheme : String) (proxy : DBusGProxy),
        createSpecialized { env with specialized := fun _ _ _ => answeredAt s.emitted } num uriScheme proxy mimeType
            urlss =
          ⟨s.emitted.map (TurnAnswer.signal num), s.emitted.any fun a => a.failure.isSome⟩) := by
  have hsound : Sound mimeType urlss s :=
    StepRun.guarded_invariant (fun _ _ _ h ho hs => h.step ho (.of_step hs)) (Sound.start mimeType urlss)
      horderly hrun
  have hdelivered := run_delivered hrun
  refine ⟨⟨hsound.progress.uris, hsound.progress.created⟩, ?_, hsound.wakeup.asleep, ?_, ?_, ?_⟩
  · exact fun a ha => ⟨hsound.progress.emitted a ha, hdelivered.emitted a ha⟩
  · intro hpc
    refine ⟨Bool.eq_false_iff.mpr fun h => ?_, Bool.eq_false_iff.mpr fun h => ?_⟩
    · exact (hsound.connected.ready.mp h).1 hpc
    · exact (hsound.connected.error.mp h).1 hpc
  · have htodo := run_todo hrun
    simp only [todo, start, TurnPc.rank, CallbackPc.rank] at htodo
    omega
  · intro hstuck
    have hdone : s.worker = .init ∧ s.rest = [] ∧ s.main = .idle := by
      rcases enabled_or_done mimeType hsound.mutex with hdone | ⟨l, hl, ho, henabled⟩
      · exact hdone
      · exact absurd (hstuck l hl ho) henabled
    obtain ⟨hpc, hrest, -⟩ := hdone
    have huris := hsound.progress.uris
    simp only [current, hpc, hrest, if_true, List.append_nil] at huris
    refine ⟨huris, fun env num uriScheme proxy => ?_⟩
    rw [← huris]
    exact createSpecialized_answered env num uriScheme proxy mimeType s.emitted

def twoTurns : List Label :=
  [.worker, .worker, .worker, .worker, .worker, .deliver (.ready "u"), .main, .worker, .main, .wake, .worker,
    .worker, .main, .main, .main, .main, .worker, .worker, .worker, .worker] ++
  [.worker, .worker, .worker, .deliver (.error "w" 1 "no"), .worker, .main, .deliver (.error "v" 1 "bad"),
    .worker, .main, .worker, .main, .main, .main, .main, .main, .worker, .worker, .worker, .worker, .worker,
    .worker, .worker]

theorem specialized_handshake_two : ∃ s,
    StepRun.run (step "image/png") (start ["u", "v"]) twoTurns = some s ∧
    s.emitted = [⟨"u", some .timeout, [.ready "u"], true⟩, ⟨"v", some (.told "bad"), [.error "v" 1 "bad"], false⟩] ∧
    s.emitted.map TurnAnswer.uri ++ s.current ++ s.rest = ["u", "v"] :=
  ⟨_, rfl, rfl, (specialized_handshake "image/png" ["u", "v"] twoTurns _ rfl (by decide)).1.1⟩

end Handshake
end HildonThumbnail
