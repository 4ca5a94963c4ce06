import HildonThumbnail.Lib.KeyTable
import HildonThumbnail.Lib.Run

/-! The requests for album art of a program (thumbs/hildon-albumart-obj.c), and
when one of them is unqueued or joined by a key that is not there yet. -/

namespace HildonThumbnail

namespace AlbumartClient

/-- The key is the handle that its text is printed from. A request for a thumbnail
has a `real` one and no key of its own. -/
structure HildonAlbumartRequest where
  key : Option UInt32
  real : Option Nat

/-- What has not returned: a Finished signal that invokes a callback, or a join, in its
first loop, with what it has found before, or in its second. -/
inductive Frame
  | finished (handle : UInt32)
  | waiting (r : Nat) (found : Bool)
  | draining (r : Nat)

def Frame.joined : Frame → Option Nat
  | .finished _ => none
  | .waiting r _ => some r
  | .draining r => some r

end AlbumartClient

open AlbumartClient in
/-- `queueCalls` and `unqueueCalls` are the calls without a reply, `running` is the stack with
its top first. The program is stopped by its first use of a key that is NULL. -/
structure AlbumartClient where
  requests : List HildonAlbumartRequest
  tasks : KeyTable UInt32 Nat
  waitingForCb : Bool
  queueCalls : List Nat
  unqueueCalls : List (Nat × UInt32)
  running : List Frame
  stopped : Bool

namespace AlbumartClient

def init : AlbumartClient := ⟨[], ∅, false, [], [], [], false⟩

def key (c : AlbumartClient) (r : Nat) : Option UInt32 := c.requests[r]?.bind HildonAlbumartRequest.key

def withKey (c : AlbumartClient) (r : Nat) (use : UInt32 → AlbumartClient) : AlbumartClient :=
  match c.key r with
  | none => { c with stopped := true }
  | some handle => use handle

/-- The request at the end of `real`, with a bound for the calls on the way. -/
def follow (c : AlbumartClient) : Nat → Nat → Option Nat
  | 0, _ => none
  | calls + 1, r => c.requests[r]?.bind fun q =>
    match q.real with
    | none => some r
    | some real => c.follow calls real

def plain (c : AlbumartClient) (r : Nat) : Option Nat := c.follow (c.requests.length + 1) r

def hildonAlbumartFactoryQueue (c : AlbumartClient) : AlbumartClient :=
  { c with
    requests := c.requests ++ [⟨none, none⟩]
    waitingForCb := true
    queueCalls := c.queueCalls ++ [c.requests.length] }

def hildonAlbumartFactoryQueueThumbnail (c : AlbumartClient) : AlbumartClient :=
  hildonAlbumartFactoryQueue { c with requests := c.requests ++ [⟨none, some (c.requests.length + 1)⟩] }

/-- For a request without a real one. -/
def hildonAlbumartRequestUnqueue (c : AlbumartClient) (r : Nat) : AlbumartClient :=
  c.withKey r fun handle => { c with unqueueCalls := c.unqueueCalls ++ [(r, handle)] }

/-- Up to the loops, for a request without a real one. -/
def hildonAlbumartRequestJoin (c : AlbumartClient) (r : Nat) : AlbumartClient :=
  c.withKey r fun handle => { c with running := .waiting r (c.tasks.lookup handle).isSome :: c.running }

/-- A reply that is an error has a handle too. -/
def onGotHandle (c : AlbumartClient) (r : Nat) (handle : UInt32) : AlbumartClient :=
  { c with
    requests := c.requests.modify r fun q => { q with key := some handle }
    tasks := c.tasks.insert handle r
    waitingForCb := false
    queueCalls := c.queueCalls.erase r }

def onUnqueued (c : AlbumartClient) (call : Nat × UInt32) : AlbumartClient :=
  c.withKey call.1 fun handle =>
    { c with tasks := c.tasks.erase handle, unqueueCalls := c.unqueueCalls.erase call }

/-- Up to the callback, which may do anything. -/
def onTaskFinished (c : AlbumartClient) (handle : UInt32) : AlbumartClient :=
  match c.tasks.lookup handle with
  | none => c
  | some _ => { c with running := .finished handle :: c.running }

/-- What runs goes on: after the callback, or with the test of a loop. -/
def goOn (c : AlbumartClient) : Option AlbumartClient :=
  match c.running with
  | [] => none
  | .finished handle :: rest => some { c with tasks := c.tasks.erase handle, running := rest }
  | .waiting r found :: rest =>
    if c.waitingForCb then some c
    else if found then some { c with running := .draining r :: rest }
    else some { c with running := rest }
  | .draining r :: rest =>
    some (c.withKey r fun handle => if (c.tasks.lookup handle).isSome then c else { c with running := rest })

inductive Label
  | queue
  | queueThumbnail
  | unqueue (r : Nat)
  | join (r : Nat)
  | gotHandle (r : Nat) (handle : UInt32)
  | unqueued (r : Nat) (handle : UInt32)
  | finished (handle : UInt32)
  | goOn

def on (c : AlbumartClient) : Label → Option AlbumartClient
  | .queue => some c.hildonAlbumartFactoryQueue
  | .queueThumbnail => some c.hildonAlbumartFactoryQueueThumbnail
  | .unqueue r => (c.plain r).map c.hildonAlbumartRequestUnqueue
  | .join r => (c.plain r).map c.hildonAlbumartRequestJoin
  | .gotHandle r handle => if r ∈ c.queueCalls then some (c.onGotHandle r handle) else none
  | .unqueued r handle => if (r, handle) ∈ c.unqueueCalls then some (c.onUnqueued (r, handle)) else none
  | .finished handle => some (c.onTaskFinished handle)
  | .goOn => c.goOn

def step (c : AlbumartClient) (label : Label) : Option AlbumartClient := if c.stopped then none else c.on label

/-- No step of the run uses a key that is NULL. -/
def UsesKeys (labels : List Label) : Prop :=
  ∀ before c, before <+: labels → StepRun.run step init before = some c → c.stopped = false

/-- A request is unqueued and joined after the reply to the Queue call, its own or the one of the real request. -/
def Answered (c : AlbumartClient) : Label → Prop
  | .unqueue r | .join r => ∀ p, c.plain r = some p → p ∉ c.queueCalls
  | .queue | .queueThumbnail | .gotHandle _ _ | .unqueued _ _ | .finished _ | .goOn => True

/-- A plain request has a key exactly if the reply has come, and what needs a key later has it. -/
structure Keyed (c : AlbumartClient) : Prop where
  alive : c.stopped = false
  queue_lt : ∀ r ∈ c.queueCalls, r < c.requests.length
  queue_nodup : c.queueCalls.Nodup
  real_plain : ∀ (r real : Nat) (k : Option UInt32), c.requests[r]? = some ⟨k, some real⟩ →
    ∃ k, c.requests[real]? = some ⟨k, none⟩
  key_iff : ∀ (r : Nat) (k : Option UInt32), c.requests[r]? = some ⟨k, none⟩ → (k = none ↔ r ∈ c.queueCalls)
  unqueue_key : ∀ call ∈ c.unqueueCalls, c.key call.1 ≠ none
  running_key : ∀ frame ∈ c.running, ∀ r, frame.joined = some r → c.key r ≠ none

section
variable {c c' : AlbumartClient} {r p : Nat}

theorem follow_plain {calls : Nat} (h : c.follow calls r = some p) : ∃ k, c.requests[p]? = some ⟨k, none⟩ := by
  induction calls generalizing r with
  | zero => cases h
  | succ calls ih =>
    obtain ⟨⟨k, real⟩, hr, hfollow⟩ := Option.bind_eq_some_iff.mp h
    cases real with
    | none =>
      obtain rfl := Option.some.inj hfollow
      exact ⟨k, hr⟩
    | some real => exact ih hfollow

theorem follow_of_plain {k : Option UInt32} (calls : Nat) (h : c.requests[r]? = some ⟨k, none⟩) :
    c.follow (calls + 1) r = some r := by
  rw [follow, h]
  rfl

theorem Keyed.exists_plain (h : c.Keyed) (hr : r < c.requests.length) : ∃ p, c.plain r = some p := by
  obtain ⟨⟨k, real⟩, hq⟩ : ∃ q, c.requests[r]? = some q := ⟨_, List.getElem?_eq_getElem hr⟩
  obtain ⟨calls, hcalls⟩ : ∃ calls, c.requests.length = calls + 1 := ⟨c.requests.length - 1, by omega⟩
  rw [plain, hcalls]
  cases real with
  | none => exact ⟨r, follow_of_plain _ hq⟩
  | some real =>
    obtain ⟨k', hreal⟩ := h.real_plain r real k hq
    refine ⟨real, ?_⟩
    rw [follow, hq]
    exact follow_of_plain calls hreal

theorem key_eq {k : Option UInt32} {real : Option Nat} (h : c.requests[r]? = some ⟨k, real⟩) : c.key r = k := by
  rw [key, h]
  rfl

theorem Keyed.plain_key_iff (h : c.Keyed) (hp : c.plain r = some p) : c.key p = none ↔ p ∈ c.queueCalls := by
  obtain ⟨k, hk⟩ := follow_plain hp
  rw [key_eq hk]
  exact h.key_iff p k hk

theorem withKey_eq {use : UInt32 → AlbumartClient} (h : c.key r ≠ none) :
    ∃ handle, c.withKey r use = use handle := by
  obtain ⟨handle, hkey⟩ := Option.ne_none_iff_exists'.mp h
  exact ⟨handle, by rw [withKey, hkey]⟩

/-- What the invariant says of keys is left as it is where requests and calls are. -/
theorem Keyed.of_requests (h : c.Keyed) (hstopped : c'.stopped = c.stopped) (hrequests : c'.requests = c.requests)
    (hqueue : c'.queueCalls = c.queueCalls) (hunqueue : ∀ call ∈ c'.unqueueCalls, c.key call.1 ≠ none)
    (hrunning : ∀ frame ∈ c'.running, ∀ r, frame.joined = some r → c.key r ≠ none) : c'.Keyed := by
  have hkey (r : Nat) : c'.key r = c.key r := by rw [key, key, hrequests]
  refine {
    alive := hstopped.trans h.alive
    queue_lt := ?_
    queue_nodup := ?_
    real_plain := ?_
    key_iff := ?_
    unqueue_key := ?_
    running_key := ?_ }
  · rw [hrequests, hqueue]
    exact h.queue_lt
  · rw [hqueue]
    exact h.queue_nodup
  · rw [hrequests]
    exact h.real_plain
  · rw [hrequests, hqueue]
    exact h.key_iff
  · intro call hcall
    rw [hkey]
    exact hunqueue call hcall
  · intro frame hframe r hr
    rw [hkey]
    exact hrunning frame hframe r hr

theorem key_ne_none_iff : c.key r ≠ none ↔ ∃ q, c.requests[r]? = some q ∧ q.key ≠ none := by
  rw [key]
  cases c.requests[r]? <;> simp

section Append
variable {requests added : List HildonAlbumartRequest} {q last : HildonAlbumartRequest}

theorem lookup_append (h : requests[r]? = some q) : (requests ++ added)[r]? = some q := by
  rw [List.getElem?_append_left (List.getElem?_eq_some_iff.mp h).1, h]

theorem append_cases (h : (requests ++ (added ++ [last]))[r]? = some q) :
    requests[r]? = some q ∨ q ∈ added ∨ r = requests.length + added.length ∧ q = last := by
  by_cases hr : r < requests.length
  · rw [List.getElem?_append_left hr] at h
    exact .inl h
  · rw [List.getElem?_append_right (by omega)] at h
    by_cases hadded : r - requests.length < added.length
    · rw [List.getElem?_append_left hadded] at h
      exact .inr (.inl (List.mem_of_getElem? h))
    · rw [List.getElem?_append_right (by omega)] at h
      obtain ⟨hlt, heq⟩ := List.getElem?_eq_some_iff.mp h
      rw [List.length_singleton] at hlt
      exact .inr (.inr ⟨by omega, by simpa using heq.symm⟩)

end Append

/-- The last one of the new requests is queued, the others delegate to it. -/
theorem Keyed.append (h : c.Keyed) (added : List HildonAlbumartRequest)
    (hadded : ∀ q ∈ added, q = ⟨none, some (c.requests.length + added.length)⟩)
    (hrequests : c'.requests = c.requests ++ (added ++ [⟨none, none⟩]))
    (hqueue : c'.queueCalls = c.queueCalls ++ [c.requests.length + added.length])
    (hunqueue : c'.unqueueCalls = c.unqueueCalls) (hrunning : c'.running = c.running)
    (hstopped : c'.stopped = c.stopped) : c'.Keyed := by
  have hold (x : Nat) (hx : x ∈ c.queueCalls) : x < c.requests.length + added.length := by
    have hlt := h.queue_lt x hx
    omega
  have hkeys (x : Nat) (hx : c.key x ≠ none) : c'.key x ≠ none := by
    obtain ⟨q, hq, hkey⟩ := key_ne_none_iff.mp hx
    exact key_ne_none_iff.mpr ⟨q, hrequests ▸ lookup_append hq, hkey⟩
  refine {
    alive := hstopped.trans h.alive
    queue_lt := fun x hx => ?_
    queue_nodup := ?_
    real_plain := fun x real k hx => ?_
    key_iff := fun x k hx => ?_
    unqueue_key := fun call hcall => hkeys _ (h.unqueue_key call (hunqueue ▸ hcall))
    running_key := fun frame hframe x hx => hkeys x (h.running_key frame (hrunning ▸ hframe) x hx) }
  · rw [hqueue] at hx
    rw [hrequests]
    simp only [List.length_append, List.length_singleton]
    rcases List.mem_append.mp hx with hx | hx
    · have hlt := hold x hx
      omega
    · rw [List.mem_singleton.mp hx]
      omega
  · rw [hqueue, List.nodup_append]
    refine ⟨h.queue_nodup, List.nodup_singleton _, fun x hx y hy heq => ?_⟩
    have hlt := hold x hx
    rw [heq, List.mem_singleton.mp hy] at hlt
    omega
  · rw [hrequests] at hx ⊢
    rcases append_cases hx with hx | hx | ⟨_, hx⟩
    · obtain ⟨k', hreal⟩ := h.real_plain x real k hx
      exact ⟨k', lookup_append hreal⟩
    · -- a new one delegates to the last, which stands where the old and the new ones end
      cases hadded _ hx
      refine ⟨none, ?_⟩
      rw [← List.append_assoc, ← List.length_append, List.getElem?_concat_length]
    · cases hx
  · rw [hrequests] at hx
    rw [hqueue, List.mem_append, List.mem_singleton]
    rcases append_cases hx with hx | hx | ⟨hlast, hx⟩
    · have hlt := (List.getElem?_eq_some_iff.mp hx).1
      rw [h.key_iff x k hx]
      exact (or_iff_left (by omega)).symm
    · cases hadded _ hx
    · cases hx
      exact iff_of_true rfl (.inr hlast)

theorem Keyed.queue (h : c.Keyed) : c.hildonAlbumartFactoryQueue.Keyed :=
  h.append [] (fun _ hq => nomatch hq) rfl rfl rfl rfl rfl

theorem Keyed.queueThumbnail (h : c.Keyed) : c.hildonAlbumartFactoryQueueThumbnail.Keyed := by
  refine h.append [⟨none, some (c.requests.length + 1)⟩] (fun q hq => List.mem_singleton.mp hq) ?_ ?_ rfl rfl rfl
  · exact List.append_assoc _ _ _
  · exact congrArg (fun n => c.queueCalls ++ [n]) List.length_append

theorem lookup_gotHandle (handle : UInt32) (x : Nat) :
    (c.onGotHandle r handle).requests[x]? =
      c.requests[x]?.map fun q => if r = x then { q with key := some handle } else q :=
  List.getElem?_modify _ _ _ _

theorem lookup_of_gotHandle {handle : UInt32} {x : Nat} {k : Option UInt32} {real : Option Nat}
    (h : (c.onGotHandle r handle).requests[x]? = some ⟨k, real⟩) :
    (x = r ∧ k = some handle ∧ ∃ k', c.requests[x]? = some ⟨k', real⟩) ∨
      (x ≠ r ∧ c.requests[x]? = some ⟨k, real⟩) := by
  rw [lookup_gotHandle] at h
  obtain ⟨q, hq, heq⟩ := Option.map_eq_some_iff.mp h
  by_cases hx : r = x
  · rw [if_pos hx] at heq
    cases heq
    exact .inl ⟨hx.symm, rfl, q.key, hq⟩
  · rw [if_neg hx] at heq
    cases heq
    exact .inr ⟨Ne.symm hx, hq⟩

theorem Keyed.gotHandle (h : c.Keyed) (hr : r ∈ c.queueCalls) (handle : UInt32) :
    (c.onGotHandle r handle).Keyed := by
  have hkeys (x : Nat) (hx : c.key x ≠ none) : (c.onGotHandle r handle).key x ≠ none := by
    obtain ⟨q, hq, hkey⟩ := key_ne_none_iff.mp hx
    refine key_ne_none_iff.mpr ⟨_, by rw [lookup_gotHandle, hq, Option.map_some], ?_⟩
    split
    · exact Option.some_ne_none handle
    · exact hkey
  refine {
    alive := h.alive
    queue_lt := fun x hx => ?_
    queue_nodup := h.queue_nodup.erase r
    real_plain := fun x real k hx => ?_
    key_iff := fun x k hx => ?_
    unqueue_key := fun call hcall => hkeys _ (h.unqueue_key call hcall)
    running_key := fun frame hframe x hx => hkeys x (h.running_key frame hframe x hx) }
  · have hlt := h.queue_lt x (List.mem_of_mem_erase hx)
    exact hlt.trans_eq (List.length_modify ..).symm
  · have hold : ∃ k, c.requests[x]? = some ⟨k, some real⟩ := by
      rcases lookup_of_gotHandle hx with ⟨_, _, hold⟩ | ⟨_, hold⟩
      · exact hold
      · exact ⟨k, hold⟩
    obtain ⟨k', hold⟩ := hold
    obtain ⟨k'', hreal⟩ := h.real_plain x real k' hold
    rw [lookup_gotHandle, hreal, Option.map_some]
    split
    · exact ⟨some handle, rfl⟩
    · exact ⟨k'', rfl⟩
  · change k = none ↔ x ∈ c.queueCalls.erase r
    rcases lookup_of_gotHandle hx with ⟨rfl, rfl, _⟩ | ⟨hne, hold⟩
    · exact iff_of_false (Option.some_ne_none handle) h.queue_nodup.not_mem_erase
    · rw [List.mem_erase_of_ne hne]
      exact h.key_iff x k hold

theorem Keyed.unqueue (h : c.Keyed) (hp : c.key p ≠ none) : (c.hildonAlbumartRequestUnqueue p).Keyed := by
  obtain ⟨handle, heq⟩ := withKey_eq hp
  rw [hildonAlbumartRequestUnqueue, heq]
  refine h.of_requests rfl rfl rfl (fun call hcall => ?_) h.running_key
  rcases List.mem_append.mp hcall with hcall | hcall
  · exact h.unqueue_key call hcall
  · rw [List.mem_singleton.mp hcall]
    exact hp

theorem Keyed.join (h : c.Keyed) (hp : c.key p ≠ none) : (c.hildonAlbumartRequestJoin p).Keyed := by
  obtain ⟨handle, heq⟩ := withKey_eq hp
  rw [hildonAlbumartRequestJoin, heq]
  refine h.of_requests rfl rfl rfl h.unqueue_key fun frame hframe x hx => ?_
  rcases List.mem_cons.mp hframe with rfl | hframe
  · obtain rfl := Option.some.inj hx
    exact hp
  · exact h.running_key frame hframe x hx

theorem Keyed.unqueued (h : c.Keyed) {call : Nat × UInt32} (hcall : call ∈ c.unqueueCalls) :
    (c.onUnqueued call).Keyed := by
  obtain ⟨handle, heq⟩ := withKey_eq (h.unqueue_key call hcall)
  rw [onUnqueued, heq]
  exact h.of_requests rfl rfl rfl
    (fun other hother => h.unqueue_key other (List.mem_of_mem_erase hother)) h.running_key

theorem Keyed.finished (h : c.Keyed) (handle : UInt32) : (c.onTaskFinished handle).Keyed := by
  rw [onTaskFinished]
  cases c.tasks.lookup handle with
  | none => exact h
  | some _ =>
    refine h.of_requests rfl rfl rfl h.unqueue_key fun frame hframe x hx => ?_
    rcases List.mem_cons.mp hframe with rfl | hframe
    · cases hx
    · exact h.running_key frame hframe x hx

/-- The loops of a join need the key that the call has needed before them. -/
theorem Keyed.goOn (h : c.Keyed) (hstep : c.goOn = some c') : c'.Keyed := by
  rw [AlbumartClient.goOn] at hstep
  cases hrunning : c.running with
  | nil =>
    rw [hrunning] at hstep
    cases hstep
  | cons frame rest =>
    have hframe (x : Nat) (hx : frame.joined = some x) : c.key x ≠ none :=
      h.running_key frame (hrunning ▸ List.mem_cons_self) x hx
    have hrest (f : Frame) (hf : f ∈ rest) (x : Nat) (hx : f.joined = some x) : c.key x ≠ none :=
      h.running_key f (hrunning ▸ List.mem_cons_of_mem frame hf) x hx
    rw [hrunning] at hstep
    cases frame with
    | finished handle =>
      obtain rfl := Option.some.inj hstep
      exact h.of_requests rfl rfl rfl h.unqueue_key hrest
    | waiting r found =>
      dsimp only at hstep
      by_cases hwaiting : c.waitingForCb
      · rw [if_pos hwaiting] at hstep
        exact Option.some.inj hstep ▸ h
      · rw [if_neg hwaiting] at hstep
        cases found with
        | false =>
          obtain rfl := Option.some.inj hstep
          exact h.of_requests rfl rfl rfl h.unqueue_key hrest
        | true =>
          obtain rfl := Option.some.inj hstep
          refine h.of_requests rfl rfl rfl h.unqueue_key fun f hf x hx => ?_
          rcases List.mem_cons.mp hf with rfl | hf
          · exact hframe x hx
          · exact hrest f hf x hx
    | draining r =>
      obtain ⟨handle, heq⟩ := withKey_eq (hframe r rfl)
      dsimp only at hstep
      rw [heq] at hstep
      obtain rfl := Option.some.inj hstep
      split
      · exact h
      · exact h.of_requests rfl rfl rfl h.unqueue_key hrest

theorem Keyed.step_eq (h : c.Keyed) (label : Label) : AlbumartClient.step c label = c.on label :=
  if_neg (by simp [h.alive])

theorem Keyed.step {label : Label} (h : c.Keyed) (hanswered : c.Answered label)
    (hstep : AlbumartClient.step c label = some c') : c'.Keyed := by
  rw [h.step_eq] at hstep
  cases label with
  | queue => exact Option.some.inj hstep ▸ h.queue
  | queueThumbnail => exact Option.some.inj hstep ▸ h.queueThumbnail
  | unqueue r =>
    obtain ⟨p, hp, rfl⟩ := Option.map_eq_some_iff.mp hstep
    exact h.unqueue ((h.plain_key_iff hp).not.mpr (hanswered p hp))
  | join r =>
    obtain ⟨p, hp, rfl⟩ := Option.map_eq_some_iff.mp hstep
    exact h.join ((h.plain_key_iff hp).not.mpr (hanswered p hp))
  | gotHandle r handle =>
    obtain ⟨hr, hstep⟩ := Option.ite_none_right_eq_some.mp hstep
    exact Option.some.inj hstep ▸ h.gotHandle hr handle
  | unqueued r handle =>
    obtain ⟨hcall, hstep⟩ := Option.ite_none_right_eq_some.mp hstep
    exact Option.some.inj hstep ▸ h.unqueued hcall
  | finished handle => exact Option.some.inj hstep ▸ h.finished handle
  | goOn => exact h.goOn hstep

theorem keyed_init : init.Keyed where
  alive := rfl
  queue_lt _ h := nomatch h
  queue_nodup := List.nodup_nil
  real_plain _ _ _ h := nomatch h
  key_iff _ _ h := nomatch h
  unqueue_key _ h := nomatch h
  running_key _ h := nomatch h

theorem Keyed.answered_of_safe (h : c.Keyed) {use : Nat → UInt32 → AlbumartClient}
    (hsafe : ∀ c', (c.plain r).map (fun p => c.withKey p (use p)) = some c' → c'.stopped = false) (p : Nat)
    (hp : c.plain r = some p) : p ∉ c.queueCalls := by
  intro hmem
  have hkey := (h.plain_key_iff hp).mpr hmem
  have hcalled := hsafe (c.withKey p (use p)) (by rw [hp, Option.map_some])
  rw [withKey, hkey] at hcalled
  cases hcalled

theorem Keyed.safe_iff (h : c.Keyed) (label : Label) :
    (∀ c', AlbumartClient.step c label = some c' → c'.stopped = false) ↔ c.Answered label := by
  constructor
  · intro hsafe
    rw [h.step_eq] at hsafe
    cases label with
    | unqueue r => exact h.answered_of_safe hsafe
    | join r => exact h.answered_of_safe hsafe
    | queue | queueThumbnail | gotHandle | unqueued | finished | goOn => trivial
  · exact fun hanswered c' hstep => (h.step hanswered hstep).alive

/-- The program gets through its run exactly if it unqueues and joins requests that have been answered. -/
theorem usesKeys_iff (labels : List Label) : UsesKeys labels ↔ StepRun.Guarded step Answered init labels :=
  StepRun.forall_safe_iff (fun _ h => h.alive) (fun _ label h => h.safe_iff label)
    (fun _ _ _ h hanswered hstep => h.step hanswered hstep) keyed_init labels

theorem not_usesKeys : ¬ UsesKeys [.queue, .unqueue 0] ∧ ¬ UsesKeys [.queueThumbnail, .join 0] := by
  constructor
  · intro h
    cases h _ _ (List.prefix_refl _) rfl
  · intro h
    cases h _ _ (List.prefix_refl _) rfl

/-- Both functions may be called on every request there is. -/
theorem exists_plain {labels : List Label} (hg : StepRun.Guarded step Answered init labels)
    (hrun : StepRun.run step init labels = some c) (hr : r < c.requests.length) : ∃ p, c.plain r = some p := by
  have hkeyed : c.Keyed := StepRun.guarded_invariant (fun _ _ _ h hanswered hstep => h.step hanswered hstep)
    keyed_init hg hrun
  exact hkeyed.exists_plain hr

end

end AlbumartClient

end HildonThumbnail
