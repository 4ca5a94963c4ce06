import HildonThumbnail.Albumart.Heard

/-! The album art service and one program that asks it, on a bus that delivers in the order of
sending: every request is called back once, unless it names nothing. -/

namespace HildonThumbnail

inductive AlbumartCall
  | queue (r : Nat) (artistOrTitle album kind : String)
  | unqueue (handle : UInt32)

def AlbumartCall.queues : AlbumartCall → Option Nat
  | .queue r _ _ _ => some r
  | .unqueue _ => none

/-- `calls` are on their way to the service, `delivered` counts the messages that have come from it.
`called` are the requests whose callbacks were invoked, `nameless` those that name nothing and `unqueued`
those that were unqueued: the code records none of the three. -/
structure AlbumartSystem where
  client : AlbumartClient
  daemon : Albumart
  calls : List AlbumartCall
  delivered : Nat
  called : List Nat
  nameless : List Nat
  unqueued : List Nat

/-- `callError` is the reply that the bus makes up for a Queue call, with the handle that was in
memory, and `unqueueError` the one for an Unqueue call, which the service never answers. -/
inductive AlbumartMove
  | queue (artistOrTitle album kind : Option String)
  | queueThumbnail (artistOrTitle album kind : Option String)
  | unqueue (r : Nat)
  | join (r : Nat)
  | goOn
  | takeCall
  | methodReturn
  | worker (t : Nat)
  | deliver
  | callError (r : Nat) (handle : UInt32)
  | unqueueError (r : Nat) (handle : UInt32)

namespace AlbumartSystem

def init : AlbumartSystem := ⟨.init, albumartInit, [], 0, [], [], []⟩

def onClient (s : AlbumartSystem) (c : Option AlbumartClient) : Option AlbumartSystem :=
  c.map fun c => { s with client := c }

def onDaemon (s : AlbumartSystem) (d : Option Albumart) : Option AlbumartSystem :=
  d.map fun d => { s with daemon := d }

/-- The Queue call of the request `r`; a NULL is carried as an empty string. -/
def queued (s : AlbumartSystem) (r : Nat) (artistOrTitle album kind : Option String) (c : AlbumartClient) :
    AlbumartSystem :=
  { s with
    client := c
    calls := s.calls ++ [.queue r (artistOrTitle.getD "") (album.getD "") (kind.getD "")]
    nameless := s.nameless ++ if artistOrTitle.getD "" = "" ∧ album.getD "" = "" then [r] else [] }

/-- The request `p` is the one that `r` delegates to; there is no call without its key. -/
def unqueue (s : AlbumartSystem) (r : Nat) : Option AlbumartSystem :=
  (s.client.plain r).bind fun p => (s.client.step (.unqueue r)).map fun c =>
    { s with
      client := c
      calls := s.calls ++ ((s.client.key p).map AlbumartCall.unqueue).toList
      unqueued := s.unqueued ++ [p] }

def takeCall (env : Nat → AlbumartWorkEnv) (s : AlbumartSystem) : Option AlbumartSystem :=
  match s.calls with
  | [] => none
  | .queue r artistOrTitle album kind :: calls =>
    (s.daemon.step env (.queue r artistOrTitle album kind 0)).map fun d => { s with daemon := d, calls := calls }
  | .unqueue handle :: calls =>
    (s.daemon.step env (.unqueue handle)).map fun d => { s with daemon := d, calls := calls }

/-- The program listens to no signal but Finished, and drops the reply to a call that has had one. -/
def receive (c : AlbumartClient) : AlbumartMessage → Option AlbumartClient
  | .signal (.finished num) => c.step (.finished num)
  | .signal (.started _) => some c
  | .signal (.error _ _ _) => some c
  | .signal (.ready _ _ _ _) => some c
  | .methodReturn r num => if r ∈ c.queueCalls then c.step (.gotHandle r num) else some c

/-- The request whose callback a message invokes. -/
def invoked (c : AlbumartClient) (m : AlbumartMessage) : List Nat := (m.finishes.bind c.tasks.lookup).toList

def deliver (s : AlbumartSystem) : Option AlbumartSystem :=
  match s.daemon.sent[s.delivered]? with
  | none => none
  | some m => (receive s.client m).map fun c =>
    { s with client := c, delivered := s.delivered + 1, called := s.called ++ invoked s.client m }

def step (env : Nat → AlbumartWorkEnv) (s : AlbumartSystem) : AlbumartMove → Option AlbumartSystem
  | .queue artistOrTitle album kind =>
    (s.client.step .queue).map (s.queued s.client.requests.length artistOrTitle album kind)
  | .queueThumbnail artistOrTitle album kind =>
    (s.client.step .queueThumbnail).map (s.queued (s.client.requests.length + 1) artistOrTitle album kind)
  | .unqueue r => s.unqueue r
  | .join r => s.onClient (s.client.step (.join r))
  | .goOn => s.onClient (s.client.step .goOn)
  | .takeCall => s.takeCall env
  | .methodReturn => s.onDaemon (s.daemon.step env .methodReturn)
  | .worker t => s.onDaemon (s.daemon.step env (.worker t))
  | .deliver => s.deliver
  | .callError r handle => s.onClient (s.client.step (.gotHandle r handle))
  | .unqueueError r handle => s.onClient (s.client.step (.unqueued r handle))

/-- No task is finished before its reply is sent, no handle is issued twice, no Queue call fails, and
a request is unqueued and joined after its reply. -/
def Orderly (s : AlbumartSystem) : AlbumartMove → Prop
  | .worker t => s.daemon.Orderly (.worker t)
  | .takeCall => ∀ r artistOrTitle album kind calls, s.calls = .queue r artistOrTitle album kind :: calls →
      s.daemon.Orderly (.queue r artistOrTitle album kind 0)
  | .unqueue r => s.client.Answered (.unqueue r)
  | .join r => s.client.Answered (.join r)
  | .callError _ _ => False
  | .queue _ _ _ | .queueThumbnail _ _ _ | .goOn | .methodReturn | .deliver | .unqueueError _ _ => True

/-- Nothing is under way but joins. -/
structure Quiet (s : AlbumartSystem) : Prop where
  calls : s.calls = []
  returning : s.daemon.returning = none
  tasks : s.daemon.Drained
  messages : s.delivered = s.daemon.sent.length
  callbacks : ∀ handle, .finished handle ∉ s.client.running

/-- A request that names something has been called back; one that names nothing has not, and stays in the
table of tasks, so that a join of it goes on for ever. -/
def Served (s : AlbumartSystem) : Prop :=
  ∀ r k, s.client.requests[r]? = some ⟨k, none⟩ →
    (r ∈ s.nameless → s.called.count r = 0) ∧
      (r ∉ s.unqueued → r ∉ s.nameless → s.called.count r = 1) ∧
      (r ∉ s.unqueued → ((∃ handle, s.client.tasks.lookup handle = some r) ↔ r ∈ s.nameless))

open AlbumartMessage (replied ended)

def got (s : AlbumartSystem) : List AlbumartMessage := s.daemon.sent.take s.delivered

def pending (s : AlbumartSystem) : List AlbumartMessage := s.daemon.sent.drop s.delivered

/-- The requests that wait for a reply are those of the messages, of the reply under way and of the calls
that are still to come, in this order. -/
structure Connected (s : AlbumartSystem) (skipped : List UInt32) : Prop where
  daemon : s.daemon.Answering skipped
  keyed : s.client.Keyed
  heard : s.client.Heard s.got s.called s.unqueued
  bound : s.delivered ≤ s.daemon.sent.length
  awaited : s.client.queueCalls = (replied s.pending).map Prod.fst ++ (s.daemon.returning.map Prod.fst).toList ++
    s.calls.filterMap AlbumartCall.queues
  skipped_iff : ∀ r num, (r, num) ∈ s.daemon.replies → (num ∈ skipped ↔ r ∈ s.nameless)
  nameless_iff : ∀ r artistOrTitle album kind, .queue r artistOrTitle album kind ∈ s.calls →
    (artistOrTitle = "" ∧ album = "" ↔ r ∈ s.nameless)
  nameless_lt : ∀ r ∈ s.nameless, r < s.client.requests.length

theorem context_of_nameless {a : AlbumartAction} (h : a.nameless = true) : ∃ r, a.context = some r := by
  cases a with
  | queue context => exact ⟨context, rfl⟩
  | methodReturn | unqueue | worker => cases h

section Daemon
variable {env : Nat → AlbumartWorkEnv} {s : AlbumartSystem} {skipped : List UInt32} {d' : Albumart}
    {a : AlbumartAction}

theorem Connected.daemonStep (h : s.Connected skipped) (ho : s.daemon.Orderly a)
    (hs : s.daemon.step env a = some d')
    {calls : List AlbumartCall} (hcalls : s.calls.filterMap AlbumartCall.queues =
      a.context.toList ++ calls.filterMap AlbumartCall.queues) (hsub : calls ⊆ s.calls)
    (hnameless : ∀ r, a.context = some r → (a.nameless = true ↔ r ∈ s.nameless)) :
    ∃ skipped, ({ s with daemon := d', calls := calls } : AlbumartSystem).Connected skipped := by
  obtain ⟨⟨new, he⟩, hanswering⟩ := h.daemon.step ho hs
  have hgot : d'.sent.take s.delivered = s.got := by
    rw [he.sent, List.take_append_of_le_length h.bound]
    rfl
  have hpending : d'.sent.drop s.delivered = s.pending ++ new := by
    rw [he.sent, List.drop_append_of_le_length h.bound]
    rfl
  refine ⟨_, hanswering, h.keyed, ?_, ?_, ?_, fun r num hr => ?_, fun r artistOrTitle album kind hr =>
    h.nameless_iff r artistOrTitle album kind (hsub hr), h.nameless_lt⟩
  · change s.client.Heard (d'.sent.take s.delivered) s.called s.unqueued
    rw [hgot]
    exact h.heard
  · have hbound := h.bound
    change s.delivered ≤ d'.sent.length
    rw [he.sent, List.length_append]
    omega
  · change s.client.queueCalls = (replied (d'.sent.drop s.delivered)).map Prod.fst ++ _ ++ calls.filterMap _
    have hreplies := he.replies
    rw [Albumart.replies, Albumart.replies, he.sent, AlbumartMessage.replied_append, List.append_assoc,
      List.append_assoc, List.append_cancel_left_eq] at hreplies
    have howed := congrArg (List.map Prod.fst) hreplies
    simp only [List.map_append, ← Option.toList_map] at howed
    rw [h.awaited, hcalls, hpending, AlbumartMessage.replied_append, List.map_append]
    simp only [List.append_assoc]
    rw [← List.append_assoc (List.map Prod.fst (replied new)), howed]
    simp [Function.comp_def]
  · change (r, num) ∈ d'.replies at hr
    rw [he.replies, List.mem_append] at hr
    change _ ↔ r ∈ s.nameless
    rw [List.mem_append]
    rcases hr with hr | hr
    · have hold : num ∉ if a.nameless then [s.daemon.num + 1] else [] := by
        cases ha : a.nameless with
        | false => exact List.not_mem_nil
        | true =>
          obtain ⟨r, hcontext⟩ := context_of_nameless ha
          rintro hmem
          obtain rfl := List.mem_singleton.mp hmem
          refine ho.fresh hcontext ?_
          rw [Albumart.returned_eq]
          exact List.mem_map_of_mem hr
      rw [or_iff_left hold]
      exact h.skipped_iff r num hr
    · obtain ⟨x, hx, heq⟩ := List.mem_map.mp hr
      obtain ⟨rfl, rfl⟩ := Prod.mk.inj heq
      have hcontext := Option.mem_toList.mp hx
      have hnot : s.daemon.num + 1 ∉ skipped := fun hmem =>
        ho.fresh hcontext (h.daemon.accounts.returned_of_skipped hmem)
      rw [or_iff_right hnot, ← hnameless x hcontext]
      cases a.nameless <;> simp

end Daemon

section Deliver
variable {s : AlbumartSystem} {skipped : List UInt32} {m : AlbumartMessage} {c' : AlbumartClient}

def rest (s : AlbumartSystem) : List AlbumartMessage := s.daemon.sent.drop (s.delivered + 1)

theorem sent_eq (hm : s.daemon.sent[s.delivered]? = some m) : s.daemon.sent = s.got ++ m :: s.rest := by
  obtain ⟨hlt, heq⟩ := List.getElem?_eq_some_iff.mp hm
  have hdrop := List.drop_eq_getElem_cons hlt
  rw [heq] at hdrop
  rw [got, rest, ← hdrop, List.take_append_drop]

theorem got_succ (hm : s.daemon.sent[s.delivered]? = some m) :
    s.daemon.sent.take (s.delivered + 1) = s.got ++ [m] := by
  rw [List.take_add_one, hm]
  rfl

theorem pending_eq (hm : s.daemon.sent[s.delivered]? = some m) : s.pending = m :: s.rest := by
  obtain ⟨hlt, heq⟩ := List.getElem?_eq_some_iff.mp hm
  rw [pending, List.drop_eq_getElem_cons hlt, heq, rest]

/-- A handle whose reply comes now is heard of for the first time. -/
theorem Connected.fresh_reply (h : s.Connected skipped) {r : Nat} {num : UInt32}
    (hm : s.daemon.sent[s.delivered]? = some (.methodReturn r num)) :
    num ∉ (replied s.got).map Prod.snd ∧ num ∉ ended s.got := by
  have hnot : num ∉ (replied s.got).map Prod.snd := by
    have hnodup := h.daemon.nodup
    rw [Albumart.returned, sent_eq hm, AlbumartMessage.returns_eq, AlbumartMessage.replied_append, List.map_append,
      List.append_assoc, List.nodup_append] at hnodup
    intro hmem
    exact hnodup.2.2 num hmem num (by simp [replied, AlbumartMessage.reply?]) rfl
  refine ⟨hnot, fun hended => hnot ?_⟩
  obtain ⟨m, hmem, hfinishes⟩ := List.mem_filterMap.mp hended
  obtain ⟨i, hi⟩ := List.mem_iff_getElem?.mp hmem
  have hlt : i < s.delivered := by
    have hlen := (List.getElem?_eq_some_iff.mp hi).1
    rw [got, List.length_take] at hlen
    omega
  rw [got, List.getElem?_take_of_lt hlt] at hi
  cases m with
  | methodReturn => cases hfinishes
  | signal x =>
    cases x with
    | started | error | ready => cases hfinishes
    | finished k =>
      obtain rfl := Option.some.inj hfinishes
      have hbefore := h.daemon.timely i _ hi
      have hsublist : (s.daemon.sent.take i).Sublist s.got := List.take_sublist_take_left (Nat.le_of_lt hlt)
      rw [AlbumartMessage.returns_eq] at hbefore
      exact List.map_subset _ (hsublist.filterMap _).subset hbefore

/-- No handle is finished twice. -/
theorem Connected.fresh_finished (h : s.Connected skipped) {num : UInt32}
    (hm : s.daemon.sent[s.delivered]? = some (.signal (.finished num))) : num ∉ ended s.got := by
  have hcount := h.daemon.accounts.count num
  have hone := List.nodup_iff_count_le_one.mp h.daemon.nodup num
  have hfinished : s.daemon.finished = ended s.got ++ num :: ended s.rest := by
    rw [Albumart.finished, sent_eq hm, List.filterMap_append]
    rfl
  rw [hfinished, List.count_append, List.count_cons_self] at hcount
  exact List.count_eq_zero.mp (by omega)

theorem Connected.delivered (h : s.Connected skipped) (hm : s.daemon.sent[s.delivered]? = some m)
    (hkeyed : c'.Keyed)
    (hheard : c'.Heard (s.got ++ [m]) (s.called ++ invoked s.client m) s.unqueued)
    (hqueue : c'.queueCalls = (replied s.rest).map Prod.fst ++ (s.daemon.returning.map Prod.fst).toList ++
      s.calls.filterMap AlbumartCall.queues) (hlength : c'.requests.length = s.client.requests.length) :
    ({ s with client := c', delivered := s.delivered + 1, called := s.called ++ invoked s.client m } :
      AlbumartSystem).Connected skipped where
  daemon := h.daemon
  keyed := hkeyed
  heard := by
    change c'.Heard (s.daemon.sent.take (s.delivered + 1)) _ _
    rw [got_succ hm]
    exact hheard
  bound := (List.getElem?_eq_some_iff.mp hm).1
  awaited := hqueue
  skipped_iff := h.skipped_iff
  nameless_iff := h.nameless_iff
  nameless_lt r hr := by
    change r < c'.requests.length
    rw [hlength]
    exact h.nameless_lt r hr

theorem Connected.skip (h : s.Connected skipped) (hm : s.daemon.sent[s.delivered]? = some m)
    (hreply : replied [m] = [])
    (hended : ended [m] = []) : ({ s with
      delivered := s.delivered + 1
      called := s.called ++ invoked s.client m } : AlbumartSystem).Connected skipped := by
  have hnone : m.finishes = none := by
    cases hf : m.finishes with
    | none => rfl
    | some num => simp [ended, hf] at hended
  have hinvoked : invoked s.client m = [] := by rw [invoked, hnone]; rfl
  refine h.delivered hm h.keyed ?_ ?_ rfl
  · rw [hinvoked, List.append_nil]
    exact h.heard.skip hreply hended
  · have hpending : replied s.pending = replied s.rest := by
      rw [pending_eq hm]
      change replied ([m] ++ s.rest) = _
      rw [AlbumartMessage.replied_append, hreply, List.nil_append]
    rw [h.awaited, hpending]

theorem Connected.deliver (h : s.Connected skipped) {s' : AlbumartSystem} (hs : s.deliver = some s') :
    s'.Connected skipped := by
  rw [AlbumartSystem.deliver] at hs
  cases hm : s.daemon.sent[s.delivered]? with
  | none => simp [hm] at hs
  | some m =>
    simp only [hm] at hs
    obtain ⟨c', hc', rfl⟩ := Option.map_eq_some_iff.mp hs
    cases m with
    | signal x =>
      cases x with
      | started num | error num code message | ready artist album kind path =>
        obtain rfl := Option.some.inj hc'
        exact h.skip hm rfl rfl
      | finished num =>
        have hkeyed := h.keyed.step (show s.client.Answered (.finished num) from trivial) hc'
        obtain rfl := Option.some.inj ((h.keyed.step_eq _).symm.trans hc')
        obtain ⟨hrequests, _, hqueue, _⟩ := AlbumartClient.onTaskFinished_fields s.client num
        refine h.delivered hm hkeyed (h.heard.finished (h.fresh_finished hm)) ?_ (congrArg List.length hrequests)
        rw [hqueue, h.awaited, pending_eq hm]
        rfl
    | methodReturn r num =>
      have hqueue := h.awaited
      rw [pending_eq hm] at hqueue
      change s.client.queueCalls = r :: _ at hqueue
      have hr : r ∈ s.client.queueCalls := by
        rw [hqueue]
        exact List.mem_cons_self
      rw [receive, if_pos hr] at hc'
      have hkeyed := h.keyed.step (show s.client.Answered (.gotHandle r num) from trivial) hc'
      rw [h.keyed.step_eq] at hc'
      obtain rfl := Option.some.inj ((if_pos hr).symm.trans hc')
      obtain ⟨hnew, hended⟩ := h.fresh_reply hm
      refine h.delivered hm hkeyed ?_ ?_ (List.length_modify ..)
      · simpa [invoked, AlbumartMessage.finishes] using h.heard.gotHandle h.keyed.queue_nodup hr hnew hended
      · change s.client.queueCalls.erase r = _
        rw [hqueue, List.erase_cons_head]
        rfl

end Deliver

section Client
variable {s : AlbumartSystem} {skipped : List UInt32} {c' : AlbumartClient}

theorem Connected.lt_of_reply (h : s.Connected skipped) {r : Nat} {num : UInt32}
    (hr : (r, num) ∈ s.daemon.replies) :
    r < s.client.requests.length := by
  have hsplit : s.daemon.replies = replied s.got ++ (replied s.pending ++ s.daemon.returning.toList) := by
    rw [Albumart.replies, ← List.append_assoc, ← AlbumartMessage.replied_append, got, pending,
      List.take_append_drop]
  rw [hsplit, List.mem_append] at hr
  rcases hr with hr | hr
  · have hkey := (h.heard.key r num).mpr hr
    rw [AlbumartClient.key] at hkey
    obtain ⟨q, hq, _⟩ := Option.bind_eq_some_iff.mp hkey
    exact (List.getElem?_eq_some_iff.mp hq).1
  · refine h.keyed.queue_lt r ?_
    have hmem : r ∈ (replied s.pending ++ s.daemon.returning.toList).map Prod.fst := List.mem_map.mpr ⟨_, hr, rfl⟩
    rw [h.awaited]
    rw [List.map_append, ← Option.toList_map] at hmem
    exact List.mem_append_left _ hmem

theorem Connected.lt_of_call (h : s.Connected skipped) {r : Nat} {artistOrTitle album kind : String}
    (hr : .queue r artistOrTitle album kind ∈ s.calls) : r < s.client.requests.length := by
  refine h.keyed.queue_lt r ?_
  rw [h.awaited]
  exact List.mem_append_right _ (List.mem_filterMap.mpr ⟨_, hr, rfl⟩)

/-- A new request has an index of its own, so that nothing said before was about it. -/
theorem Connected.queued (h : s.Connected skipped) (artistOrTitle album kind : Option String)
    (added : List AlbumartClient.HildonAlbumartRequest) (hadded : ∀ q ∈ added, q.key = none) (hkeyed : c'.Keyed)
    (hrequests : c'.requests = s.client.requests ++ (added ++ [⟨none, none⟩]))
    (hqueue : c'.queueCalls = s.client.queueCalls ++ [s.client.requests.length + added.length])
    (htasks : c'.tasks = s.client.tasks) (hrunning : c'.running = s.client.running)
    (hunqueue : c'.unqueueCalls = s.client.unqueueCalls) :
    (s.queued (s.client.requests.length + added.length) artistOrTitle album kind c').Connected skipped := by
  have hlength : c'.requests.length = s.client.requests.length + added.length + 1 := by
    rw [hrequests, List.length_append, List.length_append, List.length_singleton, Nat.add_assoc]
  have hnew {x : Nat} (hx : x < s.client.requests.length) : x ∉
      if artistOrTitle.getD "" = "" ∧ album.getD "" = "" then [s.client.requests.length + added.length]
      else [] := by
    split
    · rw [List.mem_singleton]
      omega
    · exact List.not_mem_nil
  refine ⟨h.daemon, hkeyed, h.heard.append hadded hrequests hqueue htasks hrunning hunqueue, h.bound, ?_,
    fun x num hx => ?_, fun x a b k hx => ?_, fun x hx => ?_⟩
  · change c'.queueCalls = _ ++ (s.calls ++ [_]).filterMap AlbumartCall.queues
    rw [hqueue, h.awaited, List.filterMap_append, ← List.append_assoc]
    rfl
  · change _ ↔ x ∈ s.nameless ++ _
    rw [List.mem_append, or_iff_left (hnew (h.lt_of_reply hx))]
    exact h.skipped_iff x num hx
  · change _ ↔ x ∈ s.nameless ++ _
    rw [List.mem_append]
    rcases List.mem_append.mp hx with hx | hx
    · rw [or_iff_left (hnew (h.lt_of_call hx))]
      exact h.nameless_iff x a b k hx
    · obtain ⟨rfl, rfl, rfl, rfl⟩ := AlbumartCall.queue.inj (List.mem_singleton.mp hx)
      have hold : s.client.requests.length + added.length ∉ s.nameless := by
        intro hmem
        have hlt := h.nameless_lt _ hmem
        omega
      rw [or_iff_right hold]
      split
      · next hnone => exact iff_of_true hnone (List.mem_singleton_self _)
      · next hsome => exact iff_of_false hsome List.not_mem_nil
  · change x < c'.requests.length
    rw [hlength]
    rcases List.mem_append.mp hx with hx | hx
    · have hlt := h.nameless_lt x hx
      omega
    · split at hx
      · rw [List.mem_singleton.mp hx]
        omega
      · cases hx

/-- The other moves of the program leave its requests as they are. -/
theorem Connected.client (h : s.Connected skipped) {unqueued : List Nat} {calls : List AlbumartCall}
    (hkeyed : c'.Keyed)
    (hheard : c'.Heard s.got s.called unqueued) (hqueue : c'.queueCalls = s.client.queueCalls)
    (hlength : c'.requests.length = s.client.requests.length) (hcalls : calls.filterMap AlbumartCall.queues = []) :
    ({ s with client := c', calls := s.calls ++ calls, unqueued := unqueued } : AlbumartSystem).Connected
      skipped where
  daemon := h.daemon
  keyed := hkeyed
  heard := hheard
  bound := h.bound
  awaited := by
    change c'.queueCalls = _ ++ (s.calls ++ calls).filterMap AlbumartCall.queues
    rw [hqueue, h.awaited, List.filterMap_append, hcalls, List.append_nil]
    rfl
  skipped_iff := h.skipped_iff
  nameless_iff r artistOrTitle album kind hr := by
    refine h.nameless_iff r artistOrTitle album kind ((List.mem_append.mp hr).resolve_right fun hmem => ?_)
    have hnew : r ∈ calls.filterMap AlbumartCall.queues := List.mem_filterMap.mpr ⟨_, hmem, rfl⟩
    rw [hcalls] at hnew
    cases hnew
  nameless_lt r hr := by
    change r < c'.requests.length
    rw [hlength]
    exact h.nameless_lt r hr

theorem Connected.onClient (h : s.Connected skipped) (hkeyed : c'.Keyed)
    (hheard : c'.Heard s.got s.called s.unqueued)
    (hqueue : c'.queueCalls = s.client.queueCalls) (hlength : c'.requests.length = s.client.requests.length) :
    ({ s with client := c' } : AlbumartSystem).Connected skipped := by
  have hh :=
    h.client hkeyed hheard hqueue hlength
      (show ([] : List AlbumartCall).filterMap AlbumartCall.queues = [] from rfl)
  rw [List.append_nil] at hh
  exact hh

theorem Connected.goOn (h : s.Connected skipped) (hs : s.client.step .goOn = some c') :
    ({ s with client := c' } : AlbumartSystem).Connected skipped := by
  have hkeyed := h.keyed.step (show s.client.Answered .goOn from trivial) hs
  rw [h.keyed.step_eq] at hs
  rcases h.keyed.goOn_cases hs with ⟨handle, rest, hrunning, rfl⟩ | ⟨running, rfl, hrunning⟩
  · exact h.onClient hkeyed (h.heard.returned hrunning) rfl rfl
  · exact h.onClient hkeyed (h.heard.running hrunning) rfl rfl

theorem Connected.join (h : s.Connected skipped) {r : Nat} (ho : s.client.Answered (.join r))
    (hs : s.client.step (.join r) = some c') : ({ s with client := c' } : AlbumartSystem).Connected skipped := by
  have hkeyed := h.keyed.step ho hs
  rw [h.keyed.step_eq] at hs
  obtain ⟨p, hp, rfl⟩ := Option.map_eq_some_iff.mp hs
  obtain ⟨handle, heq⟩ := AlbumartClient.withKey_eq
    ((h.keyed.plain_key_iff hp).not.mpr (ho p hp))
  rw [AlbumartClient.hildonAlbumartRequestJoin, heq] at hkeyed ⊢
  exact h.onClient hkeyed (h.heard.running fun num => by simp) rfl rfl

theorem Connected.unqueue (h : s.Connected skipped) {r : Nat} (ho : s.client.Answered (.unqueue r))
    {s' : AlbumartSystem}
    (hs : s.unqueue r = some s') : s'.Connected skipped := by
  rw [AlbumartSystem.unqueue] at hs
  obtain ⟨p, hp, hs⟩ := Option.bind_eq_some_iff.mp hs
  obtain ⟨c', hc', rfl⟩ := Option.map_eq_some_iff.mp hs
  have hkeyed := h.keyed.step ho hc'
  rw [h.keyed.step_eq] at hc'
  obtain ⟨p', hp', rfl⟩ := Option.map_eq_some_iff.mp hc'
  obtain rfl := Option.some.inj (hp.symm.trans hp')
  obtain ⟨handle, heq⟩ := AlbumartClient.withKey_eq
    ((h.keyed.plain_key_iff hp).not.mpr (ho p hp))
  rw [AlbumartClient.hildonAlbumartRequestUnqueue, heq] at hkeyed ⊢
  refine h.client hkeyed ?_ rfl rfl ?_
  · refine h.heard.frame rfl rfl rfl (fun _ => Iff.rfl) (fun call hcall => ?_) (List.subset_append_left _ _)
    rcases List.mem_append.mp hcall with hcall | hcall
    · exact List.mem_append_left _ (h.heard.unqueueCalls call hcall)
    · rw [List.mem_singleton.mp hcall]
      exact List.mem_append_right _ List.mem_cons_self
  · cases s.client.key p <;> rfl

theorem Connected.unqueued (h : s.Connected skipped) {r : Nat} {handle : UInt32}
    (hs : s.client.step (.unqueued r handle) = some c') :
      ({ s with client := c' } : AlbumartSystem).Connected skipped := by
  have hkeyed := h.keyed.step (show s.client.Answered (.unqueued r handle) from trivial) hs
  rw [h.keyed.step_eq] at hs
  obtain ⟨hcall, hs⟩ := Option.ite_none_right_eq_some.mp hs
  obtain rfl := Option.some.inj hs
  obtain ⟨num, hkey⟩ := Option.ne_none_iff_exists'.mp (h.keyed.unqueue_key _ hcall)
  have heq : s.client.onUnqueued (r, handle) = { s.client with
      tasks := s.client.tasks.erase num
      unqueueCalls := s.client.unqueueCalls.erase (r, handle) } := by
    rw [AlbumartClient.onUnqueued, AlbumartClient.withKey, hkey]
  rw [heq] at hkeyed ⊢
  refine h.onClient hkeyed ?_ rfl rfl
  refine h.heard.erase num (fun x hx hu => ?_) rfl rfl rfl (fun _ hk => hk) (fun _ _ hk => hk)
    fun _ hmem => List.mem_of_mem_erase hmem
  -- the handle is that of the unqueued request alone
  have hr := (h.heard.key r num).mp hkey
  have hnodup := h.daemon.nodup
  have hsublist : (replied s.got).Sublist (replied s.daemon.sent) := (List.take_sublist _ _).filterMap _
  have hsame : x = r := by
    rw [Albumart.returned, AlbumartMessage.returns_eq] at hnodup
    have hgot := (List.nodup_append.mp hnodup).1.sublist (hsublist.map Prod.snd)
    exact congrArg Prod.fst (List.inj_on_of_nodup_map hgot hx hr rfl)
  rw [hsame] at hu
  exact absurd (h.heard.unqueueCalls _ hcall) hu

end Client

section Runs
variable {env : Nat → AlbumartWorkEnv} {s s' : AlbumartSystem} {skipped : List UInt32}

theorem Connected.takeCall (h : s.Connected skipped) (ho : s.Orderly .takeCall) (hs : s.takeCall env = some s') :
    ∃ skipped, s'.Connected skipped := by
  rw [AlbumartSystem.takeCall] at hs
  cases hcalls : s.calls with
  | nil => simp [hcalls] at hs
  | cons call calls =>
    have hsub : calls ⊆ s.calls := hcalls ▸ List.subset_cons_self call calls
    rw [hcalls] at hs
    cases call with
    | queue r artistOrTitle album kind =>
      obtain ⟨d, hd, rfl⟩ := Option.map_eq_some_iff.mp hs
      refine h.daemonStep (ho r artistOrTitle album kind calls hcalls) hd (by rw [hcalls]; rfl) hsub fun x hx => ?_
      obtain rfl := Option.some.inj hx
      rw [← h.nameless_iff r artistOrTitle album kind (hcalls ▸ List.mem_cons_self)]
      simp [AlbumartAction.nameless]
    | unqueue handle =>
      obtain ⟨d, hd, rfl⟩ := Option.map_eq_some_iff.mp hs
      refine h.daemonStep (show s.daemon.Orderly (.unqueue handle) from trivial) hd (by rw [hcalls]; rfl) hsub
        fun x hx => ?_
      cases hx

theorem Connected.onDaemon (h : s.Connected skipped) {a : AlbumartAction} (ho : s.daemon.Orderly a)
    (ha : a.context = none) {d' : Albumart} (hs : s.daemon.step env a = some d') :
    ∃ skipped, ({ s with daemon := d' } : AlbumartSystem).Connected skipped := by
  have hcalls :
      s.calls.filterMap AlbumartCall.queues = a.context.toList ++ s.calls.filterMap AlbumartCall.queues := by
    rw [ha]
    rfl
  refine h.daemonStep ho hs hcalls (List.Subset.refl _) fun x hx => ?_
  rw [ha] at hx
  cases hx

theorem connected_step (s : AlbumartSystem) (m : AlbumartMove) (s' : AlbumartSystem)
    (h : ∃ skipped, s.Connected skipped)
    (ho : s.Orderly m) (hs : s.step env m = some s') : ∃ skipped, s'.Connected skipped := by
  obtain ⟨skipped, h⟩ := h
  cases m with
  | queue artistOrTitle album kind =>
    obtain ⟨c', hc', rfl⟩ := Option.map_eq_some_iff.mp hs
    have hkeyed := h.keyed.step (show s.client.Answered .queue from trivial) hc'
    obtain rfl := Option.some.inj ((h.keyed.step_eq _).symm.trans hc')
    exact ⟨skipped, h.queued artistOrTitle album kind [] (by simp) hkeyed rfl rfl rfl rfl rfl⟩
  | queueThumbnail artistOrTitle album kind =>
    obtain ⟨c', hc', rfl⟩ := Option.map_eq_some_iff.mp hs
    have hkeyed := h.keyed.step (show s.client.Answered .queueThumbnail from trivial) hc'
    obtain rfl := Option.some.inj ((h.keyed.step_eq _).symm.trans hc')
    refine ⟨skipped, h.queued artistOrTitle album kind [⟨none, some (s.client.requests.length + 1)⟩]
      (by simp) hkeyed
      ?_ ?_ rfl rfl rfl⟩
    · exact List.append_assoc _ _ _
    · exact congrArg (fun n => s.client.queueCalls ++ [n]) List.length_append
  | unqueue r => exact ⟨skipped, h.unqueue ho hs⟩
  | join r =>
    obtain ⟨c', hc', rfl⟩ := Option.map_eq_some_iff.mp hs
    exact ⟨skipped, h.join ho hc'⟩
  | goOn =>
    obtain ⟨c', hc', rfl⟩ := Option.map_eq_some_iff.mp hs
    exact ⟨skipped, h.goOn hc'⟩
  | takeCall => exact h.takeCall ho hs
  | methodReturn =>
    obtain ⟨d, hd, rfl⟩ := Option.map_eq_some_iff.mp hs
    exact h.onDaemon (show s.daemon.Orderly .methodReturn from trivial) rfl hd
  | worker t =>
    obtain ⟨d, hd, rfl⟩ := Option.map_eq_some_iff.mp hs
    exact h.onDaemon (show s.daemon.Orderly (.worker t) from ho) rfl hd
  | deliver => exact ⟨skipped, h.deliver hs⟩
  | callError r handle => cases ho
  | unqueueError r handle =>
    obtain ⟨c', hc', rfl⟩ := Option.map_eq_some_iff.mp hs
    exact ⟨skipped, h.unqueued hc'⟩

theorem connected_init : init.Connected [] where
  daemon := ⟨⟨fun _ _ => rfl, fun _ => rfl⟩, .nil, by simp [init, albumartInit]⟩
  keyed := AlbumartClient.keyed_init
  heard := by constructor <;> simp [init, AlbumartClient.init, AlbumartClient.key, got, albumartInit, replied]
  bound := le_rfl
  awaited := rfl
  skipped_iff := by simp [init, albumartInit, Albumart.replies, replied]
  nameless_iff := by simp [init]
  nameless_lt := by simp [init]

theorem Connected.called_once (h : s.Connected skipped) (r : Nat) : s.called.count r ≤ 1 := by
  cases hkey : s.client.key r with
  | none =>
    rw [h.heard.uncalled r hkey]
    exact Nat.zero_le 1
  | some num =>
    have hcalled := h.heard.atMost r num ((h.heard.key r num).mp hkey)
    have hcount := h.daemon.accounts.count num
    have hone := List.nodup_iff_count_le_one.mp h.daemon.nodup num
    have hsublist : (ended s.got).Sublist s.daemon.finished := (List.take_sublist _ _).filterMap _
    have hended := hsublist.count_le num
    omega

theorem Connected.served (h : s.Connected skipped) (hq : s.Quiet) : s.Served := by
  intro r k hr
  have hgot : s.got = s.daemon.sent := by rw [got, hq.messages, List.take_length]
  have hnone : s.client.queueCalls = [] := by
    rw [h.awaited, pending, hq.messages, List.drop_length, hq.returning, hq.calls]
    rfl
  obtain ⟨num, rfl⟩ := Option.ne_none_iff_exists'.mp fun hk => by
    have hmem := (h.keyed.key_iff r k hr).mp hk
    rw [hnone] at hmem
    cases hmem
  have hreply : (r, num) ∈ replied s.got := (h.heard.key r num).mp (AlbumartClient.key_eq hr)
  have hreplies : (r, num) ∈ s.daemon.replies := List.mem_append_left _ (hgot ▸ hreply)
  have hskipped := h.skipped_iff r num hreplies
  have hreturned : s.daemon.returned.count num = 1 := by
    rw [Albumart.returned_eq]
    refine List.count_eq_one_of_mem ?_ (List.mem_map_of_mem hreplies)
    rw [← Albumart.returned_eq]
    exact h.daemon.nodup
  have hcount := h.daemon.accounts.count num
  rw [Albumart.alive_of_drained hq.tasks, hreturned] at hcount
  have hfinished : s.daemon.finished = ended s.got := by rw [hgot]; rfl
  rw [hfinished] at hcount
  have hcalled := h.heard.atMost r num hreply
  refine ⟨fun hnameless => ?_, fun hu hnamed => ?_,
    fun hu => ⟨fun ⟨handle, hlookup⟩ => ?_, fun hnameless => ⟨num, ?_⟩⟩⟩
  · have hpos := List.count_pos_iff.mpr (hskipped.mpr hnameless)
    omega
  · have hzero := List.count_eq_zero.mpr (hskipped.not.mpr hnamed)
    have hexactly := (h.heard.exactly r num hreply hu).1
    omega
  · obtain ⟨hreply', hrunning⟩ := h.heard.table handle r hlookup
    obtain rfl := h.heard.key_unique hreply hreply'
    have hnot : num ∉ ended s.got := fun hended => hq.callbacks num (hrunning hended)
    have hzero := List.count_eq_zero.mpr hnot
    exact hskipped.mp (List.count_pos_iff.mp (by omega))
  · have hpos := List.count_pos_iff.mpr (hskipped.mpr hnameless)
    exact (h.heard.exactly r num hreply hu).2 (List.count_eq_zero.mp (by omega))

end Runs

/-- In every orderly run of the program and the service each request is called back at most once, and when
nothing is under way, exactly those that name something and were not unqueued are known to have been. -/
theorem albumart_served (env : Nat → AlbumartWorkEnv) {moves : List AlbumartMove} {s : AlbumartSystem}
    (hrun : StepRun.run (step env) init moves = some s) (horderly : StepRun.Guarded (step env) Orderly init moves) :
    (∀ r, s.called.count r ≤ 1) ∧ (s.Quiet → s.Served) := by
  obtain ⟨skipped, h⟩ : ∃ skipped, s.Connected skipped :=
    StepRun.guarded_invariant connected_step ⟨[], connected_init⟩ horderly hrun
  exact ⟨h.called_once, h.served⟩

/-- What is enough for a run without joins. -/
def Timely (s : AlbumartSystem) : AlbumartMove → Bool
  | .worker _ => s.daemon.returning.isNone
  | .takeCall => s.daemon.num + 1 ∉ s.daemon.returned
  | .unqueue _ | .join _ | .callError _ _ => false
  | .queue _ _ _ | .queueThumbnail _ _ _ | .goOn | .methodReturn | .deliver | .unqueueError _ _ => true

theorem orderly_of_timely (s : AlbumartSystem) (m : AlbumartMove) (h : s.Timely m = true) : s.Orderly m := by
  cases m with
  | worker t =>
    intro e r _ _
    rw [Option.isNone_iff_eq_none.mp h]
    exact Option.some_ne_none _ ∘ Eq.symm
  | takeCall =>
    intro _ _ _ _ _ _
    have hnew : s.daemon.num + 1 ∉ s.daemon.returned := of_decide_eq_true h
    exact hnew
  | unqueue | join | callError => cases h
  | queue | queueThumbnail | goOn | methodReturn | deliver | unqueueError => trivial

/-- One request for a cover, and one that names nothing. -/
def twoCovers : List AlbumartMove :=
  [.queue (some "artist") (some "album") (some "album"), .queue none none none, .takeCall, .methodReturn, .takeCall,
    .worker 0, .worker 0, .worker 0, .worker 0, .worker 0, .deliver, .deliver, .deliver, .deliver, .deliver,
      .deliver, .goOn]

theorem albumart_served_twoCovers :
    ∃ s, StepRun.run (step fun _ => Albumart.someAlbumartEnv) init twoCovers = some s ∧
    (∀ r, s.called.count r ≤ 1) ∧ s.Quiet ∧ s.Served := by
  have htimely :
      StepRun.Guarded (step fun _ => Albumart.someAlbumartEnv) (fun s m => s.Timely m = true) init twoCovers := by
    decide
  have hruns : ∃ s, StepRun.run (step fun _ => Albumart.someAlbumartEnv) init twoCovers = some s ∧
      (s.calls = [] ∧ s.daemon.returning = none ∧ s.delivered = s.daemon.sent.length ∧ s.client.running = []) ∧
      ∀ e ∈ s.daemon.memory.entries, e.2.pc = .done := ⟨_, rfl, ⟨rfl, rfl, rfl, rfl⟩, by decide⟩
  obtain ⟨s, hrun, ⟨hcalls, hreturning, hmessages, hrunning⟩, hdone⟩ := hruns
  have hquiet : s.Quiet := ⟨hcalls, hreturning, fun t e he => hdone ⟨t, e⟩ (AList.mem_lookup_iff.mp he), hmessages,
    by simp [hrunning]⟩
  obtain ⟨honce, hserved⟩ := albumart_served _ hrun (StepRun.guarded_mono orderly_of_timely htimely)
  exact ⟨s, hrun, honce, hquiet, hserved hquiet⟩

end AlbumartSystem

end HildonThumbnail
