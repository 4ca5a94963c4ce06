import HildonThumbnail.Bus.Replies
import HildonThumbnail.Bus.System
import HildonThumbnail.Thumbnailer.WorkSignals

/-! Every request of the client is served when the system is quiet, if no
Finished overtakes its reply and no Queue call of a standing request fails. -/

namespace HildonThumbnail

/-- Finished for the handle is still to come after the messages before `post`. -/
def Owed (d : Thumbnailer) (num : UInt32) (post : List Message) : Prop :=
  d.Live num ∨ ∃ t, .signal t (.finished num) ∈ post

def RepliesOwed (d : Thumbnailer) : List Message → Prop
  | [] => True
  | m :: post => (∀ r num, m = .methodReturn r num → Owed d num post) ∧ RepliesOwed d post

namespace System

def pending (s : System) : List Message := s.daemon.sent.drop s.delivered

/-- No task is finished before its reply is sent, no standing request gets an
error for a reply, and no handle is issued twice. -/
def Orderly (s : System) : Move → Prop
  | .worker t => ∀ e r, s.daemon.memory.lookup t = some e → e.pc = .working [] →
      s.daemon.returning ≠ some (r, e.task.num)
  | .callError r _ _ => s.client.isUnqueued r = true
  | .takeCall => ∀ context urls mimeHints handle,
      s.client.calls[s.taken]? = some (.queue context urls mimeHints handle) → ¬ s.daemon.Issued (s.daemon.num + 1)
  | _ => True

structure Connected (s : System) : Prop where
  daemon : s.daemon.Answering
  client : s.client.Accounted []
  bound : s.delivered ≤ s.daemon.sent.length
  noError : ∀ r message, .methodError r message ∉ s.daemon.sent
  owed : RepliesOwed s.daemon s.pending
  key : ∀ r k, s.client.key r = some k → (r, k) ∈ s.daemon.replies
  table : ∀ k r, s.client.tasks.lookup k = some r → s.client.key r = some k ∧ Owed s.daemon k s.pending
  unqueueCalls : ∀ r ∈ s.client.unqueueCalls, s.client.isUnqueued r = true

section Daemon
variable {d d' : Thumbnailer} {new : List Message}

theorem owed_emits (he : d.Emits d' new) {num : UInt32} {post : List Message} (h : Owed d num post) :
    Owed d' num (post ++ new) := by
  rcases h with hl | ⟨t, ht⟩
  · exact (he.live num hl).imp_right fun ⟨t, ht⟩ => ⟨t, List.mem_append_right post ht⟩
  · exact .inr ⟨t, List.mem_append_left new ht⟩

theorem repliesOwed_of_not_mem {l : List Message} (h : ∀ r num, .methodReturn r num ∉ l) : RepliesOwed d l := by
  induction l with
  | nil => trivial
  | cons m l ih =>
    refine ⟨fun r num hm => ?_, ih fun r num hmem => h r num (List.mem_cons_of_mem m hmem)⟩
    exact absurd (hm ▸ List.mem_cons_self) (h r num)

theorem repliesOwed_new (he : d.Emits d' new) : RepliesOwed d' new := by
  by_cases h : ∃ r num, .methodReturn r num ∈ new
  · obtain ⟨r, num, hmem⟩ := h
    obtain ⟨hnew, hlive⟩ := he.reply r num hmem
    rw [hnew]
    refine ⟨fun x k hx => .inl ?_, trivial⟩
    exact (Message.methodReturn.inj hx).2 ▸ hlive
  · exact repliesOwed_of_not_mem fun r num hmem => h ⟨r, num, hmem⟩

theorem repliesOwed_append (he : d.Emits d' new) {l : List Message} (h : RepliesOwed d l) :
    RepliesOwed d' (l ++ new) := by
  induction l with
  | nil => exact repliesOwed_new he
  | cons m l ih => exact ⟨fun r num hm => owed_emits he (h.1 r num hm), ih h.2⟩

theorem connected_daemon {s : System} (h : s.Connected) {a : Action} {env : Nat → WorkEnv} (taken : Nat)
    (ho : s.daemon.Orderly a) (hs : s.daemon.step env a = some d') :
    ({ s with daemon := d', taken := taken } : System).Connected := by
  obtain ⟨hanswering, new, he⟩ := Thumbnailer.answering_step h.daemon ho hs
  have hpending : d'.sent.drop s.delivered = s.pending ++ new := by
    rw [he.sent, List.drop_append_of_le_length h.bound]
    rfl
  refine ⟨hanswering, h.client, ?_, fun r message hmem => ?_, ?_, fun r k hk => he.replies _ (h.key r k hk),
    fun k r hr => ?_, h.unqueueCalls⟩
  · have hbound := h.bound
    change s.delivered ≤ d'.sent.length
    rw [he.sent, List.length_append]
    omega
  · change .methodError r message ∈ d'.sent at hmem
    rw [he.sent] at hmem
    exact (List.mem_append.mp hmem).elim (h.noError r message) (he.noError r message)
  · change RepliesOwed d' (d'.sent.drop s.delivered)
    rw [hpending]
    exact repliesOwed_append he h.owed
  · change _ ∧ Owed d' k (d'.sent.drop s.delivered)
    rw [hpending]
    exact (h.table k r hr).imp_right fun howed => owed_emits he howed

end Daemon

section Client
variable {s : System} {c' : Client}

theorem reply_unique (h : s.daemon.Answering) {x r : Nat} {k : UInt32} (hx : (x, k) ∈ s.daemon.replies)
    (hr : (r, k) ∈ s.daemon.replies) : x = r :=
  congrArg Prod.fst (List.inj_on_of_nodup_map h.nodup hx hr rfl)

theorem table_own (h : s.Connected) {x r : Nat} {k : UInt32} (hk : (r, k) ∈ s.daemon.replies)
    (hx : s.client.tasks.lookup k = some x) : x = r :=
  reply_unique h.daemon (h.key x k (h.table k x hx).1) hk

theorem unqueueCalls_later (h : s.Connected) (hlater : s.client.Later c')
    (hunqueue : ∀ r ∈ c'.unqueueCalls, r ∈ s.client.unqueueCalls ∨ c'.isUnqueued r = true) :
    ∀ r ∈ c'.unqueueCalls, c'.isUnqueued r = true := by
  intro r hr
  rcases hunqueue r hr with hold | hu
  · have hu := h.unqueueCalls r hold
    exact hlater.unqueued r (h.client.lt_of_isUnqueued hu) hu
  · exact hu

theorem connected_client (h : s.Connected) (hstep : c'.Accounted [] ∧ s.client.Later c')
    (hkey : ∀ r, c'.key r = s.client.key r)
    (htasks : ∀ k r, c'.tasks.lookup k = some r → s.client.tasks.lookup k = some r)
    (hunqueue : ∀ r ∈ c'.unqueueCalls, r ∈ s.client.unqueueCalls ∨ c'.isUnqueued r = true) :
    ({ s with client := c' } : System).Connected where
  daemon := h.daemon
  client := hstep.1
  bound := h.bound
  noError := h.noError
  owed := h.owed
  key r k hk := h.key r k (hkey r ▸ hk)
  table k r hr := by
    obtain ⟨hk, howed⟩ := h.table k r (htasks k r hr)
    exact ⟨(hkey r).trans hk, howed⟩
  unqueueCalls := unqueueCalls_later h hstep.2 hunqueue

theorem connected_kept (h : s.Connected) (hk : Client.Kept [] s.client c') :
    ({ s with client := c' } : System).Connected :=
  connected_client h ⟨hk.accounted, hk.later⟩ hk.key hk.removed_only hk.unqueueCalls

theorem opsKeep_request (c : Client) (ops : List Op) : Client.OpsKeep .request c ops := by
  induction ops generalizing c with
  | nil => trivial
  | cons o ops ih =>
    refine ⟨?_, ih _⟩
    cases o with
    | request uri mimeType upToDate => trivial
    | unqueue r => exact fun h => nomatch h

theorem connected_op (h : s.Connected) (o : Op) :
    ({ s with client := s.client.op .request o } : System).Connected :=
  connected_kept h (Client.kept_op h.client (opsKeep_request s.client [o]).1)

theorem connected_idle (h : s.Connected) {r : Nat} {ops : List Op}
    (hd : s.client.dispatch .request (.idle r ops) = some c') : ({ s with client := c' } : System).Connected := by
  have hkeeps : Client.EventKeeps .request s.client (.idle r ops) := opsKeep_request _ ops
  have hstep := Client.accounted_dispatch h.client hkeeps hd
  obtain ⟨hr, hd⟩ := Option.ite_none_right_eq_some.mp hd
  have hk := Client.accounted_idle h.client hr hkeeps
  obtain rfl := Option.some.inj hd
  exact connected_client h hstep
    (fun x => (hk.key x).trans (Client.key_invoke _ r _ x)) hk.removed_only hk.unqueueCalls

theorem connected_unqueued (h : s.Connected) {r : Nat}
    (hd : s.client.dispatch .request (.unqueued r) = some c') : ({ s with client := c' } : System).Connected := by
  obtain ⟨hr, hc'⟩ := Option.ite_none_right_eq_some.mp hd
  have hkeeps : Client.EventKeeps .request s.client (.unqueued r) := by
    intro k hk x hx
    rw [table_own h (h.key r k hk) hx]
    exact h.unqueueCalls r hr
  obtain rfl := Option.some.inj hc'
  exact connected_kept h (Client.kept_onUnqueued h.client hkeeps)

theorem onGotHandle_of_unqueued {c : Client} {r : Nat} (hu : c.isUnqueued r = true) (handle : UInt32)
    (error : Option String) : c.onGotHandle .request r handle error [] =
      { c with queueCalls := c.queueCalls.erase r, waitingForCb := false } := by
  have hsame : Obj.registerHandle c r handle = { c with queueCalls := c.queueCalls.erase r } := if_pos hu
  simp [Client.onGotHandle, Client.registerHandle, hsame]

theorem onGotHandle_of_standing {c : Client} {r : Nat} (hu : ¬ c.isUnqueued r = true) (handle : UInt32)
    (error : Option String) : c.onGotHandle .request r handle error [] =
      { ({ c with queueCalls := c.queueCalls.erase r } : Client).setKey r handle with
        tasks := c.tasks.insert handle r, waitingForCb := false } := by
  have hnew : Obj.registerHandle c r handle =
      { ({ c with queueCalls := c.queueCalls.erase r } : Client).setKey r handle with
        tasks := c.tasks.insert handle r } := if_neg hu
  simp [Client.onGotHandle, Client.registerHandle, hnew]

theorem connected_callError (h : s.Connected) {r : Nat} {handle : UInt32} {message : String}
    (hu : s.client.isUnqueued r = true)
    (hd : s.client.dispatch .request (.gotHandle r handle (some message) []) = some c') :
    ({ s with client := c' } : System).Connected := by
  have hkeeps : Client.EventKeeps .request s.client (.gotHandle r handle (some message) []) := by
    intro hne
    rw [hu] at hne
    cases hne
  have hstep := Client.accounted_dispatch h.client hkeeps hd
  obtain ⟨_, hd⟩ := Option.ite_none_right_eq_some.mp hd
  obtain rfl := Option.some.inj hd
  rw [onGotHandle_of_unqueued hu] at hstep ⊢
  exact connected_client h hstep (fun _ => rfl) (fun _ _ hx => hx) fun _ => .inl

end Client

section Deliver
variable {s : System} {c' : Client} {m : Message}

def rest (s : System) : List Message := s.daemon.sent.drop (s.delivered + 1)

theorem pending_eq (hm : s.daemon.sent[s.delivered]? = some m) : s.pending = m :: s.rest := by
  obtain ⟨hlt, heq⟩ := List.getElem?_eq_some_iff.mp hm
  rw [pending, List.drop_eq_getElem_cons hlt, heq, rest]

theorem connected_deliver (h : s.Connected) (hm : s.daemon.sent[s.delivered]? = some m)
    (hstep : c'.Accounted [] ∧ s.client.Later c') (hkey : ∀ r k, c'.key r = some k → (r, k) ∈ s.daemon.replies)
    (htable : ∀ k r, c'.tasks.lookup k = some r → c'.key r = some k ∧ Owed s.daemon k s.rest)
    (hunqueue : ∀ r ∈ c'.unqueueCalls, r ∈ s.client.unqueueCalls ∨ c'.isUnqueued r = true) :
    ({ s with client := c', delivered := s.delivered + 1 } : System).Connected where
  daemon := h.daemon
  client := hstep.1
  bound := (List.getElem?_eq_some_iff.mp hm).1
  noError := h.noError
  owed := by
    have howed := h.owed
    rw [pending_eq hm] at howed
    exact howed.2
  key := hkey
  table := htable
  unqueueCalls := unqueueCalls_later h hstep.2 hunqueue

theorem owed_rest (hm : s.daemon.sent[s.delivered]? = some m) {k : UInt32} (h : Owed s.daemon k s.pending)
    (hne : ∀ t, m ≠ .signal t (.finished k)) : Owed s.daemon k s.rest := by
  rw [pending_eq hm] at h
  refine h.imp_right fun ⟨t, ht⟩ => ⟨t, ?_⟩
  exact (List.mem_cons.mp ht).resolve_left fun heq => hne t heq.symm

theorem connected_other (h : s.Connected) (hm : s.daemon.sent[s.delivered]? = some m)
    (hstep : c'.Accounted [] ∧ s.client.Later c') (hkey : ∀ r, c'.key r = s.client.key r)
    (htasks : ∀ k r, c'.tasks.lookup k = some r →
      s.client.tasks.lookup k = some r ∧ ∀ t, m ≠ .signal t (.finished k))
    (hunqueue : ∀ r ∈ c'.unqueueCalls, r ∈ s.client.unqueueCalls ∨ c'.isUnqueued r = true) :
    ({ s with client := c', delivered := s.delivered + 1 } : System).Connected := by
  refine connected_deliver h hm hstep (fun r k hk => h.key r k (hkey r ▸ hk)) (fun k r hr => ?_) hunqueue
  obtain ⟨hr, hne⟩ := htasks k r hr
  obtain ⟨hk, howed⟩ := h.table k r hr
  exact ⟨(hkey r).trans hk, owed_rest hm howed hne⟩

theorem connected_skip (h : s.Connected) (hm : s.daemon.sent[s.delivered]? = some m)
    (hne : ∀ t k, m ≠ .signal t (.finished k)) :
    ({ s with delivered := s.delivered + 1 } : System).Connected :=
  connected_other h hm ⟨h.client, .refl _⟩ (fun _ => rfl) (fun k _ hr => ⟨hr, fun t => hne t k⟩) fun _ => .inl

theorem connected_finished (h : s.Connected) {t : Nat} {num : UInt32}
    (hm : s.daemon.sent[s.delivered]? = some (.signal t (.finished num))) (ops : List Op) :
    ({ s with
        client := s.client.onTaskFinished .request num ops
        delivered := s.delivered + 1 } : System).Connected := by
  have hkeeps : Client.EventKeeps .request s.client (.taskFinished num ops) := fun _ _ => opsKeep_request _ ops
  have hstep := Client.accounted_dispatch h.client hkeeps rfl
  have hother {k : UInt32} (hk : k ≠ num) (u : Nat) :
      Message.signal t (.finished num) ≠ .signal u (.finished k) := by
    intro heq
    simp only [Message.signal.injEq, Signal.finished.injEq] at heq
    exact hk heq.2.symm
  rcases Client.onTaskFinished_cases .request s.client num ops with ⟨hnone, heq⟩ | ⟨r, hr, ⟨_, heq⟩ | heq⟩
  · rw [heq] at hstep ⊢
    refine connected_other h hm hstep (fun _ => rfl) (fun k x hx => ⟨hx, hother ?_⟩) fun _ => .inl
    rintro rfl
    rw [hnone] at hx
    cases hx
  · rw [heq] at hstep ⊢
    refine connected_other h hm hstep (fun _ => rfl) (fun k x hx => ?_) fun _ => .inl
    rw [KeyTable.lookup_erase_eq] at hx
    obtain ⟨hk, hx⟩ := Option.ite_none_left_eq_some.mp hx
    exact ⟨hx, hother hk⟩
  · obtain ⟨q, hq⟩ := Client.exists_of_tasks h.client hr
    have hkept := Client.kept_ops (h.client.invoke hq Request.errors) (opsKeep_request _ ops)
    rw [heq] at hstep ⊢
    refine connected_other h hm hstep (fun x => (hkept.key x).trans (Client.key_invoke _ r _ x)) (fun k x hx => ?_)
      hkept.unqueueCalls
    rw [KeyTable.lookup_erase_eq] at hx
    obtain ⟨hk, hx⟩ := Option.ite_none_left_eq_some.mp hx
    exact ⟨hkept.removed_only k x hx, hother hk⟩

theorem connected_taskError (h : s.Connected) {t : Nat} {num : UInt32} {uris : List String} {code : Int}
    {message : String} (hm : s.daemon.sent[s.delivered]? = some (.signal t (.error num uris code message))) :
    ({ s with client := s.client.onTaskError num message, delivered := s.delivered + 1 } : System).Connected := by
  have hk := Client.kept_onTaskError h.client num message
  exact connected_other h hm ⟨hk.accounted, hk.later⟩ hk.key (fun k x hx => ⟨hk.removed_only k x hx, by simp⟩)
    hk.unqueueCalls

theorem mem_replies {r : Nat} {num : UInt32} (hm : s.daemon.sent[s.delivered]? = some (.methodReturn r num)) :
    (r, num) ∈ s.daemon.replies := by
  refine List.mem_append_left _ (List.mem_filterMap.mpr ⟨_, List.mem_of_getElem? hm, rfl⟩)

theorem not_listed (h : s.Connected) {r : Nat} (hr : r ∈ s.client.queueCalls) (hu : s.client.isUnqueued r = false)
    {k : UInt32} : s.client.tasks.lookup k ≠ some r := by
  intro hk
  have htokens := h.client.tokens_eq r hu
  have hcall := List.count_pos_iff.mpr hr
  have hlisted := Client.listed_pos hk
  rw [Client.tokens, List.count_nil] at htokens
  split at htokens <;> omega

theorem key_setKey (c : Client) (r : Nat) (handle : UInt32) {q : Request} (hq : c.requests.lookup r = some q)
    (x : Nat) : (c.setKey r handle).key x = if x = r then some handle else c.key x := by
  rw [Client.key, Client.setKey, Client.lookup_change, Client.key]
  by_cases hx : x = r
  · rw [hx, hq]
    simp
  · simp [hx]

theorem connected_methodReturn (h : s.Connected) {r : Nat} {num : UInt32}
    (hm : s.daemon.sent[s.delivered]? = some (.methodReturn r num)) (hr : r ∈ s.client.queueCalls) :
    ({ s with
        client := s.client.onGotHandle .request r num none []
        delivered := s.delivered + 1 } : System).Connected := by
  have hkeeps : Client.EventKeeps .request s.client (.gotHandle r num none []) := by
    intro hu x hx
    exact absurd (table_own h (mem_replies hm) hx ▸ hx) (not_listed h hr hu)
  have hstep := Client.accounted_dispatch h.client hkeeps (if_pos hr)
  by_cases hu : s.client.isUnqueued r = true
  · rw [onGotHandle_of_unqueued hu] at hstep ⊢
    exact connected_other h hm hstep (fun _ => rfl) (fun k x hx => ⟨hx, by simp⟩) fun _ => .inl
  · obtain ⟨q, hq⟩ := Client.exists_of_queueCalls h.client hr
    have heq := onGotHandle_of_standing hu num none
    have hkey (x : Nat) : (s.client.onGotHandle .request r num none []).key x =
        if x = r then some num else s.client.key x := by
      rw [heq]
      exact key_setKey { s.client with queueCalls := s.client.queueCalls.erase r } r num hq x
    refine connected_deliver h hm hstep (fun x k hk => ?_) (fun k x hx => ?_) fun x hx => ?_
    · rw [hkey] at hk
      split at hk
      · next hx => rw [hx, ← Option.some.inj hk]; exact mem_replies hm
      · exact h.key x k hk
    · have htasks : (s.client.onGotHandle .request r num none []).tasks = s.client.tasks.insert num r := by rw [heq]
      rw [htasks, KeyTable.lookup_insert_eq] at hx
      rw [hkey]
      split at hx
      · next hk =>
        have howed := h.owed
        rw [pending_eq hm] at howed
        rw [← Option.some.inj hx, if_pos rfl, hk]
        exact ⟨rfl, howed.1 r num rfl⟩
      · have hne : x ≠ r := by
          rintro rfl
          exact not_listed h hr (Bool.eq_false_iff.mpr hu) hx
        obtain ⟨hk, howed⟩ := h.table k x hx
        rw [if_neg hne]
        exact ⟨hk, owed_rest hm howed (by simp)⟩
    · rw [heq] at hx
      exact .inl hx

theorem connected_receive (h : s.Connected) {handle : UInt32} {ops : List Op} {s' : System}
    (hd : s.deliver handle ops = some s') : s'.Connected := by
  rw [deliver] at hd
  cases hm : s.daemon.sent[s.delivered]? with
  | none => simp [hm] at hd
  | some m =>
    simp only [hm] at hd
    obtain ⟨c', hc', rfl⟩ := Option.map_eq_some_iff.mp hd
    cases m with
    | signal t x =>
      cases x with
      | started num =>
        obtain rfl := Option.some.inj hc'
        exact connected_skip h hm (by simp)
      | ready uris =>
        obtain rfl := Option.some.inj hc'
        exact connected_skip h hm (by simp)
      | error num uris code message =>
        obtain rfl := Option.some.inj hc'
        exact connected_taskError h hm
      | finished num =>
        obtain rfl := Option.some.inj hc'
        exact connected_finished h hm ops
    | methodReturn r num =>
      by_cases hr : r ∈ s.client.queueCalls
      · obtain rfl := Option.some.inj (((if_pos hr).trans (if_pos hr)).symm.trans hc')
        exact connected_methodReturn h hm hr
      · obtain rfl := Option.some.inj ((if_neg hr).symm.trans hc')
        exact connected_skip h hm (by simp)
    | methodError r message => exact absurd (List.mem_of_getElem? hm) (h.noError r message)

end Deliver

section Runs
variable {env : Nat → WorkEnv} {s s' : System}

theorem connected_takeCall (h : s.Connected) (ho : s.Orderly .takeCall) (hs : s.takeCall env = some s') :
    s'.Connected := by
  rw [takeCall] at hs
  cases hcall : s.client.calls[s.taken]? with
  | none => simp [hcall] at hs
  | some call =>
    simp only [hcall] at hs
    cases call with
    | queue context urls mimeHints handle =>
      obtain ⟨d, hd, rfl⟩ := Option.map_eq_some_iff.mp hs
      have hfresh : s.daemon.Orderly (.queue context (some urls) mimeHints handle) :=
        ho context urls mimeHints handle hcall
      exact connected_daemon h (s.taken + 1) hfresh hd
    | unqueue handle =>
      obtain ⟨d, hd, rfl⟩ := Option.map_eq_some_iff.mp hs
      exact connected_daemon h (s.taken + 1) (show s.daemon.Orderly (.unqueue handle) from trivial) hd

theorem connected_step (s : System) (m : Move) (s' : System) (h : s.Connected) (ho : s.Orderly m)
    (hs : s.step env m = some s') : s'.Connected := by
  cases m with
  | op o =>
    obtain rfl := Option.some.inj hs
    exact connected_op h o
  | idle r ops =>
    obtain ⟨c', hc', rfl⟩ := Option.map_eq_some_iff.mp hs
    exact connected_idle h hc'
  | takeCall => exact connected_takeCall h ho hs
  | refuse =>
    obtain ⟨_, hs⟩ := Option.ite_none_right_eq_some.mp hs
    obtain rfl := Option.some.inj hs
    exact ⟨h.daemon, h.client, h.bound, h.noError, h.owed, h.key, h.table, h.unqueueCalls⟩
  | methodReturn =>
    obtain ⟨d, hd, rfl⟩ := Option.map_eq_some_iff.mp hs
    exact connected_daemon h s.taken (show s.daemon.Orderly .methodReturn from trivial) hd
  | worker t =>
    obtain ⟨d, hd, rfl⟩ := Option.map_eq_some_iff.mp hs
    exact connected_daemon h s.taken (show s.daemon.Orderly (.worker t) from ho) hd
  | deliver handle ops => exact connected_receive h hs
  | callError r handle message =>
    obtain ⟨c', hc', rfl⟩ := Option.map_eq_some_iff.mp hs
    exact connected_callError h ho hc'
  | unqueueError r =>
    obtain ⟨c', hc', rfl⟩ := Option.map_eq_some_iff.mp hs
    exact connected_unqueued h hc'

theorem connected_init : systemInit.Connected where
  daemon := Thumbnailer.answering_init
  client := Client.accounted_init
  bound := le_rfl
  noError _ _ hm := nomatch hm
  owed := trivial
  key _ _ hk := nomatch hk
  table _ _ hr := nomatch hr
  unqueueCalls _ hr := nomatch hr

theorem served_of_quiet (h : s.Connected) (hq : s.Quiet) : s.Served := by
  have hempty (k : UInt32) : s.client.tasks.lookup k = none := by
    cases hk : s.client.tasks.lookup k with
    | none => rfl
    | some r =>
      have hnone : s.pending = [] := by rw [pending, hq.messages, List.drop_length]
      have howed := (h.table k r hk).2
      rw [hnone] at howed
      rcases howed with ⟨t, e, he, _, hpc⟩ | ⟨t, ht⟩
      · exact absurd (hq.tasks t e he) hpc
      · cases ht
  have hkeys : s.client.tasks.keys = [] :=
    List.eq_nil_iff_forall_not_mem.mpr fun k hk => AList.lookup_eq_none.mp (hempty k) (AList.mem_keys.mpr hk)
  refine ⟨fun r hr hu => ?_, hkeys⟩
  have htokens := h.client.tokens_eq r hu
  rw [if_pos hr, Client.tokens, hq.idles, hq.replies, Client.listed_of_keys hkeys] at htokens
  simpa using htokens

end Runs

end System

/-- In an orderly run of daemon, client and bus, whenever the system is quiet
every request that was never unqueued has been called back once and the table
of tasks is empty. -/
theorem system_served (env : Nat → WorkEnv) {moves : List Move} {s : System}
    (hrun : StepRun.run (System.step env) systemInit moves = some s)
    (horderly : StepRun.Guarded (System.step env) System.Orderly systemInit moves) : s.Quiet → s.Served :=
  System.served_of_quiet (StepRun.guarded_invariant System.connected_step System.connected_init horderly hrun)

theorem tasks_done {d : Thumbnailer} (h : (d.memory.entries.all fun e => e.2.pc = .done) = true) (t : Nat)
    (e : PoolTask) (he : d.memory.lookup t = some e) : e.pc = .done := by
  have hmem := AList.mem_lookup_iff.mp (Option.mem_def.mpr he)
  simpa using List.all_eq_true.mp h _ hmem

/-- The worker is through with the task before the reply to the call is sent. -/
def overtakenReply : List Move :=
  [.op (.request "file:///a.png" none false), .takeCall, .worker 0, .worker 0, .worker 0, .worker 0,
    .methodReturn, .deliver 0 [], .deliver 0 [], .deliver 0 [], .deliver 0 []]

theorem system_not_served : ¬ ∀ (env : Nat → WorkEnv) (moves : List Move) (s : System),
    StepRun.run (System.step env) systemInit moves = some s → s.Quiet → s.Served := by
  intro h
  have hrun : ∃ s, StepRun.run (System.step fun _ => missingFileEnv) systemInit overtakenReply = some s ∧ s.Quiet ∧
      0 < s.client.created ∧ s.client.isUnqueued 0 = false ∧ s.client.called 0 = 0 :=
    ⟨_, rfl, ⟨rfl, rfl, tasks_done rfl, rfl, rfl, rfl⟩, by decide, rfl, rfl⟩
  obtain ⟨s, hs, hquiet, hlt, hu, hcalled⟩ := hrun
  have hserved := (h _ _ s hs hquiet).1 0 hlt hu
  omega

theorem returning_worker {env : Nat → WorkEnv} {s s' : System} {t : Nat} (h : s.step env (.worker t) = some s') :
    s'.daemon.returning = s.daemon.returning := by
  obtain ⟨d, hd, rfl⟩ := Option.map_eq_some_iff.mp h
  obtain ⟨_, _, _, _, _, rfl⟩ := worker_eq_some hd
  rfl

def timelyReply : List Move :=
  [.op (.request "file:///a.png" none false), .takeCall, .worker 0, .methodReturn, .worker 0, .worker 0, .worker 0,
    .deliver 0 [], .deliver 0 [], .deliver 0 [], .deliver 0 []]

theorem system_served_timelyReply :
    ∃ s, StepRun.run (System.step fun _ => missingFileEnv) systemInit timelyReply = some s ∧
      s.Quiet ∧ s.Served := by
  have hrun : ∃ s, StepRun.run (System.step fun _ => missingFileEnv) systemInit timelyReply = some s ∧ s.Quiet :=
    ⟨_, rfl, rfl, rfl, tasks_done rfl, rfl, rfl, rfl⟩
  obtain ⟨s, hs, hquiet⟩ := hrun
  refine ⟨s, hs, hquiet, system_served _ hs ?_ hquiet⟩
  refine ⟨trivial, fun s₁ h₁ => ⟨?_, fun s₂ h₂ => ⟨?_, fun s₃ h₃ => ⟨trivial, fun s₄ h₄ => ⟨?_, fun s₅ h₅ =>
    ⟨?_, fun s₆ h₆ => ⟨?_, fun s₇ h₇ => ⟨trivial, fun _ _ => ⟨trivial, fun _ _ => ⟨trivial, fun _ _ =>
      ⟨trivial, fun _ _ => trivial⟩⟩⟩⟩⟩⟩⟩⟩⟩⟩⟩
  · obtain rfl := Option.some.inj h₁
    rintro _ _ _ _ _ ⟨t, e, he, _⟩
    exact nomatch he
  · obtain rfl := Option.some.inj h₁
    obtain rfl := Option.some.inj h₂
    intro e r he hpc
    rw [← Option.some.inj he] at hpc
    cases hpc
  all_goals
    have hreturned : s₄.daemon.returning = none := by
      obtain ⟨d, hd, rfl⟩ := Option.map_eq_some_iff.mp h₄
      obtain ⟨_, _, rfl⟩ := Option.map_eq_some_iff.mp hd
      rfl
  · intro _ _ _ _
    rw [hreturned]
    simp
  · intro _ _ _ _
    rw [returning_worker h₅, hreturned]
    simp
  · intro _ _ _ _
    rw [returning_worker h₆, returning_worker h₅, hreturned]
    simp

end HildonThumbnail
