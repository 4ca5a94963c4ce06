import Mathlib.Data.Prod.Lex
import HildonThumbnail.Bus.Delivery
import HildonThumbnail.Thumbnailer.Answers

/-! Once the program makes no further calls, the daemon, the bus and the client
come to rest, and at rest every request has been served. -/

namespace HildonThumbnail

def Call.queued? : Call → Option Nat
  | .queue r _ _ _ => some r
  | .unqueue _ => none

namespace Client

/-- The client has made the calls `new`, and waits for no reply but those it has
waited for and those to the new Queue calls. -/
structure Grows (c c' : Client) (new : List Call) : Prop where
  calls : c'.calls = c.calls ++ new
  waits : ∀ r, c'.queueCalls.count r ≤ c.queueCalls.count r + (new.filterMap Call.queued?).count r

theorem Grows.of_eq {c c' : Client} (hcalls : c'.calls = c.calls) (hwaits : c'.queueCalls = c.queueCalls) :
    c.Grows c' [] := ⟨by rw [hcalls, List.append_nil], fun r => by rw [hwaits]; exact Nat.le_add_right _ _⟩

theorem Grows.trans {c d e : Client} {new new' : List Call} (h : c.Grows d new) (h' : d.Grows e new') :
    c.Grows e (new ++ new') where
  calls := by rw [h'.calls, h.calls, List.append_assoc]
  waits r := by
    have hd := h.waits r
    have he := h'.waits r
    rw [List.filterMap_append, List.count_append]
    omega

theorem grows_op (c : Client) (o : Op) : ∃ new, c.Grows (c.op .request o) new := by
  cases o with
  | request uri mimeType upToDate =>
    cases upToDate with
    | true => exact ⟨[], .of_eq rfl rfl⟩
    | false =>
      refine ⟨[.queue c.created [uri] (some mimeType.toList) 0], rfl, fun r => ?_⟩
      simp [op, Obj.op, Obj.requestGeneric, newRequest, List.count_append, Call.queued?]
  | unqueue r =>
    cases hk : (c.setUnqueued r).key r with
    | none =>
      have heq : c.op .request (.unqueue r) = c.setUnqueued r := by simp only [op, Obj.op, Obj.requestUnqueue, hk]
      exact ⟨[], .of_eq (by rw [heq]; rfl) (by rw [heq]; rfl)⟩
    | some handle =>
      have heq : c.op .request (.unqueue r) = (c.setUnqueued r).unqueueCall r handle := by
        simp only [op, Obj.op, Obj.requestUnqueue, hk]
      refine ⟨[.unqueue handle], by rw [heq]; rfl, fun r' => ?_⟩
      rw [heq]
      exact Nat.le_add_right _ _

theorem grows_ops (ops : List Op) (c : Client) : ∃ new, c.Grows (ops.foldl (Client.op .request) c) new := by
  induction ops generalizing c with
  | nil => exact ⟨[], .of_eq rfl rfl⟩
  | cons o ops ih =>
    obtain ⟨new, hnew⟩ := grows_op c o
    obtain ⟨new', hnew'⟩ := ih (c.op .request o)
    exact ⟨new ++ new', hnew.trans hnew'⟩

theorem gotHandle_waits {c : Client} {r : Nat} {handle : UInt32} {error : Option String} {ops : List Op} :
    (c.onGotHandle .request r handle error ops).calls = c.calls ∧
      (c.onGotHandle .request r handle error ops).queueCalls = c.queueCalls.erase r ∧
      (c.onGotHandle .request r handle error ops).idles = c.idles := by
  simp only [onGotHandle, registerHandle, Obj.registerHandle]
  split <;> exact ⟨rfl, rfl, rfl⟩

theorem onTaskError_waits (c : Client) (handle : UInt32) (message : String) :
    (c.onTaskError handle message).calls = c.calls ∧ (c.onTaskError handle message).queueCalls = c.queueCalls ∧
      (c.onTaskError handle message).idles = c.idles := by
  rw [onTaskError]
  split <;> exact ⟨rfl, rfl, rfl⟩

theorem onUnqueued_waits (c : Client) (r : Nat) :
    (c.onUnqueued .request r).calls = c.calls ∧ (c.onUnqueued .request r).queueCalls = c.queueCalls := by
  simp only [onUnqueued, Obj.onUnqueued]
  split <;> exact ⟨rfl, rfl⟩

theorem grows_dispatch {c c' : Client} {e : Event} (h : c.dispatch .request e = some c') :
    ∃ new, c.Grows c' new := by
  cases e with
  | gotHandle r handle error ops =>
    obtain ⟨_, h⟩ := Option.ite_none_right_eq_some.mp h
    obtain rfl := Option.some.inj h
    obtain ⟨hcalls, hwaits, _⟩ := @gotHandle_waits c r handle error ops
    refine ⟨[], by rw [hcalls, List.append_nil], fun r' => ?_⟩
    rw [hwaits]
    exact (List.erase_sublist.count_le r').trans (Nat.le_add_right _ _)
  | unqueued r =>
    obtain ⟨_, h⟩ := Option.ite_none_right_eq_some.mp h
    obtain rfl := Option.some.inj h
    exact ⟨[], .of_eq (onUnqueued_waits c r).1 (onUnqueued_waits c r).2⟩
  | idle r ops =>
    obtain ⟨_, h⟩ := Option.ite_none_right_eq_some.mp h
    obtain rfl := Option.some.inj h
    obtain ⟨new, hnew⟩ := grows_ops ops (({ c with idles := c.idles.erase r } : Client).invoke r Request.errors)
    exact ⟨new, hnew.calls, hnew.waits⟩
  | taskError handle message =>
    obtain rfl := Option.some.inj h
    exact ⟨[], .of_eq (onTaskError_waits c handle message).1 (onTaskError_waits c handle message).2.1⟩
  | taskFinished handle ops =>
    obtain rfl := Option.some.inj h
    rcases onTaskFinished_cases .request c handle ops with ⟨_, heq⟩ | ⟨r, _, ⟨_, heq⟩ | heq⟩
    · exact ⟨[], .of_eq (by rw [heq]) (by rw [heq])⟩
    · exact ⟨[], .of_eq (by rw [heq]) (by rw [heq])⟩
    · obtain ⟨new, hnew⟩ := grows_ops ops (c.invoke r Request.errors)
      exact ⟨new, by rw [heq]; exact hnew.calls, by rw [heq]; exact hnew.waits⟩

end Client

namespace System

/-- The places from which a reply for the request is still to come. -/
def promised (s : System) : List Nat :=
  (s.client.calls.drop s.taken).filterMap Call.queued? ++
    (s.daemon.returning.toList ++ s.pending.filterMap Message.reply?).map Prod.fst

/-- The daemon has a push for some of the calls it has taken, and there is a
reply to come for every Queue call that waits for one. -/
structure Attended (s : System) : Prop where
  taken : s.taken ≤ s.client.calls.length
  enrolled : ∃ done, s.daemon.Enrolled done ∧ done.length ≤ s.taken
  promised : ∀ r, s.client.queueCalls.count r ≤ s.promised.count r

theorem attended_init : systemInit.Attended where
  taken := le_rfl
  enrolled := ⟨[], ⟨rfl, rfl, fun _ _ he => nomatch he⟩, le_rfl⟩
  promised _ := Nat.zero_le _

section Steps
variable {env : Nat → WorkEnv} {s s' : System}

theorem promised_grows (h : s.Attended) {c : Client} {new : List Call} (hc : s.client.Grows c new) :
    ({ s with client := c } : System).Attended where
  taken := by
    have hcalls := hc.calls
    have htaken := h.taken
    simp only [hcalls, List.length_append]
    omega
  enrolled := h.enrolled
  promised r := by
    have hpromised := h.promised r
    have hwaits := hc.waits r
    simp only [System.promised, hc.calls, List.drop_append_of_le_length h.taken, List.filterMap_append,
      List.count_append] at hpromised ⊢
    have hpending : ({ s with client := c } : System).pending = s.pending := rfl
    rw [hpending]
    omega

theorem drop_taken {call : Call} (h : s.client.calls[s.taken]? = some call) :
    s.client.calls.drop s.taken = call :: s.client.calls.drop (s.taken + 1) := by
  obtain ⟨hlt, heq⟩ := List.getElem?_eq_some_iff.mp h
  rw [List.drop_eq_getElem_cons hlt, heq]

theorem attended_takeCall (h : s.Attended) (hs : s.takeCall env = some s') : s'.Attended := by
  obtain ⟨done, henrolled, hdone⟩ := h.enrolled
  rw [takeCall] at hs
  cases hcall : s.client.calls[s.taken]? with
  | none => simp [hcall] at hs
  | some call =>
    simp only [hcall] at hs
    have hlt : s.taken < s.client.calls.length := (List.getElem?_eq_some_iff.mp hcall).1
    have hdrop := drop_taken hcall
    cases call with
    | queue context urls mimeHints handle =>
      obtain ⟨d, hd, rfl⟩ := Option.map_eq_some_iff.mp hs
      refine ⟨hlt, ⟨_, Thumbnailer.enrolled_step henrolled hd, ?_⟩, fun r => ?_⟩
      · simp only [Action.push?, Option.toList_some, List.length_append, List.length_singleton]
        omega
      · obtain ⟨hreturning, hd⟩ := Option.ite_none_right_eq_some.mp hd
        obtain rfl := Option.some.inj hd
        have hpromised := h.promised r
        rw [System.promised, hdrop, hreturning] at hpromised
        refine hpromised.trans_eq (List.Perm.count_eq ?_ r)
        simp only [System.promised, thumbnailerQueue, List.filterMap_cons_some (show Call.queued?
          (.queue context urls mimeHints handle) = some context from rfl), Option.toList_none, Option.toList_some,
          List.nil_append, List.map_cons, List.cons_append]
        exact List.perm_middle.symm
    | unqueue handle =>
      obtain ⟨d, hd, rfl⟩ := Option.map_eq_some_iff.mp hs
      refine ⟨hlt, ⟨_, Thumbnailer.enrolled_step henrolled hd, ?_⟩, fun r => ?_⟩
      · simp only [Action.push?, Option.toList_none, List.append_nil]
        omega
      · obtain ⟨_, hd⟩ := Option.ite_none_right_eq_some.mp hd
        obtain rfl := Option.some.inj hd
        have hpromised := h.promised r
        rw [System.promised, hdrop] at hpromised
        exact hpromised

theorem pending_append (hbound : s.delivered ≤ s.daemon.sent.length) {d : Thumbnailer} {new : List Message}
    (hsent : d.sent = s.daemon.sent ++ new) : ({ s with daemon := d } : System).pending = s.pending ++ new := by
  rw [pending, hsent, List.drop_append_of_le_length hbound]
  rfl

theorem attended_methodReturn (h : s.Attended) (hbound : s.delivered ≤ s.daemon.sent.length)
    (hs : s.step env .methodReturn = some s') : s'.Attended := by
  obtain ⟨done, henrolled, hdone⟩ := h.enrolled
  obtain ⟨d, hd, rfl⟩ := Option.map_eq_some_iff.mp hs
  have henrolled' := Thumbnailer.enrolled_step henrolled hd
  rw [Action.push?, Option.toList_none, List.append_nil] at henrolled'
  obtain ⟨⟨r, num⟩, hreturning, rfl⟩ := Option.map_eq_some_iff.mp hd
  refine ⟨h.taken, ⟨done, henrolled', hdone⟩, fun x => ?_⟩
  have hpromised := h.promised x
  rw [System.promised, hreturning] at hpromised
  refine hpromised.trans_eq (List.Perm.count_eq ?_ x)
  have hpending :
      ({ s with daemon := { s.daemon with returning := none, sent := s.daemon.sent ++ [.methodReturn r num] } } :
      System).pending = s.pending ++ [.methodReturn r num] := pending_append hbound rfl
  rw [System.promised, hpending, List.filterMap_append]
  refine List.Perm.append_left _ (List.Perm.map Prod.fst ?_)
  exact List.perm_append_comm

theorem attended_worker (h : s.Attended) (hbound : s.delivered ≤ s.daemon.sent.length) {t : Nat}
    (hs : s.step env (.worker t) = some s') : s'.Attended := by
  obtain ⟨done, henrolled, hdone⟩ := h.enrolled
  obtain ⟨d, hd, rfl⟩ := Option.map_eq_some_iff.mp hs
  have henrolled' := Thumbnailer.enrolled_worker henrolled hd
  obtain ⟨e, r, out, he, hr, hd'⟩ := worker_eq_some hd
  refine ⟨h.taken, ⟨done, henrolled', hdone⟩, fun x => (h.promised x).trans_eq ?_⟩
  have hnone : (out.map (Message.signal t)).filterMap Message.reply? = [] := by
    rw [List.filterMap_map]
    exact List.filterMap_eq_nil_iff.mpr fun _ _ => rfl
  have hpending : ({ s with daemon := d } : System).pending = s.pending ++ out.map (.signal t) :=
    pending_append hbound (congrArg Thumbnailer.sent hd')
  have hreturning : d.returning = s.daemon.returning := by rw [hd']
  rw [System.promised, System.promised, hpending, List.filterMap_append, hnone, List.append_nil]
  simp only [hreturning]

theorem attended_deliver (h : s.Attended) {handle : UInt32} {ops : List Op} (hs : s.deliver handle ops = some s') :
    s'.Attended := by
  rw [deliver] at hs
  cases hm : s.daemon.sent[s.delivered]? with
  | none => simp [hm] at hs
  | some m =>
    simp only [hm] at hs
    obtain ⟨c, hc, rfl⟩ := Option.map_eq_some_iff.mp hs
    have hpending := pending_eq hm
    have hskip : m.reply? = none → ({ s with delivered := s.delivered + 1 } : System).Attended := by
      intro hreply
      refine ⟨h.taken, h.enrolled, fun r => (h.promised r).trans_eq ?_⟩
      rw [System.promised, hpending, List.filterMap_cons_none hreply]
      rfl
    have hreplied : ∀ r num, m.reply? = some (r, num) → ∀ c : Client, c.calls = s.client.calls →
        c.queueCalls = s.client.queueCalls.erase r →
        ({ s with client := c, delivered := s.delivered + 1 } : System).Attended := by
      intro r num hreply c hcalls hwaits
      refine ⟨by simpa only [hcalls] using h.taken, h.enrolled, fun x => ?_⟩
      have hpromised := h.promised x
      rw [System.promised, hpending, List.filterMap_cons_some hreply, List.map_append, List.map_cons,
        ← List.append_assoc, List.perm_middle.count_eq, List.count_cons] at hpromised
      simp only [System.promised, hcalls, hwaits, List.map_append, ← List.append_assoc, List.count_erase]
      have hrest : ({ s with client := c, delivered := s.delivered + 1 } : System).pending = s.rest := rfl
      rw [hrest]
      split at hpromised <;> split <;> simp_all
    cases m with
    | signal t x =>
      cases x with
      | started num =>
        obtain rfl := Option.some.inj hc
        exact hskip rfl
      | ready uris =>
        obtain rfl := Option.some.inj hc
        exact hskip rfl
      | error num uris code message =>
        have hevent : s.client.dispatch .request (.taskError num message) = some c := hc
        obtain ⟨new, hnew⟩ := Client.grows_dispatch hevent
        exact promised_grows (hskip rfl) hnew
      | finished num =>
        have hevent : s.client.dispatch .request (.taskFinished num ops) = some c := hc
        obtain ⟨new, hnew⟩ := Client.grows_dispatch hevent
        exact promised_grows (hskip rfl) hnew
    | methodReturn r num =>
      by_cases hr : r ∈ s.client.queueCalls
      · obtain rfl := Option.some.inj (((if_pos hr).trans (if_pos hr)).symm.trans hc)
        obtain ⟨hcalls, hwaits, _⟩ := @Client.gotHandle_waits s.client r num none []
        exact hreplied r num rfl _ hcalls hwaits
      · obtain rfl := Option.some.inj ((if_neg hr).symm.trans hc)
        exact hreplied r num rfl s.client rfl (List.erase_of_not_mem hr).symm
    | methodError r message =>
      by_cases hr : r ∈ s.client.queueCalls
      · have hevent : s.client.dispatch .request (.gotHandle r handle (some message) []) = some c :=
          (if_pos hr).symm.trans hc
        obtain ⟨new, hnew⟩ := Client.grows_dispatch hevent
        exact promised_grows (hskip rfl) hnew
      · obtain rfl := Option.some.inj ((if_neg hr).symm.trans hc)
        exact hskip rfl

/-- A call that the bus refuses is the one thing that leaves a client waiting. -/
theorem attended_step (h : s.Attended) (hbound : s.delivered ≤ s.daemon.sent.length) {m : Move}
    (hm : m ≠ .refuse) (hs : s.step env m = some s') : s'.Attended := by
  cases m with
  | op o =>
    obtain rfl := Option.some.inj hs
    obtain ⟨new, hnew⟩ := Client.grows_op s.client o
    exact promised_grows h hnew
  | idle r ops =>
    obtain ⟨c, hc, rfl⟩ := Option.map_eq_some_iff.mp hs
    obtain ⟨new, hnew⟩ := Client.grows_dispatch hc
    exact promised_grows h hnew
  | takeCall => exact attended_takeCall h hs
  | refuse => exact absurd rfl hm
  | methodReturn => exact attended_methodReturn h hbound hs
  | worker t => exact attended_worker h hbound hs
  | deliver handle ops => exact attended_deliver h hs
  | callError r handle message =>
    obtain ⟨c, hc, rfl⟩ := Option.map_eq_some_iff.mp hs
    obtain ⟨new, hnew⟩ := Client.grows_dispatch hc
    exact promised_grows h hnew
  | unqueueError r =>
    obtain ⟨c, hc, rfl⟩ := Option.map_eq_some_iff.mp hs
    obtain ⟨new, hnew⟩ := Client.grows_dispatch hc
    exact promised_grows h hnew

end Steps

/-- A move of the daemon, of the bus or of the main loop, after which the program
makes no call. -/
inductive Continues : Move → Prop
  | takeCall : Continues .takeCall
  | methodReturn : Continues .methodReturn
  | worker (t : Nat) : Continues (.worker t)
  | deliver (handle : UInt32) : Continues (.deliver handle [])
  | idle (r : Nat) : Continues (.idle r [])

def Goes (env : Nat → WorkEnv) (s s' : System) : Prop := ∃ m, Continues m ∧ s.Orderly m ∧ s.step env m = some s'

/-- The calls, the daemon's own work, the messages and the callbacks that are left. -/
def left (env : Nat → WorkEnv) (s : System) : Nat ×ₗ Nat ×ₗ Nat ×ₗ Nat :=
  toLex (s.client.calls.length - s.taken, toLex (s.daemon.returning.toList.length + s.daemon.sections env,
    toLex (s.daemon.sent.length - s.delivered, s.client.idles.length)))

/-- What every state has that an orderly run without a refused call leads to, while there are handles left. -/
structure Sound (s : System) : Prop where
  connected : s.Connected
  attended : s.Attended
  handles : s.client.calls.length < 2 ^ 32

section Goes
variable {env : Nat → WorkEnv} {s s' : System}

/-- What a message does to the client when the program makes no call. -/
theorem receive_calls {c c' : Client} {handle : UInt32} {m : Message} (h : receive c handle [] m = some c') :
    c'.calls = c.calls := by
  cases m with
  | signal t x =>
    cases x with
    | started num => obtain rfl := Option.some.inj h; rfl
    | ready uris => obtain rfl := Option.some.inj h; rfl
    | error num uris code message =>
      obtain rfl := Option.some.inj h
      exact (Client.onTaskError_waits c num message).1
    | finished num =>
      obtain rfl := Option.some.inj h
      rcases Client.onTaskFinished_cases .request c num [] with ⟨_, heq⟩ | ⟨r, _, ⟨_, heq⟩ | heq⟩
      · rw [heq]
      · rw [heq]
      · rw [heq]
        rfl
  | methodReturn r num =>
    by_cases hr : r ∈ c.queueCalls
    · obtain rfl := Option.some.inj (((if_pos hr).trans (if_pos hr)).symm.trans h)
      exact Client.gotHandle_waits.1
    · obtain rfl := Option.some.inj ((if_neg hr).symm.trans h)
      rfl
  | methodError r message =>
    by_cases hr : r ∈ c.queueCalls
    · obtain rfl := Option.some.inj (((if_pos hr).trans (if_pos hr)).symm.trans h)
      exact Client.gotHandle_waits.1
    · obtain rfl := Option.some.inj ((if_neg hr).symm.trans h)
      rfl

/-- Each move leaves less of the first thing that it changes. -/
theorem goes_left (h : s.Sound) (hgoes : Goes env s s') : s'.left env < s.left env := by
  obtain ⟨m, hm, _, hs⟩ := hgoes
  cases hm with
  | takeCall =>
    have hs : s.takeCall env = some s' := hs
    rw [takeCall] at hs
    cases hcall : s.client.calls[s.taken]? with
    | none => simp [hcall] at hs
    | some call =>
      have hlt : s.taken < s.client.calls.length := (List.getElem?_eq_some_iff.mp hcall).1
      simp only [hcall] at hs
      cases call with
      | queue context urls mimeHints handle =>
        obtain ⟨d, _, rfl⟩ := Option.map_eq_some_iff.mp hs
        exact Prod.Lex.toLex_lt_toLex.mpr (.inl (by dsimp only; omega))
      | unqueue handle =>
        obtain ⟨d, _, rfl⟩ := Option.map_eq_some_iff.mp hs
        exact Prod.Lex.toLex_lt_toLex.mpr (.inl (by dsimp only; omega))
  | methodReturn =>
    obtain ⟨d, hd, rfl⟩ := Option.map_eq_some_iff.mp hs
    obtain ⟨r, hreturning, rfl⟩ := Option.map_eq_some_iff.mp hd
    refine Prod.Lex.toLex_lt_toLex.mpr (.inr ⟨rfl, Prod.Lex.toLex_lt_toLex.mpr (.inl ?_)⟩)
    have hsections :
        Thumbnailer.sections env
            { s.daemon with returning := none, sent := s.daemon.sent ++ [.methodReturn r.1 r.2] } =
          s.daemon.sections env := rfl
    rw [hsections, hreturning]
    simp
  | worker t =>
    obtain ⟨d, hd, rfl⟩ := Option.map_eq_some_iff.mp hs
    refine Prod.Lex.toLex_lt_toLex.mpr (.inr ⟨rfl, Prod.Lex.toLex_lt_toLex.mpr (.inl ?_)⟩)
    have hsections := (Thumbnailer.sections_worker h.connected.daemon.listed hd).2
    have hreturning : d.returning = s.daemon.returning := by
      obtain ⟨_, _, _, _, _, rfl⟩ := worker_eq_some hd
      rfl
    rw [hreturning]
    dsimp only
    omega
  | deliver handle =>
    have hs : s.deliver handle [] = some s' := hs
    rw [deliver] at hs
    cases hm : s.daemon.sent[s.delivered]? with
    | none => simp [hm] at hs
    | some m =>
      have hlt : s.delivered < s.daemon.sent.length := (List.getElem?_eq_some_iff.mp hm).1
      simp only [hm] at hs
      obtain ⟨c, hc, rfl⟩ := Option.map_eq_some_iff.mp hs
      refine Prod.Lex.toLex_lt_toLex.mpr (.inr ⟨by simp only [receive_calls hc], ?_⟩)
      refine Prod.Lex.toLex_lt_toLex.mpr (.inr ⟨rfl, Prod.Lex.toLex_lt_toLex.mpr (.inl ?_)⟩)
      dsimp only
      omega
  | idle r =>
    obtain ⟨c, hc, rfl⟩ := Option.map_eq_some_iff.mp hs
    obtain ⟨hr, hc⟩ := Option.ite_none_right_eq_some.mp hc
    obtain rfl := Option.some.inj hc
    refine Prod.Lex.toLex_lt_toLex.mpr (.inr ⟨rfl, Prod.Lex.toLex_lt_toLex.mpr (.inr ⟨rfl, ?_⟩)⟩)
    refine Prod.Lex.toLex_lt_toLex.mpr (.inr ⟨rfl, ?_⟩)
    have hlength := List.length_erase_of_mem hr
    have hpos := List.length_pos_of_mem hr
    change (s.client.idles.erase r).length < s.client.idles.length
    omega

theorem goes_sound (h : s.Sound) (hgoes : Goes env s s') : s'.Sound := by
  obtain ⟨m, hm, ho, hs⟩ := hgoes
  have hne : m ≠ .refuse := by
    rintro rfl
    cases hm
  refine ⟨connected_step s m s' h.connected ho hs, attended_step h.attended h.connected.bound hne hs, ?_⟩
  have hcalls : s'.client.calls = s.client.calls := by
    cases hm with
    | takeCall =>
      have hs : s.takeCall env = some s' := hs
      rw [takeCall] at hs
      split at hs
      · cases hs
      · obtain ⟨d, _, rfl⟩ := Option.map_eq_some_iff.mp hs
        rfl
      · obtain ⟨d, _, rfl⟩ := Option.map_eq_some_iff.mp hs
        rfl
    | methodReturn =>
      obtain ⟨d, _, rfl⟩ := Option.map_eq_some_iff.mp hs
      rfl
    | worker t =>
      obtain ⟨d, _, rfl⟩ := Option.map_eq_some_iff.mp hs
      rfl
    | deliver handle =>
      have hs : s.deliver handle [] = some s' := hs
      rw [deliver] at hs
      split at hs
      · cases hs
      · obtain ⟨c, hc, rfl⟩ := Option.map_eq_some_iff.mp hs
        exact receive_calls hc
    | idle r =>
      obtain ⟨c, hc, rfl⟩ := Option.map_eq_some_iff.mp hs
      obtain ⟨_, hc⟩ := Option.ite_none_right_eq_some.mp hc
      obtain rfl := Option.some.inj hc
      rfl
  rw [hcalls]
  exact h.handles

/-- The next handle is not that of a task, as no more handles were given out than there are calls. -/
theorem not_issued (h : s.Sound) (hlt : s.taken < s.client.calls.length) :
    ¬ s.daemon.Issued (s.daemon.num + 1) := by
  rintro ⟨t, e, he, hnum⟩
  obtain ⟨done, henrolled, hdone⟩ := h.attended.enrolled
  obtain ⟨push, hpush, horder⟩ := henrolled.task t e he
  have ht : t < done.length := (List.getElem?_eq_some_iff.mp hpush).1
  have hhandles := h.handles
  have hown : e.task.num = UInt32.ofNat (t + 1) := congrArg Prod.snd horder
  have hnext : s.daemon.num + 1 = UInt32.ofNat (done.length + 1) := by
    rw [henrolled.num, henrolled.pushed, UInt32.ofNat_add]
    rfl
  rw [hown, hnext] at hnum
  have heq := congrArg UInt32.toNat hnum
  rw [UInt32.toNat_ofNat_of_lt' (show t + 1 < 2 ^ 32 by have := h.attended.taken; omega),
    UInt32.toNat_ofNat_of_lt' (show done.length + 1 < 2 ^ 32 by omega)] at heq
  omega

theorem receive_isSome (c : Client) (handle : UInt32) (m : Message) : (receive c handle [] m).isSome := by
  cases m with
  | signal t x => cases x <;> rfl
  | methodReturn r num =>
    by_cases hr : r ∈ c.queueCalls
    · simp [receive, Client.dispatch, hr]
    · simp [receive, hr]
  | methodError r message =>
    by_cases hr : r ∈ c.queueCalls
    · simp [receive, Client.dispatch, hr]
    · simp [receive, hr]

/-- Where no move is left that goes on, the system is quiet. -/
theorem quiet_of_stuck (h : s.Sound) (hstuck : ∀ s', ¬ Goes env s s') : s.Quiet := by
  have hnone : ∀ {m}, Continues m → s.Orderly m → s.step env m = none := by
    intro m hm ho
    by_contra hsome
    obtain ⟨s', hs'⟩ := Option.ne_none_iff_exists'.mp hsome
    exact hstuck s' ⟨m, hm, ho, hs'⟩
  have hreturning : s.daemon.returning = none := by
    have hstep := hnone .methodReturn trivial
    simpa [step, onDaemon, Thumbnailer.step] using hstep
  have htaken : s.taken = s.client.calls.length := by
    refine le_antisymm h.attended.taken (Nat.le_of_not_lt fun hlt => ?_)
    have hcall := List.getElem?_eq_getElem hlt
    have hstep := hnone .takeCall fun _ _ _ _ _ => not_issued h hlt
    cases hc : s.client.calls[s.taken] <;> simp [step, takeCall, hcall, hc, Thumbnailer.step, hreturning] at hstep
  have htasks : ∀ t e, s.daemon.memory.lookup t = some e → e.pc = .done := by
    refine (@Thumbnailer.worker_stuck_iff env s.daemon).mp fun t => ?_
    have hstep := hnone (.worker t) fun e r _ _ => by simp [hreturning]
    simpa [step, onDaemon, Thumbnailer.step] using hstep
  have hmessages : s.delivered = s.daemon.sent.length := by
    refine le_antisymm h.connected.bound (Nat.le_of_not_lt fun hlt => ?_)
    have hstep := hnone (.deliver 0) trivial
    obtain ⟨c, hc⟩ := Option.isSome_iff_exists.mp (receive_isSome s.client 0 s.daemon.sent[s.delivered])
    simp [step, deliver, List.getElem?_eq_getElem hlt, hc] at hstep
  have hidles : s.client.idles = [] := by
    refine List.eq_nil_iff_forall_not_mem.mpr fun r hr => ?_
    have hstep := hnone (.idle r) trivial
    simp [step, onClient, Client.dispatch, hr] at hstep
  refine ⟨htaken, hreturning, htasks, hmessages, ?_, hidles⟩
  refine List.eq_nil_iff_forall_not_mem.mpr fun r hr => ?_
  have hpromised := h.attended.promised r
  have hpending : s.pending = [] := by rw [pending, hmessages, List.drop_length]
  rw [promised, htaken, List.drop_length, hreturning, hpending] at hpromised
  exact absurd (List.count_pos_iff.mpr hr) (Nat.not_lt.mpr (by simpa using hpromised))

end Goes

theorem attended_run {env : Nat → WorkEnv} {moves : List Move} {s₀ s : System} (hconnected : s₀.Connected)
    (hattended : s₀.Attended) (horderly : StepRun.Guarded (step env) Orderly s₀ moves) (hbus : .refuse ∉ moves)
    (hrun : StepRun.run (step env) s₀ moves = some s) : s.Connected ∧ s.Attended := by
  induction moves generalizing s₀ with
  | nil =>
    obtain rfl := Option.some.inj hrun
    exact ⟨hconnected, hattended⟩
  | cons m moves ih =>
    obtain ⟨u, hu, hrun⟩ := Option.bind_eq_some_iff.mp hrun
    have hne : m ≠ .refuse := fun hm => hbus (hm ▸ List.mem_cons_self)
    exact ih (connected_step s₀ m u hconnected horderly.1 hu) (attended_step hattended hconnected.bound hne hu)
      (horderly.2 u hu) (fun hmem => hbus (List.mem_cons_of_mem m hmem)) hrun

theorem sound_run {env : Nat → WorkEnv} {moves : List Move} {s : System}
    (hrun : StepRun.run (step env) systemInit moves = some s)
    (horderly : StepRun.Guarded (step env) Orderly systemInit moves) (hbus : .refuse ∉ moves)
    (hhandles : s.client.calls.length < 2 ^ 32) : s.Sound := by
  obtain ⟨hconnected, hattended⟩ := attended_run connected_init attended_init horderly hbus hrun
  exact ⟨hconnected, hattended, hhandles⟩

end System

def oneAsked : List Move := [.op (.request "file:///a.png" none false)]

end HildonThumbnail
