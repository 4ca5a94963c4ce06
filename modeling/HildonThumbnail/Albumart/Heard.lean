import HildonThumbnail.Albumart.Client
import HildonThumbnail.Albumart.Replies

/-! What a program has heard of its requests for album art, from the messages that have come so far. -/

namespace HildonThumbnail

namespace AlbumartClient

open AlbumartMessage (replied ended)

/-- What the messages that have come have left: a key for each reply, and a callback for each Finished
that found the request in the table. What is not unqueued stays there until then. -/
structure Heard (c : AlbumartClient) (got : List AlbumartMessage) (called unqueued : List Nat) : Prop where
  waiting : ∀ r ∈ c.queueCalls, c.requests[r]? = some ⟨none, none⟩
  key : ∀ r num, c.key r = some num ↔ (r, num) ∈ replied got
  table : ∀ num r, c.tasks.lookup num = some r →
    (r, num) ∈ replied got ∧ (num ∈ ended got → .finished num ∈ c.running)
  frames : ∀ num, .finished num ∈ c.running → num ∈ ended got
  unqueueCalls : ∀ call ∈ c.unqueueCalls, call.1 ∈ unqueued
  atMost : ∀ r num, (r, num) ∈ replied got → called.count r ≤ (ended got).count num
  exactly : ∀ r num, (r, num) ∈ replied got → r ∉ unqueued →
    called.count r = (ended got).count num ∧ (num ∉ ended got → c.tasks.lookup num = some r)
  uncalled : ∀ r, c.key r = none → called.count r = 0

section
variable {c c' : AlbumartClient} {got : List AlbumartMessage} {called unqueued : List Nat} {r : Nat} {num : UInt32}

theorem Heard.key_unique (h : c.Heard got called unqueued) {k : UInt32} (hnum : (r, num) ∈ replied got)
    (hk : (r, k) ∈ replied got) : num = k :=
  Option.some.inj (((h.key r num).mpr hnum).symm.trans ((h.key r k).mpr hk))

/-- Nothing that was heard is touched. -/
theorem Heard.frame (h : c.Heard got called unqueued) {unqueued' : List Nat} (hrequests : c'.requests = c.requests)
    (hqueue : c'.queueCalls = c.queueCalls) (htasks : c'.tasks = c.tasks)
    (hrunning : ∀ num, .finished num ∈ c'.running ↔ .finished num ∈ c.running)
    (hunqueue : ∀ call ∈ c'.unqueueCalls, call.1 ∈ unqueued') (hsub : unqueued ⊆ unqueued') :
    c'.Heard got called unqueued' where
  waiting := by
    rw [hrequests, hqueue]
    exact h.waiting
  key r num := by
    rw [AlbumartClient.key, hrequests]
    exact h.key r num
  table num r hr := by
    rw [htasks] at hr
    rw [hrunning]
    exact h.table num r hr
  frames num hnum := h.frames num ((hrunning num).mp hnum)
  unqueueCalls := hunqueue
  atMost := h.atMost
  exactly r num hnum hr := by
    rw [htasks]
    exact h.exactly r num hnum fun hmem => hr (hsub hmem)
  uncalled r hr := by
    rw [AlbumartClient.key, hrequests] at hr
    exact h.uncalled r hr

/-- An entry may go when its request was unqueued or its task is finished. -/
theorem Heard.erase (h : c.Heard got called unqueued) (num : UInt32)
    (hpass : ∀ r, (r, num) ∈ replied got → r ∉ unqueued → num ∈ ended got) (hrequests : c'.requests = c.requests)
    (hqueue : c'.queueCalls = c.queueCalls) (htasks : c'.tasks = c.tasks.erase num)
    (hrunning : ∀ k, .finished k ∈ c'.running → .finished k ∈ c.running)
    (hkept : ∀ k, k ≠ num → .finished k ∈ c.running → .finished k ∈ c'.running)
    (hunqueue : ∀ call ∈ c'.unqueueCalls, call ∈ c.unqueueCalls) : c'.Heard got called unqueued where
  waiting := by
    rw [hrequests, hqueue]
    exact h.waiting
  key r num := by
    rw [AlbumartClient.key, hrequests]
    exact h.key r num
  table k r hr := by
    rw [htasks, KeyTable.lookup_erase_eq] at hr
    obtain ⟨hk, hr⟩ := Option.ite_none_left_eq_some.mp hr
    exact (h.table k r hr).imp_right fun hended hfinished => hkept k hk (hended hfinished)
  frames k hk := h.frames k (hrunning k hk)
  unqueueCalls call hcall := h.unqueueCalls call (hunqueue call hcall)
  atMost := h.atMost
  exactly r k hk hr := by
    obtain ⟨hcount, hlookup⟩ := h.exactly r k hk hr
    refine ⟨hcount, fun hended => ?_⟩
    have hne : k ≠ num := by
      rintro rfl
      exact hended (hpass r hk hr)
    rw [htasks, AList.lookup_erase_ne hne]
    exact hlookup hended
  uncalled r hr := by
    rw [AlbumartClient.key, hrequests] at hr
    exact h.uncalled r hr

theorem key_append {added : List HildonAlbumartRequest} (hrequests : c'.requests = c.requests ++ added)
    (hadded : ∀ q ∈ added, q.key = none) (x : Nat) : c'.key x = c.key x := by
  rw [AlbumartClient.key, AlbumartClient.key, hrequests]
  by_cases hx : x < c.requests.length
  · rw [List.getElem?_append_left hx]
  · rw [List.getElem?_eq_none (Nat.le_of_not_lt hx), List.getElem?_append_right (Nat.le_of_not_lt hx)]
    cases hq : added[x - c.requests.length]? with
    | none => rfl
    | some q => exact hadded q (List.mem_of_getElem? hq)

/-- The last of the new requests is the one that is queued. -/
theorem Heard.append (h : c.Heard got called unqueued) {added : List HildonAlbumartRequest}
    (hadded : ∀ q ∈ added, q.key = none) (hrequests : c'.requests = c.requests ++ (added ++ [⟨none, none⟩]))
    (hqueue : c'.queueCalls = c.queueCalls ++ [c.requests.length + added.length]) (htasks : c'.tasks = c.tasks)
    (hrunning : c'.running = c.running) (hunqueue : c'.unqueueCalls = c.unqueueCalls) :
    c'.Heard got called unqueued := by
  have hkey (x : Nat) : c'.key x = c.key x := by
    refine key_append hrequests (fun q hq => ?_) x
    rcases List.mem_append.mp hq with hq | hq
    · exact hadded q hq
    · rw [List.mem_singleton.mp hq]
  refine ⟨fun x hx => ?_, fun x k => by rw [hkey]; exact h.key x k, ?_, ?_, ?_, h.atMost, ?_,
    fun x hx => h.uncalled x (hkey x ▸ hx)⟩
  · rw [hqueue, List.mem_append, List.mem_singleton] at hx
    rw [hrequests]
    rcases hx with hx | rfl
    · exact lookup_append (h.waiting x hx)
    · rw [← List.append_assoc, ← List.length_append, List.getElem?_concat_length]
  · rw [htasks, hrunning]
    exact h.table
  · rw [hrunning]
    exact h.frames
  · rw [hunqueue]
    exact h.unqueueCalls
  · rw [htasks]
    exact h.exactly

theorem key_gotHandle (h : c.requests[r]? = some ⟨none, none⟩) (num : UInt32) (x : Nat) :
    (c.onGotHandle r num).key x = if x = r then some num else c.key x := by
  rw [AlbumartClient.key, lookup_gotHandle, AlbumartClient.key]
  by_cases hx : x = r
  · rw [hx, h]
    simp
  · cases c.requests[x]? <;> simp [hx, Ne.symm hx]

/-- A reply brings a new handle, of which nothing was heard before. -/
theorem Heard.gotHandle (h : c.Heard got called unqueued) (hnodup : c.queueCalls.Nodup) (hr : r ∈ c.queueCalls)
    (hnew : num ∉ (replied got).map Prod.snd) (hended : num ∉ ended got) :
    (c.onGotHandle r num).Heard (got ++ [.methodReturn r num]) called unqueued := by
  have hwaiting := h.waiting r hr
  have hkey := key_gotHandle hwaiting num
  have hnone : c.key r = none := key_eq hwaiting
  have hother {x : Nat} {k : UInt32} (hx : (x, k) ∈ replied got) : k ≠ num := by
    rintro rfl
    exact hnew (List.mem_map.mpr ⟨(x, k), hx, rfl⟩)
  refine ⟨fun x hx => ?_, fun x k => ?_, fun k x hx => ?_, ?_, h.unqueueCalls, fun x k hx => ?_,
    fun x k hx hu => ?_, fun x hx => ?_⟩
  · have hne : x ≠ r := by
      rintro rfl
      exact hnodup.not_mem_erase hx
    rw [lookup_gotHandle, h.waiting x (List.mem_of_mem_erase hx), Option.map_some, if_neg (Ne.symm hne)]
  · rw [hkey, AlbumartMessage.replied_append, AlbumartMessage.replied_methodReturn, List.mem_append,
      List.mem_singleton, ← h.key x k, Prod.mk.injEq]
    by_cases hx : x = r
    · rw [if_pos hx, hx, hnone]
      simp [eq_comm]
    · simp [hx]
  · change (c.tasks.insert num r).lookup k = some x at hx
    rw [KeyTable.lookup_insert_eq] at hx
    rw [AlbumartMessage.replied_append, AlbumartMessage.ended_append, List.mem_append]
    by_cases hk : k = num
    · rw [if_pos hk] at hx
      obtain rfl := Option.some.inj hx
      subst hk
      exact ⟨.inr (List.mem_singleton_self _), fun hfinished => absurd (by simpa using hfinished) hended⟩
    · rw [if_neg hk] at hx
      obtain ⟨hreply, hrunning⟩ := h.table k x hx
      exact ⟨.inl hreply, fun hfinished => hrunning (by simpa using hfinished)⟩
  · intro k hk
    rw [AlbumartMessage.ended_append]
    exact List.mem_append_left _ (h.frames k hk)
  · rw [AlbumartMessage.ended_append, AlbumartMessage.ended_methodReturn, List.append_nil]
    rw [AlbumartMessage.replied_append, List.mem_append] at hx
    rcases hx with hx | hx
    · exact h.atMost x k hx
    · obtain ⟨rfl, rfl⟩ := Prod.mk.inj (List.mem_singleton.mp hx)
      rw [h.uncalled _ hnone]
      exact Nat.zero_le _
  · rw [AlbumartMessage.ended_append, AlbumartMessage.ended_methodReturn, List.append_nil]
    change _ ∧ (_ → (c.tasks.insert num r).lookup k = some x)
    rw [KeyTable.lookup_insert_eq]
    rw [AlbumartMessage.replied_append, List.mem_append] at hx
    rcases hx with hx | hx
    · rw [if_neg (hother hx)]
      exact h.exactly x k hx hu
    · obtain ⟨rfl, rfl⟩ := Prod.mk.inj (List.mem_singleton.mp hx)
      rw [h.uncalled _ hnone, List.count_eq_zero.mpr hended, if_pos rfl]
      exact ⟨rfl, fun _ => rfl⟩
  · rw [hkey] at hx
    by_cases hxr : x = r
    · rw [if_pos hxr] at hx
      cases hx
    · rw [if_neg hxr] at hx
      exact h.uncalled x hx

/-- A message that is neither a reply nor Finished leaves all as it was. -/
theorem Heard.skip (h : c.Heard got called unqueued) {m : AlbumartMessage} (hreply : replied [m] = [])
    (hended : ended [m] = []) : c.Heard (got ++ [m]) called unqueued := by
  have hreplies : replied (got ++ [m]) = replied got := by
    rw [AlbumartMessage.replied_append, hreply, List.append_nil]
  have hfinished : ended (got ++ [m]) = ended got := by
    rw [AlbumartMessage.ended_append, hended, List.append_nil]
  refine ⟨h.waiting, ?_, ?_, ?_, h.unqueueCalls, ?_, ?_, h.uncalled⟩
  · rw [hreplies]
    exact h.key
  · rw [hreplies, hfinished]
    exact h.table
  · rw [hfinished]
    exact h.frames
  · rw [hreplies, hfinished]
    exact h.atMost
  · rw [hreplies, hfinished]
    exact h.exactly

theorem running_onTaskFinished (c : AlbumartClient) (num k : UInt32) :
    .finished k ∈ (c.onTaskFinished num).running ↔
    .finished k ∈ c.running ∨ k = num ∧ c.tasks.lookup num ≠ none := by
  rw [onTaskFinished]
  cases c.tasks.lookup num with
  | none => simp
  | some r =>
    rw [List.mem_cons, Frame.finished.injEq, or_comm]
    simp

theorem onTaskFinished_fields (c : AlbumartClient) (num : UInt32) : (c.onTaskFinished num).requests = c.requests ∧
    (c.onTaskFinished num).tasks = c.tasks ∧ (c.onTaskFinished num).queueCalls = c.queueCalls ∧
      (c.onTaskFinished num).unqueueCalls = c.unqueueCalls := by
  rw [onTaskFinished]
  cases c.tasks.lookup num <;> exact ⟨rfl, rfl, rfl, rfl⟩

/-- Of the replied requests, the signal invokes the callback of the one with its handle alone. -/
theorem Heard.count_finished (h : c.Heard got called unqueued) {k : UInt32} (hk : (r, k) ∈ replied got) :
    (called ++ (c.tasks.lookup num).toList).count r =
      called.count r + if c.tasks.lookup num = some r ∧ k = num then 1 else 0 := by
  rw [List.count_append]
  congr 1
  cases hlookup : c.tasks.lookup num with
  | none => simp
  | some x =>
    by_cases hx : x = r
    · subst hx
      have heq := h.key_unique hk (h.table num x hlookup).1
      simp [heq]
    · simp [hx]

theorem Heard.finished (h : c.Heard got called unqueued) (hnew : num ∉ ended got) :
    (c.onTaskFinished num).Heard (got ++ [.signal (.finished num)])
      (called ++ (c.tasks.lookup num).toList) unqueued := by
  obtain ⟨hrequests, htasks, hqueue, hunqueue⟩ := onTaskFinished_fields c num
  have hkey (x : Nat) : (c.onTaskFinished num).key x = c.key x := by
    rw [AlbumartClient.key, AlbumartClient.key, hrequests]
  have hreplies : replied (got ++ [.signal (.finished num)]) = replied got := by simp
  have hended : ended (got ++ [.signal (.finished num)]) = ended got ++ [num] := by
    simp [AlbumartSignal.finishes]
  have hzero : (ended got).count num = 0 := List.count_eq_zero.mpr hnew
  refine ⟨?_, fun x k => ?_, fun k x hx => ?_, fun k hk => ?_, ?_, fun x k hk => ?_, fun x k hk hu => ?_,
    fun x hx => ?_⟩
  · rw [hrequests, hqueue]
    exact h.waiting
  · rw [hkey, hreplies]
    exact h.key x k
  · rw [htasks] at hx
    obtain ⟨hreply, hrunning⟩ := h.table k x hx
    rw [hreplies, hended, List.mem_append, List.mem_singleton, running_onTaskFinished]
    refine ⟨hreply, fun hk => ?_⟩
    rcases hk with hk | rfl
    · exact .inl (hrunning hk)
    · exact .inr ⟨rfl, by rw [hx]; exact Option.some_ne_none x⟩
  · rw [hended, List.mem_append, List.mem_singleton]
    rcases (running_onTaskFinished c num k).mp hk with hk | ⟨hk, _⟩
    · exact .inl (h.frames k hk)
    · exact .inr hk
  · rw [hunqueue]
    exact h.unqueueCalls
  · rw [hreplies] at hk
    have hbefore := h.atMost x k hk
    rw [h.count_finished hk, hended, List.count_append]
    split
    · next hinvoked =>
      rw [hinvoked.2, List.count_singleton_self]
      rw [hinvoked.2] at hbefore
      omega
    · omega
  · rw [hreplies] at hk
    obtain ⟨hcount, hlookup⟩ := h.exactly x k hk hu
    rw [h.count_finished hk, hended, List.count_append, htasks, List.mem_append, List.mem_singleton]
    by_cases hkn : k = num
    · subst hkn
      rw [if_pos ⟨hlookup hnew, rfl⟩, List.count_singleton_self, hcount]
      exact ⟨rfl, fun hnot => absurd (.inr rfl) hnot⟩
    · have hother : [num].count k = 0 := List.count_eq_zero.mpr (by simpa using hkn)
      rw [if_neg fun hinvoked => hkn hinvoked.2, hcount, hother]
      exact ⟨rfl, fun hnot => hlookup fun hmem => hnot (.inl hmem)⟩
  · rw [hkey] at hx
    have hbefore := h.uncalled x hx
    rw [List.count_append, hbefore]
    cases hlookup : c.tasks.lookup num with
    | none => rfl
    | some y =>
      have hy := (h.key y num).mpr (h.table num y hlookup).1
      have hne : y ≠ x := by
        rintro rfl
        rw [hx] at hy
        cases hy
      simp [hne]

theorem Heard.running (h : c.Heard got called unqueued) {running : List Frame}
    (hrunning : ∀ num, .finished num ∈ running ↔ .finished num ∈ c.running) :
    Heard { c with running := running } got called unqueued :=
  h.frame rfl rfl rfl hrunning h.unqueueCalls (List.Subset.refl _)

/-- A callback that returns takes its entry away, a join takes none. -/
theorem Keyed.goOn_cases (hkeyed : c.Keyed) (hstep : c.goOn = some c') :
    (∃ handle rest, c.running = .finished handle :: rest ∧
        c' = { c with tasks := c.tasks.erase handle, running := rest }) ∨
      ∃ running, c' = { c with running := running } ∧ ∀ num, .finished num ∈ running ↔
        .finished num ∈ c.running := by
  rw [AlbumartClient.goOn] at hstep
  cases hrunning : c.running with
  | nil =>
    rw [hrunning] at hstep
    cases hstep
  | cons frame rest =>
    rw [hrunning] at hstep
    cases frame with
    | finished handle =>
      obtain rfl := Option.some.inj hstep
      exact .inl ⟨handle, rest, rfl, rfl⟩
    | waiting r found =>
      dsimp only at hstep
      by_cases hwaiting : c.waitingForCb
      · rw [if_pos hwaiting] at hstep
        obtain rfl := Option.some.inj hstep
        exact .inr ⟨c.running, rfl, fun num => by rw [hrunning]⟩
      · rw [if_neg hwaiting] at hstep
        cases found with
        | false => exact .inr ⟨rest, (Option.some.inj hstep).symm, fun num => by simp⟩
        | true => exact .inr ⟨.draining r :: rest, (Option.some.inj hstep).symm, fun num => by simp⟩
    | draining r =>
      obtain ⟨handle, heq⟩ := withKey_eq (hkeyed.running_key (.draining r) (hrunning ▸ List.mem_cons_self) r rfl)
      dsimp only at hstep
      rw [heq] at hstep
      obtain rfl := Option.some.inj hstep
      by_cases hfound : (c.tasks.lookup handle).isSome
      · exact .inr ⟨c.running, if_pos hfound, fun num => by rw [hrunning]⟩
      · exact .inr ⟨rest, if_neg hfound, fun num => by simp⟩

theorem Heard.returned (h : c.Heard got called unqueued) {handle : UInt32} {rest : List Frame}
    (hrunning : c.running = .finished handle :: rest) :
    Heard { c with tasks := c.tasks.erase handle, running := rest } got called unqueued := by
  have hended := h.frames handle (hrunning ▸ List.mem_cons_self)
  refine h.erase handle (fun _ _ _ => hended) rfl rfl rfl (fun k hk => ?_) (fun k hne hk => ?_) fun _ hcall => hcall
  · rw [hrunning]
    exact List.mem_cons_of_mem _ hk
  · rw [hrunning] at hk
    refine (List.mem_cons.mp hk).resolve_left fun heq => hne ?_
    exact Frame.finished.inj heq

end

end AlbumartClient

end HildonThumbnail
