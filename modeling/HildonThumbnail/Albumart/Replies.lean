import HildonThumbnail.Albumart.Finished

/-! The replies of the album art service to its callers: whom it gives which handle, and when
Finished comes for it. -/

namespace HildonThumbnail

def AlbumartMessage.reply? : AlbumartMessage → Option (Nat × UInt32)
  | .signal _ => none
  | .methodReturn r num => some (r, num)

/-- No task is finished before its reply is sent, and no handle is issued twice. -/
def Albumart.Orderly (d : Albumart) : AlbumartAction → Prop
  | .worker t => ∀ e r, d.memory.lookup t = some e → e.pc = .fetching [] → d.returning ≠ some (r, e.num)
  | .queue _ _ _ _ _ => d.num + 1 ∉ d.returned
  | .methodReturn | .unqueue _ => True

def AlbumartAction.context : AlbumartAction → Option Nat
  | .queue context _ _ _ _ => some context
  | .methodReturn | .unqueue _ | .worker _ => none

namespace AlbumartMessage

def replied (got : List AlbumartMessage) : List (Nat × UInt32) := got.filterMap reply?

def ended (got : List AlbumartMessage) : List UInt32 := got.filterMap finishes

@[simp] theorem replied_append (got more : List AlbumartMessage) :
    replied (got ++ more) = replied got ++ replied more :=
  List.filterMap_append

@[simp] theorem ended_append (got more : List AlbumartMessage) : ended (got ++ more) = ended got ++ ended more :=
  List.filterMap_append

@[simp] theorem replied_methodReturn (r : Nat) (num : UInt32) : replied [.methodReturn r num] = [(r, num)] := rfl

@[simp] theorem ended_methodReturn (r : Nat) (num : UInt32) : ended [.methodReturn r num] = [] := rfl

@[simp] theorem replied_signal (x : AlbumartSignal) : replied [.signal x] = [] := rfl

@[simp] theorem ended_signal (x : AlbumartSignal) : ended [.signal x] = x.finishes.toList := by
  cases x <;> rfl

theorem returns_eq (got : List AlbumartMessage) : got.filterMap returns = (replied got).map Prod.snd := by
  rw [replied, List.map_filterMap]
  refine List.filterMap_congr fun m _ => ?_
  cases m <;> rfl

end AlbumartMessage

namespace Albumart

open AlbumartMessage (replied ended)

/-- The callers with the handles that they get. -/
def replies (d : Albumart) : List (Nat × UInt32) := replied d.sent ++ d.returning.toList

theorem returned_eq (d : Albumart) : d.returned = d.replies.map Prod.snd := by
  rw [returned, replies, AlbumartMessage.returns_eq, List.map_append]
  cases d.returning <;> rfl

/-- The handle of each reply is a new one, what is finished was replied before, and only the handles
`skipped` are given away without a task. -/
structure Answering (d : Albumart) (skipped : List UInt32) : Prop where
  accounts : d.Accounts skipped
  nodup : d.returned.Nodup
  timely : ∀ (i : Nat) num, d.sent[i]? = some (.signal (.finished num)) →
    num ∈ (d.sent.take i).filterMap AlbumartMessage.returns

/-- What a step sends, and the handle that it gives to a caller. -/
structure Emits (d d' : Albumart) (a : AlbumartAction) (new : List AlbumartMessage) : Prop where
  sent : d'.sent = d.sent ++ new
  replies : d'.replies = d.replies ++ a.context.toList.map fun r => (r, d.num + 1)
  ended : ∀ num ∈ ended new, num ∈ d.sent.filterMap AlbumartMessage.returns

section
variable {env : Nat → AlbumartWorkEnv} {d d' : Albumart} {skipped : List UInt32} {new : List AlbumartMessage}
  {a : AlbumartAction}

theorem Emits.returned (h : d.Emits d' a new) :
    d'.returned = d.returned ++ a.context.toList.map fun _ => d.num + 1 := by
  rw [returned_eq, h.replies, List.map_append, returned_eq, List.map_map]
  rfl

theorem finishes_doTheWorkStep {env : AlbumartWorkEnv} {e r : AlbumartPoolTask} {out : List AlbumartSignal}
    (h : doTheWorkStep env e = some (r, out)) {num : UInt32} (hnum : num ∈ out.filterMap AlbumartSignal.finishes) :
    e.pc = .fetching [] ∧ num = e.num := by
  rw [doTheWorkStep.eq_def] at h
  split at h <;> simp only [Option.some.injEq, Prod.mk.injEq, reduceCtorEq] at h <;> obtain ⟨rfl, rfl⟩ := h
  · simp [AlbumartSignal.finishes] at hnum
  · simp at hnum
  · simp [AlbumartSignal.finishes] at hnum
  · simp [AlbumartSignal.finishes] at hnum
  · next hpc => exact ⟨hpc, by simpa [AlbumartSignal.finishes] using hnum⟩

/-- A live task has a handle that was given away. -/
theorem Accounts.returned_of_alive (h : d.Accounts skipped) {t : Nat} {e : AlbumartPoolTask}
    (he : d.memory.lookup t = some e) (hpc : e.pc ≠ .done) : e.num ∈ d.returned := by
  have halive : 0 < d.alive e.num := by
    rw [alive, KeyTable.tally_of_lookup he, if_neg hpc, List.count_singleton_self]
    omega
  have hcount := h.count e.num
  exact List.count_pos_iff.mp (by omega)

theorem emits_worker (h : d.Accounts skipped) {t : Nat} (ho : d.Orderly (.worker t))
    (hs : d.worker env t = some d') : ∃ new, d.Emits d' (.worker t) new := by
  rw [Albumart.worker] at hs
  cases he : d.memory.lookup t with
  | none => simp [he] at hs
  | some e =>
    simp only [he, Option.ite_none_right_eq_some, Option.map_eq_some_iff] at hs
    obtain ⟨_, ⟨r, out⟩, hstep, rfl⟩ := hs
    refine ⟨out.map .signal, rfl, ?_, fun num hnum => ?_⟩
    · have hreplies : replied (out.map AlbumartMessage.signal) = [] := by
        simp [replied, AlbumartMessage.reply?]
      simp [replies, hreplies, AlbumartAction.context]
    · rw [AlbumartMessage.ended, List.filterMap_map] at hnum
      obtain ⟨hpc, rfl⟩ := finishes_doTheWorkStep hstep hnum
      have hreturned := h.returned_of_alive he (by rw [hpc]; simp)
      refine (List.mem_append.mp hreturned).resolve_right fun hmem => ?_
      obtain ⟨⟨r, num⟩, hr, heq⟩ := Option.map_eq_some_iff.mp (Option.mem_toList.mp hmem)
      exact ho e r he hpc (by rw [hr, ← heq])

theorem emits_queue (hr : d.returning = none) (context : Nat) (artistOrTitle album kind : String)
    (handle : UInt32) :
    ∃ new, d.Emits (d.queue context artistOrTitle album kind handle)
      (.queue context artistOrTitle album kind handle)
      new := by
  rw [Albumart.queue]
  cases albumartQueue (some artistOrTitle) (some album) (some kind) with
  | none => exact ⟨[.methodReturn context (d.num + 1)], rfl, by simp [replies, hr, AlbumartAction.context], by simp⟩
  | some task =>
    refine ⟨[], (List.append_nil _).symm, ?_, by simp [ended]⟩
    simp [replies, hr, push, foreachTask, AlbumartAction.context]

theorem emits_step (h : d.Accounts skipped) (ho : d.Orderly a) (hs : d.step env a = some d') :
    ∃ new, d.Emits d' a new := by
  cases a with
  | queue context artistOrTitle album kind handle =>
    obtain ⟨hr, hs⟩ := Option.ite_none_right_eq_some.mp hs
    obtain rfl := Option.some.inj hs
    exact emits_queue hr context artistOrTitle album kind handle
  | methodReturn =>
    obtain ⟨⟨context, num⟩, hr, rfl⟩ := Option.map_eq_some_iff.mp hs
    exact ⟨[.methodReturn context num], rfl, by simp [replies, hr, AlbumartAction.context], by simp⟩
  | unqueue handle =>
    obtain ⟨hr, hs⟩ := Option.ite_none_right_eq_some.mp hs
    obtain rfl := Option.some.inj hs
    refine ⟨[], (List.append_nil _).symm, ?_, by simp [ended]⟩
    simp [replies, hr, Albumart.unqueue, foreachTask, AlbumartAction.context]
  | worker t => exact emits_worker h ho hs

theorem timely_append {sent : List AlbumartMessage}
    (h : ∀ (i : Nat) num, sent[i]? = some (.signal (.finished num)) →
    num ∈ (sent.take i).filterMap AlbumartMessage.returns)
    (hnew : ∀ num ∈ ended new, num ∈ sent.filterMap AlbumartMessage.returns) (i : Nat) (num : UInt32)
    (hi : (sent ++ new)[i]? = some (.signal (.finished num))) :
    num ∈ ((sent ++ new).take i).filterMap AlbumartMessage.returns := by
  by_cases hlt : i < sent.length
  · rw [List.getElem?_append_left hlt] at hi
    rw [List.take_append_of_le_length (Nat.le_of_lt hlt)]
    exact h i num hi
  · have hge : sent.length ≤ i := Nat.le_of_not_lt hlt
    rw [List.getElem?_append_right hge] at hi
    rw [List.take_append, List.take_of_length_le hge, List.filterMap_append, List.mem_append]
    exact .inl (hnew num (List.mem_filterMap.mpr ⟨_, List.mem_of_getElem? hi, rfl⟩))

theorem Orderly.fresh (ho : d.Orderly a) {r : Nat} (hr : a.context = some r) : d.num + 1 ∉ d.returned := by
  cases a with
  | queue => exact ho
  | methodReturn | unqueue | worker => cases hr

theorem Accounts.returned_of_skipped (h : d.Accounts skipped) {num : UInt32} (hnum : num ∈ skipped) :
    num ∈ d.returned := by
  have hcount := h.count num
  have hpos := List.count_pos_iff.mpr hnum
  exact List.count_pos_iff.mp (by omega)

theorem Answering.step (h : d.Answering skipped) (ho : d.Orderly a) (hs : d.step env a = some d') :
    (∃ new, d.Emits d' a new) ∧ d'.Answering (skipped ++ if a.nameless then [d.num + 1] else []) := by
  obtain ⟨new, he⟩ := emits_step h.accounts ho hs
  refine ⟨⟨new, he⟩, h.accounts.step hs, ?_, ?_⟩
  · rw [he.returned]
    cases hr : a.context with
    | none => simpa using h.nodup
    | some r => simpa using h.nodup.concat (ho.fresh hr)
  · rw [he.sent]
    exact timely_append h.timely he.ended

end

end Albumart

end HildonThumbnail
