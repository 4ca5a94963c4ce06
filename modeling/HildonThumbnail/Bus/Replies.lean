import HildonThumbnail.Thumbnailer.TaskLife

/-! What the daemon puts on the bus for a client: a reply for each task, with a
handle of its own, and Finished once the reply is under way. -/

namespace HildonThumbnail

def Message.reply? : Message → Option (Nat × UInt32)
  | .methodReturn r num => some (r, num)
  | .signal _ _ | .methodError _ _ => none

namespace Thumbnailer

def Issued (d : Thumbnailer) (num : UInt32) : Prop := ∃ t e, d.memory.lookup t = some e ∧ e.task.num = num

/-- A task with the handle has its Finished still to send. -/
def Live (d : Thumbnailer) (num : UInt32) : Prop :=
  ∃ t e, d.memory.lookup t = some e ∧ e.task.num = num ∧ e.pc ≠ .done

def replies (d : Thumbnailer) : List (Nat × UInt32) := d.sent.filterMap Message.reply? ++ d.returning.toList

/-- The daemon issues no handle twice, finishes no task before its reply is
sent, and there is no crash-out. -/
def Orderly (d : Thumbnailer) : Action → Prop
  | .queue _ (some _) _ _ => ¬ d.Issued (d.num + 1)
  | .worker t => ∀ e r, d.memory.lookup t = some e → e.pc = .working [] → d.returning ≠ some (r, e.task.num)
  | .methodReturn | .unqueue _ => True
  | .queue _ none _ _ | .crashOut => False

structure Answering (d : Thumbnailer) : Prop where
  listed : d.Listed
  alive : ∀ t e, d.memory.lookup t = some e → e.task.dead = false
  owes : ∀ r num, d.returning = some (r, num) → d.Live num
  nodup : (d.replies.map Prod.snd).Nodup
  issued : ∀ p ∈ d.replies, d.Issued p.2

structure Emits (d d' : Thumbnailer) (new : List Message) : Prop where
  sent : d'.sent = d.sent ++ new
  live : ∀ num, d.Live num → d'.Live num ∨ ∃ t, .signal t (.finished num) ∈ new
  reply : ∀ r num, .methodReturn r num ∈ new → new = [.methodReturn r num] ∧ d'.Live num
  noError : ∀ r message, .methodError r message ∉ new
  replies : ∀ p ∈ d.replies, p ∈ d'.replies

/-- Every task is still in memory, with its handle and its worker where it was. -/
def Remembers (d d' : Thumbnailer) : Prop :=
  ∀ t e, d.memory.lookup t = some e → ∃ e', d'.memory.lookup t = some e' ∧ e'.task.num = e.task.num ∧ e'.pc = e.pc

section Memory
variable {d d' : Thumbnailer}

theorem Remembers.live (h : d.Remembers d') {num : UInt32} (hl : d.Live num) : d'.Live num := by
  obtain ⟨t, e, he, hnum, hpc⟩ := hl
  obtain ⟨e', he', hnum', hpc'⟩ := h t e he
  exact ⟨t, e', he', hnum'.trans hnum, hpc' ▸ hpc⟩

theorem Remembers.issued (h : d.Remembers d') {num : UInt32} (hi : d.Issued num) : d'.Issued num := by
  obtain ⟨t, e, he, hnum⟩ := hi
  obtain ⟨e', he', hnum', _⟩ := h t e he
  exact ⟨t, e', he', hnum'.trans hnum⟩

end Memory

section Marking
variable {d : Thumbnailer} (handle : UInt32)

theorem remembers_marked : d.Remembers (d.foreachTask (markUnqueued handle)) := by
  intro t e he
  refine ⟨_, by rw [lookup_foreachTask, he]; rfl, ?_⟩
  split
  · exact ⟨markUnqueued_num handle e.task, rfl⟩
  · exact ⟨rfl, rfl⟩

theorem alive_marked (h : ∀ t e, d.memory.lookup t = some e → e.task.dead = false) (t : Nat) (e : PoolTask)
    (he : (d.foreachTask (markUnqueued handle)).memory.lookup t = some e) : e.task.dead = false := by
  rw [lookup_foreachTask] at he
  obtain ⟨o, ho, rfl⟩ := Option.map_eq_some_iff.mp he
  have hdead := h t o ho
  split
  · exact (markUnqueued_dead handle o.task).trans hdead
  · exact hdead

theorem answering_unqueue (h : d.Answering) : (thumbnailerUnqueue d handle).Answering ∧
    Emits d (thumbnailerUnqueue d handle) [] := by
  have hkept : d.Remembers (thumbnailerUnqueue d handle) := remembers_marked handle
  refine ⟨⟨listed_foreachTask h.listed _, alive_marked handle h.alive, fun r num hr => ?_, h.nodup, fun p hp => ?_⟩,
    (List.append_nil _).symm, fun num hl => .inl (hkept.live hl), by simp, by simp, fun p hp => hp⟩
  · exact hkept.live (h.owes r num hr)
  · exact hkept.issued (h.issued p hp)

section Queue
variable (context : Nat) (urls : List String) (mimeHints : Option (List String))

theorem lookup_queue (t : Nat) : (thumbnailerQueue d context (some urls) mimeHints handle).memory.lookup t =
    if t = d.pushed then
      some ⟨.new urls mimeHints (d.num + 1), if urls.length > 50 then .large else .normal, .pushed⟩
    else (d.foreachTask (markUnqueued handle)).memory.lookup t :=
  KeyTable.lookup_insert_eq _ _ _ _

theorem remembers_queue (h : d.Listed) : d.Remembers (thumbnailerQueue d context (some urls) mimeHints handle) := by
  intro t e he
  have hne : t ≠ d.pushed := by
    rintro rfl
    rw [h.unborn d.pushed le_rfl] at he
    cases he
  rw [lookup_queue, if_neg hne]
  exact remembers_marked handle t e he

theorem replies_queue (hr : d.returning = none) :
    (thumbnailerQueue d context (some urls) mimeHints handle).replies = d.replies ++ [(context, d.num + 1)] := by
  simp [replies, hr, thumbnailerQueue, foreachTask]

theorem nodup_queue (h : d.Answering) (hfresh : ¬ d.Issued (d.num + 1)) :
    ((d.replies ++ [(context, d.num + 1)]).map Prod.snd).Nodup := by
  rw [List.map_append, List.map_singleton]
  refine List.Nodup.append h.nodup (List.nodup_singleton _) ?_
  rw [List.disjoint_singleton]
  intro hmem
  obtain ⟨p, hp, hpnum⟩ := List.mem_map.mp hmem
  have hissued := h.issued p hp
  rw [hpnum] at hissued
  exact hfresh hissued

theorem answering_queue (h : d.Answering) (hr : d.returning = none) (hfresh : ¬ d.Issued (d.num + 1)) :
    (thumbnailerQueue d context (some urls) mimeHints handle).Answering ∧
      Emits d (thumbnailerQueue d context (some urls) mimeHints handle) [] := by
  have hkept := remembers_queue handle context urls mimeHints h.listed
  have hreplies := replies_queue handle context urls mimeHints hr
  have hnew := lookup_queue (d := d) handle context urls mimeHints d.pushed
  rw [if_pos rfl] at hnew
  refine ⟨⟨listed_thumbnailerQueue h.listed context _ mimeHints handle, fun t e he => ?_, fun r num hrn => ?_, ?_,
    fun p hp => ?_⟩, (List.append_nil _).symm, fun num hl => .inl (hkept.live hl), by simp, by simp, fun p hp => ?_⟩
  · rw [lookup_queue] at he
    split at he
    · rw [← Option.some.inj he]
      rfl
    · exact alive_marked handle h.alive t e he
  · obtain ⟨_, rfl⟩ := Prod.mk.inj (Option.some.inj hrn)
    exact ⟨d.pushed, _, hnew, rfl, by simp⟩
  · rw [hreplies]
    exact nodup_queue context h hfresh
  · rw [hreplies] at hp
    rcases List.mem_append.mp hp with hp | hp
    · exact hkept.issued (h.issued p hp)
    · rw [List.mem_singleton.mp hp]
      exact ⟨d.pushed, _, hnew, rfl⟩
  · rw [hreplies]
    exact List.mem_append_left _ hp

end Queue

end Marking

section Steps
variable {d d' : Thumbnailer}

theorem answering_methodReturn (h : d.Answering) {r : Nat × UInt32} (hr : d.returning = some r) :
    let d' := { d with returning := none, sent := d.sent ++ [.methodReturn r.1 r.2] }
    d'.Answering ∧ Emits d d' [.methodReturn r.1 r.2] := by
  intro d'
  have hreplies : d'.replies = d.replies := by
    simp [replies, d', hr, Message.reply?]
  refine ⟨⟨⟨h.listed.nodup, h.listed.mem_iff, h.listed.unborn⟩, h.alive, (fun r num hrn => nomatch hrn), ?_,
    fun p hp => ?_⟩, rfl, fun num hl => .inl hl, fun x num hx => ?_, by simp, fun p hp => hreplies ▸ hp⟩
  · rw [hreplies]
    exact h.nodup
  · rw [hreplies] at hp
    exact h.issued p hp
  · have heq := List.mem_singleton.mp hx
    obtain ⟨hx₁, hx₂⟩ := Message.methodReturn.inj heq
    refine ⟨by rw [heq], ?_⟩
    exact h.owes x num (by rw [hr, hx₁, hx₂])

theorem doTheWorkStep_done {env : WorkEnv} {e r : PoolTask} {out : List Signal}
    (h : doTheWorkStep env e = some (r, out)) (hr : r.pc = .done) :
    e.pc = .working [] ∧ out = if e.task.dead then [] else [.finished e.task.num] := by
  obtain ⟨task, pool, pc⟩ := e
  cases pc with
  | pushed => cases h; cases hr
  | started => cases h; cases hr
  | working rest =>
    cases rest with
    | nil => cases h; exact ⟨rfl, rfl⟩
    | cons x rest => cases h; cases hr
  | done => simp [doTheWorkStep] at h

section Worker
variable {env : WorkEnv} {t : Nat} {e r : PoolTask} {out : List Signal}
  (he : d.memory.lookup t = some e) (hr : doTheWorkStep env e = some (r, out))
  (hlookup : ∀ u, d'.memory.lookup u = if u = t then some r else d.memory.lookup u)
include he hr hlookup

theorem issued_worker {num : UInt32} (hi : d.Issued num) : d'.Issued num := by
  obtain ⟨htask, _⟩ := remaining_doTheWorkStep hr
  obtain ⟨u, o, ho, hnum⟩ := hi
  by_cases hu : u = t
  · rw [hu, he] at ho
    exact ⟨t, r, by rw [hlookup, if_pos rfl], by rw [htask, Option.some.inj ho, hnum]⟩
  · exact ⟨u, o, by rw [hlookup, if_neg hu, ho], hnum⟩

theorem live_worker {num : UInt32} (hl : d.Live num) : d'.Live num ∨ r.pc = .done ∧ e.task.num = num := by
  obtain ⟨htask, _⟩ := remaining_doTheWorkStep hr
  obtain ⟨u, o, ho, hnum, hpc⟩ := hl
  by_cases hu : u = t
  · rw [hu, he] at ho
    obtain rfl := Option.some.inj ho
    by_cases hdone : r.pc = .done
    · exact .inr ⟨hdone, hnum⟩
    · exact .inl ⟨t, r, by rw [hlookup, if_pos rfl], by rw [htask, hnum], hdone⟩
  · exact .inl ⟨u, o, by rw [hlookup, if_neg hu, ho], hnum, hpc⟩

end Worker

theorem answering_worker {env : Nat → WorkEnv} (h : d.Answering) {t : Nat} (ho : d.Orderly (.worker t))
    (hs : d.worker env t = some d') : d'.Answering ∧ ∃ new, Emits d d' new := by
  have hlisted := listed_worker h.listed hs
  obtain ⟨e, r, out, he, hr, hd'⟩ := worker_eq_some hs
  obtain ⟨htask, _⟩ := remaining_doTheWorkStep hr
  have hlookup (u : Nat) : d'.memory.lookup u = if u = t then some r else d.memory.lookup u := by
    rw [hd']
    exact KeyTable.lookup_insert_eq _ _ _ _
  have hsent : d'.sent = d.sent ++ out.map (.signal t) := by rw [hd']
  have hreturning : d'.returning = d.returning := by rw [hd']
  have hreplies : d'.replies = d.replies := by
    have hnone : (out.map (Message.signal t)).filterMap Message.reply? = [] := by
      simp [List.filterMap_map, Function.comp_def, Message.reply?]
    rw [replies, hsent, hreturning, List.filterMap_append, hnone, List.append_nil, replies]
  refine ⟨⟨hlisted, fun u o hu => ?_, fun x num hx => ?_, hreplies ▸ h.nodup, fun p hp => ?_⟩,
    out.map (.signal t), hsent, fun num hl => ?_, by simp, by simp, fun p hp => hreplies ▸ hp⟩
  · rw [hlookup] at hu
    split at hu
    · rw [← Option.some.inj hu, htask]
      exact h.alive t e he
    · exact h.alive u o hu
  · rw [hreturning] at hx
    refine (live_worker he hr hlookup (h.owes x num hx)).resolve_right fun ⟨hdone, hnum⟩ => ?_
    exact ho e x he (doTheWorkStep_done hr hdone).1 (hnum ▸ hx)
  · rw [hreplies] at hp
    exact issued_worker he hr hlookup (h.issued p hp)
  · refine (live_worker he hr hlookup hl).imp_right fun ⟨hdone, hnum⟩ => ?_
    have hout := (doTheWorkStep_done hr hdone).2
    rw [h.alive t e he, if_neg (by simp), hnum] at hout
    exact ⟨t, by simp [hout]⟩

theorem answering_step {env : Nat → WorkEnv} {a : Action} (h : d.Answering) (ho : d.Orderly a)
    (hs : d.step env a = some d') : d'.Answering ∧ ∃ new, Emits d d' new := by
  cases a with
  | queue context urls mimeHints handle =>
    obtain ⟨hr, hs⟩ := Option.ite_none_right_eq_some.mp hs
    obtain rfl := Option.some.inj hs
    cases urls with
    | none => exact ho.elim
    | some urls => exact (answering_queue handle context urls mimeHints h hr ho).imp_right fun hd => ⟨[], hd⟩
  | methodReturn =>
    obtain ⟨r, hr, rfl⟩ := Option.map_eq_some_iff.mp hs
    exact (answering_methodReturn h hr).imp_right fun hd => ⟨_, hd⟩
  | unqueue handle =>
    obtain ⟨_, hs⟩ := Option.ite_none_right_eq_some.mp hs
    obtain rfl := Option.some.inj hs
    exact (answering_unqueue handle h).imp_right fun hd => ⟨[], hd⟩
  | crashOut => exact ho.elim
  | worker t => exact answering_worker h ho hs

theorem answering_init : thumbnailerInit.Answering where
  listed := listed_init
  alive _ _ he := nomatch he
  owes _ _ hr := nomatch hr
  nodup := List.nodup_nil
  issued _ hp := nomatch hp

end Steps

end Thumbnailer

end HildonThumbnail
