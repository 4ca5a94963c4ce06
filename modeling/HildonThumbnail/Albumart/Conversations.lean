import HildonThumbnail.Albumart.Finished

/-! The one thread of the album art service tells whole conversations, one after
another: what is signalled for each task, over any run. -/

namespace HildonThumbnail

def AlbumartMessage.signal? : AlbumartMessage → Option AlbumartSignal
  | .signal x => some x
  | .methodReturn _ _ => none

namespace Albumart

def signals (s : Albumart) : List AlbumartSignal := s.sent.filterMap AlbumartMessage.signal?

/-- An Error for each provider that fails, and Ready for the first that does not. -/
def answers (env : AlbumartWorkEnv) (num : UInt32) (task : AlbumartTask) :
    List (Option String) → List AlbumartSignal
  | [] => []
  | some message :: rest => .error num 1 message :: answers env num task rest
  | none :: _ => [.ready task.artist task.album task.kind (path env task)]

/-- The providers are asked for a task that was not cancelled, while there is no file. -/
def asked (env : AlbumartWorkEnv) (e : AlbumartPoolTask) : Bool := !(e.unqueued || env.fileTest (path env e.task))

def conversation (env : AlbumartWorkEnv) (e : AlbumartPoolTask) : List AlbumartSignal :=
  .started e.num :: (answers env e.num e.task (if asked env e then env.fetches else []) ++ [.finished e.num])

def Running (e : AlbumartPoolTask) : Prop := ¬ (e.pc = .pushed ∨ e.pc = .done)

/-- What has been signalled for a task so far. -/
def Told (env : AlbumartWorkEnv) (e : AlbumartPoolTask) (out : List AlbumartSignal) : Prop :=
  match e.pc with
  | .pushed => out = []
  | .started => out = [.started e.num]
  | .fetching rest => out ++ (answers env e.num e.task rest ++ [.finished e.num]) = conversation env e
  | .done => out = conversation env e

def conversationOf (env : Nat → AlbumartWorkEnv) (s : Albumart) (t : Nat) : List AlbumartSignal :=
  ((s.memory.lookup t).map (conversation (env t))).getD []

/-- `order` are the tasks that are done, `current` is the one under way, and `part`
is what it has told. -/
structure Serial (env : Nat → AlbumartWorkEnv) (s : Albumart) (order : List Nat) (current : Option Nat)
    (part : List AlbumartSignal) : Prop where
  fresh : ∀ t, s.pushed ≤ t → s.memory.lookup t = none
  listed : ∀ t ∈ s.tasks, ∃ e, s.memory.lookup t = some e ∧ (e.pc = .pushed ∨ e.pc = .started)
  tasks_nodup : s.tasks.Nodup
  order_nodup : order.Nodup
  done_iff : ∀ t, t ∈ order ↔ ∃ e, s.memory.lookup t = some e ∧ e.pc = .done
  running_iff : ∀ t, current = some t ↔ ∃ e, s.memory.lookup t = some e ∧ Running e
  told : ∀ t e, current = some t → s.memory.lookup t = some e → Told (env t) e part
  idle : current = none → part = []
  signals : s.signals = order.flatMap (conversationOf env s) ++ part

section Steps
variable {env : Nat → AlbumartWorkEnv} {s s' : Albumart} {order : List Nat} {current : Option Nat}
  {part out : List AlbumartSignal} {t : Nat} {e r : AlbumartPoolTask}

theorem told_prefix {env : AlbumartWorkEnv} (h : Told env e out) : out <+: conversation env e := by
  rw [Told.eq_def] at h
  split at h
  · rw [h]
    exact List.nil_prefix
  · rw [h]
    exact ⟨_, rfl⟩
  · exact ⟨_, h⟩
  · exact h ▸ List.prefix_rfl

/-- A section of the worker goes on with the conversation and changes the place alone. -/
theorem doTheWorkStep_told {env : AlbumartWorkEnv} {more : List AlbumartSignal}
    (h : doTheWorkStep env e = some (r, more)) (ht : Told env e out) :
    Told env r (out ++ more) ∧ (r.pc = .started ↔ e.pc = .pushed) ∧ r.pc ≠ .pushed := by
  rw [doTheWorkStep.eq_def] at h
  rw [Told.eq_def] at ht
  split at h
  · next hpc =>
    obtain ⟨rfl, rfl⟩ := Prod.mk.inj (Option.some.inj h)
    rw [hpc] at ht
    exact ⟨by rw [ht]; rfl, iff_of_true rfl hpc, by simp⟩
  · next hpc =>
    obtain ⟨rfl, rfl⟩ := Prod.mk.inj (Option.some.inj h)
    rw [hpc] at ht
    refine ⟨?_, by simp [hpc], by simp⟩
    rw [ht]
    change AlbumartSignal.started e.num :: _ = AlbumartSignal.started e.num :: _
    rw [asked]
    cases e.unqueued || env.fileTest (path env e.task) <;> rfl
  · next message rest hpc =>
    obtain ⟨rfl, rfl⟩ := Prod.mk.inj (Option.some.inj h)
    rw [hpc] at ht
    refine ⟨?_, by simp [hpc], by simp⟩
    change (out ++ [_]) ++ _ = _
    rw [List.append_assoc]
    exact ht
  · next rest hpc =>
    obtain ⟨rfl, rfl⟩ := Prod.mk.inj (Option.some.inj h)
    rw [hpc] at ht
    refine ⟨?_, by simp [hpc], by simp⟩
    change (out ++ [_]) ++ _ = _
    rw [List.append_assoc]
    exact ht
  · next hpc =>
    obtain ⟨rfl, rfl⟩ := Prod.mk.inj (Option.some.inj h)
    rw [hpc] at ht
    refine ⟨?_, by simp [hpc], by simp⟩
    exact ht
  · cases h

theorem doTheWorkStep_task {env : AlbumartWorkEnv} {more : List AlbumartSignal}
    (h : doTheWorkStep env e = some (r, more)) : r.task = e.task := by
  rw [doTheWorkStep.eq_def] at h
  split at h <;> simp only [Option.some.injEq, Prod.mk.injEq, reduceCtorEq] at h <;> rw [← h.1]

theorem conversations_congr (h : ∀ t ∈ order, s'.memory.lookup t = s.memory.lookup t) :
    order.flatMap (conversationOf env s') = order.flatMap (conversationOf env s) :=
  List.flatMap_congr fun t ht => by rw [conversationOf, h t ht, conversationOf]

theorem Serial.init (env : Nat → AlbumartWorkEnv) : Serial env albumartInit [] none [] where
  fresh _ _ := rfl
  listed _ ht := nomatch ht
  tasks_nodup := .nil
  order_nodup := .nil
  done_iff _ := iff_of_false (fun ht => nomatch ht) fun ⟨_, he, _⟩ => nomatch he
  running_iff _ := iff_of_false (fun ht => nomatch ht) fun ⟨_, he, _⟩ => nomatch he
  told _ _ ht := nomatch ht
  idle _ := rfl
  signals := rfl

/-- Only what is signalled counts of what is sent. -/
theorem Serial.sent (h : Serial env s order current part) {num : UInt32} {returning : Option (Nat × UInt32)}
    {sent : List AlbumartMessage} (hsent : sent.filterMap AlbumartMessage.signal? = s.signals) :
    Serial env { s with num := num, returning := returning, sent := sent } order current part where
  fresh := h.fresh
  listed := h.listed
  tasks_nodup := h.tasks_nodup
  order_nodup := h.order_nodup
  done_iff := h.done_iff
  running_iff := h.running_iff
  told := h.told
  idle := h.idle
  signals := hsent.trans h.signals

/-- A cancelled task is one that no thread has taken, or whose beginning alone was told. -/
theorem Serial.mark (h : Serial env s order current part) (handle : UInt32) :
    Serial env (s.foreachTask (markUnqueued handle)) order current part := by
  have hlookup (t : Nat) : (s.foreachTask (markUnqueued handle)).memory.lookup t =
      (s.memory.lookup t).map fun e => if t ∈ s.tasks then markUnqueued handle e else e :=
        KeyTable.lookup_mapValues _ _ _
  have hmark (e : AlbumartPoolTask) : (markUnqueued handle e).num = e.num ∧ (markUnqueued handle e).pc = e.pc := by
    rw [markUnqueued]
    split <;> exact ⟨rfl, rfl⟩
  have hpc (p : AlbumartPc → Prop) (t : Nat) :
      (∃ e, (s.foreachTask (markUnqueued handle)).memory.lookup t = some e ∧ p e.pc) ↔
        ∃ e, s.memory.lookup t = some e ∧ p e.pc := by
    rw [hlookup]
    cases s.memory.lookup t with
    | none => simp
    | some e =>
      have hsame : (if t ∈ s.tasks then markUnqueued handle e else e).pc = e.pc := by
        split
        · exact (hmark e).2
        · rfl
      simp [hsame]
  refine ⟨fun t ht => ?_, fun t ht => (hpc (fun pc => pc = .pushed ∨ pc = .started) t).mpr (h.listed t ht),
    h.tasks_nodup, h.order_nodup, fun t => (h.done_iff t).trans (hpc (· = .done) t).symm,
      fun t => (h.running_iff t).trans (hpc (fun pc => ¬ (pc = .pushed ∨ pc = .done)) t).symm,
    fun t e ht he => ?_, h.idle, ?_⟩
  · rw [hlookup, h.fresh t ht]
    rfl
  · rw [hlookup] at he
    obtain ⟨e, hl, rfl⟩ := Option.map_eq_some_iff.mp he
    have htold := h.told t e ht hl
    split
    · next hmem =>
      obtain ⟨e', hl', hplace⟩ := h.listed t hmem
      obtain rfl := Option.some.inj (hl.symm.trans hl')
      obtain ⟨e', hl'', hrunning⟩ := (h.running_iff t).mp ht
      obtain rfl := Option.some.inj (hl.symm.trans hl'')
      have hstarted := hplace.resolve_left fun hpushed => hrunning (.inl hpushed)
      rw [Told, hstarted] at htold
      rw [Told, (hmark e).2, hstarted, (hmark e).1]
      exact htold
    · exact htold
  · refine h.signals.trans (congrArg (· ++ part) (conversations_congr fun t ht => ?_).symm)
    obtain ⟨e, he, hdone⟩ := (h.done_iff t).mp ht
    have hmem : t ∉ s.tasks := by
      intro hmem
      obtain ⟨e', he', hplace⟩ := h.listed t hmem
      obtain rfl := Option.some.inj (he.symm.trans he')
      rw [hdone] at hplace
      rcases hplace with hplace | hplace <;> cases hplace
    rw [hlookup, he, Option.map_some, if_neg hmem]

theorem Serial.push (h : Serial env s order current part) (num : UInt32) (task : AlbumartTask) :
    Serial env
      { s with
        tasks := s.pushed :: s.tasks
        memory := s.memory.insert s.pushed ⟨num, task, false, .pushed⟩
        pushed := s.pushed + 1 } order current part := by
  have hfresh := h.fresh s.pushed le_rfl
  have hlookup (t : Nat) (ht : t ≠ s.pushed) :
      (s.memory.insert s.pushed ⟨num, task, false, .pushed⟩).lookup t = s.memory.lookup t :=
    AList.lookup_insert_ne ht
  have hnew (p : AlbumartPc → Prop) (hp : ¬ p .pushed) (t : Nat) :
      (∃ e, (s.memory.insert s.pushed ⟨num, task, false, .pushed⟩).lookup t = some e ∧ p e.pc) ↔
        ∃ e, s.memory.lookup t = some e ∧ p e.pc := by
    by_cases ht : t = s.pushed
    · subst ht
      rw [AList.lookup_insert, hfresh]
      simp [hp]
    · rw [hlookup t ht]
  have hne (t : Nat) (e : AlbumartPoolTask) (he : s.memory.lookup t = some e) : t ≠ s.pushed := by
    rintro rfl
    rw [hfresh] at he
    cases he
  refine ⟨fun t ht => ?_, fun t ht => ?_, ?_, h.order_nodup,
    fun t => (h.done_iff t).trans (hnew (· = .done) (by simp) t).symm,
      fun t => (h.running_iff t).trans (hnew (fun pc => ¬ (pc = .pushed ∨ pc = .done)) (by simp) t).symm,
    fun t e ht he => ?_, h.idle, ?_⟩
  · have hle : s.pushed + 1 ≤ t := ht
    rw [hlookup t (by omega)]
    exact h.fresh t (by omega)
  · rcases List.mem_cons.mp ht with rfl | ht
    · exact ⟨_, AList.lookup_insert _, .inl rfl⟩
    · obtain ⟨e, he, hplace⟩ := h.listed t ht
      exact ⟨e, (hlookup t (hne t e he)).trans he, hplace⟩
  · refine List.nodup_cons.mpr ⟨fun hmem => ?_, h.tasks_nodup⟩
    obtain ⟨e, he, _⟩ := h.listed s.pushed hmem
    exact hne s.pushed e he rfl
  · obtain ⟨e', he', _⟩ := (h.running_iff t).mp ht
    rw [hlookup t (hne t e' he')] at he
    exact h.told t e ht he
  · refine h.signals.trans (congrArg (· ++ part) (conversations_congr fun t ht => ?_).symm)
    obtain ⟨e, he, _⟩ := (h.done_iff t).mp ht
    exact hlookup t (hne t e he)

theorem Serial.queue (h : Serial env s order current part) (context : Nat) (artistOrTitle album kind : String)
    (handle : UInt32) : Serial env (s.queue context artistOrTitle album kind handle) order current part := by
  rw [Albumart.queue]
  cases albumartQueue (some artistOrTitle) (some album) (some kind) with
  | none => exact h.sent (by simp [Albumart.signals, AlbumartMessage.signal?])
  | some task => exact ((h.mark handle).push (s.num + 1) task).sent rfl

/-- The thread that a task needs is the one of the task that has been told last. -/
theorem Serial.current_of_thread (h : Serial env s order current part) (he : s.memory.lookup t = some e)
    (hthread : s.hasThread e = true) (hdone : e.pc ≠ .done) :
    (e.pc = .pushed ∧ current = none) ∨ (e.pc ≠ .pushed ∧ current = some t) := by
  by_cases hpc : e.pc = .pushed
  · refine .inl ⟨hpc, ?_⟩
    have hidle : s.memory.tally (fun o => if o.pc = .pushed ∨ o.pc = .done then 0 else 1) = 0 := by
      simpa [hasThread, hpc] using hthread
    by_contra hcurrent
    obtain ⟨u, hu⟩ := Option.ne_none_iff_exists'.mp hcurrent
    obtain ⟨o, ho, hrunning⟩ := (h.running_iff u).mp hu
    have hzero := KeyTable.tally_eq_zero_iff.mp hidle u o ho
    rw [if_neg hrunning] at hzero
    cases hzero
  · exact .inr ⟨hpc, (h.running_iff t).mpr ⟨e, he, fun hplace => hplace.elim hpc hdone⟩⟩

section Worker
variable {tasks : List Nat} {sent : List AlbumartMessage}

theorem Serial.not_mem_order (h : Serial env s order current part) (he : s.memory.lookup t = some e)
    (hdone : e.pc ≠ .done) : t ∉ order := by
  intro hmem
  obtain ⟨e', he', hdone'⟩ := (h.done_iff t).mp hmem
  obtain rfl := Option.some.inj (he.symm.trans he')
  exact hdone hdone'

/-- With one thread no other task is under way. -/
theorem Serial.others_rest (h : Serial env s order current part) (he : s.memory.lookup t = some e)
    (hthread : s.hasThread e = true) (hdone : e.pc ≠ .done) {u : Nat} (hu : u ≠ t) {o : AlbumartPoolTask}
    (ho : s.memory.lookup u = some o) : ¬ Running o := by
  intro hrunning
  have hcurrent := (h.running_iff u).mpr ⟨o, ho, hrunning⟩
  rcases h.current_of_thread he hthread hdone with ⟨_, hnone⟩ | ⟨_, hsome⟩
  · rw [hnone] at hcurrent
    cases hcurrent
  · exact hu (Option.some.inj (hcurrent.symm.trans hsome))

theorem Serial.told_part (h : Serial env s order current part) (he : s.memory.lookup t = some e)
    (hthread : s.hasThread e = true) (hdone : e.pc ≠ .done) : Told (env t) e part := by
  rcases h.current_of_thread he hthread hdone with ⟨hpc, hcurrent⟩ | ⟨_, hcurrent⟩
  · rw [Told, hpc]
    exact h.idle hcurrent
  · exact h.told t e hcurrent he

theorem lookup_worker {u : Nat} (hu : u ≠ t) : (s.memory.insert t r).lookup u = s.memory.lookup u :=
  AList.lookup_insert_ne hu

theorem conversations_worker (hnotOrder : t ∉ order) :
    order.flatMap (conversationOf env { s with memory := s.memory.insert t r }) =
      order.flatMap (conversationOf env s) := by
  refine conversations_congr fun u hu => lookup_worker ?_
  rintro rfl
  exact hnotOrder hu

theorem Serial.fresh_worker (h : Serial env s order current part) (he : s.memory.lookup t = some e) (u : Nat)
    (hu : s.pushed ≤ u) : (s.memory.insert t r).lookup u = none := by
  have hne : u ≠ t := by
    rintro rfl
    rw [h.fresh u hu] at he
    cases he
  rw [lookup_worker hne]
  exact h.fresh u hu

theorem Serial.nodup_worker (h : Serial env s order current part) :
    (if e.pc = .started then s.tasks.erase t else s.tasks).Nodup := by
  split
  · exact h.tasks_nodup.erase t
  · exact h.tasks_nodup

theorem Serial.listed_worker (h : Serial env s order current part) (he : s.memory.lookup t = some e)
    (hstarted : r.pc = .started ↔ e.pc = .pushed) (u : Nat)
    (hu : u ∈ if e.pc = .started then s.tasks.erase t else s.tasks) :
    ∃ o, (s.memory.insert t r).lookup u = some o ∧ (o.pc = .pushed ∨ o.pc = .started) := by
  by_cases hut : u = t
  · subst hut
    split at hu
    · exact absurd hu h.tasks_nodup.not_mem_erase
    · next hpc =>
      obtain ⟨e', he', hplace⟩ := h.listed u hu
      obtain rfl := Option.some.inj (he.symm.trans he')
      exact ⟨r, AList.lookup_insert _, .inr (hstarted.mpr (hplace.resolve_right hpc))⟩
  · have hmem : u ∈ s.tasks := by
      split at hu
      · exact List.mem_of_mem_erase hu
      · exact hu
    obtain ⟨o, ho, hplace⟩ := h.listed u hmem
    exact ⟨o, (lookup_worker hut).trans ho, hplace⟩

/-- The section ends the conversation. -/
theorem Serial.ends (h : Serial env s order current part) (he : s.memory.lookup t = some e)
    (hnotOrder : t ∉ order) (hothers : ∀ u ≠ t, ∀ o, s.memory.lookup u = some o → ¬ Running o)
    (hstarted : r.pc = .started ↔ e.pc = .pushed) (hend : r.pc = .done)
    (hsent : sent.filterMap AlbumartMessage.signal? =
      order.flatMap (conversationOf env s) ++ conversation (env t) r) :
    Serial env { s with
      tasks := if e.pc = .started then s.tasks.erase t else s.tasks
      memory := s.memory.insert t r
      sent := sent } (order ++ [t]) none [] := by
  have hself : (s.memory.insert t r).lookup t = some r := AList.lookup_insert _
  refine ⟨h.fresh_worker he, h.listed_worker he hstarted, h.nodup_worker, ?_, fun u => ?_, fun u => ?_,
    fun u o hu => (by cases hu), fun _ => rfl, ?_⟩
  · rw [← List.concat_eq_append]
    exact h.order_nodup.concat hnotOrder
  · by_cases hut : u = t
    · subst hut
      exact iff_of_true (List.mem_append_right _ List.mem_cons_self) ⟨r, hself, hend⟩
    · rw [lookup_worker hut, List.mem_append, List.mem_singleton, or_iff_left hut]
      exact h.done_iff u
  · refine iff_of_false (by simp) ?_
    rintro ⟨o, ho, hrunning⟩
    by_cases hut : u = t
    · subst hut
      obtain rfl := Option.some.inj (hself.symm.trans ho)
      exact hrunning (.inr hend)
    · exact hothers u hut o ((lookup_worker hut).symm.trans ho) hrunning
  · have hothers' : order.flatMap (conversationOf env s) =
        order.flatMap (conversationOf env { s with memory := s.memory.insert t r }) :=
      (conversations_worker hnotOrder).symm
    have hlast : conversationOf env { s with memory := s.memory.insert t r } t = conversation (env t) r := by
      rw [conversationOf, hself]
      rfl
    refine hsent.trans ?_
    rw [hothers', List.append_nil, List.flatMap_append, List.flatMap_singleton, ← hlast]
    rfl

/-- The section goes on with the conversation, or begins it. -/
theorem Serial.goesOn (h : Serial env s order current part) (he : s.memory.lookup t = some e)
    (hnotOrder : t ∉ order) (hothers : ∀ u ≠ t, ∀ o, s.memory.lookup u = some o → ¬ Running o)
    (hstarted : r.pc = .started ↔ e.pc = .pushed) (hrunning : Running r) {told : List AlbumartSignal}
    (htold : Told (env t) r told)
    (hsent : sent.filterMap AlbumartMessage.signal? = order.flatMap (conversationOf env s) ++ told) :
    Serial env { s with
      tasks := if e.pc = .started then s.tasks.erase t else s.tasks
      memory := s.memory.insert t r
      sent := sent } order (some t) told := by
  have hself : (s.memory.insert t r).lookup t = some r := AList.lookup_insert _
  refine ⟨h.fresh_worker he, h.listed_worker he hstarted, h.nodup_worker, h.order_nodup, fun u => ?_, fun u => ?_,
    fun u o hu ho => ?_, fun hu => (by cases hu), ?_⟩
  · by_cases hut : u = t
    · subst hut
      refine iff_of_false hnotOrder ?_
      rintro ⟨o, ho, hdone⟩
      obtain rfl := Option.some.inj (hself.symm.trans ho)
      exact hrunning (.inr hdone)
    · rw [lookup_worker hut]
      exact h.done_iff u
  · by_cases hut : u = t
    · subst hut
      exact iff_of_true rfl ⟨r, hself, hrunning⟩
    · refine iff_of_false (fun hu => hut (Option.some.inj hu).symm) ?_
      rintro ⟨o, ho, ho'⟩
      exact hothers u hut o ((lookup_worker hut).symm.trans ho) ho'
  · obtain rfl := Option.some.inj hu
    obtain rfl := Option.some.inj (hself.symm.trans ho)
    exact htold
  · refine hsent.trans (congrArg (· ++ told) ?_)
    exact (conversations_worker hnotOrder).symm

theorem Serial.worker (h : Serial env s order current part) (hs : s.worker env t = some s') :
    ∃ order' current' part', Serial env s' order' current' part' := by
  rw [Albumart.worker] at hs
  cases he : s.memory.lookup t with
  | none => simp [he] at hs
  | some e =>
    simp only [he, Option.ite_none_right_eq_some, Option.map_eq_some_iff] at hs
    obtain ⟨hthread, ⟨r, more⟩, hstep, rfl⟩ := hs
    have hdone : e.pc ≠ .done := by
      intro hdone
      rw [doTheWorkStep.eq_def, hdone] at hstep
      cases hstep
    have hsignals : (s.sent ++ more.map AlbumartMessage.signal).filterMap AlbumartMessage.signal? =
        order.flatMap (conversationOf env s) ++ (part ++ more) := by
      have hmore : (more.map AlbumartMessage.signal).filterMap AlbumartMessage.signal? = more := by
        rw [List.filterMap_map]
        exact List.filterMap_some
      rw [List.filterMap_append, hmore, ← List.append_assoc]
      exact congrArg (· ++ more) h.signals
    obtain ⟨hnext, hstarted, hpushed⟩ := doTheWorkStep_told hstep (h.told_part he hthread hdone)
    have hnotOrder := h.not_mem_order he hdone
    have hothers (u : Nat) (hu : u ≠ t) (o : AlbumartPoolTask) (ho : s.memory.lookup u = some o) : ¬ Running o :=
      h.others_rest he hthread hdone hu ho
    by_cases hend : r.pc = .done
    · rw [Told, hend] at hnext
      exact ⟨_, _, _, h.ends he hnotOrder hothers hstarted hend (hnext ▸ hsignals)⟩
    · have hrunning : Running r := fun hplace => hplace.elim hpushed hend
      exact ⟨_, _, _, h.goesOn he hnotOrder hothers hstarted hrunning hnext hsignals⟩

end Worker

theorem Serial.step (h : Serial env s order current part) {a : AlbumartAction} (hs : s.step env a = some s') :
    ∃ order' current' part', Serial env s' order' current' part' := by
  cases a with
  | queue context artistOrTitle album kind handle =>
    obtain ⟨_, hs⟩ := Option.ite_none_right_eq_some.mp hs
    obtain rfl := Option.some.inj hs
    exact ⟨_, _, _, h.queue context artistOrTitle album kind handle⟩
  | methodReturn =>
    obtain ⟨⟨context, num⟩, _, rfl⟩ := Option.map_eq_some_iff.mp hs
    exact ⟨_, _, _, h.sent (by simp [Albumart.signals, AlbumartMessage.signal?])⟩
  | unqueue handle =>
    obtain ⟨_, hs⟩ := Option.ite_none_right_eq_some.mp hs
    obtain rfl := Option.some.inj hs
    exact ⟨_, _, _, h.mark handle⟩
  | worker t => exact h.worker hs

theorem serial_run (h : Serial env s order current part) {actions : List AlbumartAction}
    (hrun : StepRun.run (Albumart.step env) s actions = some s') :
    ∃ order' current' part', Serial env s' order' current' part' := by
  induction actions generalizing s order current part with
  | nil => exact ⟨order, current, part, Option.some.inj hrun ▸ h⟩
  | cons a actions ih =>
    obtain ⟨u, hu, hrest⟩ := Option.bind_eq_some_iff.mp hrun
    obtain ⟨order', current', part', h'⟩ := h.step hu
    exact ih h' hrest

/-- Each task is of a call that names something. -/
def Called (actions : List AlbumartAction) (s : Albumart) : Prop := ∀ t e, s.memory.lookup t = some e →
  ∃ context artistOrTitle album kind handle,
    AlbumartAction.queue context artistOrTitle album kind handle ∈ actions ∧
    albumartQueue (some artistOrTitle) (some album) (some kind) = some e.task

theorem Called.mark {actions : List AlbumartAction} (h : Called actions s) (handle : UInt32) :
    Called actions (s.foreachTask (markUnqueued handle)) := by
  intro t e he
  rw [foreachTask, KeyTable.lookup_mapValues] at he
  obtain ⟨o, ho, rfl⟩ := Option.map_eq_some_iff.mp he
  have htask : (if t ∈ s.tasks then markUnqueued handle o else o).task = o.task := by
    rw [markUnqueued]
    split
    · split <;> rfl
    · rfl
  rw [htask]
  exact h t o ho

theorem Called.step {actions : List AlbumartAction} (h : Called actions s) {a : AlbumartAction} (ha : a ∈ actions)
    (hs : s.step env a = some s') : Called actions s' := by
  cases a with
  | queue context artistOrTitle album kind handle =>
    obtain ⟨_, hs⟩ := Option.ite_none_right_eq_some.mp hs
    obtain rfl := Option.some.inj hs
    rw [Albumart.queue]
    cases htask : albumartQueue (some artistOrTitle) (some album) (some kind) with
    | none => exact h
    | some task =>
      intro t e he
      change ((s.foreachTask (markUnqueued handle)).memory.insert s.pushed _).lookup t = some e at he
      rw [KeyTable.lookup_insert_eq] at he
      split at he
      · obtain rfl := Option.some.inj he
        exact ⟨context, artistOrTitle, album, kind, handle, ha, htask⟩
      · exact h.mark handle t e he
  | methodReturn =>
    obtain ⟨_, _, rfl⟩ := Option.map_eq_some_iff.mp hs
    exact h
  | unqueue handle =>
    obtain ⟨_, hs⟩ := Option.ite_none_right_eq_some.mp hs
    obtain rfl := Option.some.inj hs
    exact h.mark handle
  | worker t =>
    rw [Albumart.step, Albumart.worker] at hs
    cases he : s.memory.lookup t with
    | none => simp [he] at hs
    | some e =>
      simp only [he, Option.ite_none_right_eq_some, Option.map_eq_some_iff] at hs
      obtain ⟨_, ⟨r, more⟩, hstep, rfl⟩ := hs
      have htask := doTheWorkStep_task hstep
      intro u o ho
      rw [KeyTable.lookup_insert_eq] at ho
      split at ho
      · obtain rfl := Option.some.inj ho
        exact htask ▸ h t e he
      · exact h u o ho

theorem called_run {all actions : List AlbumartAction} (h : Called all s) (hall : actions ⊆ all)
    (hrun : StepRun.run (Albumart.step env) s actions = some s') : Called all s' := by
  induction actions generalizing s with
  | nil => exact Option.some.inj hrun ▸ h
  | cons a actions ih =>
    obtain ⟨u, hu, hrest⟩ := Option.bind_eq_some_iff.mp hrun
    exact ih (h.step (hall List.mem_cons_self) hu) (fun b hb => hall (List.mem_cons_of_mem a hb)) hrest

end Steps

/-- The signals of any run are the whole conversations of the tasks that are done, one
after another, and the beginning of at most one more. -/
theorem albumart_conversations (env : Nat → AlbumartWorkEnv) {actions : List AlbumartAction} {s : Albumart}
    (hrun : StepRun.run (step env) albumartInit actions = some s) :
      ∃ (order : List Nat) (part : List AlbumartSignal),
      s.signals = order.flatMap (conversationOf env s) ++ part ∧
      (order.Nodup ∧ ∀ t, t ∈ order ↔ ∃ e, s.memory.lookup t = some e ∧ e.pc = .done) ∧
      (part = [] ∨ ∃ t e, s.memory.lookup t = some e ∧ Running e ∧ part <+: conversation (env t) e) ∧
      (s.Drained → part = []) ∧ Called actions s := by
  obtain ⟨order, current, part, h⟩ := serial_run (Serial.init env) hrun
  have hinit : Called actions albumartInit := by
    intro t e he
    cases he
  have hcalled := called_run hinit (List.Subset.refl _) hrun
  cases hcurrent : current with
  | none =>
    have hpart := h.idle hcurrent
    exact ⟨order, part, h.signals, ⟨h.order_nodup, h.done_iff⟩, .inl hpart, fun _ => hpart, hcalled⟩
  | some t =>
    obtain ⟨e, he, hrunning⟩ := (h.running_iff t).mp hcurrent
    refine ⟨order, part, h.signals, ⟨h.order_nodup, h.done_iff⟩,
      .inr ⟨t, e, he, hrunning, told_prefix (h.told t e hcurrent he)⟩, fun hdrained => ?_, hcalled⟩
    exact absurd (.inr (hdrained t e he)) hrunning

theorem albumart_conversations_fetched :
    ∃ s, StepRun.run (step fun _ => someAlbumartEnv) albumartInit fetchedRun = some s ∧
    ∃ (order : List Nat) (part : List AlbumartSignal),
      s.signals = order.flatMap (conversationOf (fun _ => someAlbumartEnv) s) ++ part ∧
      (order.Nodup ∧ ∀ t, t ∈ order ↔ ∃ e, s.memory.lookup t = some e ∧ e.pc = .done) ∧
      (part = [] ∨ ∃ t e, s.memory.lookup t = some e ∧ Running e ∧ part <+: conversation someAlbumartEnv e) ∧
      (s.Drained → part = []) ∧ Called fetchedRun s := by
  obtain ⟨s, hrun⟩ : ∃ s, StepRun.run (step fun _ => someAlbumartEnv) albumartInit fetchedRun = some s := ⟨_, rfl⟩
  exact ⟨s, hrun, albumart_conversations (fun _ => someAlbumartEnv) hrun⟩

end Albumart

end HildonThumbnail
