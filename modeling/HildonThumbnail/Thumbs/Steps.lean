import HildonThumbnail.Thumbs.Tokens

/-! Every step of either API keeps each request accounted for, unless it takes
the table entry of a request that is still to be served. -/

namespace HildonThumbnail

namespace Client

/-- What stays true of the requests that exist. -/
structure Later (c c' : Client) : Prop where
  created : c.created ≤ c'.created
  unqueued : ∀ r < c.created, c.isUnqueued r = true → c'.isUnqueued r = true
  idles : ∀ r < c.created, r ∈ c'.idles → r ∈ c.idles
  queueCalls : ∀ r < c.created, r ∈ c'.queueCalls → r ∈ c.queueCalls

theorem Later.refl (c : Client) : c.Later c := ⟨le_rfl, fun _ _ h => h, fun _ _ h => h, fun _ _ h => h⟩

theorem Later.trans {c d e : Client} (h : c.Later d) (h' : d.Later e) : c.Later e where
  created := h.created.trans h'.created
  unqueued r hr hu := h'.unqueued r (hr.trans_le h.created) (h.unqueued r hr hu)
  idles r hr hi := h.idles r hr (h'.idles r (hr.trans_le h.created) hi)
  queueCalls r hr hq := h.queueCalls r hr (h'.queueCalls r (hr.trans_le h.created) hq)

def OpKeeps (api : Api) (c : Client) : Op → Prop
  | .request _ _ _ => True
  | .unqueue r => api = .handle → ∀ k, c.key r = some k → k ≠ 0 → (c.setUnqueued r).Free k

def OpsKeep (api : Api) : Client → List Op → Prop
  | _, [] => True
  | c, o :: ops => c.OpKeeps api o ∧ OpsKeep api (c.op api o) ops

/-- The handler takes no table entry of a request that is still to be served,
other than the one it serves. -/
def EventKeeps : Api → Client → Event → Prop
  | .request, c, .gotHandle r handle _ _ => c.isUnqueued r = false → c.Free handle
  | .handle, c, .gotHandle _ handle none _ => c.Free handle
  | .handle, c, .gotHandle r handle (some message) ops =>
    OpsKeep .handle ((({ c with queueCalls := c.queueCalls.erase r } : Client).setKey r handle).invoke r
      fun _ => some message) ops
  | .request, c, .unqueued r => ∀ k, c.key r = some k → c.Free k
  | .handle, _, .unqueued _ => True
  | api, c, .idle r ops => OpsKeep api (({ c with idles := c.idles.erase r } : Client).invoke r Request.errors) ops
  | _, _, .taskError _ _ => True
  | api, c, .taskFinished handle ops =>
    ∀ r, c.tasks.lookup handle = some r → OpsKeep api (c.invoke r Request.errors) ops

section Ops
variable {api : Api} {c : Client} {during : List Nat}

theorem Later.isUnqueued_eq_false {c' : Client} (h : c.Later c') {r : Nat} (hr : r < c.created)
    (hu : c'.isUnqueued r = false) : c.isUnqueued r = false := by
  cases hold : c.isUnqueued r with
  | false => rfl
  | true =>
    rw [h.unqueued r hr hold] at hu
    cases hu

theorem later_change (c : Client) (r : Nat) {f : Request → Request}
    (hf : ∀ q, q.unqueued = true → (f q).unqueued = true) : c.Later (c.change r f) where
  created := le_rfl
  unqueued r' _ hu := by
    cases hnew : (c.change r f).isUnqueued r' with
    | true => rfl
    | false =>
      rw [isUnqueued_of_change c r r' f hf hnew] at hu
      cases hu
  idles _ _ h := h
  queueCalls _ _ h := h

theorem later_invoke (c : Client) (r : Nat) (e : Request → Option String) : c.Later (c.invoke r e) :=
  later_change c r fun _ hu => hu

theorem Later.of_fields {c' : Client} (hrequests : c'.requests = c.requests) (hcreated : c'.created = c.created)
    (hidles : ∀ r ∈ c'.idles, r ∈ c.idles) (hcalls : ∀ r ∈ c'.queueCalls, r ∈ c.queueCalls) : c.Later c' where
  created := hcreated.ge
  unqueued r _ hu := by rw [isUnqueued, hrequests]; exact hu
  idles r _ hi := hidles r hi
  queueCalls r _ hq := hcalls r hq

theorem later_newRequest {c' : Client} (uri : String) (hrequests : c'.requests = (c.newRequest uri).requests)
    (hcreated : c'.created = c.created + 1) (hidles : ∀ r ∈ c'.idles, r ∈ c.idles ∨ r = c.created)
    (hcalls : ∀ r ∈ c'.queueCalls, r ∈ c.queueCalls ∨ r = c.created) : c.Later c' where
  created := by omega
  unqueued r hr hu := by
    have hne : r ≠ c.created := by omega
    have hlookup : c'.requests.lookup r = c.requests.lookup r := by
      rw [hrequests, Client.newRequest, KeyTable.lookup_insert_eq, if_neg hne]
    rw [isUnqueued, hlookup]
    exact hu
  idles r hr hi := (hidles r hi).resolve_right (by omega)
  queueCalls r hr hq := (hcalls r hq).resolve_right (by omega)

/-- What the program's own calls do: they account for every request, give no
request a key, and leave the table alone but for the entries of requests that
they unqueue. -/
structure Kept (during : List Nat) (c c' : Client) : Prop where
  accounted : c'.Accounted during
  later : c.Later c'
  key : ∀ r, c'.key r = c.key r
  removed_only : ∀ k x, c'.tasks.lookup k = some x → c.tasks.lookup k = some x
  stays : ∀ k x, c.tasks.lookup k = some x → x < c.created → c'.isUnqueued x = false →
    c'.tasks.lookup k = some x
  unqueueCalls : ∀ r ∈ c'.unqueueCalls, r ∈ c.unqueueCalls ∨ c'.isUnqueued r = true

theorem Kept.of_tasks {c' : Client} (h : c'.Accounted during) (hl : c.Later c')
    (hkey : ∀ r, c'.key r = c.key r) (ht : c'.tasks = c.tasks)
    (hu : ∀ r ∈ c'.unqueueCalls, r ∈ c.unqueueCalls ∨ c'.isUnqueued r = true) : Kept during c c' :=
  ⟨h, hl, hkey, fun _ _ hx => ht ▸ hx, fun _ _ hx _ _ => ht ▸ hx, hu⟩

theorem Kept.refl (h : c.Accounted during) : Kept during c c :=
  .of_tasks h (Later.refl c) (fun _ => rfl) rfl fun _ hr => .inl hr

theorem Accounted.lt_of_isUnqueued (h : c.Accounted during) {r : Nat} (hr : c.isUnqueued r = true) :
    r < c.created := by
  obtain ⟨q, hq, _⟩ := (Option.any_eq_true _ _).mp hr
  exact h.lt_of_lookup hq

theorem Kept.trans {c' c'' : Client} (h : Kept during c c') (h' : Kept during c' c'') : Kept during c c'' where
  accounted := h'.accounted
  later := h.later.trans h'.later
  key r := (h'.key r).trans (h.key r)
  removed_only k x hx := h.removed_only k x (h'.removed_only k x hx)
  stays k x hx hlt hu := by
    have hlt' := hlt.trans_le h.later.created
    have hu' := h'.later.isUnqueued_eq_false hlt' hu
    exact h'.stays k x (h.stays k x hx hlt hu') hlt' hu
  unqueueCalls r hr := by
    rcases h'.unqueueCalls r hr with hr' | hu
    · refine (h.unqueueCalls r hr').imp_right fun hu => ?_
      exact h'.later.unqueued r (h.accounted.lt_of_isUnqueued hu) hu
    · exact .inr hu

theorem key_newRequest {c' : Client} {uri : String} (h : c.Accounted during)
    (hrequests : c'.requests = (c.newRequest uri).requests) (r : Nat) : c'.key r = c.key r := by
  rw [key, hrequests, Client.newRequest, KeyTable.lookup_insert_eq, key]
  split
  · next hr => rw [hr, (h.created_iff _).mpr le_rfl]; rfl
  · rfl

theorem kept_request (h : c.Accounted during) (uri : String) (mimeType : Option String) (upToDate : Bool) :
    Kept during c (c.op api (.request uri mimeType upToDate)) := by
  have hidle (r : Nat) : (c.idles ++ [c.created]).count r + c.queueCalls.count r =
      c.idles.count r + c.queueCalls.count r + [c.created].count r := by
    rw [List.count_append]
    omega
  have hcall (r : Nat) : c.idles.count r + (c.queueCalls ++ [c.created]).count r =
      c.idles.count r + c.queueCalls.count r + [c.created].count r := by
    rw [List.count_append]
    omega
  have hmem (l : List Nat) (r : Nat) (hr : r ∈ l ++ [c.created]) : r ∈ l ∨ r = c.created := by
    simpa using hr
  cases api <;> cases upToDate
  · exact .of_tasks (h.newRequest uri ⟨rfl, rfl, rfl⟩ hcall)
      (later_newRequest uri rfl rfl (fun _ h => .inl h) (hmem _)) (key_newRequest h rfl) rfl fun _ => .inl
  · exact .of_tasks (h.newRequest uri ⟨rfl, rfl, rfl⟩ hidle)
      (later_newRequest uri rfl rfl (hmem _) (fun _ h => .inl h)) (key_newRequest h rfl) rfl fun _ => .inl
  · exact .of_tasks (h.newRequest uri ⟨rfl, rfl, rfl⟩ hcall)
      (later_newRequest uri rfl rfl (fun _ h => .inl h) (hmem _)) (key_newRequest h rfl) rfl fun _ => .inl
  · exact .of_tasks (h.newRequest uri ⟨rfl, rfl, rfl⟩ hidle)
      (later_newRequest uri rfl rfl (hmem _) (fun _ h => .inl h)) (key_newRequest h rfl) rfl fun _ => .inl

theorem key_change (c : Client) (r r' : Nat) (f : Request → Request) (hf : ∀ q, (f q).key = q.key) :
    (c.change r f).key r' = c.key r' := by
  rw [key, lookup_change, key]
  cases c.requests.lookup r' with
  | none => rfl
  | some q => by_cases h : r' = r <;> simp [h, hf]

theorem key_setUnqueued (c : Client) (r r' : Nat) : (c.setUnqueued r).key r' = c.key r' :=
  key_change c r r' _ fun _ => rfl

theorem key_invoke (c : Client) (r : Nat) (e : Request → Option String) (r' : Nat) :
    (c.invoke r e).key r' = c.key r' :=
  key_change c r r' _ fun _ => rfl

theorem kept_setUnqueued (h : c.Accounted during) (r : Nat) : Kept during c (c.setUnqueued r) :=
  .of_tasks (h.change r (fun _ => rfl) fun _ _ => rfl) (later_change c r fun _ _ => rfl)
    (key_setUnqueued c r) rfl fun _ => .inl

theorem isUnqueued_setUnqueued {r : Nat} {k : UInt32} (hk : c.key r = some k) :
    (c.setUnqueued r).isUnqueued r = true := by
  obtain ⟨q, hq, _⟩ := Option.bind_eq_some_iff.mp hk
  rw [isUnqueued, setUnqueued, lookup_change, hq]
  simp

theorem kept_unqueueCall (h : c.Accounted during) {r : Nat} (hr : c.isUnqueued r = true) (handle : UInt32) :
    Kept during c (c.unqueueCall r handle) := by
  refine .of_tasks ⟨h.created_iff, h.during_lt, h.tokens_eq⟩ (.of_fields rfl rfl (fun _ h => h) fun _ h => h)
    (fun _ => rfl) rfl fun x hx => ?_
  rcases List.mem_append.mp hx with hx | hx
  · exact .inl hx
  · exact .inr (List.mem_singleton.mp hx ▸ hr)

theorem kept_erase (h : c.Accounted during) {k : UInt32} (hfree : c.Free k) :
    Kept during c { c with tasks := c.tasks.erase k } where
  accounted := h.erase hfree
  later := .of_fields rfl rfl (fun _ h => h) fun _ h => h
  key _ := rfl
  removed_only k' x hx := by
    rw [KeyTable.lookup_erase_eq] at hx
    split at hx
    · cases hx
    · exact hx
  stays k' x hx _ hu := by
    rw [KeyTable.lookup_erase_eq, if_neg]
    · exact hx
    · rintro rfl
      have hsame : c.isUnqueued x = false := hu
      rw [hfree x hx] at hsame
      cases hsame
  unqueueCalls _ := .inl

theorem kept_unqueue (h : c.Accounted during) {r : Nat} (hk : c.OpKeeps api (.unqueue r)) :
    Kept during c (c.op api (.unqueue r)) := by
  have hmarked := kept_setUnqueued h r
  cases api with
  | request =>
    unfold op Obj.op Obj.requestUnqueue
    dsimp only
    rw [key_setUnqueued]
    cases hkr : c.key r with
    | none => exact hmarked
    | some handle =>
      exact hmarked.trans (kept_unqueueCall hmarked.accounted (isUnqueued_setUnqueued hkr) handle)
  | handle =>
    unfold op Factory.op Factory.cancel
    dsimp only
    rw [key_setUnqueued]
    cases hkr : c.key r with
    | none => exact hmarked
    | some handle =>
      dsimp only
      by_cases hz : handle = 0
      · rw [if_pos hz]
        exact hmarked
      · rw [if_neg hz]
        have herased := kept_erase hmarked.accounted (hk rfl handle hkr hz)
        exact hmarked.trans (herased.trans
          (kept_unqueueCall herased.accounted (isUnqueued_setUnqueued hkr) handle))

theorem kept_op (h : c.Accounted during) {o : Op} (hk : c.OpKeeps api o) : Kept during c (c.op api o) := by
  cases o with
  | request uri mimeType upToDate => exact kept_request h uri mimeType upToDate
  | unqueue r => exact kept_unqueue h hk

theorem kept_ops (h : c.Accounted during) {ops : List Op} (hk : OpsKeep api c ops) :
    Kept during c (ops.foldl (op api) c) := by
  induction ops generalizing c with
  | nil => exact .refl h
  | cons o ops ih =>
    obtain ⟨ho, hops⟩ := hk
    have hfirst := kept_op h ho
    exact hfirst.trans (ih hfirst.accounted hops)

end Ops

section Events
variable {api : Api} {c c' : Client}

theorem Accounted.exists_of_place {during : List Nat} (h : c.Accounted during) {r : Nat} (hr : c.tokens r ≠ 0) :
    ∃ q, c.requests.lookup r = some q := by
  by_contra hnone
  have hnone : c.requests.lookup r = none := by
    cases hq : c.requests.lookup r with
    | none => rfl
    | some q => exact absurd ⟨q, hq⟩ hnone
  have hge := (h.created_iff r).mp hnone
  have htokens := h.tokens_eq r (by rw [isUnqueued, hnone]; rfl)
  have hout : during.count r = 0 :=
    List.count_eq_zero_of_not_mem fun hm => absurd (h.during_lt r hm) (Nat.not_lt.mpr hge)
  rw [if_neg (Nat.not_lt.mpr hge), hout] at htokens
  exact hr htokens

theorem exists_of_queueCalls {during : List Nat} (h : c.Accounted during) {r : Nat} (hr : r ∈ c.queueCalls) :
    ∃ q, c.requests.lookup r = some q :=
  h.exists_of_place (by have hpos := List.count_pos_iff.mpr hr; rw [tokens]; omega)

theorem exists_of_idles {during : List Nat} (h : c.Accounted during) {r : Nat} (hr : r ∈ c.idles) :
    ∃ q, c.requests.lookup r = some q :=
  h.exists_of_place (by have hpos := List.count_pos_iff.mpr hr; rw [tokens]; omega)

theorem listed_pos {k : UInt32} {r : Nat} (hr : c.tasks.lookup k = some r) : 0 < c.listed r := by
  have herase := listed_erase c k r
  rw [hr, Option.elim_some, List.count_singleton_self] at herase
  omega

theorem exists_of_tasks (h : c.Accounted []) {k : UInt32} {r : Nat} (hr : c.tasks.lookup k = some r) :
    ∃ q, c.requests.lookup r = some q :=
  h.exists_of_place (by have hpos := listed_pos hr; rw [tokens]; omega)

theorem accounted_dropQueue (h : c.Accounted []) {r : Nat} (hr : r ∈ c.queueCalls) (hu : c.isUnqueued r = true) :
    ({ c with queueCalls := c.queueCalls.erase r } : Client).Accounted [] := by
  refine h.move rfl (fun _ => Iff.rfl) h.during_lt fun r' hr' => ⟨hr', ?_⟩
  have hne : r ≠ r' := by
    rintro rfl
    change c.isUnqueued r = false at hr'
    rw [hu] at hr'
    cases hr'
  have herase := List.count_erase_add hr r'
  rw [List.count_singleton, if_neg (by simpa using hne), Nat.add_zero] at herase
  rw [tokens, herase]
  rfl

theorem isUnqueued_setKey (c : Client) (r : Nat) (handle : UInt32) (x : Nat) :
    (c.setKey r handle).isUnqueued x = c.isUnqueued x :=
  isUnqueued_change c r x _ fun _ => rfl

theorem accounted_register (h : c.Accounted []) {r : Nat} (hr : r ∈ c.queueCalls) {handle : UInt32}
    (hfree : c.Free handle) :
    ({ ({ c with queueCalls := c.queueCalls.erase r } : Client).setKey r handle with
      tasks := c.tasks.insert handle r } : Client).Accounted [] := by
  obtain ⟨q, hq⟩ := exists_of_queueCalls h hr
  have hkeyed : (c.setKey r handle).Accounted [] := h.change r (fun _ => rfl) fun _ hu => hu
  have hfree' : (c.setKey r handle).Free handle := by
    intro x hx
    rw [isUnqueued_setKey]
    exact hfree x hx
  have hentered := hkeyed.enterTasks (r := r) (h.lt_of_lookup hq) hfree'
  exact hentered.leaveQueue hr

theorem accounted_failed (h : c.Accounted []) {r : Nat} (hr : r ∈ c.queueCalls) (handle : UInt32)
    (message : String) : ((({ c with queueCalls := c.queueCalls.erase r } : Client).setKey r handle).invoke r
      fun _ => some message).Accounted [] := by
  obtain ⟨q, hq⟩ := exists_of_queueCalls h hr
  have hkeyed : (c.setKey r handle).Accounted [] := h.change r (fun _ => rfl) fun _ hu => hu
  have hq' : (c.setKey r handle).requests.lookup r = some { q with key := some handle } := by
    rw [setKey, lookup_change, hq, Option.map_some, if_pos rfl]
  exact (hkeyed.invoke hq' fun _ => some message).leaveQueue hr

theorem accounted_registerHandle (h : c.Accounted []) {r : Nat} (hr : r ∈ c.queueCalls) {handle : UInt32}
    {error : Option String} {ops : List Op} (hk : EventKeeps api c (.gotHandle r handle error ops)) :
    (c.registerHandle api r handle error ops).Accounted [] ∧ c.Later (c.registerHandle api r handle error ops) := by
  have hdropped : c.Later { c with queueCalls := c.queueCalls.erase r } :=
    .of_fields rfl rfl (fun _ h => h) fun _ h => List.mem_of_mem_erase h
  have hkeyed : c.Later (({ c with queueCalls := c.queueCalls.erase r } : Client).setKey r handle) :=
    hdropped.trans (later_change _ r fun _ hu => hu)
  have hlisted : c.Later { ({ c with queueCalls := c.queueCalls.erase r } : Client).setKey r handle with
      tasks := c.tasks.insert handle r } :=
    hkeyed.trans (.of_fields rfl rfl (fun _ h => h) fun _ h => h)
  cases api with
  | request =>
    change (Obj.registerHandle c r handle).Accounted [] ∧ c.Later (Obj.registerHandle c r handle)
    rw [Obj.registerHandle]
    dsimp only
    by_cases hu : c.isUnqueued r = true
    · rw [if_pos (show ({ c with queueCalls := c.queueCalls.erase r } : Client).isUnqueued r = true from hu)]
      exact ⟨accounted_dropQueue h hr hu, hdropped⟩
    · rw [if_neg (show ¬ ({ c with queueCalls := c.queueCalls.erase r } : Client).isUnqueued r = true from hu)]
      exact ⟨accounted_register h hr (hk (Bool.eq_false_iff.mpr hu)), hlisted⟩
  | handle =>
    cases error with
    | none => exact ⟨accounted_register h hr hk, hlisted⟩
    | some message =>
      have hops := kept_ops (accounted_failed h hr handle message) hk
      exact ⟨hops.accounted, (hkeyed.trans (later_invoke _ r _)).trans hops.later⟩

theorem accounted_idle (h : c.Accounted []) {r : Nat} (hr : r ∈ c.idles) {ops : List Op}
    (hk : EventKeeps api c (.idle r ops)) : Kept [] (({ c with idles := c.idles.erase r } : Client).invoke r
      Request.errors)
        (ops.foldl (op api) (({ c with idles := c.idles.erase r } : Client).invoke r Request.errors)) := by
  obtain ⟨q, hq⟩ := exists_of_idles h hr
  have hinvoked := (h.invoke hq Request.errors).leaveIdles hr
  cases api <;> exact kept_ops hinvoked hk

/-- The entry goes once its callback is over, unless the program has removed
it by then. -/
theorem accounted_taskFinished (h : c.Accounted []) {handle : UInt32} {r : Nat}
    (hr : c.tasks.lookup handle = some r) {ops : List Op} (hk : OpsKeep api (c.invoke r Request.errors) ops) :
    let d := ops.foldl (op api) (c.invoke r Request.errors)
    ({ d with tasks := d.tasks.erase handle } : Client).Accounted [] ∧
      c.Later { d with tasks := d.tasks.erase handle } := by
  obtain ⟨q, hq⟩ := exists_of_tasks h hr
  have hops := kept_ops (h.invoke hq Request.errors) hk
  generalize ops.foldl (op api) (c.invoke r Request.errors) = d at hops ⊢
  refine ⟨?_, ((later_invoke c r _).trans hops.later).trans (.of_fields rfl rfl (fun _ h => h) fun _ h => h)⟩
  by_cases hu : d.isUnqueued r = true
  · have hfree : d.Free handle := by
      intro x hx
      have hx : c.tasks.lookup handle = some x := hops.removed_only handle x hx
      rw [hr] at hx
      exact Option.some.inj hx ▸ hu
    have herased := hops.accounted.erase hfree
    refine herased.move rfl (fun _ => Iff.rfl) (by simp) fun x hx => ⟨hx, ?_⟩
    have hne : r ≠ x := by
      rintro rfl
      change d.isUnqueued r = false at hx
      rw [hu] at hx
      cases hx
    simp [hne]
  · have hstays := hops.stays handle r hr (h.lt_of_lookup hq) (Bool.eq_false_iff.mpr hu)
    exact hops.accounted.leaveTasks hstays

/-- Finished for an unknown handle, for an unqueued request of the request
API, and for a request that is called back. -/
theorem onTaskFinished_cases (api : Api) (c : Client) (handle : UInt32) (ops : List Op) :
    c.tasks.lookup handle = none ∧ c.onTaskFinished api handle ops = c ∨ ∃ r, c.tasks.lookup handle = some r ∧
      (c.isUnqueued r = true ∧ c.onTaskFinished api handle ops = { c with tasks := c.tasks.erase handle } ∨
        c.onTaskFinished api handle ops = { ops.foldl (op api) (c.invoke r Request.errors) with
          tasks := (ops.foldl (op api) (c.invoke r Request.errors)).tasks.erase handle }) := by
  cases hr : c.tasks.lookup handle with
  | none =>
    refine .inl ⟨rfl, ?_⟩
    cases api <;> simp [onTaskFinished, Obj.onTaskFinished, Factory.onTaskFinished, hr]
  | some r =>
    refine .inr ⟨r, rfl, ?_⟩
    cases api with
    | request =>
      by_cases hu : c.isUnqueued r = true
      · exact .inl ⟨hu, by simp [onTaskFinished, Obj.onTaskFinished, hr, hu]⟩
      · exact .inr (by simp [onTaskFinished, Obj.onTaskFinished, hr, hu, op])
    | handle => exact .inr (by simp [onTaskFinished, Factory.onTaskFinished, hr, op])

theorem kept_onUnqueued (h : c.Accounted []) {r : Nat} (hk : EventKeeps api c (.unqueued r)) :
    Kept [] c (c.onUnqueued api r) := by
  have hdropped : Kept [] c { c with unqueueCalls := c.unqueueCalls.erase r } :=
    .of_tasks ⟨h.created_iff, h.during_lt, h.tokens_eq⟩ (.of_fields rfl rfl (fun _ h => h) fun _ h => h)
      (fun _ => rfl) rfl fun _ hx => .inl (List.mem_of_mem_erase hx)
  cases api with
  | request =>
    change Kept [] c (Obj.onUnqueued c r)
    have hkey : ({ c with unqueueCalls := c.unqueueCalls.erase r } : Client).key r = c.key r := rfl
    rw [Obj.onUnqueued]
    dsimp only
    rw [hkey]
    cases hkr : c.key r with
    | none => exact hdropped
    | some handle => exact hdropped.trans (kept_erase hdropped.accounted (hk handle hkr))
  | handle => exact hdropped

theorem kept_onTaskError (h : c.Accounted []) (handle : UInt32) (message : String) :
    Kept [] c (c.onTaskError handle message) := by
  rw [onTaskError]
  cases c.tasks.lookup handle with
  | none => exact .refl h
  | some r =>
    have hfields := addError_fields message
    have hunqueued (q : Request) (hu : q.unqueued = true) : (addError q message).unqueued = true :=
      (hfields q).2.1.trans hu
    exact .of_tasks (h.change r (fun q => (hfields q).1) hunqueued) (later_change c r hunqueued)
      (fun x => key_change c r x _ fun q => (hfields q).2.2) rfl fun _ => .inl

theorem accounted_onIdle (h : c.Accounted []) {r : Nat} (hr : r ∈ c.idles) {ops : List Op}
    (hk : EventKeeps api c (.idle r ops)) : (c.onIdle api r ops).Accounted [] ∧ c.Later (c.onIdle api r ops) := by
  have hkept := accounted_idle h hr hk
  have hdropped : c.Later { c with idles := c.idles.erase r } :=
    .of_fields rfl rfl (fun _ h => List.mem_of_mem_erase h) fun _ h => h
  have hlater := (hdropped.trans (later_invoke _ r _)).trans hkept.later
  cases api with
  | request =>
    exact ⟨⟨hkept.accounted.created_iff, hkept.accounted.during_lt, hkept.accounted.tokens_eq⟩,
      hlater.trans (.of_fields rfl rfl (fun _ h => h) fun _ h => h)⟩
  | handle => exact ⟨hkept.accounted, hlater⟩

theorem accounted_onTaskFinished (h : c.Accounted []) {handle : UInt32} {ops : List Op}
    (hk : EventKeeps api c (.taskFinished handle ops)) :
    (c.onTaskFinished api handle ops).Accounted [] ∧ c.Later (c.onTaskFinished api handle ops) := by
  rcases onTaskFinished_cases api c handle ops with ⟨_, hnone⟩ | ⟨r, hr, ⟨hu, heq⟩ | heq⟩
  · rw [hnone]
    exact ⟨h, .refl c⟩
  · rw [heq]
    have hfree : c.Free handle := by
      intro x hx
      rw [hr] at hx
      exact Option.some.inj hx ▸ hu
    have herased := kept_erase h hfree
    exact ⟨herased.accounted, herased.later⟩
  · rw [heq]
    exact accounted_taskFinished h hr (by cases api <;> exact hk r hr)

theorem accounted_dispatch (h : c.Accounted []) {e : Event} (hk : EventKeeps api c e)
    (hs : c.dispatch api e = some c') : c'.Accounted [] ∧ c.Later c' := by
  cases e with
  | gotHandle r handle error ops =>
    obtain ⟨hr, hs⟩ := Option.ite_none_right_eq_some.mp hs
    obtain rfl := Option.some.inj hs
    obtain ⟨hacc, hlater⟩ := accounted_registerHandle h hr hk
    exact ⟨⟨hacc.created_iff, hacc.during_lt, hacc.tokens_eq⟩,
      hlater.trans (.of_fields rfl rfl (fun _ h => h) fun _ h => h)⟩
  | unqueued r =>
    obtain ⟨_, hs⟩ := Option.ite_none_right_eq_some.mp hs
    obtain rfl := Option.some.inj hs
    have hkept := kept_onUnqueued h hk
    exact ⟨hkept.accounted, hkept.later⟩
  | idle r ops =>
    obtain ⟨hr, hs⟩ := Option.ite_none_right_eq_some.mp hs
    obtain rfl := Option.some.inj hs
    exact accounted_onIdle h hr hk
  | taskError handle message =>
    obtain rfl := Option.some.inj hs
    have hkept := kept_onTaskError h handle message
    exact ⟨hkept.accounted, hkept.later⟩
  | taskFinished handle ops =>
    obtain rfl := Option.some.inj hs
    exact accounted_onTaskFinished h hk

def Keeps (api : Api) (c : Client) : Label → Prop
  | .op op => c.OpKeeps api op
  | .event event => EventKeeps api c event

theorem accounted_step (h : c.Accounted []) {label : Label} (hk : c.Keeps api label)
    (hs : c.step api label = some c') : c'.Accounted [] ∧ c.Later c' := by
  cases label with
  | op o =>
    obtain rfl := Option.some.inj hs
    have hops : Kept [] c (c.op api o) := kept_op h hk
    exact ⟨hops.accounted, hops.later⟩
  | event e => exact accounted_dispatch h hk hs

theorem accounted_init : clientInit.Accounted [] := by
  refine ⟨fun r => ⟨fun _ => Nat.zero_le r, fun _ => rfl⟩, by simp, fun r _ => ?_⟩
  change 0 = (if r < 0 then 1 else 0) + 0
  rw [if_neg (Nat.not_lt_zero r)]

end Events

end Client

end HildonThumbnail
