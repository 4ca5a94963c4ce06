import HildonThumbnail.Thumbs.Steps

/-! What is left of a request after `hildon_thumbnail_request_unqueue` or
`hildon_thumbnail_factory_cancel`: whether its callback can still come. -/

namespace HildonThumbnail

namespace Client

/-- Nothing leads to the callback: the request API looks at the mark wherever
it serves a request but in its idle source, the handle API nowhere. -/
def Dead (api : Api) (c : Client) (r : Nat) : Prop :=
  c.isUnqueued r = true ∧ r ∉ c.idles ∧
    (api = .handle → r ∉ c.queueCalls ∧ ∀ k, c.tasks.lookup k ≠ some r)

def Silenced (api : Api) (c : Client) : Prop := ∀ r, c.isUnqueued r = true → c.called r = 0 → c.Dead api r

/-- The request is not unqueued while its answer waits in an idle source and,
in the handle API, only when its handle is known and not zero. -/
def OpHarmless (api : Api) (c : Client) : Op → Prop
  | .request _ _ _ => True
  | .unqueue r => c.called r = 0 → r ∉ c.idles ∧ (api = .handle → r ∉ c.queueCalls ∧ c.tasks.lookup 0 ≠ some r)

def OpsHarmless (api : Api) : Client → List Op → Prop
  | _, [] => True
  | c, o :: ops => c.OpHarmless api o ∧ OpsHarmless api (c.op api o) ops

/-- The same of what the program does in the callbacks. -/
def EventHarmless : Api → Client → Event → Prop
  | .handle, c, .gotHandle r handle (some message) ops =>
    OpsHarmless .handle ((({ c with queueCalls := c.queueCalls.erase r } : Client).setKey r handle).invoke r
      fun _ => some message) ops
  | _, _, .gotHandle _ _ _ _ => True
  | _, _, .unqueued _ => True
  | api, c, .idle r ops =>
    OpsHarmless api (({ c with idles := c.idles.erase r } : Client).invoke r Request.errors) ops
  | _, _, .taskError _ _ => True
  | api, c, .taskFinished handle ops =>
    ∀ r, c.tasks.lookup handle = some r → api = .handle ∨ c.isUnqueued r = false →
      OpsHarmless api (c.invoke r Request.errors) ops

def Harmless (api : Api) (c : Client) : Label → Prop
  | .op op => c.OpHarmless api op
  | .event event => EventHarmless api c event

/-- A request waits for its handle once, and is listed under its own key. -/
structure Tidy (c : Client) : Prop where
  created_iff : ∀ r, c.requests.lookup r = none ↔ c.created ≤ r
  queue_nodup : c.queueCalls.Nodup
  queue_key : ∀ r ∈ c.queueCalls, r < c.created ∧ c.key r = none
  tasks_key : ∀ k r, c.tasks.lookup k = some r → c.key r = some k

structure Quiet (api : Api) (c c' : Client) : Prop where
  tidy : c'.Tidy
  silenced : c'.Silenced api
  dead : ∀ r, c.Dead api r → c'.Dead api r ∧ c'.called r = c.called r

section Quiet
variable {api : Api} {c c' c'' : Client}

theorem Quiet.refl (ht : c.Tidy) (hs : c.Silenced api) : Quiet api c c := ⟨ht, hs, fun _ h => ⟨h, rfl⟩⟩

theorem Quiet.trans (h : Quiet api c c') (h' : Quiet api c' c'') : Quiet api c c'' where
  tidy := h'.tidy
  silenced := h'.silenced
  dead r hr := by
    obtain ⟨hr', hcalled⟩ := h.dead r hr
    obtain ⟨hr'', hcalled'⟩ := h'.dead r hr'
    exact ⟨hr'', hcalled'.trans hcalled⟩

/-- Steps that unqueue nothing and lead no unqueued request back to a place
where it is served. -/
theorem Quiet.of_places (hs : c.Silenced api) (ht : c'.Tidy) (hunqueued : ∀ r, c'.isUnqueued r = c.isUnqueued r)
    (hidles : ∀ r, c.isUnqueued r = true → r ∈ c'.idles → r ∈ c.idles)
    (hcalls : ∀ r, c.isUnqueued r = true → r ∈ c'.queueCalls → r ∈ c.queueCalls)
    (htasks : ∀ k r, c'.tasks.lookup k = some r → c.tasks.lookup k = some r ∨ r ∈ c.queueCalls)
    (hle : ∀ r, c.called r ≤ c'.called r) (hcalled : ∀ r, c.Dead api r → c'.called r = c.called r) :
    Quiet api c c' := by
  have hdead (r : Nat) (hr : c.Dead api r) : c'.Dead api r := by
    obtain ⟨hu, hi, hh⟩ := hr
    refine ⟨(hunqueued r).trans hu, fun hm => hi (hidles r hu hm), fun hapi => ?_⟩
    obtain ⟨hq, hk⟩ := hh hapi
    refine ⟨fun hm => hq (hcalls r hu hm), fun k hl => ?_⟩
    exact (htasks k r hl).elim (hk k) hq
  refine ⟨ht, fun r hu hzero => hdead r ?_, fun r hr => ⟨hdead r hr, hcalled r hr⟩⟩
  have hz := hle r
  exact hs r ((hunqueued r).symm.trans hu) (by omega)

theorem Tidy.lookup_isSome (h : c.Tidy) {r : Nat} (hr : r < c.created) : ∃ q, c.requests.lookup r = some q := by
  cases hq : c.requests.lookup r with
  | none => exact absurd ((h.created_iff r).mp hq) (Nat.not_le.mpr hr)
  | some q => exact ⟨q, rfl⟩

theorem Tidy.lt_of_isUnqueued (h : c.Tidy) {r : Nat} (hr : c.isUnqueued r = true) : r < c.created := by
  by_contra hge
  have hnone := (h.created_iff r).mpr (Nat.le_of_not_lt hge)
  simp [isUnqueued, hnone] at hr

theorem called_le_invoke (c : Client) (r x : Nat) (e : Request → Option String) :
    c.called x ≤ (c.invoke r e).called x := by
  rw [called, called, invoke, lookup_change]
  cases c.requests.lookup x with
  | none => exact le_rfl
  | some q => by_cases hx : x = r <;> simp [hx]

theorem called_invoke_ne (c : Client) {r x : Nat} (hx : x ≠ r) (e : Request → Option String) :
    (c.invoke r e).called x = c.called x := by
  rw [called, invoke, lookup_change, called]
  cases c.requests.lookup x with
  | none => rfl
  | some q => simp [hx]

theorem Tidy.change (h : c.Tidy) (r : Nat) {f : Request → Request} (hf : ∀ q, (f q).key = q.key) :
    (c.change r f).Tidy where
  created_iff x := (change_none r f x).trans (h.created_iff x)
  queue_nodup := h.queue_nodup
  queue_key x hx := ⟨(h.queue_key x hx).1, (key_change c r x f hf).trans (h.queue_key x hx).2⟩
  tasks_key k x hx := (key_change c r x f hf).trans (h.tasks_key k x hx)

theorem Tidy.erase (h : c.Tidy) (k : UInt32) : Tidy { c with tasks := c.tasks.erase k } where
  created_iff := h.created_iff
  queue_nodup := h.queue_nodup
  queue_key := h.queue_key
  tasks_key k' x hx := by
    rw [KeyTable.lookup_erase_eq] at hx
    split at hx
    · cases hx
    · exact h.tasks_key k' x hx

theorem Quiet.erase (ht : c.Tidy) (hs : c.Silenced api) (k : UInt32) :
    Quiet api c { c with tasks := c.tasks.erase k } := by
  refine .of_places hs (ht.erase k) (fun _ => rfl) (fun _ _ h => h) (fun _ _ h => h) (fun k' x hx => .inl ?_)
    (fun _ => le_rfl) fun _ _ => rfl
  rw [KeyTable.lookup_erase_eq] at hx
  split at hx
  · cases hx
  · exact hx

theorem Quiet.invoke (ht : c.Tidy) (hs : c.Silenced api) {r : Nat} (hr : ¬ c.Dead api r)
    (e : Request → Option String) : Quiet api c (c.invoke r e) := by
  refine .of_places hs (ht.change r fun _ => rfl) (fun x => isUnqueued_change c r x _ fun _ => rfl) (fun _ _ h => h)
    (fun _ _ h => h) (fun _ _ h => .inl h) (called_le_invoke c r · e) fun x hx => ?_
  have hne : x ≠ r := by
    rintro rfl
    exact hr hx
  exact called_invoke_ne c hne e

theorem Tidy.newRequest (h : c.Tidy) (uri : String) (hrequests : c'.requests = (c.newRequest uri).requests)
    (hcreated : c'.created = c.created + 1) (hnodup : c'.queueCalls.Nodup)
    (hcalls : ∀ r ∈ c'.queueCalls, r ∈ c.queueCalls ∨ r = c.created) (htasks : c'.tasks = c.tasks) : c'.Tidy := by
  have hlookup (r : Nat) :
      c'.requests.lookup r = if r = c.created then some (.new uri) else c.requests.lookup r := by
    rw [hrequests, Client.newRequest, KeyTable.lookup_insert_eq]
  have hnone : c.requests.lookup c.created = none := (h.created_iff _).mpr le_rfl
  have hkey (r : Nat) : c'.key r = c.key r := by
    rw [key, hlookup, key]
    split
    · next hr => rw [hr, hnone]; rfl
    · rfl
  refine ⟨fun r => ?_, hnodup, fun r hr => ?_, fun k r hr => ?_⟩
  · have hold := h.created_iff r
    rw [hlookup, hcreated]
    split
    · next hr => exact iff_of_false (by simp) (by omega)
    · next hr => rw [hold]; omega
  · rw [hkey, hcreated]
    rcases hcalls r hr with hr | rfl
    · exact ⟨Nat.lt_succ_of_lt (h.queue_key r hr).1, (h.queue_key r hr).2⟩
    · exact ⟨Nat.lt_succ_self _, by rw [key, hnone]; rfl⟩
  · rw [hkey]
    exact h.tasks_key k r (htasks ▸ hr)

theorem Quiet.newRequest (ht : c.Tidy) (hs : c.Silenced api) (uri : String)
    (hrequests : c'.requests = (c.newRequest uri).requests) (htidy : c'.Tidy)
    (hidles : ∀ r ∈ c'.idles, r ∈ c.idles ∨ r = c.created)
    (hcalls : ∀ r ∈ c'.queueCalls, r ∈ c.queueCalls ∨ r = c.created) (htasks : c'.tasks = c.tasks) :
    Quiet api c c' := by
  have hlookup (r : Nat) :
      c'.requests.lookup r = if r = c.created then some (.new uri) else c.requests.lookup r := by
    rw [hrequests, Client.newRequest, KeyTable.lookup_insert_eq]
  have hnone : c.requests.lookup c.created = none := (ht.created_iff _).mpr le_rfl
  have hcalled (r : Nat) : c'.called r = c.called r := by
    rw [called, hlookup, called]
    split
    · next hr => rw [hr, hnone]; rfl
    · rfl
  refine .of_places hs htidy (fun r => ?_) (fun r hr hm => ?_) (fun r hr hm => ?_)
    (fun k r hk => .inl (htasks ▸ hk))
    (fun r => (hcalled r).ge) fun r _ => hcalled r
  · rw [isUnqueued, hlookup, isUnqueued]
    split
    · next hr => rw [hr, hnone]; rfl
    · rfl
  · have hlt := ht.lt_of_isUnqueued hr
    exact (hidles r hm).resolve_right (by omega)
  · have hlt := ht.lt_of_isUnqueued hr
    exact (hcalls r hm).resolve_right (by omega)

theorem quiet_request (ht : c.Tidy) (hs : c.Silenced api) (uri : String) (mimeType : Option String)
    (upToDate : Bool) : Quiet api c (c.op api (.request uri mimeType upToDate)) := by
  have hmem (l : List Nat) (r : Nat) (hr : r ∈ l ++ [c.created]) : r ∈ l ∨ r = c.created := by
    simpa using hr
  have hnew : c.created ∉ c.queueCalls := fun hm => Nat.lt_irrefl _ (ht.queue_key _ hm).1
  have hnodup : (c.queueCalls ++ [c.created]).Nodup := ht.queue_nodup.append (by simp) (by simpa using hnew)
  cases api <;> cases upToDate
  · exact .newRequest ht hs uri rfl (ht.newRequest uri rfl rfl hnodup (hmem _) rfl) (fun _ => .inl) (hmem _) rfl
  · exact .newRequest ht hs uri rfl (ht.newRequest uri rfl rfl ht.queue_nodup (fun _ => .inl) rfl) (hmem _)
      (fun _ => .inl) rfl
  · exact .newRequest ht hs uri rfl (ht.newRequest uri rfl rfl hnodup (hmem _) rfl) (fun _ => .inl) (hmem _) rfl
  · exact .newRequest ht hs uri rfl (ht.newRequest uri rfl rfl ht.queue_nodup (fun _ => .inl) rfl) (hmem _)
      (fun _ => .inl) rfl

theorem Quiet.setUnqueued (ht : c.Tidy) (hs : c.Silenced api) {r : Nat}
    (hplaces : c.called r = 0 →
      r ∉ c.idles ∧ (api = .handle → r ∉ c.queueCalls ∧ ∀ k, c.tasks.lookup k ≠ some r)) :
    Quiet api c (c.setUnqueued r) := by
  have hcalled (x : Nat) : (c.setUnqueued r).called x = c.called x := called_change c r x _ fun _ => rfl
  have hmark (x : Nat) (hx : x ≠ r) : (c.setUnqueued r).isUnqueued x = c.isUnqueued x := by
    rw [isUnqueued, Client.setUnqueued, lookup_change, isUnqueued]
    cases c.requests.lookup x with
    | none => rfl
    | some q => simp [hx]
  have hdead (x : Nat) (hx : c.Dead api x) : (c.setUnqueued r).Dead api x := by
    refine ⟨?_, hx.2⟩
    cases hu : (c.setUnqueued r).isUnqueued x with
    | true => rfl
    | false => rw [← hx.1, isUnqueued_of_change c r x _ (fun _ _ => rfl) hu]
  refine ⟨ht.change r fun _ => rfl, fun x hu hzero => ?_, fun x hx => ⟨hdead x hx, hcalled x⟩⟩
  rw [hcalled] at hzero
  by_cases hx : x = r
  · subst hx
    exact ⟨hu, hplaces hzero⟩
  · exact hdead x (hs x ((hmark x hx).symm.trans hu) hzero)

/-- The calls made, their replies and the flag matter to no request. -/
theorem Quiet.of_fields (ht : c.Tidy) (hs : c.Silenced api) (hrequests : c'.requests = c.requests)
    (hcreated : c'.created = c.created) (hidles : c'.idles = c.idles) (hcalls : c'.queueCalls = c.queueCalls)
    (htasks : c'.tasks = c.tasks) : Quiet api c c' := by
  have htidy : c'.Tidy := by
    refine ⟨?_, hcalls ▸ ht.queue_nodup, ?_, ?_⟩
    · rw [hrequests, hcreated]
      exact ht.created_iff
    · intro r hr
      rw [key, hrequests, hcreated]
      exact ht.queue_key r (hcalls ▸ hr)
    · intro k r hr
      rw [key, hrequests]
      exact ht.tasks_key k r (htasks ▸ hr)
  refine .of_places hs htidy (fun r => ?_) (fun _ _ h => hidles ▸ h) (fun _ _ h => hcalls ▸ h)
    (fun _ _ h => .inl (htasks ▸ h)) (fun r => ?_) fun r _ => ?_
  · rw [isUnqueued, hrequests, isUnqueued]
  · rw [called, called, hrequests]
  · rw [called, called, hrequests]

theorem quiet_unqueue (ht : c.Tidy) (hs : c.Silenced api) {r : Nat} (hk : c.OpHarmless api (.unqueue r)) :
    Quiet api c (c.op api (.unqueue r)) := by
  cases api with
  | request =>
    have hmarked : Quiet .request c (c.setUnqueued r) :=
      .setUnqueued ht hs fun hzero => ⟨(hk hzero).1, fun hapi => nomatch hapi⟩
    unfold op Obj.op Obj.requestUnqueue
    dsimp only
    cases (c.setUnqueued r).key r with
    | none => exact hmarked
    | some handle => exact hmarked.trans (.of_fields hmarked.tidy hmarked.silenced rfl rfl rfl rfl rfl)
  | handle =>
    unfold op Factory.op Factory.cancel
    dsimp only
    rw [key_setUnqueued]
    cases hkey : c.key r with
    | none =>
      refine .setUnqueued ht hs fun hzero => ⟨(hk hzero).1, fun hapi => ⟨((hk hzero).2 hapi).1, fun k hl => ?_⟩⟩
      simp [ht.tasks_key k r hl] at hkey
    | some handle =>
      dsimp only
      have hown (k : UInt32) (hl : c.tasks.lookup k = some r) : k = handle :=
        Option.some.inj ((ht.tasks_key k r hl).symm.trans hkey)
      by_cases hz : handle = 0
      · rw [if_pos hz]
        refine .setUnqueued ht hs fun hzero => ⟨(hk hzero).1, fun hapi => ⟨((hk hzero).2 hapi).1, fun k hl => ?_⟩⟩
        have hk0 : k = 0 := (hown k hl).trans hz
        exact ((hk hzero).2 hapi).2 (hk0 ▸ hl)
      · rw [if_neg hz]
        -- the entry goes before the mark: in between the request would be marked and listed
        have herased := Quiet.erase ht hs handle
        have hmarked : Quiet .handle { c with tasks := c.tasks.erase handle }
            (Client.setUnqueued { c with tasks := c.tasks.erase handle } r) := by
          refine .setUnqueued herased.tidy herased.silenced fun hzero => ?_
          refine ⟨(hk hzero).1, fun hapi => ⟨((hk hzero).2 hapi).1, fun k hl => ?_⟩⟩
          rw [KeyTable.lookup_erase_eq] at hl
          split at hl
          · cases hl
          · next hne => exact hne (hown k hl)
        exact herased.trans (hmarked.trans (.of_fields hmarked.tidy hmarked.silenced rfl rfl rfl rfl rfl))

theorem quiet_op (ht : c.Tidy) (hs : c.Silenced api) {o : Op} (hk : c.OpHarmless api o) :
    Quiet api c (c.op api o) := by
  cases o with
  | request uri mimeType upToDate => exact quiet_request ht hs uri mimeType upToDate
  | unqueue r => exact quiet_unqueue ht hs hk

theorem quiet_ops (ht : c.Tidy) (hs : c.Silenced api) {ops : List Op} (hk : OpsHarmless api c ops) :
    Quiet api c (ops.foldl (op api) c) := by
  induction ops generalizing c with
  | nil => exact .refl ht hs
  | cons o ops ih =>
    obtain ⟨ho, hops⟩ := hk
    have hfirst := quiet_op ht hs ho
    exact hfirst.trans (ih hfirst.tidy hfirst.silenced hops)

end Quiet

section Events
variable {api : Api} {c c' : Client}

theorem Tidy.dropQueue (h : c.Tidy) (r : Nat) : Tidy { c with queueCalls := c.queueCalls.erase r } where
  created_iff := h.created_iff
  queue_nodup := h.queue_nodup.erase r
  queue_key x hx := h.queue_key x (List.mem_of_mem_erase hx)
  tasks_key := h.tasks_key

theorem key_setKey (h : c.Tidy) {r : Nat} (hr : r < c.created) (handle : UInt32) (x : Nat) :
    (c.setKey r handle).key x = if x = r then some handle else c.key x := by
  obtain ⟨q, hq⟩ := h.lookup_isSome hr
  rw [key, setKey, lookup_change, key]
  split
  · next hx => rw [hx, hq]; rfl
  · next hx => cases c.requests.lookup x <;> rfl

/-- The reply takes the request out of those that wait for one. -/
theorem Tidy.setKey (h : c.Tidy) {r : Nat} (hr : r ∈ c.queueCalls) (handle : UInt32) :
    Tidy (({ c with queueCalls := c.queueCalls.erase r } : Client).setKey r handle) := by
  obtain ⟨hlt, hnone⟩ := h.queue_key r hr
  have hdropped := h.dropQueue r
  have hkey (x : Nat) (hx : x ≠ r) :
      (({ c with queueCalls := c.queueCalls.erase r } : Client).setKey r handle).key x = c.key x :=
    (key_setKey hdropped hlt handle x).trans (if_neg hx)
  refine ⟨fun x => (change_none r _ x).trans (h.created_iff x), hdropped.queue_nodup, fun x hx => ?_,
    fun k x hx => ?_⟩
  · have hne : x ≠ r := by
      rintro rfl
      exact h.queue_nodup.not_mem_erase hx
    rw [hkey x hne]
    exact hdropped.queue_key x hx
  · have hown := h.tasks_key k x hx
    have hne : x ≠ r := by
      rintro rfl
      rw [hnone] at hown
      cases hown
    rw [hkey x hne]
    exact hown

theorem Tidy.insert (h : c.Tidy) {r : Nat} {handle : UInt32} (hkey : c.key r = some handle) :
    Tidy { c with tasks := c.tasks.insert handle r } where
  created_iff := h.created_iff
  queue_nodup := h.queue_nodup
  queue_key := h.queue_key
  tasks_key k x hx := by
    rw [KeyTable.lookup_insert_eq] at hx
    split at hx
    · next hk =>
      obtain rfl := Option.some.inj hx
      rw [hk]
      exact hkey
    · exact h.tasks_key k x hx

theorem quiet_dropQueue (ht : c.Tidy) (hs : c.Silenced api) (r : Nat) :
    Quiet api c { c with queueCalls := c.queueCalls.erase r } :=
  .of_places hs (ht.dropQueue r) (fun _ => rfl) (fun _ _ h => h) (fun _ _ h => List.mem_of_mem_erase h)
    (fun _ _ h => .inl h) (fun _ => le_rfl) fun _ _ => rfl

theorem quiet_register (ht : c.Tidy) (hs : c.Silenced api) {r : Nat} (hr : r ∈ c.queueCalls) (handle : UInt32) :
    Quiet api c { ({ c with queueCalls := c.queueCalls.erase r } : Client).setKey r handle with
      tasks := c.tasks.insert handle r } := by
  have hkey := key_setKey (ht.dropQueue r) (ht.queue_key r hr).1 handle r
  rw [if_pos rfl] at hkey
  have htidy := (ht.setKey hr handle).insert hkey
  have hcalled (x : Nat) : (({ c with queueCalls := c.queueCalls.erase r } : Client).setKey r handle).called x =
      c.called x := called_change _ r x _ fun _ => rfl
  refine .of_places hs htidy (fun x => isUnqueued_setKey _ r handle x) (fun _ _ h => h)
    (fun _ _ h => List.mem_of_mem_erase h) (fun k x hx => ?_) (fun x => (hcalled x).ge) fun x _ => hcalled x
  rw [KeyTable.lookup_insert_eq] at hx
  split at hx
  · exact .inr (Option.some.inj hx ▸ hr)
  · exact .inl hx

theorem quiet_failed (ht : c.Tidy) (hs : c.Silenced .handle) {r : Nat} (hr : r ∈ c.queueCalls) (handle : UInt32)
    (message : String) : Quiet .handle c ((({ c with queueCalls := c.queueCalls.erase r } : Client).setKey r
      handle).invoke r fun _ => some message) := by
  have hcalled (x : Nat) : (({ c with queueCalls := c.queueCalls.erase r } : Client).setKey r handle).called x =
      c.called x := called_change _ r x _ fun _ => rfl
  refine .of_places hs ((ht.setKey hr handle).change r fun _ => rfl) (fun x => ?_) (fun _ _ h => h)
    (fun _ _ h => List.mem_of_mem_erase h) (fun _ _ h => .inl h) (fun x => ?_) fun x hx => ?_
  · have hsame := isUnqueued_change (({ c with queueCalls := c.queueCalls.erase r } : Client).setKey r handle) r x
      (fun q => { q with callbacks := q.callbacks ++ [some message] }) fun _ => rfl
    exact hsame.trans (isUnqueued_setKey _ r handle x)
  · exact (hcalled x).ge.trans (called_le_invoke _ r x _)
  · have hne : x ≠ r := by
      rintro rfl
      exact (hx.2.2 rfl).1 hr
    exact (called_invoke_ne _ hne _).trans (hcalled x)

theorem quiet_serveIdle (ht : c.Tidy) (hs : c.Silenced api) {r : Nat} (hr : r ∈ c.idles) :
    Quiet api c (({ c with idles := c.idles.erase r } : Client).invoke r Request.errors) := by
  have hdropped : Tidy { c with idles := c.idles.erase r } :=
    ⟨ht.created_iff, ht.queue_nodup, ht.queue_key, ht.tasks_key⟩
  refine .of_places hs (hdropped.change r fun _ => rfl) (fun x => isUnqueued_change _ r x _ fun _ => rfl)
    (fun _ _ h => List.mem_of_mem_erase h) (fun _ _ h => h) (fun _ _ h => .inl h)
    (fun x => called_le_invoke { c with idles := c.idles.erase r } r x _) fun x hx => ?_
  have hne : x ≠ r := by
    rintro rfl
    exact hx.2.1 hr
  exact called_invoke_ne { c with idles := c.idles.erase r } hne _

theorem quiet_flag (h : Quiet api c c') (flag : Bool) : Quiet api c { c' with waitingForCb := flag } :=
  h.trans (.of_fields h.tidy h.silenced rfl rfl rfl rfl rfl)

theorem quiet_gotHandle (ht : c.Tidy) (hs : c.Silenced api) {r : Nat} (hr : r ∈ c.queueCalls) {handle : UInt32}
    {error : Option String} {ops : List Op} (hk : EventHarmless api c (.gotHandle r handle error ops)) :
    Quiet api c (c.onGotHandle api r handle error ops) := by
  suffices hh : Quiet api c (c.registerHandle api r handle error ops) from quiet_flag hh false
  cases api with
  | request =>
    change Quiet .request c (Obj.registerHandle c r handle)
    rw [Obj.registerHandle]
    dsimp only
    split
    · exact quiet_dropQueue ht hs r
    · exact quiet_register ht hs hr handle
  | handle =>
    cases error with
    | none => exact quiet_register ht hs hr handle
    | some message =>
      have hfailed := quiet_failed ht hs hr handle message
      exact hfailed.trans (quiet_ops hfailed.tidy hfailed.silenced hk)

theorem quiet_onUnqueued (ht : c.Tidy) (hs : c.Silenced api) (r : Nat) : Quiet api c (c.onUnqueued api r) := by
  have hdropped : Quiet api c { c with unqueueCalls := c.unqueueCalls.erase r } :=
    .of_fields ht hs rfl rfl rfl rfl rfl
  cases api with
  | request =>
    change Quiet .request c (Obj.onUnqueued c r)
    rw [Obj.onUnqueued]
    dsimp only
    split
    · exact hdropped
    · next handle _ => exact hdropped.trans (.erase hdropped.tidy hdropped.silenced handle)
  | handle => exact hdropped

theorem quiet_onIdle (ht : c.Tidy) (hs : c.Silenced api) {r : Nat} (hr : r ∈ c.idles) {ops : List Op}
    (hk : EventHarmless api c (.idle r ops)) : Quiet api c (c.onIdle api r ops) := by
  have hserved := quiet_serveIdle ht hs hr
  cases api with
  | request => exact quiet_flag (hserved.trans (quiet_ops hserved.tidy hserved.silenced hk)) false
  | handle => exact hserved.trans (quiet_ops hserved.tidy hserved.silenced hk)

theorem quiet_onTaskError (ht : c.Tidy) (hs : c.Silenced api) (handle : UInt32) (message : String) :
    Quiet api c (c.onTaskError handle message) := by
  rw [onTaskError]
  cases c.tasks.lookup handle with
  | none => exact .refl ht hs
  | some r =>
    have hfields := addError_fields message
    have hcalled (x : Nat) : (c.change r fun q => addError q message).called x = c.called x :=
      called_change c r x _ fun q => (hfields q).1
    exact .of_places hs (ht.change r fun q => (hfields q).2.2)
      (fun x => isUnqueued_change c r x _ fun q => (hfields q).2.1)
      (fun _ _ h => h) (fun _ _ h => h) (fun _ _ h => .inl h) (fun x => (hcalled x).ge) fun x _ => hcalled x

theorem quiet_finish (ht : c.Tidy) (hs : c.Silenced api) {r : Nat} (hr : ¬ c.Dead api r) {ops : List Op}
    (hk : OpsHarmless api (c.invoke r Request.errors) ops) (handle : UInt32) :
    Quiet api c { ops.foldl (op api) (c.invoke r Request.errors) with
      tasks := (ops.foldl (op api) (c.invoke r Request.errors)).tasks.erase handle } := by
  have hinvoked := Quiet.invoke ht hs hr Request.errors
  have hops := hinvoked.trans (quiet_ops hinvoked.tidy hinvoked.silenced hk)
  exact hops.trans (.erase hops.tidy hops.silenced handle)

theorem quiet_onTaskFinished (ht : c.Tidy) (hs : c.Silenced api) {handle : UInt32} {ops : List Op}
    (hk : EventHarmless api c (.taskFinished handle ops)) : Quiet api c (c.onTaskFinished api handle ops) := by
  cases api with
  | request =>
    change Quiet .request c (Obj.onTaskFinished c handle ops)
    rw [Obj.onTaskFinished]
    cases hr : c.tasks.lookup handle with
    | none => exact .refl ht hs
    | some r =>
      dsimp only
      by_cases hu : c.isUnqueued r = true
      · rw [if_pos hu]
        exact .erase ht hs handle
      · rw [if_neg hu]
        have hu' := Bool.eq_false_iff.mpr hu
        exact quiet_finish ht hs (fun hd => hu hd.1) (hk r hr (.inr hu')) handle
  | handle =>
    change Quiet .handle c (Factory.onTaskFinished c handle ops)
    rw [Factory.onTaskFinished]
    cases hr : c.tasks.lookup handle with
    | none => exact .refl ht hs
    | some r => exact quiet_finish ht hs (fun hd => (hd.2.2 rfl).2 handle hr) (hk r hr (.inl rfl)) handle

theorem quiet_step (ht : c.Tidy) (hs : c.Silenced api) {label : Label} (hk : c.Harmless api label)
    (hstep : c.step api label = some c') : Quiet api c c' := by
  cases label with
  | op o =>
    obtain rfl := Option.some.inj hstep
    exact quiet_op ht hs hk
  | event e =>
    cases e with
    | gotHandle r handle error ops =>
      obtain ⟨hr, hstep⟩ := Option.ite_none_right_eq_some.mp hstep
      obtain rfl := Option.some.inj hstep
      exact quiet_gotHandle ht hs hr hk
    | unqueued r =>
      obtain ⟨_, hstep⟩ := Option.ite_none_right_eq_some.mp hstep
      obtain rfl := Option.some.inj hstep
      exact quiet_onUnqueued ht hs r
    | idle r ops =>
      obtain ⟨hr, hstep⟩ := Option.ite_none_right_eq_some.mp hstep
      obtain rfl := Option.some.inj hstep
      exact quiet_onIdle ht hs hr hk
    | taskError handle message =>
      obtain rfl := Option.some.inj hstep
      exact quiet_onTaskError ht hs handle message
    | taskFinished handle ops =>
      obtain rfl := Option.some.inj hstep
      exact quiet_onTaskFinished ht hs hk

theorem quiet_run {labels : List Label} (ht : c.Tidy) (hs : c.Silenced api)
    (hg : StepRun.Guarded (step api) (Harmless api) c labels) (hrun : StepRun.run (step api) c labels = some c') :
    Quiet api c c' := by
  induction labels generalizing c with
  | nil => exact Option.some.inj hrun ▸ .refl ht hs
  | cons label labels ih =>
    obtain ⟨d, hd, hr⟩ := Option.bind_eq_some_iff.mp hrun
    have hfirst := quiet_step ht hs hg.1 hd
    exact hfirst.trans (ih hfirst.tidy hfirst.silenced (hg.2 d hd) hr)

theorem tidy_init : clientInit.Tidy :=
  ⟨fun r => ⟨fun _ => Nat.zero_le r, fun _ => rfl⟩, List.nodup_nil, by simp [clientInit], by simp [clientInit]⟩

theorem silenced_init (api : Api) : clientInit.Silenced api := fun _ hr => nomatch hr

end Events

open StepRun in
/-- An unqueued request is never called back, as long as every request is
unqueued where its mark is looked at or its entry can be removed. -/
theorem unqueued_never_called (api : Api) {before after : List Label} {c c' : Client}
    (hg : Guarded (step api) (Harmless api) clientInit (before ++ after))
    (hbefore : run (step api) clientInit before = some c) (hafter : run (step api) c after = some c') {r : Nat}
    (hu : c.isUnqueued r = true) (hcalled : c.called r = 0) : c'.called r = 0 := by
  obtain ⟨hgb, hga⟩ := guarded_append.mp hg
  have hquiet := quiet_run tidy_init (silenced_init api) hgb hbefore
  have hdead := hquiet.silenced r hu hcalled
  have hlater := quiet_run hquiet.tidy hquiet.silenced (hga c hbefore) hafter
  exact (hlater.dead r hdead).2.trans hcalled

theorem unqueued_called_back : ¬ ∀ (api : Api) (before after : List Label) (c c' : Client),
    StepRun.run (step api) clientInit before = some c → StepRun.run (step api) c after = some c' →
      ∀ r, c.isUnqueued r = true → c.called r = 0 → c'.called r = 0 := by
  intro h
  have hruns : ∃ c c', StepRun.run (step .request) clientInit
      [.op (.request "file:///a.png" none true), .op (.unqueue 0)] = some c ∧
        StepRun.run (step .request) c [.event (.idle 0 [])] = some c' ∧
          c.isUnqueued 0 = true ∧ c.called 0 = 0 ∧ c'.called 0 = 1 := ⟨_, _, rfl, rfl, rfl, rfl, rfl⟩
  obtain ⟨c, c', hbefore, hafter, hu, hzero, hone⟩ := hruns
  rw [h .request _ _ c c' hbefore hafter 0 hu hzero] at hone
  cases hone

theorem unqueued_never_called_waiting : ∃ c c', StepRun.run (step .request) clientInit
    [.op (.request "file:///a.png" none false), .op (.unqueue 0)] = some c ∧
      StepRun.run (step .request) c [.event (.gotHandle 0 1 none [])] = some c' ∧ c'.called 0 = 0 := by
  have hruns : ∃ c c', StepRun.run (step .request) clientInit
      [.op (.request "file:///a.png" none false), .op (.unqueue 0)] = some c ∧
        StepRun.run (step .request) c [.event (.gotHandle 0 1 none [])] = some c' ∧
          c.isUnqueued 0 = true ∧ c.called 0 = 0 := ⟨_, _, rfl, rfl, rfl, rfl⟩
  obtain ⟨c, c', hbefore, hafter, hu, hzero⟩ := hruns
  refine ⟨c, c', hbefore, hafter, unqueued_never_called .request ?_ hbefore hafter hu hzero⟩
  refine ⟨trivial, fun d hd =>
    ⟨fun _ => ⟨?_, fun hapi => nomatch hapi⟩, fun _ _ => ⟨trivial, fun _ _ => trivial⟩⟩⟩
  obtain rfl := Option.some.inj hd
  exact fun hm => nomatch hm

end Client

end HildonThumbnail
