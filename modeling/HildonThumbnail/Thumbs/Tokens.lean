import HildonThumbnail.Thumbs.Client

/-! Where a request stands with the client: its callback is pending as an idle
source, its Queue call has no reply, it is in the table of tasks, or its
callback has been invoked. A request that is not unqueued is in one of these
places, as long as no other request takes its entry of the table. -/

namespace HildonThumbnail

namespace Client

def called (c : Client) (r : Nat) : Nat := (c.requests.lookup r).elim 0 fun q => q.callbacks.length

def listed (c : Client) (r : Nat) : Nat := c.tasks.tally fun x => [x].count r

def tokens (c : Client) (r : Nat) : Nat := c.idles.count r + c.queueCalls.count r + c.listed r + c.called r

/-- The requests of `during` are in their callbacks while still in the table. -/
structure Accounted (during : List Nat) (c : Client) : Prop where
  created_iff : ∀ r, c.requests.lookup r = none ↔ c.created ≤ r
  during_lt : ∀ r ∈ during, r < c.created
  tokens_eq : ∀ r, c.isUnqueued r = false → c.tokens r = (if r < c.created then 1 else 0) + during.count r

/-- No entry under the key is that of a request still to be served. -/
def Free (c : Client) (k : UInt32) : Prop := ∀ r, c.tasks.lookup k = some r → c.isUnqueued r = true

section Change
variable (c : Client) (r r' : Nat) (f : Request → Request)

theorem lookup_change : (c.change r f).requests.lookup r' =
    (c.requests.lookup r').map fun q => if r' = r then f q else q :=
  KeyTable.lookup_mapValues _ c.requests r'

theorem called_change (hf : ∀ q, (f q).callbacks = q.callbacks) : (c.change r f).called r' = c.called r' := by
  rw [called, lookup_change, called]
  cases c.requests.lookup r' with
  | none => rfl
  | some q => by_cases h : r' = r <;> simp [h, hf]

theorem isUnqueued_change (hf : ∀ q, (f q).unqueued = q.unqueued) :
    (c.change r f).isUnqueued r' = c.isUnqueued r' := by
  rw [isUnqueued, lookup_change, isUnqueued]
  cases c.requests.lookup r' with
  | none => rfl
  | some q => by_cases h : r' = r <;> simp [h, hf]

theorem isUnqueued_of_change (hf : ∀ q, q.unqueued = true → (f q).unqueued = true)
    (h : (c.change r f).isUnqueued r' = false) : c.isUnqueued r' = false := by
  rw [isUnqueued, lookup_change] at h
  rw [isUnqueued]
  cases hq : c.requests.lookup r' with
  | none => rfl
  | some q =>
    by_cases hr : r' = r
    · simp only [hq, hr, if_true, Option.map_some, Option.any_some] at h
      cases hu : q.unqueued with
      | false => exact hu
      | true => rw [hf q hu] at h; cases h
    · simpa [hq, hr] using h

theorem called_invoke (e : Request → Option String) {q : Request} (hq : c.requests.lookup r = some q) :
    (c.invoke r e).called r' = c.called r' + [r].count r' := by
  rw [called, invoke, lookup_change, called]
  by_cases h : r' = r
  · subst h
    simp [hq]
  · have hne : r ≠ r' := Ne.symm h
    simp [h, hne]

end Change

section Accounted
variable {c c' : Client} {during during' : List Nat}

theorem Accounted.move (h : c.Accounted during) (hcreated : c'.created = c.created)
    (hnone : ∀ r, c'.requests.lookup r = none ↔ c.requests.lookup r = none)
    (hlt : ∀ r ∈ during', r < c.created)
    (hmove : ∀ r, c'.isUnqueued r = false →
      c.isUnqueued r = false ∧ c'.tokens r + during.count r = c.tokens r + during'.count r) :
    c'.Accounted during' where
  created_iff r := by rw [hnone, hcreated, h.created_iff]
  during_lt r hr := by rw [hcreated]; exact hlt r hr
  tokens_eq r hr := by
    obtain ⟨hu, ht⟩ := hmove r hr
    have hold := h.tokens_eq r hu
    rw [hcreated]
    omega

theorem change_none (r : Nat) (f : Request → Request) (r' : Nat) :
    (c.change r f).requests.lookup r' = none ↔ c.requests.lookup r' = none := by
  rw [lookup_change, Option.map_eq_none_iff]

theorem Accounted.change (h : c.Accounted during) (r : Nat) {f : Request → Request}
    (hcallbacks : ∀ q, (f q).callbacks = q.callbacks) (hunqueued : ∀ q, q.unqueued = true → (f q).unqueued = true) :
    (c.change r f).Accounted during :=
  h.move rfl (change_none r f) h.during_lt fun r' hr' =>
    ⟨isUnqueued_of_change c r r' f hunqueued hr', by
      rw [tokens, called_change c r r' f hcallbacks]
      rfl⟩

theorem Accounted.lt_of_lookup (h : c.Accounted during) {r : Nat} {q : Request}
    (hq : c.requests.lookup r = some q) : r < c.created := by
  by_contra hge
  have hnone := (h.created_iff r).mpr (Nat.le_of_not_lt hge)
  rw [hq] at hnone
  cases hnone

theorem Accounted.invoke (h : c.Accounted during) {r : Nat} {q : Request} (hq : c.requests.lookup r = some q)
    (e : Request → Option String) : (c.invoke r e).Accounted (r :: during) := by
  have hlt := h.lt_of_lookup hq
  refine h.move rfl (change_none r _) (List.forall_mem_cons.mpr ⟨hlt, h.during_lt⟩) fun r' hr' => ?_
  have hsame : (c.invoke r e).isUnqueued r' = c.isUnqueued r' := isUnqueued_change c r r' _ fun _ => rfl
  refine ⟨hsame ▸ hr', ?_⟩
  have hcalled := called_invoke c r r' e hq
  rw [tokens, hcalled, List.count_cons_add r' r during]
  change c.idles.count r' + c.queueCalls.count r' + c.listed r' + _ + _ =
    c.idles.count r' + c.queueCalls.count r' + c.listed r' + c.called r' + _
  omega

theorem Accounted.leave {r : Nat} (h : c.Accounted (r :: during)) (hrequests : c'.requests = c.requests)
    (hcreated : c'.created = c.created)
    (hplace : ∀ x, c'.tokens x + [r].count x = c.tokens x) : c'.Accounted during := by
  have hlt (x : Nat) (hx : x ∈ during) : x < c.created := h.during_lt x (List.mem_cons_of_mem r hx)
  refine h.move hcreated (fun x => by rw [hrequests]) hlt fun x hx => ?_
  have hu : c.isUnqueued x = false := by
    rw [isUnqueued, ← hrequests]
    exact hx
  refine ⟨hu, ?_⟩
  have hone := hplace x
  rw [List.count_cons_add x r during]
  omega

theorem Accounted.leaveIdles {r : Nat} (h : c.Accounted (r :: during)) (hr : r ∈ c.idles) :
    ({ c with idles := c.idles.erase r } : Client).Accounted during := by
  refine h.leave rfl rfl fun x => ?_
  have herase := List.count_erase_add hr x
  change (c.idles.erase r).count x + c.queueCalls.count x + c.listed x + c.called x + _ =
    c.idles.count x + c.queueCalls.count x + c.listed x + c.called x
  omega

theorem Accounted.leaveQueue {r : Nat} (h : c.Accounted (r :: during)) (hr : r ∈ c.queueCalls) :
    ({ c with queueCalls := c.queueCalls.erase r } : Client).Accounted during := by
  refine h.leave rfl rfl fun x => ?_
  have herase := List.count_erase_add hr x
  change c.idles.count x + (c.queueCalls.erase r).count x + c.listed x + c.called x + _ =
    c.idles.count x + c.queueCalls.count x + c.listed x + c.called x
  omega

theorem listed_erase (c : Client) (k : UInt32) (r : Nat) :
    ({ c with tasks := c.tasks.erase k } : Client).listed r + (c.tasks.lookup k).elim 0 (fun x => [x].count r) =
      c.listed r :=
  KeyTable.tally_erase_add _ c.tasks k

theorem listed_insert (c : Client) (k : UInt32) (x r : Nat) :
    ({ c with tasks := c.tasks.insert k x } : Client).listed r =
      [x].count r + ({ c with tasks := c.tasks.erase k } : Client).listed r :=
  KeyTable.tally_insert _ c.tasks k x

theorem listed_of_keys {r : Nat} (h : c.tasks.keys = []) : c.listed r = 0 := by
  refine KeyTable.tally_eq_zero_iff.mpr fun k x hx => ?_
  have hmem := AList.mem_keys.mp (AList.lookup_isSome.mp (Option.isSome_of_eq_some hx))
  rw [h] at hmem
  cases hmem

theorem Free.count_eq_zero {k : UInt32} (h : c.Free k) {r : Nat} (hr : c.isUnqueued r = false) :
    (c.tasks.lookup k).elim 0 (fun x => [x].count r) = 0 := by
  cases hk : c.tasks.lookup k with
  | none => rfl
  | some x =>
    apply List.count_eq_zero_of_not_mem
    rw [List.mem_singleton]
    rintro rfl
    rw [h r hk] at hr
    cases hr

theorem Accounted.erase (h : c.Accounted during) {k : UInt32} (hfree : c.Free k) :
    ({ c with tasks := c.tasks.erase k } : Client).Accounted during := by
  refine h.move rfl (fun _ => Iff.rfl) h.during_lt fun r hr => ⟨hr, ?_⟩
  have herase := listed_erase c k r
  rw [hfree.count_eq_zero hr, Nat.add_zero] at herase
  rw [tokens, herase]
  rfl

theorem Accounted.leaveTasks {k : UInt32} {r : Nat} (h : c.Accounted (r :: during))
    (hr : c.tasks.lookup k = some r) : ({ c with tasks := c.tasks.erase k } : Client).Accounted during := by
  refine h.leave rfl rfl fun x => ?_
  have herase := listed_erase c k x
  rw [hr, Option.elim_some] at herase
  change c.idles.count x + c.queueCalls.count x + _ + c.called x + _ =
    c.idles.count x + c.queueCalls.count x + c.listed x + c.called x
  omega

theorem Accounted.enterTasks {k : UInt32} {r : Nat} (h : c.Accounted during) (hr : r < c.created)
    (hfree : c.Free k) : ({ c with tasks := c.tasks.insert k r } : Client).Accounted (r :: during) := by
  refine h.move rfl (fun _ => Iff.rfl) (List.forall_mem_cons.mpr ⟨hr, h.during_lt⟩) fun r' hr' => ⟨hr', ?_⟩
  have herase := listed_erase c k r'
  rw [hfree.count_eq_zero hr', Nat.add_zero] at herase
  rw [tokens, listed_insert, herase, List.count_cons_add r' r during]
  change c.idles.count r' + c.queueCalls.count r' + _ + c.called r' + _ =
    c.idles.count r' + c.queueCalls.count r' + c.listed r' + c.called r' + _
  omega

theorem Accounted.newRequest (h : c.Accounted during) (uri : String)
    (hc' : c'.requests = (c.newRequest uri).requests ∧ c'.created = c.created + 1 ∧ c'.tasks = c.tasks)
    (hplace : ∀ r, c'.idles.count r + c'.queueCalls.count r =
      c.idles.count r + c.queueCalls.count r + [c.created].count r) : c'.Accounted during := by
  obtain ⟨hrequests, hcreated, htasks⟩ := hc'
  have hlookup (r : Nat) :
      c'.requests.lookup r = if r = c.created then some (.new uri) else c.requests.lookup r := by
    rw [hrequests]
    exact KeyTable.lookup_insert_eq c.requests c.created r _
  have hfresh : c.requests.lookup c.created = none := (h.created_iff _).mpr le_rfl
  have hcalled (r : Nat) : c'.called r = c.called r := by
    rw [called, hlookup, called]
    by_cases hr : r = c.created
    · rw [if_pos hr, hr, hfresh]
      rfl
    · rw [if_neg hr]
  have hunqueued (r : Nat) : c'.isUnqueued r = c.isUnqueued r := by
    rw [isUnqueued, hlookup, isUnqueued]
    by_cases hr : r = c.created
    · rw [if_pos hr, hr, hfresh]
      rfl
    · rw [if_neg hr]
  have hborn (r : Nat) :
      (if r < c.created + 1 then 1 else 0) = (if r < c.created then 1 else 0) + [c.created].count r := by
    rw [List.count_singleton]
    rcases Nat.lt_trichotomy r c.created with hr | rfl | hr
    · rw [if_pos (by omega), if_pos hr, if_neg (by simp; omega)]
    · simp
    · rw [if_neg (by omega), if_neg (by omega), if_neg (by simp; omega)]
  refine ⟨fun r => ?_, fun r hr => ?_, fun r hr => ?_⟩
  · rw [hlookup, hcreated]
    by_cases hr : r = c.created
    · simp [hr]
    · rw [if_neg hr, h.created_iff]
      omega
  · have hlt := h.during_lt r hr
    omega
  · have hlisted : c'.listed r = c.listed r := by rw [listed, htasks, listed]
    rw [hunqueued] at hr
    have hold := h.tokens_eq r hr
    have hnew := hborn r
    have hplace := hplace r
    rw [tokens] at hold ⊢
    rw [hlisted, hcalled, hcreated]
    omega

end Accounted

end Client

end HildonThumbnail
