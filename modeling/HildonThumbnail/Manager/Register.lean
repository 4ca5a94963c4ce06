import Mathlib.Data.List.Nodup
import HildonThumbnail.Lib.Run
import HildonThumbnail.Manager.Mutex

/-! The Register calls against the pairs of a URI scheme and a MIME type that
they name (`thumbnail_manager_register` in daemon/thumbnail-manager.c). -/

namespace HildonThumbnail

structure RegisterCall where
  uriScheme : String
  mimeType : String
  sender : String

def RegisterCall.key (call : RegisterCall) : String := handlerKey call.uriScheme call.mimeType

def RegisterCall.pair (call : RegisterCall) : String × String := (call.uriScheme, call.mimeType)

def thumbnailManagerRegister [DBusGlib] (s : LockedManager) (call : RegisterCall) : Option LockedManager :=
  s.lock.bind fun s => (s.add call.key (some call.sender)).map fun s =>
    (s.connect (s.manager.handlers.lookup call.key).join).unlock

/-- What a call that comes to its end has made of the table. -/
def RegisterCall.enter [DBusGlib] (m : ThumbnailManager) (call : RegisterCall) : ThumbnailManager :=
  thumbnailManagerAdd m call.key (some call.sender)

/-- The MIME type that `thumbnail_manager_get_supported` reads off a key: what
follows the first '-', or the whole key. -/
def supportedMime (key : String) : String :=
  match key.toList.dropWhile (· ≠ '-') with
  | [] => key
  | _ :: rest => String.ofList rest

/-- The proxy made for the last of the calls that `p` selects, where the first
one makes proxy `n`. -/
def lastProxy (p : RegisterCall → Bool) : Nat → List RegisterCall → Option DBusGProxy
  | _, [] => none
  | n, call :: calls =>
    (lastProxy p (n + 1) calls).or (if p call then some ⟨call.sender, proxyPath call.sender, n⟩ else none)

def RegisterCall.names (uriScheme mimeType : String) (call : RegisterCall) : Bool :=
  call.uriScheme = uriScheme && call.mimeType = mimeType

/-- The table as a map of pairs, and its keys as codes of them. -/
structure PairTable (m : ThumbnailManager) (calls : List RegisterCall) : Prop where
  handler : ∀ uriScheme mimeType, thumbnailManagerGetHandler m uriScheme mimeType =
    lastProxy (RegisterCall.names uriScheme mimeType) 0 calls
  decode : ∀ call ∈ calls, supportedMime call.key = call.mimeType

section Keys
variable {uriScheme uriScheme' mimeType mimeType' : String}

theorem toList_handlerKey (uriScheme mimeType : String) :
    (handlerKey uriScheme mimeType).toList = uriScheme.toList ++ '-' :: mimeType.toList := by
  simp [handlerKey]

theorem supportedMime_handlerKey (hs : '-' ∉ uriScheme.toList) (mimeType : String) :
    supportedMime (handlerKey uriScheme mimeType) = mimeType := by
  have hdrop : (uriScheme.toList ++ '-' :: mimeType.toList).dropWhile (· ≠ '-') = '-' :: mimeType.toList := by
    rw [List.dropWhile_append_of_pos]
    · simp
    · intro c hc
      simp only [ne_eq, decide_not, Bool.not_eq_eq_eq_not, Bool.not_true, decide_eq_false_iff_not]
      rintro rfl
      exact hs hc
  rw [supportedMime, toList_handlerKey, hdrop]
  simp

theorem handlerKey_inj (hs : '-' ∉ uriScheme.toList) (hs' : '-' ∉ uriScheme'.toList) :
    handlerKey uriScheme mimeType = handlerKey uriScheme' mimeType' ↔
      uriScheme = uriScheme' ∧ mimeType = mimeType' := by
  constructor
  · intro h
    have hmime : mimeType = mimeType' := by
      rw [← supportedMime_handlerKey hs mimeType, h, supportedMime_handlerKey hs' mimeType']
    rw [hmime, ← String.toList_inj, toList_handlerKey, toList_handlerKey] at h
    exact ⟨String.toList_inj.mp (List.append_cancel_right h), hmime⟩
  · rintro ⟨rfl, rfl⟩
    rfl

/-- A further '-' makes the key that of another pair as well. -/
theorem exists_other_pair (h : '-' ∈ uriScheme.toList ∨ '-' ∈ mimeType.toList) : ∃ uriScheme' mimeType',
    handlerKey uriScheme' mimeType' = handlerKey uriScheme mimeType ∧ uriScheme' ≠ uriScheme := by
  rcases h with h | h
  · obtain ⟨a, b, hab⟩ := List.append_of_mem h
    refine ⟨String.ofList a, String.ofList (b ++ '-' :: mimeType.toList), ?_, fun heq => ?_⟩
    · rw [← String.toList_inj, toList_handlerKey, toList_handlerKey, hab]
      simp
    · rw [← heq] at hab
      simp at hab
  · obtain ⟨a, b, hab⟩ := List.append_of_mem h
    refine ⟨String.ofList (uriScheme.toList ++ '-' :: a), String.ofList b, ?_, fun heq => ?_⟩
    · rw [← String.toList_inj, toList_handlerKey, toList_handlerKey, hab]
      simp
    · have hlen := congrArg String.length heq
      simp only [String.length_ofList, List.length_append, List.length_cons, String.length_toList] at hlen
      omega

/-- No other pair has the key of one without a '-'. -/
theorem handlerKey_inj_of_plain (hs : '-' ∉ uriScheme.toList) (hm : '-' ∉ mimeType.toList) :
    handlerKey uriScheme mimeType = handlerKey uriScheme' mimeType' ↔
      uriScheme = uriScheme' ∧ mimeType = mimeType' := by
  constructor
  · intro h
    have hcount := congrArg (fun key : String => key.toList.count '-') h
    simp only [toList_handlerKey, List.count_append, List.count_cons_self] at hcount
    rw [List.count_eq_zero_of_not_mem hs, List.count_eq_zero_of_not_mem hm] at hcount
    have hs' : '-' ∉ uriScheme'.toList := List.count_eq_zero.mp (by omega)
    exact (handlerKey_inj hs hs').mp h
  · rintro ⟨rfl, rfl⟩
    rfl

end Keys

section Calls
variable {p p' : RegisterCall → Bool} {calls : List RegisterCall} {proxy : DBusGProxy}

/-- The proxy tells which call it was made for. -/
theorem lastProxy_eq_some {n : Nat} (h : lastProxy p n calls = some proxy) :
    n ≤ proxy.id ∧ ∃ call, calls[proxy.id - n]? = some call ∧ p call = true := by
  induction calls generalizing n with
  | nil => cases h
  | cons call calls ih =>
    rw [lastProxy, Option.or_eq_some_iff] at h
    rcases h with h | ⟨_, h⟩
    · obtain ⟨hle, call', hget, hp⟩ := ih h
      refine ⟨by omega, call', ?_, hp⟩
      rw [show proxy.id - n = proxy.id - (n + 1) + 1 by omega, List.getElem?_cons_succ]
      exact hget
    · obtain ⟨hp, heq⟩ := Option.ite_none_right_eq_some.mp h
      obtain rfl := Option.some.inj heq
      exact ⟨le_rfl, call, by simp, hp⟩

theorem lastProxy_isSome {n : Nat} (h : ∃ call ∈ calls, p call = true) :
    ∃ proxy, lastProxy p n calls = some proxy := by
  induction calls generalizing n with
  | nil => simp at h
  | cons call calls ih =>
    rw [lastProxy]
    cases hl : lastProxy p (n + 1) calls with
    | some proxy => exact ⟨proxy, rfl⟩
    | none =>
      obtain ⟨call', hmem, hp⟩ := h
      rcases List.mem_cons.mp hmem with rfl | hmem
      · exact ⟨_, by rw [Option.none_or, if_pos hp]⟩
      · obtain ⟨proxy, hproxy⟩ := ih (n := n + 1) ⟨call', hmem, hp⟩
        rw [hl] at hproxy
        cases hproxy

theorem lastProxy_congr {n : Nat} (h : ∀ call ∈ calls, p call = p' call) :
    lastProxy p n calls = lastProxy p' n calls := by
  induction calls generalizing n with
  | nil => rfl
  | cons call calls ih =>
    rw [lastProxy, lastProxy, ih fun c hc => h c (List.mem_cons_of_mem call hc), h call List.mem_cons_self]

variable [DBusGlib]

theorem lookup_enter (m : ThumbnailManager) (calls : List RegisterCall) (key : String) :
    ((calls.foldl RegisterCall.enter m).handlers.lookup key).join =
      (lastProxy (fun call => call.key = key) m.proxies calls).or (m.handlers.lookup key).join := by
  induction calls generalizing m with
  | nil => rfl
  | cons call calls ih =>
    rw [List.foldl_cons, ih, lastProxy, Option.or_assoc]
    congr 1
    rw [RegisterCall.enter, thumbnailManagerAdd, KeyTable.lookup_insert_eq, dbusGProxyNewForName_eq]
    by_cases hk : key = call.key
    · simp [hk]
    · simp [hk, Ne.symm hk]

theorem getHandler_enter (calls : List RegisterCall) (uriScheme mimeType : String) :
    thumbnailManagerGetHandler (calls.foldl RegisterCall.enter thumbnailManagerInit) uriScheme mimeType =
      lastProxy (fun call => call.key = handlerKey uriScheme mimeType) 0 calls := by
  rw [thumbnailManagerGetHandler, lookup_enter]
  exact Option.or_none

/-- The key joins the two parts with a character that either may contain. -/
theorem enter_pairTable_iff (calls : List RegisterCall) :
    PairTable (calls.foldl RegisterCall.enter thumbnailManagerInit) calls ↔
      ∀ call ∈ calls, '-' ∉ call.uriScheme.toList ∧ '-' ∉ call.mimeType.toList := by
  constructor
  · intro h call hcall
    by_contra hdash
    rw [← not_or, not_not] at hdash
    have hsome := lastProxy_isSome (p := fun c => c.key = call.key) (n := 0) ⟨call, hcall, by simp⟩
    obtain ⟨proxy, hproxy⟩ := hsome
    have hkey (s t : String) (hst : handlerKey s t = call.key) :
        lastProxy (RegisterCall.names s t) 0 calls = some proxy := by
      rw [← h.handler s t, getHandler_enter, hst]
      exact hproxy
    -- one proxy for two pairs: the call it was made for would name both
    obtain ⟨s, t, hst, hne⟩ := exists_other_pair hdash
    obtain ⟨_, c, hc, hnames⟩ := lastProxy_eq_some (hkey s t hst)
    obtain ⟨_, c', hc', hnames'⟩ := lastProxy_eq_some (hkey _ _ rfl)
    obtain rfl := Option.some.inj (hc.symm.trans hc')
    simp only [RegisterCall.names, Bool.and_eq_true, decide_eq_true_eq] at hnames hnames'
    exact hne (hnames.1.symm.trans hnames'.1)
  · intro h
    refine ⟨fun s t => ?_, fun call hcall => supportedMime_handlerKey (h call hcall).1 _⟩
    rw [getHandler_enter]
    refine lastProxy_congr fun call hcall => ?_
    have hinj : handlerKey call.uriScheme call.mimeType = handlerKey s t ↔ call.uriScheme = s ∧ call.mimeType = t :=
      handlerKey_inj_of_plain (h call hcall).1 (h call hcall).2
    simp [RegisterCall.key, RegisterCall.names, hinj]

end Calls

section Runs
variable {calls : List RegisterCall}

theorem nodup_keys_iff (h : ∀ call ∈ calls, '-' ∉ call.uriScheme.toList ∧ '-' ∉ call.mimeType.toList) :
    (calls.map RegisterCall.key).Nodup ↔ (calls.map RegisterCall.pair).Nodup := by
  rw [List.Nodup, List.pairwise_map, List.Nodup, List.pairwise_map]
  have hkey {a b : RegisterCall} (ha : a ∈ calls) : a.key ≠ b.key ↔ a.pair ≠ b.pair := by
    refine not_congr ?_
    rw [RegisterCall.key, RegisterCall.key, handlerKey_inj_of_plain (h a ha).1 (h a ha).2, RegisterCall.pair,
      RegisterCall.pair, Prod.mk.injEq]
  constructor
  · exact fun hp => hp.imp_of_mem fun ha _ hne => (hkey ha).mp hne
  · exact fun hp => hp.imp_of_mem fun ha _ hne => (hkey ha).mpr hne

/-- After Register calls alone every proxy of the table has the handler and no
reference but the table's. -/
structure Registered (s : LockedManager) : Prop where
  unlocked : s.locked = false
  connected : ∀ key, ∀ proxy ∈ (s.manager.handlers.lookup key).join, proxy.id ∈ s.connected
  held : s.held = []

theorem Registered.loses_iff {s : LockedManager} (h : Registered s) (key : String) :
    s.LosesRegistered key ↔ ((s.manager.handlers.lookup key).join).isSome := by
  rw [Option.isSome_iff_exists]
  constructor
  · rintro ⟨proxy, hproxy, _⟩
    exact ⟨proxy, hproxy⟩
  · rintro ⟨proxy, hproxy⟩
    exact ⟨proxy, hproxy, h.connected key proxy hproxy, by simp [h.held]⟩

theorem registered_init : Registered LockedManager.init :=
  ⟨rfl, fun key proxy h => by simp [LockedManager.init, thumbnailManagerInit] at h, rfl⟩

variable [DBusGlib]

theorem register_eq {s : LockedManager} (hs : s.locked = false) (call : RegisterCall) :
    thumbnailManagerRegister s call =
      if s.LosesRegistered call.key then none
      else some
        { s with
          manager := call.enter s.manager
          connected := s.manager.proxies :: s.connected } := by
  rw [thumbnailManagerRegister, LockedManager.lock_eq hs, Option.bind_some, LockedManager.add_eq rfl]
  by_cases h : s.LosesRegistered call.key
  · rw [if_pos h]
    exact congrArg (Option.map _) (if_pos h)
  · rw [if_neg h]
    refine (congrArg (Option.map _) (if_neg h)).trans ?_
    simp [LockedManager.connect, LockedManager.unlock, hs, thumbnailManagerAdd, dbusGProxyNewForName_eq,
      RegisterCall.enter]

theorem Registered.next {s : LockedManager} (h : Registered s) (call : RegisterCall) :
    Registered { s with manager := call.enter s.manager, connected := s.manager.proxies :: s.connected } := by
  refine ⟨h.unlocked, fun key proxy hproxy => ?_, h.held⟩
  simp only [RegisterCall.enter, thumbnailManagerAdd, KeyTable.lookup_insert_eq, dbusGProxyNewForName_eq] at hproxy
  split at hproxy
  · obtain rfl := Option.some.inj hproxy
    exact List.mem_cons_self
  · exact List.mem_cons_of_mem _ (h.connected key proxy hproxy)

/-- The calls come to their end exactly when none of them takes a key that the
table has; then they have entered one proxy each. -/
theorem run_register {s : LockedManager} (h : Registered s) (calls : List RegisterCall) :
    (((calls.map RegisterCall.key).Nodup ∧ ∀ call ∈ calls, (s.manager.handlers.lookup call.key).join = none) →
      ∃ t, StepRun.run thumbnailManagerRegister s calls = some t) ∧
    ∀ t, StepRun.run thumbnailManagerRegister s calls = some t →
      t.manager = calls.foldl RegisterCall.enter s.manager ∧
        (calls.map RegisterCall.key).Nodup ∧
          ∀ call ∈ calls, (s.manager.handlers.lookup call.key).join = none := by
  induction calls generalizing s with
  | nil =>
    refine ⟨fun _ => ⟨s, rfl⟩, fun t ht => ?_⟩
    obtain rfl := Option.some.inj ht
    simp
  | cons call calls ih =>
    obtain ⟨hruns, hleft⟩ := ih (h.next call)
    have hlookup (key : String) : ((call.enter s.manager).handlers.lookup key).join = none ↔
        key ≠ call.key ∧ (s.manager.handlers.lookup key).join = none := by
      rw [RegisterCall.enter, thumbnailManagerAdd, KeyTable.lookup_insert_eq, dbusGProxyNewForName_eq]
      by_cases hk : key = call.key <;> simp [hk]
    have hrest : (∀ c ∈ calls, ((call.enter s.manager).handlers.lookup c.key).join = none) ↔
        call.key ∉ calls.map RegisterCall.key ∧ ∀ c ∈ calls, (s.manager.handlers.lookup c.key).join = none := by
      simp only [hlookup, List.mem_map, not_exists, not_and]
      exact forall₂_and
    rw [StepRun.run_cons, register_eq h.unlocked]
    simp only [h.loses_iff, List.map_cons, List.nodup_cons, List.forall_mem_cons]
    cases hs : (s.manager.handlers.lookup call.key).join with
    | some proxy => simp
    | none =>
      constructor
      · rintro ⟨⟨hnew, hnodup⟩, _, hfree⟩
        exact hruns ⟨hnodup, hrest.mpr ⟨hnew, hfree⟩⟩
      · intro t ht
        obtain ⟨hmanager, hnodup, hfree⟩ := hleft t ht
        exact ⟨hmanager, ⟨(hrest.mp hfree).1, hnodup⟩, rfl, (hrest.mp hfree).2⟩

/-- All the calls come to their end and leave the table of their pairs exactly
when each pair is registered once and no part of one contains a '-': the proxy
that a second call replaces takes the mutex again as it goes. -/
theorem register_pairTable_iff (calls : List RegisterCall) :
    (∃ s, StepRun.run thumbnailManagerRegister LockedManager.init calls = some s ∧ PairTable s.manager calls) ↔
      (∀ call ∈ calls, '-' ∉ call.uriScheme.toList ∧ '-' ∉ call.mimeType.toList) ∧
        (calls.map RegisterCall.pair).Nodup := by
  obtain ⟨hruns, hleft⟩ := run_register registered_init calls
  constructor
  · rintro ⟨s, hs, htable⟩
    obtain ⟨hmanager, hnodup, _⟩ := hleft s hs
    have hplain := (enter_pairTable_iff calls).mp (hmanager ▸ htable)
    exact ⟨hplain, (nodup_keys_iff hplain).mp hnodup⟩
  · rintro ⟨hplain, hnodup⟩
    have hfree : ∀ call ∈ calls, (LockedManager.init.manager.handlers.lookup call.key).join = none := by
      simp [LockedManager.init, thumbnailManagerInit]
    obtain ⟨s, hs⟩ := hruns ⟨(nodup_keys_iff hplain).mpr hnodup, hfree⟩
    exact ⟨s, hs, (hleft s hs).1 ▸ (enter_pairTable_iff calls).mpr hplain⟩

end Runs

theorem register_pairTable_two : ∃ s, StepRun.run thumbnailManagerRegister LockedManager.init
    [⟨"file", "image/png", ":1.7"⟩, ⟨"http", "image/png", ":1.8"⟩] = some s ∧
      PairTable s.manager [⟨"file", "image/png", ":1.7"⟩, ⟨"http", "image/png", ":1.8"⟩] :=
  (register_pairTable_iff _).mpr ⟨by decide, by decide⟩

theorem register_dashed_scheme : ¬ ∀ calls : List RegisterCall,
    ∃ s, StepRun.run thumbnailManagerRegister LockedManager.init calls = some s ∧ PairTable s.manager calls := by
  intro h
  obtain ⟨s, hs, htable⟩ := h [⟨"google-drive", "image/png", ":1.7"⟩]
  exact absurd (htable.decode _ List.mem_cons_self) (by decide)

end HildonThumbnail
