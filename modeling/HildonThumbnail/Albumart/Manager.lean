import HildonThumbnail.Lib.Run
import HildonThumbnail.Lib.SortedList
import HildonThumbnail.Manager.Handlers
import Mathlib.Data.Int.Order.Basic

/-! The list of album art providers (daemon/albumart-manager.c) and the order in
which it hands them out. -/

namespace HildonThumbnail

structure AlbumartProvider where
  name : String
  prio : Int32
deriving DecidableEq

/-- An entry of the list, with the proxy that was made for it. -/
structure AlbumartValueInfo extends AlbumartProvider where
  proxy : DBusGProxy
  named : proxy.busName = name ∧ proxy.path = proxyPath name

structure AlbumartManager where
  handlers : List AlbumartValueInfo
  proxies : Nat

def albumartManagerInit : AlbumartManager := ⟨[], 0⟩

def albumartManagerGetHandlers (m : AlbumartManager) : List DBusGProxy :=
  m.handlers.foldl (fun retval info => info.proxy :: retval) []

def comparFunc (a b : AlbumartValueInfo) : Bool := a.name == b.name

/-- A difference of ints, which wraps. -/
def sortFunc (a b : AlbumartValueInfo) : Int32 := a.prio - b.prio

def gListInsertSorted {α : Type*} (l : List α) (data : α) (func : α → α → Int32) : List α :=
  List.insertWhere (fun b => !decide (0 < func data b)) data l

def AlbumartManager.info (m : AlbumartManager) (provider : AlbumartProvider) : AlbumartValueInfo where
  toAlbumartProvider := provider
  proxy := ⟨provider.name, proxyPath provider.name, m.proxies⟩
  named := ⟨rfl, rfl⟩

def albumartManagerAdd (m : AlbumartManager) (provider : AlbumartProvider) : AlbumartManager :=
  let info := m.info provider
  -- the list has one entry of a name at most, so the first one is all there is to remove
  let handlers := m.handlers.eraseP (comparFunc info)
  { handlers := gListInsertSorted handlers info sortFunc, proxies := m.proxies + 1 }

def albumartManagerRun (calls : List AlbumartProvider) : AlbumartManager :=
  calls.foldl albumartManagerAdd albumartManagerInit

def latestPrio (calls : List AlbumartProvider) (name : String) : Option Int32 :=
  (calls.reverse.find? fun provider => provider.name = name).map AlbumartProvider.prio

structure KeepsLatest (calls : List AlbumartProvider) (m : AlbumartManager) : Prop where
  once : (m.handlers.map fun info => info.name).Nodup
  latest : ∀ name prio,
    (∃ info ∈ m.handlers, info.name = name ∧ info.prio = prio) ↔ latestPrio calls name = some prio

/-- The first proxy has a priority at least as great as any provider's. -/
structure HandedInOrder (calls : List AlbumartProvider) (m : AlbumartManager) : Prop where
  keeps : KeepsLatest calls m
  nonincreasing : (albumartManagerGetHandlers m).Pairwise fun p q =>
    ∀ a ∈ latestPrio calls p.busName, ∀ b ∈ latestPrio calls q.busName, b ≤ a
  greatest : ∀ p ∈ (albumartManagerGetHandlers m).head?, ∀ a ∈ latestPrio calls p.busName,
    ∀ name, ∀ b ∈ latestPrio calls name, b ≤ a

def OtherPrio (calls : List AlbumartProvider) (provider : AlbumartProvider) (q : Int32) : Prop :=
  ∃ name, name ≠ provider.name ∧ latestPrio calls name = some q

/-- The differences that decide where the provider goes stay in the range of an
int: to every lower priority, and to one that is not lower if some is higher. -/
structure PrioFits (calls : List AlbumartProvider) (provider : AlbumartProvider) : Prop where
  lower : ∀ q, OtherPrio calls provider q → q < provider.prio →
    provider.prio.toInt - q.toInt < 2 ^ 31
  higher : (∃ q, OtherPrio calls provider q ∧ provider.prio < q) →
    ∃ q, OtherPrio calls provider q ∧ provider.prio ≤ q ∧ q.toInt - provider.prio.toInt ≤ 2 ^ 31

theorem latestPrio_snoc (calls : List AlbumartProvider) (provider : AlbumartProvider) (name : String) :
    latestPrio (calls ++ [provider]) name =
      if provider.name = name then some provider.prio else latestPrio calls name := by
  by_cases h : provider.name = name <;> simp [latestPrio, h]

theorem albumartManagerRun_snoc (calls : List AlbumartProvider) (provider : AlbumartProvider) :
    albumartManagerRun (calls ++ [provider]) = albumartManagerAdd (albumartManagerRun calls) provider := by
  simp [albumartManagerRun]

theorem getHandlers_eq (m : AlbumartManager) :
    albumartManagerGetHandlers m = (m.handlers.map AlbumartValueInfo.proxy).reverse := by
  have hfold (l : List AlbumartValueInfo) (acc : List DBusGProxy) :
      l.foldl (fun retval info => info.proxy :: retval) acc = (l.map AlbumartValueInfo.proxy).reverse ++ acc := by
    induction l generalizing acc with
    | nil => rfl
    | cons info l ih => simp [ih]
  rw [albumartManagerGetHandlers, hfold, List.append_nil]

theorem eraseP_comparFunc {m : AlbumartManager} {calls : List AlbumartProvider} (h : KeepsLatest calls m)
    (info : AlbumartValueInfo) :
    m.handlers.eraseP (comparFunc info) = m.handlers.filter fun b => info.name ≠ b.name :=
  List.eraseP_eq_filter_of_nodup_map h.once info.name

theorem otherPrio_iff {m : AlbumartManager} {calls : List AlbumartProvider} (h : KeepsLatest calls m)
    (info : AlbumartValueInfo) (q : Int32) :
    OtherPrio calls info.toAlbumartProvider q ↔
      ∃ b ∈ m.handlers.eraseP (comparFunc info), b.prio = q := by
  rw [eraseP_comparFunc h]
  constructor
  · rintro ⟨name, hname, hq⟩
    obtain ⟨b, hb, rfl, rfl⟩ := (h.latest name q).mpr hq
    exact ⟨b, List.mem_filter.mpr ⟨hb, by simpa using hname.symm⟩, rfl⟩
  · rintro ⟨b, hb, rfl⟩
    obtain ⟨hb, hname⟩ := List.mem_filter.mp hb
    have hne : info.name ≠ b.name := of_decide_eq_true hname
    exact ⟨b.name, hne.symm, (h.latest b.name b.prio).mp ⟨b, hb, rfl, rfl⟩⟩

theorem keepsLatest_add {m : AlbumartManager} {calls : List AlbumartProvider} (h : KeepsLatest calls m)
    (provider : AlbumartProvider) :
    KeepsLatest (calls ++ [provider]) (albumartManagerAdd m provider) := by
  let info := m.info provider
  have hperm : (albumartManagerAdd m provider).handlers.Perm
      (info :: m.handlers.filter fun b => info.name ≠ b.name) := by
    rw [← eraseP_comparFunc h]
    exact List.perm_insertWhere _ info _
  constructor
  · rw [(hperm.map _).nodup_iff, List.map_cons, List.nodup_cons]
    refine ⟨?_, h.once.sublist (List.filter_sublist.map _)⟩
    intro hmem
    obtain ⟨b, hb, heq⟩ := List.mem_map.mp hmem
    exact of_decide_eq_true (List.mem_filter.mp hb).2 heq.symm
  · intro name prio
    rw [latestPrio_snoc]
    simp only [hperm.mem_iff, List.mem_cons, List.mem_filter]
    split
    · next hname =>
      constructor
      · rintro ⟨b, rfl | ⟨_, hne⟩, hb, rfl⟩
        · rfl
        · exact absurd (hname.trans hb.symm) (of_decide_eq_true hne)
      · intro hprio
        exact ⟨info, .inl rfl, hname, Option.some.inj hprio⟩
    · next hname =>
      rw [← h.latest name prio]
      constructor
      · rintro ⟨b, rfl | ⟨hb, _⟩, hn, hp⟩
        · exact absurd hn hname
        · exact ⟨b, hb, hn, hp⟩
      · rintro ⟨b, hb, rfl, hp⟩
        exact ⟨b, .inr ⟨hb, decide_eq_true hname⟩, rfl, hp⟩

theorem keepsLatest_run (calls : List AlbumartProvider) : KeepsLatest calls (albumartManagerRun calls) := by
  induction calls using List.reverseRecOn with
  | nil => exact ⟨List.nodup_nil, by simp [albumartManagerRun, albumartManagerInit, latestPrio]⟩
  | append_singleton calls provider ih =>
    rw [albumartManagerRun_snoc]
    exact keepsLatest_add ih provider

theorem handedInOrder_iff_pairwise {m : AlbumartManager} {calls : List AlbumartProvider}
    (h : KeepsLatest calls m) :
    HandedInOrder calls m ↔ m.handlers.Pairwise fun a b => a.prio.toInt ≤ b.prio.toInt := by
  have hprio {info : AlbumartValueInfo} (hinfo : info ∈ m.handlers) :
      latestPrio calls info.proxy.busName = some info.prio := by
    rw [info.named.1]
    exact (h.latest info.name info.prio).mp ⟨info, hinfo, rfl, rfl⟩
  have horder : ((albumartManagerGetHandlers m).Pairwise fun p q =>
      ∀ a ∈ latestPrio calls p.busName, ∀ b ∈ latestPrio calls q.busName, b ≤ a) ↔
      m.handlers.Pairwise fun a b => a.prio.toInt ≤ b.prio.toInt := by
    rw [getHandlers_eq, List.pairwise_reverse, List.pairwise_map]
    refine List.Pairwise.iff_of_mem fun {a b} ha hb => ?_
    simp [hprio ha, hprio hb, Int32.le_iff_toInt_le]
  refine ⟨fun hin => horder.mp hin.nonincreasing, fun hpair => ⟨h, horder.mpr hpair, ?_⟩⟩
  intro p hp a ha name b hb
  obtain ⟨info, hinfo, rfl, rfl⟩ := (h.latest name b).mpr hb
  have hmem : info.proxy ∈ albumartManagerGetHandlers m := by
    rw [getHandlers_eq]
    exact List.mem_reverse.mpr (List.mem_map_of_mem hinfo)
  have hnon := horder.mpr hpair
  cases hget : albumartManagerGetHandlers m with
  | nil => simp [hget] at hmem
  | cons r rest =>
    rw [hget] at hp hmem hnon
    obtain rfl := Option.some.inj hp
    rcases List.mem_cons.mp hmem with heq | hrest
    · rw [← heq, hprio hinfo] at ha
      exact Option.some.inj ha ▸ Int32.le_refl _
    · exact (List.pairwise_cons.mp hnon).1 _ hrest a ha _ (hprio hinfo)

theorem sortFunc_not_pos_iff (a b : Int32) :
    ¬ 0 < a - b ↔ a.toInt ≤ b.toInt ∧ b.toInt - a.toInt ≤ 2 ^ 31 ∨ 2 ^ 31 ≤ a.toInt - b.toInt := by
  have ha := a.toInt_lt
  have ha' := a.le_toInt
  have hb := b.toInt_lt
  have hb' := b.le_toInt
  rw [Int32.lt_iff_toInt_lt, Int32.toInt_sub]
  simp only [Int.bmod, Int32.toInt_zero]
  omega

theorem pairwise_gListInsertSorted_iff (info : AlbumartValueInfo) {l : List AlbumartValueInfo}
    (hl : l.Pairwise fun a b => a.prio.toInt ≤ b.prio.toInt) :
    (gListInsertSorted l info sortFunc).Pairwise (fun a b => a.prio.toInt ≤ b.prio.toInt) ↔
      (∀ b ∈ l, b.prio < info.prio → info.prio.toInt - b.prio.toInt < 2 ^ 31) ∧
        ((∃ b ∈ l, info.prio < b.prio) →
          ∃ b ∈ l, info.prio ≤ b.prio ∧ b.prio.toInt - info.prio.toInt ≤ 2 ^ 31) := by
  let stops (p : Int) : Bool :=
    decide (info.prio.toInt ≤ p ∧ p - info.prio.toInt ≤ 2 ^ 31 ∨ 2 ^ 31 ≤ info.prio.toInt - p)
  have hstops (b : AlbumartValueInfo) : (!decide (0 < sortFunc info b)) = stops b.prio.toInt := by
    rw [← decide_not]
    exact decide_eq_decide.mpr (sortFunc_not_pos_iff info.prio b.prio)
  simp only [gListInsertSorted, hstops]
  simp only [Int32.lt_iff_toInt_lt, Int32.le_iff_toInt_le]
  rw [List.pairwise_insertWhere_iff (f := fun b : AlbumartValueInfo => b.prio.toInt) hl]
  simp only [stops, decide_eq_true_eq, decide_eq_false_iff_not]
  constructor
  · rintro ⟨hlower, hhigher⟩
    refine ⟨fun b hb hlt => ?_, fun ⟨b, hb, hlt⟩ => ?_⟩
    · have hpass := hlower b hb hlt
      omega
    · obtain ⟨c, hc, hle, _, hstop⟩ := hhigher b hb hlt
      exact ⟨c, hc, hle, by omega⟩
  · rintro ⟨hlower, hhigher⟩
    refine ⟨fun b hb hlt => ?_, fun b hb hlt => ?_⟩
    · have hnear := hlower b hb hlt
      omega
    · obtain ⟨c, hc, hle, hnear⟩ := hhigher ⟨b, hb, hlt⟩
      -- the nearer one of the two stops the search
      rcases le_total c.prio.toInt b.prio.toInt with hcb | hbc
      · exact ⟨c, hc, hle, hcb, .inl ⟨hle, hnear⟩⟩
      · exact ⟨b, hb, hlt.le, le_rfl, by omega⟩

theorem handedInOrder_add_iff {calls : List AlbumartProvider} (provider : AlbumartProvider)
    (h : HandedInOrder calls (albumartManagerRun calls)) :
    HandedInOrder (calls ++ [provider]) (albumartManagerRun (calls ++ [provider])) ↔
      PrioFits calls provider := by
  have hkeeps := keepsLatest_run calls
  have hsorted := (handedInOrder_iff_pairwise hkeeps).mp h
  let info := (albumartManagerRun calls).info provider
  have hother := otherPrio_iff hkeeps info
  rw [handedInOrder_iff_pairwise (keepsLatest_run _), albumartManagerRun_snoc]
  refine (pairwise_gListInsertSorted_iff info (hsorted.eraseP _)).trans ?_
  constructor
  · rintro ⟨hlower, hhigher⟩
    constructor
    · intro q hq hlt
      obtain ⟨b, hb, rfl⟩ := (hother q).mp hq
      exact hlower b hb hlt
    · rintro ⟨q, hq, hlt⟩
      obtain ⟨b, hb, rfl⟩ := (hother q).mp hq
      obtain ⟨c, hc, hnear⟩ := hhigher ⟨b, hb, hlt⟩
      exact ⟨c.prio, (hother c.prio).mpr ⟨c, hc, rfl⟩, hnear⟩
  · rintro ⟨hlower, hhigher⟩
    refine ⟨fun b hb hlt => hlower b.prio ((hother b.prio).mpr ⟨b, hb, rfl⟩) hlt, ?_⟩
    rintro ⟨b, hb, hlt⟩
    obtain ⟨q, hq, hnear⟩ := hhigher ⟨b.prio, (hother b.prio).mpr ⟨b, hb, rfl⟩, hlt⟩
    obtain ⟨c, hc, rfl⟩ := (hother q).mp hq
    exact ⟨c, hc, hnear⟩

/-- The providers are handed out in order all along the calls exactly when
every call fits. -/
theorem getHandlers_inOrder_iff (calls : List AlbumartProvider) :
    (∀ pre, pre <+: calls → HandedInOrder pre (albumartManagerRun pre)) ↔
      ∀ pre provider, pre ++ [provider] <+: calls → PrioFits pre provider := by
  apply List.forall_prefix_iff
  · exact (handedInOrder_iff_pairwise (keepsLatest_run [])).mpr List.Pairwise.nil
  · intro pre provider h
    exact handedInOrder_add_iff provider h

theorem getHandlers_not_inOrder :
    ¬ ∀ calls : List AlbumartProvider, HandedInOrder calls (albumartManagerRun calls) := by
  intro h
  have hin := h [⟨"a", -1⟩, ⟨"b", 2147483647⟩]
  have hsorted := (handedInOrder_iff_pairwise hin.keeps).mp hin
  exact absurd hsorted (by decide)

end HildonThumbnail
