import HildonThumbnail.Thumbs.Steps

/-! What has been served when `hildon_thumbnail_factory_join` or
`hildon_thumbnail_factory_wait` returns. -/

namespace HildonThumbnail

namespace Client

/-- The reply of its Queue call or its idle callback is still to come. -/
def Outstanding (c : Client) (r : Nat) : Prop := c.isUnqueued r = false ∧ (r ∈ c.queueCalls ∨ r ∈ c.idles)

/-- Of what was requested before nothing is outstanding. -/
def WaitedFor (before after : Client) : Prop := ∀ r < before.created, ¬ after.Outstanding r

def Served (before after : Client) : Prop := ∀ r < before.created, after.isUnqueued r = false → after.called r = 1

theorem run_iterations {api : Api} {c d : Client} {iterations : List (List Event)}
    (h : StepRun.run (iteration api) c iterations = some d) :
    StepRun.run (step api) c (iterations.flatten.map .event) = some d := by
  have hone (events : List Event) (c : Client) :
      StepRun.run (step api) c (events.map .event) = iteration api c events := by
    induction events generalizing c with
    | nil => rfl
    | cons e events ih =>
      simp only [List.map_cons, StepRun.run_cons, ih, iteration]
      rfl
  induction iterations generalizing c with
  | nil => exact h
  | cons events iterations ih =>
    obtain ⟨u, hu, hr⟩ := Option.bind_eq_some_iff.mp h
    rw [List.flatten_cons, List.map_append, StepRun.run_append, hone, hu]
    exact ih hr

section Runs
variable {api : Api} {before c c' : Client}

theorem accounted_run {labels : List Label} (h : c.Accounted [])
    (hg : StepRun.Guarded (step api) (Keeps api) c labels)
    (hrun : StepRun.run (step api) c labels = some c') : c'.Accounted [] ∧ c.Later c' := by
  refine StepRun.guarded_invariant (P := fun x : Client => x.Accounted [] ∧ c.Later x) ?_ ⟨h, .refl c⟩ hg hrun
  rintro x label y ⟨hacc, hl⟩ hk hstep
  obtain ⟨hacc', hl'⟩ := accounted_step hacc hk hstep
  exact ⟨hacc', hl.trans hl'⟩

theorem WaitedFor.later (h : before.WaitedFor c) (hbefore : before.created ≤ c.created) (hl : c.Later c') :
    before.WaitedFor c' := by
  rintro r hr ⟨hu, hplace⟩
  have hlt := hr.trans_le hbefore
  exact h r hr ⟨hl.isUnqueued_eq_false hlt hu, hplace.imp (hl.queueCalls r hlt) (hl.idles r hlt)⟩

/-- With an empty table a request is called back or it is outstanding. -/
theorem served_of_waitedFor (h : c.Accounted []) (hbefore : before.created ≤ c.created) (hempty : c.tasks.keys = [])
    (hw : before.WaitedFor c) : before.Served c := by
  intro r hr hu
  have hcalls : c.queueCalls.count r = 0 := List.count_eq_zero_of_not_mem fun hq => hw r hr ⟨hu, .inl hq⟩
  have hidles : c.idles.count r = 0 := List.count_eq_zero_of_not_mem fun hi => hw r hr ⟨hu, .inr hi⟩
  have htokens := h.tokens_eq r hu
  rw [if_pos (hr.trans_le hbefore), tokens, hcalls, hidles, listed_of_keys hempty] at htokens
  simpa using htokens

theorem Accounted.outstanding_lt (h : c.Accounted []) {r : Nat} (hr : c.Outstanding r) : r < c.created := by
  have hexists : ∃ q, c.requests.lookup r = some q := by
    rcases hr.2 with hq | hi
    · exact exists_of_queueCalls h hq
    · exact exists_of_idles h hi
  obtain ⟨q, hq⟩ := hexists
  exact h.lt_of_lookup hq

theorem Accounted.called_of_outstanding (h : c.Accounted []) {r : Nat} (hr : c.Outstanding r) : c.called r = 0 := by
  have htokens := h.tokens_eq r hr.1
  rw [if_pos (h.outstanding_lt hr), tokens, List.count_nil] at htokens
  rcases hr.2 with hq | hi
  · have hpos := List.count_pos_iff.mpr hq
    omega
  · have hpos := List.count_pos_iff.mpr hi
    omega

end Runs

section Early
variable (api : Api) {c : Client}

theorem finishedKeeps (c : Client) (k : UInt32) : EventKeeps api c (.taskFinished k []) := by
  cases api <;> exact fun _ _ => trivial

theorem dispatch_taskFinished (h : c.Accounted []) {k : UInt32} {x : Nat} (hx : c.tasks.lookup k = some x) :
    ∃ d, c.dispatch api (.taskFinished k []) = some d ∧ d.Accounted [] ∧ d.tasks = c.tasks.erase k ∧
      ∀ r, c.Outstanding r → d.Outstanding r := by
  refine ⟨_, rfl, (accounted_dispatch h (finishedKeeps api c k) rfl).1, ?_⟩
  rcases onTaskFinished_cases api c k [] with ⟨hnone, _⟩ | ⟨y, _, ⟨_, heq⟩ | heq⟩
  · rw [hx] at hnone
    cases hnone
  · rw [heq]
    exact ⟨rfl, fun _ hr => hr⟩
  · rw [heq]
    refine ⟨rfl, fun r hr => ⟨?_, hr.2⟩⟩
    have hsame : (c.invoke y Request.errors).isUnqueued r = c.isUnqueued r := isUnqueued_change c y r _ fun _ => rfl
    exact hsame.trans hr.1

/-- The signals for all that is in the table. They answer nothing that is outstanding. -/
theorem drain (h : c.Accounted []) : ∃ events d, StepRun.run (dispatch api) c events = some d ∧
    StepRun.Guarded (step api) (Keeps api) c (events.map .event) ∧
    d.tasks.keys = [] ∧ d.Accounted [] ∧ ∀ r, c.Outstanding r → d.Outstanding r := by
  induction hn : c.tasks.keys.length generalizing c with
  | zero => exact ⟨[], c, rfl, trivial, List.length_eq_zero_iff.mp hn, h, fun _ hr => hr⟩
  | succ n ih =>
    obtain ⟨k, hk⟩ := List.exists_mem_of_length_pos (by omega : 0 < c.tasks.keys.length)
    obtain ⟨x, hx⟩ := Option.isSome_iff_exists.mp (AList.lookup_isSome.mpr (AList.mem_keys.mpr hk))
    obtain ⟨d, hd, hacc, htasks, houtstanding⟩ := dispatch_taskFinished api h hx
    have hlen : d.tasks.keys.length = n := by
      rw [htasks, AList.keys_erase, List.length_erase_of_mem hk]
      omega
    obtain ⟨events, e, hrun, hkept, hkeys, hacc', houtstanding'⟩ := ih hacc hlen
    refine ⟨.taskFinished k [] :: events, e, ?_, ⟨finishedKeeps api c k, ?_⟩, hkeys, hacc', fun r hr =>
      houtstanding' r (houtstanding r hr)⟩
    · rw [StepRun.run_cons, hd]
      exact hrun
    · intro t ht
      obtain rfl := Option.some.inj (hd.symm.trans ht)
      exact hkept

/-- With a request outstanding when the first loop is left, join may return
without it. -/
theorem join_without {api : Api} {c₁ : Client} {waited : List (List Event)} (h : c₁.Accounted [])
    (hwait : StepRun.loop (iteration api) waitingForCb c waited = some (c₁, [])) {r : Nat} (hr : c₁.Outstanding r) :
    ∃ drained c', c.join api (waited ++ drained) = some c' ∧
      StepRun.Guarded (step api) (Keeps api) c₁ (drained.flatten.map .event) ∧
        c'.isUnqueued r = false ∧ c'.called r = 0 := by
  obtain ⟨events, d, hrun, hkept, hkeys, hacc, houtstanding⟩ := drain api h
  have hd := houtstanding r hr
  by_cases hempty : c₁.tasks.keys = []
  · refine ⟨[], c₁, ?_, trivial, hr.1, h.called_of_outstanding hr⟩
    rw [join, StepRun.loop_append hwait]
    simp [StepRun.loop, hempty]
  · refine ⟨[events], d, ?_, ?_, hd.1, hacc.called_of_outstanding hd⟩
    · rw [join, StepRun.loop_append hwait]
      simp [StepRun.loop, hempty, iteration, hrun, hkeys]
    · simpa using hkept

end Early

end Client

open Client in
/-- Join has served all that was requested before, in whatever order the rest
comes, exactly if nothing of it was outstanding when the flag was found clear. -/
theorem factoryJoin_complete (api : Api) {labels : List Label} {c c₁ : Client} {waited : List (List Event)}
    (hrun : StepRun.run (step api) clientInit labels = some c)
    (hwait : StepRun.loop (iteration api) waitingForCb c waited = some (c₁, []))
    (hkeeps : StepRun.Guarded (step api) (Keeps api) clientInit (labels ++ waited.flatten.map .event)) :
    (∀ drained c', c.join api (waited ++ drained) = some c' →
      StepRun.Guarded (step api) (Keeps api) c₁ (drained.flatten.map .event) → c.Served c') ↔ c.WaitedFor c₁ := by
  obtain ⟨hkept, hkept₁⟩ := StepRun.guarded_append.mp hkeeps
  obtain ⟨-, used, hused, hrun₁⟩ := StepRun.loop_eq_some hwait
  rw [List.append_nil] at hused
  subst hused
  obtain ⟨hacc, -⟩ := accounted_run accounted_init hkept hrun
  obtain ⟨hacc₁, hlater₁⟩ := accounted_run hacc (hkept₁ c hrun) (run_iterations hrun₁)
  constructor
  · intro h r hr houtstanding
    obtain ⟨drained, c', hjoin, hkept', hu, hcalled⟩ := join_without hacc₁ hwait houtstanding
    have hserved := h drained c' hjoin hkept' r hr hu
    omega
  · intro hw drained c' hjoin hkept'
    rw [join, StepRun.loop_append hwait, Option.bind_some, List.nil_append] at hjoin
    obtain ⟨⟨c₂, left⟩, hdrain, hjoin⟩ := Option.bind_eq_some_iff.mp hjoin
    obtain ⟨hleft, hjoin⟩ := Option.ite_none_right_eq_some.mp hjoin
    obtain rfl := Option.some.inj hjoin
    obtain ⟨hempty, used₂, hused₂, hrun₂⟩ := StepRun.loop_eq_some hdrain
    have hleft : left = [] := hleft
    rw [hleft, List.append_nil] at hused₂
    subst hused₂
    obtain ⟨hacc₂, hlater₂⟩ := accounted_run hacc₁ hkept' (run_iterations hrun₂)
    have hbefore := hlater₁.created
    exact served_of_waitedFor hacc₂ (hbefore.trans hlater₂.created) (by simpa using hempty)
      (hw.later hbefore hlater₂)

def twoRequests : List Client.Label :=
  [.op (.request "file:///a.png" none false), .op (.request "file:///b.png" none false),
    .event (.gotHandle 0 1 none [])]

open Client in
theorem factoryJoin_early : ¬ ∀ (api : Api) (labels : List Label) (c c' : Client)
    (iterations : List (List Event)), StepRun.run (step api) clientInit labels = some c →
      c.join api iterations = some c' → ∀ r < c.created, c'.isUnqueued r = false → 0 < c'.called r := by
  intro h
  have hrun : ∃ c c', StepRun.run (step .request) clientInit twoRequests = some c ∧
      c.join .request [[.taskFinished 1 []]] = some c' ∧ 1 < c.created ∧ c'.isUnqueued 1 = false ∧
        c'.called 1 = 0 := ⟨_, _, rfl, rfl, by decide, rfl, rfl⟩
  obtain ⟨c, c', hc, hc', hlt, hu, hcalled⟩ := hrun
  have hpos := h .request twoRequests c c' _ hc hc' 1 hlt hu
  omega

/-- Both replies come before join is called, the first one while the second
request is outstanding. -/
def bothReplied : List Client.Label := twoRequests ++ [.event (.gotHandle 1 2 none [])]

open Client in
theorem bothReplied_keeps : StepRun.Guarded (step .request) (Keeps .request) clientInit bothReplied := by
  refine ⟨trivial, fun c hc => ⟨trivial, fun d hd => ⟨fun _ r hr => ?_, fun e he => ⟨fun _ r hr => ?_, ?_⟩⟩⟩⟩
  · obtain rfl := Option.some.inj hc
    obtain rfl := Option.some.inj hd
    exact nomatch hr
  · obtain rfl := Option.some.inj hc
    obtain rfl := Option.some.inj hd
    obtain rfl := Option.some.inj he
    exact nomatch hr
  · exact fun _ _ => trivial

open Client in
theorem factoryJoin_complete_sample : ∃ c c', StepRun.run (step .request) clientInit bothReplied = some c ∧
    c.join .request [[.taskFinished 2 []], [.taskFinished 1 []]] = some c' ∧ c.created = 2 ∧
      ∀ r < c.created, c'.isUnqueued r = false → c'.called r = 1 := by
  have hruns : ∃ c c', StepRun.run (step .request) clientInit bothReplied = some c ∧
      c.join .request [[.taskFinished 2 []], [.taskFinished 1 []]] = some c' ∧ c.created = 2 ∧
        StepRun.loop (iteration .request) waitingForCb c [] = some (c, []) ∧ c.queueCalls = [] ∧ c.idles = [] :=
    ⟨_, _, rfl, rfl, rfl, rfl, rfl, rfl⟩
  obtain ⟨c, c', hrun, hjoin, hcreated, hwait, hcalls, hidles⟩ := hruns
  have hkeeps : StepRun.Guarded (step .request) (Keeps .request) clientInit
      (bothReplied ++ ([] : List (List Event)).flatten.map .event) := by
    rw [List.flatten_nil, List.map_nil, List.append_nil]
    exact bothReplied_keeps
  have hnothing : c.WaitedFor c := by
    rintro r - ⟨-, hr⟩
    rw [hcalls, hidles] at hr
    exact absurd hr (by simp)
  refine ⟨c, c', hrun, hjoin, hcreated,
    (factoryJoin_complete .request hrun hwait hkeeps).mpr hnothing _ c' hjoin ?_⟩
  exact ⟨fun _ _ => trivial, fun _ _ => ⟨fun _ _ => trivial, fun _ _ => trivial⟩⟩

end HildonThumbnail
