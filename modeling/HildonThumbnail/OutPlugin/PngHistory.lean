import HildonThumbnail.OutPlugin.PngStamps
import Mathlib.Data.List.Induction

/-! What the PNG plugin's `needs_out` answers after any calls of `put_error` and
`out`: it goes by the last failure as soon as there has been one. -/

namespace HildonThumbnail.Png

variable {env : CacheEnv}

theorem run_concat (calls : List Call) (c : Call) :
    run env (calls ++ [c]) = Call.apply env (run env calls) c := by
  simp [run]

section History
variable (hmd5 : Function.Injective env.md5) (calls : List Call)
  (t : HildonThumbnailPluginOutType) (u : String)
include hmd5

theorem stamp_marker_run : stamp (run env calls) (marker env u) = lastError calls u := by
  induction calls using List.reverseRecOn with
  | nil => rfl
  | append_singleton calls c ih =>
    rw [run_concat, lastError, List.reverse_append, List.reverse_singleton, List.singleton_append,
      List.findSome?_cons, ← lastError]
    cases c with
    | putError now mtime uri message =>
      simp only [Call.apply, stamp_putError, marker_inj hmd5, ih]
      by_cases hu : uri = u
      · simp [hu]
      · simp [hu, Ne.symm hu]
    | out now type mtime uri =>
      rw [Call.apply, stamp_out _ _ _ _ _ _ tempPath_ne_marker.symm, if_neg marker_ne_thumb, ih]

theorem stamp_thumb_run : stamp (run env calls) (thumb env t u) = lastOut calls t u := by
  induction calls using List.reverseRecOn with
  | nil => rfl
  | append_singleton calls c ih =>
    rw [run_concat, lastOut, List.reverse_append, List.reverse_singleton, List.singleton_append,
      List.findSome?_cons, ← lastOut]
    cases c with
    | putError now mtime uri message =>
      rw [Call.apply, stamp_putError, if_neg marker_ne_thumb.symm, ih]
    | out now type mtime uri =>
      rw [Call.apply, stamp_out _ _ _ _ _ _ tempPath_ne_thumb.symm, ih]
      simp only [thumb_inj hmd5]
      by_cases hu : type = t ∧ uri = u
      · simp [hu]
      · have hu' : ¬ (t = type ∧ u = uri) := fun h => hu ⟨h.1.symm, h.2.symm⟩
        simp [hu, hu']

/-- The last failure decides, and the last output only if there was none. -/
theorem needsOut_run (m : UInt64) : needsOut env (run env calls) t m u =
    match lastError calls u, lastOut calls t u with
    | some e, _ => if sameTime e m then ⟨false, true⟩ else ⟨true, false⟩
    | none, some a => if sameTime a m then ⟨false, false⟩ else ⟨true, false⟩
    | none, none => ⟨true, false⟩ := by
  rw [← stamp_marker_run hmd5, ← stamp_thumb_run hmd5]
  unfold needsOut gFileQueryExists stamp
  dsimp only
  rw [file_eq, failFile_thumb]
  cases hm : (run env calls).lookup (marker env u) with
  | some f => simp [hm]
  | none => cases ht : (run env calls).lookup (thumb env t u) <;> simp [ht]

end History

theorem lastOutcome_cases (calls : List Call) (t : HildonThumbnailPluginOutType) (u : String) :
    match lastOutcome calls t u with
    | some (.failure e) => lastError calls u = some e
    | some (.success a) => lastOut calls t u = some a
    | none => lastError calls u = none ∧ lastOut calls t u = none := by
  rw [lastOutcome, lastError, lastOut]
  induction calls.reverse with
  | nil => exact ⟨rfl, rfl⟩
  | cons c earlier ih =>
    cases c with
    | putError now mtime uri message =>
      by_cases hu : uri = u
      · simp [hu]
      · simpa [hu] using ih
    | out now type mtime uri =>
      by_cases hu : type = t ∧ uri = u
      · simp [hu]
      · simpa [hu] using ih

def Spaced (calls : List Call) (m : UInt64) : Prop :=
  ∀ a ∈ m :: calls.map Call.mtime, ∀ b ∈ m :: calls.map Call.mtime, Apart a b

/-- `needs_out` reflects the latest outcome, and the calls for other URIs do not
change its answer. -/
def Reflects (env : CacheEnv) (calls : List Call) (t : HildonThumbnailPluginOutType) (m : UInt64)
    (u : String) : Prop :=
  (∀ a, lastOutcome calls t u = some (.success a) →
    if a = m then needsOut env (run env calls) t m u = ⟨false, false⟩
    else (needsOut env (run env calls) t m u).retval = true) ∧
  (∀ e, lastOutcome calls t u = some (.failure e) →
    if e = m then needsOut env (run env calls) t m u = ⟨false, true⟩
    else (needsOut env (run env calls) t m u).retval = true) ∧
  needsOut env (run env calls) t m u =
    needsOut env (run env (calls.filter fun c => c.uri = u)) t m u

theorem lastError_mem {calls : List Call} {u : String} {e : UInt64} (h : lastError calls u = some e) :
    e ∈ calls.map Call.mtime := by
  obtain ⟨c, hc, he⟩ := List.exists_of_findSome?_eq_some h
  refine List.mem_map.mpr ⟨c, List.mem_reverse.mp hc, ?_⟩
  cases c with
  | putError now mtime uri message => simpa [Call.mtime] using (Option.ite_none_right_eq_some.mp he).2
  | out now type mtime uri => simp at he

theorem lastOut_mem {calls : List Call} {t : HildonThumbnailPluginOutType} {u : String} {a : UInt64}
    (h : lastOut calls t u = some a) : a ∈ calls.map Call.mtime := by
  obtain ⟨c, hc, he⟩ := List.exists_of_findSome?_eq_some h
  refine List.mem_map.mpr ⟨c, List.mem_reverse.mp hc, ?_⟩
  cases c with
  | putError now mtime uri message => simp at he
  | out now type mtime uri => simpa [Call.mtime] using (Option.ite_none_right_eq_some.mp he).2

theorem findSome?_filter {α β : Type} {p : α → Bool} {f : α → Option β} (h : ∀ c, p c = false → f c = none)
    (l : List α) : (l.filter p).findSome? f = l.findSome? f := by
  induction l with
  | nil => rfl
  | cons c l ih =>
    cases hc : p c with
    | false => rw [List.filter_cons_of_neg (by simp [hc]), List.findSome?_cons, h c hc, ih]
    | true => rw [List.filter_cons_of_pos hc, List.findSome?_cons, List.findSome?_cons, ih]

theorem lastError_filter (calls : List Call) (u : String) :
    lastError (calls.filter fun c => c.uri = u) u = lastError calls u := by
  rw [lastError]
  rw [← List.filter_reverse]
  apply findSome?_filter
  rintro (_ | _) hc
  · exact if_neg (of_decide_eq_false hc)
  · rfl

theorem lastOut_filter (calls : List Call) (t : HildonThumbnailPluginOutType) (u : String) :
    lastOut (calls.filter fun c => c.uri = u) t u = lastOut calls t u := by
  rw [lastOut]
  rw [← List.filter_reverse]
  apply findSome?_filter
  rintro (_ | _) hc
  · rfl
  · exact if_neg fun h => of_decide_eq_false hc h.2

/-- The answer is right exactly when the time on the file that is consulted is
not aliased with the one asked for, and no output recorded after a failure is
asked for the time of either. -/
theorem needsOut_reflects_iff (env : CacheEnv) (hmd5 : Function.Injective env.md5) (calls : List Call)
    (t : HildonThumbnailPluginOutType) (m : UInt64) (u : String) (hspaced : Spaced calls m) :
    Reflects env calls t m u ↔
      (∀ a, (lastError calls u).or (lastOut calls t u) = some a → ¬ Aliased a m) ∧
      ∀ a e, lastOutcome calls t u = some (.success a) → lastError calls u = some e → m ≠ a ∧ m ≠ e := by
  have hfilter : needsOut env (run env calls) t m u =
      needsOut env (run env (calls.filter fun c => c.uri = u)) t m u := by
    rw [needsOut_run hmd5, needsOut_run hmd5, lastError_filter, lastOut_filter]
  have hsame : ∀ a ∈ calls.map Call.mtime, (sameTime a m = true ↔ a = m ∨ Aliased a m) :=
    fun a ha => sameTime_iff (hspaced a (List.mem_cons_of_mem _ ha) m List.mem_cons_self)
  have haliased : ∀ a : UInt64, ¬ Aliased a a := by
    intro a h
    rw [Aliased] at h
    omega
  have hcases := lastOutcome_cases calls t u
  rw [Reflects, ← hfilter, needsOut_run hmd5]
  rcases ho : lastOutcome calls t u with _ | (e | a) <;> rw [ho] at hcases <;> dsimp only at hcases
  · simp [hcases.1, hcases.2]
  · have hst := hsame e (lastError_mem hcases)
    rw [hcases]
    by_cases hem : e = m
    · have htrue : sameTime e m = true := hst.mpr (.inl hem)
      simp [hem, haliased, hem ▸ htrue]
    · cases hs : sameTime e m <;> simp_all
  · cases he : lastError calls u with
    | none =>
      have hst := hsame a (lastOut_mem hcases)
      rw [hcases]
      by_cases ham : a = m
      · have htrue : sameTime a m = true := hst.mpr (.inl ham)
        simp [ham, haliased, ham ▸ htrue]
      · cases hs : sameTime a m <;> simp_all
    | some e =>
      have hst := hsame e (lastError_mem he)
      have hret : (if sameTime e m then (⟨false, true⟩ : NeedsOut) else ⟨true, false⟩).retval = true ↔
          ¬ e = m ∧ ¬ Aliased e m := by
        rw [← not_or, ← hst]
        cases sameTime e m <;> simp
      have hset : (if sameTime e m then (⟨false, true⟩ : NeedsOut) else ⟨true, false⟩) ≠ ⟨false, false⟩ := by
        cases sameTime e m <;> simp
      by_cases ham : a = m
      · simp [ham, hset]
      · have hma : ¬ m = a := Ne.symm ham
        have hme : m = e ↔ e = m := eq_comm
        simp [ham, hma, hme, hret, and_comm]

def sampleMd5 (uri : String) : String :=
  if uri = "file:///a.png" then "66b461f829fc9aebb15aeedbd504581e" else "x" ++ uri

theorem sampleMd5_injective : Function.Injective sampleMd5 := by
  have hx (v : String) : "66b461f829fc9aebb15aeedbd504581e" ≠ "x" ++ v := by
    intro h
    have hh := congrArg (fun s => s.toList.head?) h
    simp at hh
  intro u v h
  unfold sampleMd5 at h
  split at h <;> split at h
  · next hu hv => rw [hu, hv]
  · exact absurd h (hx v)
  · exact absurd h.symm (hx u)
  · have hh := congrArg String.toList h
    simp only [String.toList_append] at hh
    exact String.toList_injective (List.append_cancel_left hh)

def sampleEnv : CacheEnv := ⟨["home", "user"], sampleMd5⟩

/-- A file that failed once is changed and then written. -/
theorem needsOut_not_reflects : ¬ ∀ (env : CacheEnv), Function.Injective env.md5 →
    ∀ (calls : List Call) (t : HildonThumbnailPluginOutType) (m : UInt64) (u : String),
      Spaced calls m → Reflects env calls t m u := by
  intro h
  have hspaced : Spaced [.putError 0 100 "file:///a.png" none, .out 0 .large 200 "file:///a.png"] 200 := by
    simp [Spaced, Apart, Call.mtime]
  have hr := (h sampleEnv sampleMd5_injective _ .large 200 "file:///a.png" hspaced).1 200 (by decide)
  exact absurd hr (by decide)

theorem needsOut_reflects_sample : Reflects sampleEnv
    [.out 0 .large 100 "file:///a.png", .putError 0 200 "file:///a.png" none] .normal 200 "file:///a.png" := by
  refine (needsOut_reflects_iff sampleEnv sampleMd5_injective _ .normal 200 "file:///a.png" ?_).mpr ⟨?_, ?_⟩
  · simp [Spaced, Apart, Call.mtime]
  · intro a ha
    obtain rfl := Option.some.inj ha
    decide
  · intro a e ha
    exact absurd ha (by simp [lastOutcome])

end HildonThumbnail.Png
