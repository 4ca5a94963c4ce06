import HildonThumbnail.OutPlugin.Jpeg

/-! The output plugins that are loaded, asked and written through one after
another (daemon/hildon-thumbnail-plugin.c). -/

namespace HildonThumbnail

structure OutPlugin where
  format : OutFormat
  isActive : Bool

section
variable (env : CacheEnv) (now : UInt64) (type : HildonThumbnailPluginOutType) (mtime : UInt64) (uri : String)

/-- The first active plugin in need ends the loop; `err_file` is never cleared. -/
def outpluginsNeedsOut (files : Files) : List OutPlugin → Bool → Png.NeedsOut
  | [], errFile => ⟨false, errFile⟩
  | p :: plugins, errFile =>
    if p.isActive then
      let r := p.format.needsOut env files now type mtime uri
      if r.retval then ⟨true, errFile || r.errFile⟩ else outpluginsNeedsOut files plugins (errFile || r.errFile)
    else outpluginsNeedsOut files plugins errFile

def outpluginsPutError (message : Option String) (plugins : List OutPlugin) (files : Files) : Files :=
  plugins.foldl (fun files p =>
    if p.isActive then p.format.putError env files now mtime uri message else files) files

/-- `saved` are the outcomes of the plugins by their place in the list. -/
def outpluginsDoOut : List OutPlugin → (Nat → Except String Unit) → Files → Option String → Files × Option String
  | [], _, files, errors => (files, errors)
  | p :: plugins, saved, files, errors =>
    let more := fun k => saved (k + 1)
    if p.isActive then
      let files := p.format.out env files now type mtime uri (saved 0)
      match saved 0 with
      | .ok _ => outpluginsDoOut plugins more files errors
      | .error message => outpluginsDoOut plugins more files (some (errors.getD "" ++ message))
    else outpluginsDoOut plugins more files errors

end

namespace OutFormat

/-- A time of a file that the plugin takes for the time of the original. -/
def trusts (f : OutFormat) (now a m : UInt64) : Bool :=
  match f with
  | .png => sameTime a m
  | .jpeg => sameTime a m && decide (a + 5 < now)

theorem sameTime_of_trusts {f : OutFormat} {now a m : UInt64} (h : f.trusts now a m = true) :
    sameTime a m = true := by
  cases f with
  | png => exact h
  | jpeg => exact ((Bool.and_eq_true _ _).mp h).1

/-- The answer from the times of the marker and of the thumbnail alone. -/
def answer (f : OutFormat) (now m : UInt64) : Option UInt64 → Option UInt64 → Png.NeedsOut
  | some a, _ => if f.trusts now a m then ⟨false, true⟩ else ⟨true, false⟩
  | none, some a => if f.trusts now a m then ⟨false, false⟩ else ⟨true, false⟩
  | none, none => ⟨true, false⟩

theorem needsOut_eq_answer (env : CacheEnv) (f : OutFormat) (files : Files) (now : UInt64)
    (t : HildonThumbnailPluginOutType) (m : UInt64) (u : String) :
    f.needsOut env files now t m u =
      f.answer now m (Png.stamp files (f.marker env u)) (Png.stamp files (f.thumb env t u)) := by
  have hfile : (hildonThumbnailUtilGetThumbPaths env u f.asPng).file t = f.thumb env t u := file_eq
  have hmarker := Option.eq_none_or_eq_some (files.lookup (f.marker env u))
  have hthumb := Option.eq_none_or_eq_some (files.lookup (f.thumb env t u))
  cases f with
  | png =>
    simp only [needsOut, Png.needsOut, asPng, gFileQueryExists] at hfile ⊢
    rw [hfile, failFile_thumb]
    rcases hmarker with hm | ⟨a, hm⟩
    · rcases hthumb with ht | ⟨b, ht⟩
      · simp [answer, Png.stamp, hm, ht]
      · simp [answer, Png.stamp, trusts, hm, ht]
        rfl
    · simp [answer, Png.stamp, trusts, hm]
      rfl
  | jpeg =>
    simp only [needsOut, Jpeg.needsOut, asPng, gFileQueryExists] at hfile ⊢
    rw [hfile, failFile_thumb]
    rcases hmarker with hm | ⟨a, hm⟩
    · rcases hthumb with ht | ⟨b, ht⟩ <;> simp [answer, Png.stamp, trusts, hm, ht]
    · simp [answer, Png.stamp, trusts, hm]

theorem thumb_of_answer {f : OutFormat} {now m : UInt64} {marker thumb : Option UInt64}
    (h : f.answer now m marker thumb = ⟨false, false⟩) : ∃ a, thumb = some a ∧ sameTime a m = true := by
  rw [answer.eq_def] at h
  split at h
  · split at h <;> cases h
  · next a =>
    split at h
    · next ht => exact ⟨a, rfl, sameTime_of_trusts ht⟩
    · cases h
  · cases h

end OutFormat

section Asked
variable {env : CacheEnv} {now : UInt64} {t : HildonThumbnailPluginOutType} {m : UInt64} {u : String}
  {files files' : Files} {plugins : List OutPlugin} {errFile : Bool}

def SameStamps (env : CacheEnv) (u : String) (files files' : Files) : Prop :=
  ∀ f : OutFormat, Png.stamp files' (f.marker env u) = Png.stamp files (f.marker env u) ∧
    ∀ t, Png.stamp files' (f.thumb env t u) = Png.stamp files (f.thumb env t u)

theorem SameStamps.refl (env : CacheEnv) (u : String) (files : Files) : SameStamps env u files files :=
  fun _ => ⟨rfl, fun _ => rfl⟩

theorem SameStamps.trans {files'' : Files} (h : SameStamps env u files files')
    (h' : SameStamps env u files' files'') :
    SameStamps env u files files'' :=
  fun f => ⟨(h' f).1.trans (h f).1, fun t => ((h' f).2 t).trans ((h f).2 t)⟩

theorem outpluginsNeedsOut_congr (h : SameStamps env u files files') :
    outpluginsNeedsOut env now t m u files' plugins errFile =
      outpluginsNeedsOut env now t m u files plugins errFile := by
  induction plugins generalizing errFile with
  | nil => rfl
  | cons p plugins ih =>
    have hp : p.format.needsOut env files' now t m u = p.format.needsOut env files now t m u := by
      rw [OutFormat.needsOut_eq_answer, OutFormat.needsOut_eq_answer, (h p.format).1, (h p.format).2 t]
    simp only [outpluginsNeedsOut, hp, ih]

theorem errFile_of_needsOut (h : (outpluginsNeedsOut env now t m u files plugins errFile).errFile = false) :
    errFile = false := by
  induction plugins generalizing errFile with
  | nil => exact h
  | cons p plugins ih =>
    rw [outpluginsNeedsOut] at h
    split at h
    · dsimp only at h
      split at h
      · exact (Bool.or_eq_false_iff.mp h).1
      · exact (Bool.or_eq_false_iff.mp (ih h)).1
    · exact ih h

/-- No active plugin is in need and none knows of a failure. -/
theorem thumb_of_not_needsOut (h : outpluginsNeedsOut env now t m u files plugins errFile = ⟨false, false⟩)
    {p : OutPlugin} (hp : p ∈ plugins) (ha : p.isActive = true) :
    ∃ a, Png.stamp files (p.format.thumb env t u) = some a ∧ sameTime a m = true := by
  induction plugins generalizing errFile with
  | nil => cases hp
  | cons q plugins ih =>
    rw [outpluginsNeedsOut] at h
    split at h
    · dsimp only at h
      split at h
      · cases h
      · next hretval =>
        rcases List.mem_cons.mp hp with rfl | hp
        · have herr := errFile_of_needsOut (congrArg Png.NeedsOut.errFile h)
          have hanswer : p.format.needsOut env files now t m u = ⟨false, false⟩ :=
            Png.NeedsOut.ext (Bool.eq_false_iff.mpr hretval) (Bool.or_eq_false_iff.mp herr).2
          rw [OutFormat.needsOut_eq_answer] at hanswer
          exact OutFormat.thumb_of_answer hanswer
        · exact ih h hp
    · next hq =>
      rcases List.mem_cons.mp hp with rfl | hp
      · exact absurd ha hq
      · exact ih h hp

theorem exists_active_of_needsOut (h : (outpluginsNeedsOut env now t m u files plugins errFile).retval = true) :
    ∃ p ∈ plugins, p.isActive = true := by
  induction plugins generalizing errFile with
  | nil => cases h
  | cons p plugins ih =>
    by_cases ha : p.isActive = true
    · exact ⟨p, List.mem_cons_self, ha⟩
    · rw [outpluginsNeedsOut, if_neg ha] at h
      obtain ⟨q, hq, hqa⟩ := ih h
      exact ⟨q, List.mem_cons_of_mem p hq, hqa⟩

end Asked

section Written
variable {env : CacheEnv} {now : UInt64} {t : HildonThumbnailPluginOutType} {m m' : UInt64} {u v : String}
  {files files' : Files} {plugins : List OutPlugin}

/-- The thumbnails of one URI are left alone, or stamped with its time. -/
def Stamps (env : CacheEnv) (u : String) (m : UInt64) (files files' : Files) : Prop :=
  ∀ (f : OutFormat) t, Png.stamp files' (f.thumb env t u) = Png.stamp files (f.thumb env t u) ∨
    Png.stamp files' (f.thumb env t u) = some m

def UpToDate (env : CacheEnv) (files : Files) (u : String) (m : UInt64) : Prop :=
  ∃ (f : OutFormat) (t : HildonThumbnailPluginOutType) (a : UInt64),
    Png.stamp files (f.thumb env t u) = some a ∧ sameTime a m = true

theorem sameTime_self (m : UInt64) : sameTime m m = true := by
  simp only [sameTime, UInt64.sub_self]
  decide

theorem Stamps.refl (env : CacheEnv) (u : String) (m : UInt64) (files : Files) : Stamps env u m files files :=
  fun _ _ => .inl rfl

theorem Stamps.trans {files'' : Files} (h : Stamps env u m files files') (h' : Stamps env u m files' files'') :
    Stamps env u m files files'' := by
  intro f t
  rcases h' f t with h' | h'
  · rw [h']
    exact h f t
  · exact .inr h'

theorem Stamps.upToDate (h : Stamps env u m files files') (hu : UpToDate env files u m) :
    UpToDate env files' u m := by
  obtain ⟨f, t, a, ha, hs⟩ := hu
  rcases h f t with h | h
  · exact ⟨f, t, a, h.trans ha, hs⟩
  · exact ⟨f, t, m, h, sameTime_self m⟩

theorem thumb_putError (f : OutFormat) (message : Option String) (g : OutFormat)
    (s : HildonThumbnailPluginOutType) :
    Png.stamp (f.putError env files now m v message) (g.thumb env s u) = Png.stamp files (g.thumb env s u) := by
  rw [OutFormat.stamp_putError, if_neg OutFormat.marker_ne_thumb.symm]

theorem sameStamps_putError (hmd5 : env.md5 u = env.md5 v → u = v) (hne : v ≠ u) (f : OutFormat)
    (message : Option String) :
    SameStamps env u files (f.putError env files now m v message) := by
  intro g
  refine ⟨?_, thumb_putError f message g⟩
  have hmarker : g.marker env u ≠ f.marker env v := fun h => hne ((OutFormat.marker_inj hmd5).mp h).2.symm
  rw [OutFormat.stamp_putError, if_neg hmarker]

theorem thumb_outpluginsPutError (message : Option String) (g : OutFormat) (s : HildonThumbnailPluginOutType) :
    Png.stamp (outpluginsPutError env now m v message plugins files) (g.thumb env s u) =
      Png.stamp files (g.thumb env s u) := by
  induction plugins generalizing files with
  | nil => rfl
  | cons p plugins ih =>
    refine ih.trans ?_
    dsimp only
    split
    · exact thumb_putError p.format message g s
    · rfl

theorem sameStamps_outpluginsPutError (hmd5 : env.md5 u = env.md5 v → u = v) (hne : v ≠ u)
    (message : Option String) :
    SameStamps env u files (outpluginsPutError env now m v message plugins files) := by
  induction plugins generalizing files with
  | nil => exact .refl env u files
  | cons p plugins ih =>
    refine SameStamps.trans ?_ ih
    dsimp only
    split
    · exact sameStamps_putError hmd5 hne p.format message
    · exact .refl env u files

theorem stamps_out (hmd5 : env.md5 u = env.md5 v → u = v) (hm : v = u → m = m') (f : OutFormat)
    (saved : Except String Unit) :
    Stamps env u m' files (f.out env files now t m v saved) := by
  intro g s
  cases saved with
  | error message =>
    rw [OutFormat.out_error]
    exact .inl (thumb_putError f (some message) g s)
  | ok _ =>
    rw [OutFormat.stamp_out env f files now m t v OutFormat.tempPath_ne_thumb.symm]
    split
    · next h =>
      obtain ⟨_, _, huv⟩ := (OutFormat.thumb_inj hmd5).mp h
      exact .inr (congrArg some (hm huv.symm))
    · exact .inl rfl

theorem stamps_outpluginsDoOut (hmd5 : env.md5 u = env.md5 v → u = v) (hm : v = u → m = m')
    (saved : Nat → Except String Unit) (errors : Option String) :
    Stamps env u m' files (outpluginsDoOut env now t m v plugins saved files errors).1 := by
  induction plugins generalizing saved files errors with
  | nil => exact .refl env u m' files
  | cons p plugins ih =>
    rw [outpluginsDoOut]
    dsimp only
    split
    · cases saved 0 with
      | ok _ => exact (stamps_out hmd5 hm p.format _).trans (ih _ _)
      | error message => exact (stamps_out hmd5 hm p.format _).trans (ih _ _)
    · exact ih _ _

theorem errors_of_outpluginsDoOut {saved : Nat → Except String Unit} {errors : Option String}
    (h : (outpluginsDoOut env now t m u plugins saved files errors).2 = none) : errors = none := by
  induction plugins generalizing saved files errors with
  | nil => exact h
  | cons p plugins ih =>
    rw [outpluginsDoOut] at h
    dsimp only at h
    split at h
    · cases hs : saved 0 with
      | ok _ =>
        rw [hs] at h
        exact ih h
      | error message =>
        rw [hs] at h
        cases ih h
    · exact ih h

theorem thumb_of_outpluginsDoOut {saved : Nat → Except String Unit}
    {errors : Option String} (h : (outpluginsDoOut env now t m u plugins saved files errors).2 = none)
    {p : OutPlugin}
    (hp : p ∈ plugins) (ha : p.isActive = true) :
    Png.stamp (outpluginsDoOut env now t m u plugins saved files errors).1 (p.format.thumb env t u) = some m := by
  induction plugins generalizing saved files errors with
  | nil => cases hp
  | cons q plugins ih =>
    rw [outpluginsDoOut] at h ⊢
    dsimp only at h ⊢
    split at h
    · next hq =>
      rw [if_pos hq]
      cases hs : saved 0 with
      | ok _ =>
        rw [hs] at h
        rcases List.mem_cons.mp hp with rfl | hp
        · have hwritten : Png.stamp (p.format.out env files now t m u (.ok ())) (p.format.thumb env t u) =
            some m := by
            rw [OutFormat.stamp_out env p.format files now m t u OutFormat.tempPath_ne_thumb.symm, if_pos rfl]
          have hlater : Stamps env u m (p.format.out env files now t m u (.ok ()))
              (outpluginsDoOut env now t m u plugins (fun k => saved (k + 1)) _ errors).1 :=
            stamps_outpluginsDoOut (fun _ => rfl) (fun _ => rfl) _ errors
          rcases hlater p.format t with hlater | hlater
          · exact hlater.trans hwritten
          · exact hlater
        · exact ih h hp
      | error message =>
        rw [hs] at h
        cases errors_of_outpluginsDoOut h
    · next hq =>
      rw [if_neg hq]
      rcases List.mem_cons.mp hp with rfl | hp
      · exact absurd ha hq
      · exact ih h hp

end Written

end HildonThumbnail
