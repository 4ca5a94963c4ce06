import HildonThumbnail.OutPlugin.Formats

/-! Which times the calls of the PNG plugin leave on the markers and thumbnails,
and when its test of two times succeeds. -/

namespace HildonThumbnail.Png

section Times
variable {a m : UInt64}

/-- Times whose difference is small as a `gint64` though they are far apart. -/
def Aliased (a m : UInt64) : Prop :=
  a.toNat + 2 ^ 63 = m.toNat ∨ m.toNat + 2 ^ 63 = a.toNat ∨
    a.toNat + (2 ^ 64 - 1) = m.toNat ∨ m.toNat + (2 ^ 64 - 1) = a.toNat

instance : Decidable (Aliased a m) := by unfold Aliased; infer_instance

def Apart (a m : UInt64) : Prop := a = m ∨ a.toNat + 2 ≤ m.toNat ∨ m.toNat + 2 ≤ a.toNat

theorem toInt_timeDifference (a m : UInt64) :
    (a - m).toInt64.toInt = ((a.toNat : Int) - m.toNat).bmod (2 ^ 64) := by
  have ha := a.toNat_lt
  have hm := m.toNat_lt
  have h : (a - m).toInt64.toInt = ((a - m).toNat : Int).bmod (2 ^ 64) := BitVec.toInt_eq_toNat_bmod _
  rw [h, UInt64.toNat_sub]
  simp only [Int.bmod_def]
  omega

def OneApart (a m : UInt64) : Prop := a.toNat + 1 = m.toNat ∨ m.toNat + 1 = a.toNat

instance : Decidable (OneApart a m) := by unfold OneApart; infer_instance

theorem sameTime_cases : sameTime a m = true ↔ a = m ∨ OneApart a m ∨ Aliased a m := by
  have ha := a.toNat_lt
  have hm := m.toNat_lt
  have hd := toInt_timeDifference a m
  have heq : a = m ↔ a.toNat = m.toNat := UInt64.toNat_inj.symm
  have h2 : (2 : Int64).toInt = 2 := by decide
  simp only [sameTime, decide_eq_true_eq, Int64.lt_iff_toInt_lt, Int64.toInt_zero, h2]
  rw [heq, OneApart, Aliased]
  split <;> simp only [Int64.toInt_neg, hd, Int.bmod_def] at * <;> omega

theorem sameTime_iff (h : Apart a m) : sameTime a m = true ↔ a = m ∨ Aliased a m := by
  have hone : ¬ OneApart a m := by
    rintro (h1 | h1) <;> rcases h with rfl | h | h <;> omega
  rw [sameTime_cases, or_iff_right hone]

end Times

section Paths
variable {env : CacheEnv} {u v : String} {s t : HildonThumbnailPluginOutType}

def marker (env : CacheEnv) (u : String) : Path :=
  env.home ++ [".thumbnails", "fail", "hildon-thumbnail", digestName env u true]

def thumb (env : CacheEnv) (t : HildonThumbnailPluginOutType) (u : String) : Path :=
  env.home ++ [".thumbnails", t.dirName, digestName env u true]

theorem file_eq : (hildonThumbnailUtilGetThumbPaths env u true).file t = thumb env t u :=
  OutFormat.file_eq (f := .png)

theorem failFile_thumb : failFile (thumb env t u) = marker env u := OutFormat.failFile_thumb (f := .png)

theorem marker_ne_thumb : marker env u ≠ thumb env t v := OutFormat.marker_ne_thumb (f := .png) (g := .png)

theorem tempPath_ne_marker : tempPath (thumb env s v) ≠ marker env u :=
  OutFormat.tempPath_ne_marker (f := .png) (g := .png)

theorem tempPath_ne_thumb : tempPath (thumb env s v) ≠ thumb env t u :=
  OutFormat.tempPath_ne_thumb (f := .png) (g := .png)

theorem marker_inj (hmd5 : Function.Injective env.md5) : marker env u = marker env v ↔ u = v := by
  have hh := OutFormat.marker_inj (f := .png) (g := .png) fun h : env.md5 u = env.md5 v => hmd5 h
  exact hh.trans (and_iff_right rfl)

theorem thumb_inj (hmd5 : Function.Injective env.md5) : thumb env s u = thumb env t v ↔ s = t ∧ u = v := by
  have hh := OutFormat.thumb_inj (s := s) (t := t) (f := .png) (g := .png) fun h : env.md5 u = env.md5 v => hmd5 h
  exact hh.trans (and_iff_right rfl)

end Paths

section Stamps
variable (env : CacheEnv) (files : Files)

def stamp (files : Files) (path : Path) : Option UInt64 := (files.lookup path).map CacheFile.mtime

theorem stamp_utime {path p : Path} {mtime : UInt64} (h : (files.lookup path).isSome) :
    stamp (utime files path mtime) p = if p = path then some mtime else stamp files p := by
  obtain ⟨file, hf⟩ := Option.isSome_iff_exists.mp h
  rw [stamp, lookup_utime]
  by_cases hp : p = path <;> simp [hp, hf, stamp]

theorem stamp_marked (path : Path) (now mtime : UInt64) (message : Option String) (p : Path) :
    stamp (utime (gFileCreate (if gFileQueryExists files path then files.erase path else files) path
      ⟨now, .text (message.getD "")⟩) path mtime) p = if p = path then some mtime else stamp files p := by
  have hgone :
      gFileQueryExists (if gFileQueryExists files path = true then files.erase path else files) path = false := by
    cases h : gFileQueryExists files path
    · simpa using h
    · simp [gFileQueryExists]
  rw [gFileCreate, hgone, if_neg Bool.false_ne_true, stamp_utime _ (by simp)]
  by_cases hp : p = path
  · simp [hp]
  · simp only [if_neg hp, stamp, AList.lookup_insert_ne hp]
    split
    · rw [AList.lookup_erase_ne hp]
    · rfl

theorem stamp_putError (now mtime : UInt64) (u : String) (message : Option String) (p : Path) :
    stamp (putError env files now mtime u message) p =
      if p = marker env u then some mtime else stamp files p := by
  have hlarge : (hildonThumbnailUtilGetThumbPaths env u true).large = thumb env .large u := file_eq (t := .large)
  rw [putError]
  simp only [hlarge, failFile_thumb]
  exact stamp_marked files (marker env u) now mtime message p

theorem gRename_insert (old new : Path) (file : CacheFile) :
    gRename (files.insert old file) old new = ((files.insert old file).erase old).insert new file := by
  simp [gRename]

theorem stamp_renamed {temp filen p : Path} (file : CacheFile) (mtime : UInt64) (hp : p ≠ temp) :
    stamp (utime (gRename (files.insert temp file) temp filen) filen mtime) p =
      if p = filen then some mtime else stamp files p := by
  rw [gRename_insert, stamp_utime _ (by simp)]
  by_cases ht : p = filen
  · simp [ht]
  · simp only [if_neg ht, stamp, AList.lookup_insert_ne ht, AList.lookup_erase_ne hp, AList.lookup_insert_ne hp]

theorem stamp_out (now mtime : UInt64) (t : HildonThumbnailPluginOutType) (u : String) {p : Path}
    (hp : p ≠ tempPath (thumb env t u)) : stamp (out env files now t mtime u (.ok ())) p =
      if p = thumb env t u then some mtime else stamp files p := by
  simp only [out, file_eq]
  exact stamp_renamed files _ mtime hp

end Stamps

end HildonThumbnail.Png
