import HildonThumbnail.Albumart.Path

/-! When the client, the daemon's Queue and the daemon's Delete agree on the
media-art path. -/

namespace HildonThumbnail

/-- What the code relies on: 32 digits, a digest that tells a blank from the
empty string, and lower case that keeps both. -/
structure AlbumartEnv.Documented (env : AlbumartEnv) : Prop where
  md5_length : ∀ s, (env.md5 s).toList.length = 32
  md5_blank : env.md5 " " ≠ env.md5 ""
  strdown_blank : env.utf8Strdown " " = " "
  strdown_empty : env.utf8Strdown "" = ""

theorem stripCharacters_empty {utf8Strdown : String → String} (h : utf8Strdown "" = "") :
    stripCharacters utf8Strdown "" = "" := by
  have hblocks : stripBlocks [] = [] := by
    rw [stripBlocks]
    rfl
  have hempty : String.ofList [] = "" := rfl
  simp [stripCharacters, hblocks, hempty, h, gStrdelimit, gStrsplit, gStrjoinv, gStrstrip]

theorem toList_buildFilename (dir kind d1 d2 : String) :
    (gBuildFilename dir (kind ++ "-" ++ d1 ++ "-" ++ d2 ++ ".jpeg")).toList =
      dir.toList ++ '/' :: (kind.toList.dropWhile (· == '/') ++
        '-' :: (d1.toList ++ '-' :: (d2.toList ++ ".jpeg".toList))) := by
  have hdrop (l : List Char) :
      (kind.toList ++ '-' :: l).dropWhile (· == '/') = kind.toList.dropWhile (· == '/') ++ '-' :: l := by
    induction kind.toList with
    | nil => rfl
    | cons c cs ih => by_cases hc : c = '/' <;> simp [hc, ih]
  have hh := hdrop (d1.toList ++ '-' :: (d2.toList ++ ".jpeg".toList))
  simpa [gBuildFilename] using hh

section Digests
variable {env : AlbumartEnv} (henv : env.Documented)
include henv

theorem albumartDigest_null_ne_empty : albumartDigest env none ≠ albumartDigest env (some "") := by
  simpa [albumartDigest, stripCharacters_empty henv.strdown_empty, henv.strdown_blank,
    henv.strdown_empty] using henv.md5_blank

/-- A path determines both digests, and the kind up to leading slashes. -/
theorem albumartPath_inj {a b kind a' b' kind' : Option String} (hne : ¬ (a = none ∧ b = none))
    (h : hildonThumbnailUtilGetAlbumartPath env a b kind =
      hildonThumbnailUtilGetAlbumartPath env a' b' kind') :
    albumartDigest env a = albumartDigest env a' ∧ albumartDigest env b = albumartDigest env b' ∧
      (kind.getD "album").toList.dropWhile (· == '/') = (kind'.getD "album").toList.dropWhile (· == '/') := by
  have hne' : ¬ (a' = none ∧ b' = none) := by
    intro hnull
    rw [hildonThumbnailUtilGetAlbumartPath, if_neg hne, hildonThumbnailUtilGetAlbumartPath, if_pos hnull] at h
    exact absurd h (by simp)
  rw [hildonThumbnailUtilGetAlbumartPath, if_neg hne, hildonThumbnailUtilGetAlbumartPath, if_neg hne'] at h
  have hlen (x : Option String) : (albumartDigest env x).toList.length = 32 := henv.md5_length _
  have hname := congrArg String.toList (Option.some.inj h)
  rw [toList_buildFilename, toList_buildFilename] at hname
  have hname := List.tail_eq_of_cons_eq (List.append_cancel_left hname)
  obtain ⟨hkind, hdigests⟩ := List.append_inj' hname (by simp [hlen])
  obtain ⟨ha, hrest⟩ := List.append_inj (List.tail_eq_of_cons_eq hdigests) (by simp [hlen])
  have hb := List.append_cancel_right (List.tail_eq_of_cons_eq hrest)
  exact ⟨String.toList_injective ha, String.toList_injective hb, hkind⟩

end Digests

def Given (name : Option String) : Prop := ∃ s, name = some s ∧ s ≠ ""

theorem not_given {name : Option String} (h : ¬ Given name) : name = none ∨ name = some "" := by
  cases name with
  | none => exact .inl rfl
  | some s =>
    by_cases hs : s = ""
    · exact .inr (by rw [hs])
    · exact absurd ⟨s, rfl, hs⟩ h

def queuedName (name : Option String) : Option String := if name.getD "" = "" then none else name

theorem queuePath_eq (env : AlbumartEnv) {artist album : Option String} (kind : Option String)
    (h : Given artist ∨ Given album) : queuePath env artist album kind =
      hildonThumbnailUtilGetAlbumartPath env (queuedName artist) (queuedName album)
        (if album.getD "" = "" then some "album" else some (kind.getD "")) := by
  have hname (name : Option String) :
      (if dbusString name = some "" then none else dbusString name) = queuedName name := by
    cases name with
    | none => rfl
    | some s => by_cases hs : s = "" <;> simp [dbusString, queuedName, hs]
  have hgiven (name : Option String) (hn : Given name) : queuedName name ≠ none := by
    obtain ⟨s, rfl, hs⟩ := hn
    simp [queuedName, hs]
  have hqueued : ¬ (queuedName artist = none ∧ queuedName album = none) := by
    rintro ⟨ha, hb⟩
    exact h.elim (fun hn => hgiven artist hn ha) fun hn => hgiven album hn hb
  have hkind : (if dbusString kind = none ∨ dbusString album = some "" then some "album"
      else dbusString kind) = if album.getD "" = "" then some "album" else some (kind.getD "") := by
    simp [dbusString]
  rw [queuePath, albumartQueue, hname, hname, hkind, if_neg hqueued, Option.bind_some]

/-- The three paths are one exactly when both names are given and the kind is
not NULL. -/
theorem albumartPath_agree_iff (env : AlbumartEnv) (henv : env.Documented)
    (artist album kind : Option String) (hgiven : Given artist ∨ Given album) :
    (clientPath env artist album kind = queuePath env artist album kind ∧
        clientPath env artist album kind = deletePath env artist album kind) ↔
      Given artist ∧ Given album ∧ kind ≠ none := by
  rw [queuePath_eq env kind hgiven]
  constructor
  · rintro ⟨hq, hd⟩
    have hne : ¬ (artist = none ∧ album = none) := by
      rintro ⟨rfl, rfl⟩
      simp [Given] at hgiven
    obtain ⟨hqa, hqb, hqk⟩ := albumartPath_inj henv hne hq
    obtain ⟨hda, hdb, -⟩ := albumartPath_inj henv hne hd
    have hagree (name : Option String) (hqn : albumartDigest env name = albumartDigest env (queuedName name))
        (hdn : albumartDigest env name = albumartDigest env (dbusString name)) : Given name := by
      by_contra hn
      rcases not_given hn with rfl | rfl
      · exact albumartDigest_null_ne_empty henv hdn
      · exact albumartDigest_null_ne_empty henv hqn.symm
    have ha := hagree artist hqa hda
    have hb := hagree album hqb hdb
    refine ⟨ha, hb, ?_⟩
    rintro rfl
    obtain ⟨t, rfl, ht⟩ := hb
    rw [Option.getD_some, if_neg ht] at hqk
    exact absurd hqk (by decide)
  · rintro ⟨⟨s, rfl, hs⟩, ⟨t, rfl, ht⟩, hkind⟩
    obtain ⟨k, rfl⟩ := Option.ne_none_iff_exists'.mp hkind
    have hq : queuedName (some s) = some s := if_neg hs
    have hq' : queuedName (some t) = some t := if_neg ht
    rw [hq, hq', Option.getD_some, if_neg ht]
    exact ⟨rfl, rfl⟩

def sampleAlbumartEnv : AlbumartEnv where
  userCacheDir := "/home/user/.cache"
  md5 := fun s =>
    if s = "" then "d41d8cd98f00b204e9800998ecf8427e"
    else if s = " " then "7215ee9c7d9dc229d2921a40e899ec5f"
    else if s = "ana" then "276b6c4692e78d4799c12ada515bc3e4"
    else if s = "sol" then "12313a3d28f802e3a22b07d2e01c6dcf"
    else "00000000000000000000000000000000"
  utf8Strdown := fun s => String.ofList (s.toList.map Char.toLower)

theorem sampleAlbumartEnv_documented : sampleAlbumartEnv.Documented where
  md5_length s := by
    simp only [sampleAlbumartEnv]
    split_ifs <;> decide
  md5_blank := by decide
  strdown_blank := by decide
  strdown_empty := by decide

/-- Without an artist the daemon's Delete looks elsewhere. -/
theorem albumartPath_not_agree : ¬ ∀ (env : AlbumartEnv), env.Documented →
    ∀ artist album kind : Option String, Given artist ∨ Given album →
      clientPath env artist album kind = queuePath env artist album kind ∧
        clientPath env artist album kind = deletePath env artist album kind := by
  intro h
  have hd := (h sampleAlbumartEnv sampleAlbumartEnv_documented none (some "Sol") (some "album")
    (.inr ⟨"Sol", rfl, by decide⟩)).2
  have hdigest := (albumartPath_inj sampleAlbumartEnv_documented (by simp) hd).1
  exact albumartDigest_null_ne_empty sampleAlbumartEnv_documented hdigest

theorem albumartPath_agree_sample :
    clientPath sampleAlbumartEnv (some "Ana") (some "Sol") (some "album") =
        queuePath sampleAlbumartEnv (some "Ana") (some "Sol") (some "album") ∧
      clientPath sampleAlbumartEnv (some "Ana") (some "Sol") (some "album") =
        deletePath sampleAlbumartEnv (some "Ana") (some "Sol") (some "album") :=
  (albumartPath_agree_iff sampleAlbumartEnv sampleAlbumartEnv_documented (some "Ana") (some "Sol")
    (some "album") (.inl ⟨"Ana", rfl, by decide⟩)).mpr
    ⟨⟨"Ana", rfl, by decide⟩, ⟨"Sol", rfl, by decide⟩, by decide⟩

end HildonThumbnail
