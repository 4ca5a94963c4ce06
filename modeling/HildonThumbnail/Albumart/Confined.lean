import HildonThumbnail.Albumart.PathAgreement

/-! Which media-art paths lie in the media-art directory itself, and which
artists, albums and kinds share one. -/

namespace HildonThumbnail

/-- What stands before the last separators, or one of the two short names. -/
def gPathGetDirname (fileName : String) : String :=
  let base := fileName.toList.rdropWhile (· ≠ '/')
  if base = [] then "."
  else
    let dir := base.rdropWhile (· == '/')
    if dir = [] then "/" else String.ofList dir

structure Art where
  artist : Option String
  album : Option String
  kind : Option String

section
variable (env : AlbumartEnv)

def mediaArtDir : String := gBuildFilename env.userCacheDir "media-art"

def albumartText (a : Option String) : String :=
  env.utf8Strdown (match a with
    | none => " "
    | some a => stripCharacters env.utf8Strdown a)

def normalForm (a : Option String) : Option String :=
  a.map fun s => env.utf8Strdown (stripCharacters env.utf8Strdown s)

namespace Art

def path (x : Art) : Option String := hildonThumbnailUtilGetAlbumartPath env x.artist x.album x.kind

def Given (x : Art) : Prop := ¬ (x.artist = none ∧ x.album = none)

def kindName (x : Art) : String := x.kind.getD "album"

/-- The kind without the separators that joining the names takes away. -/
def stem (x : Art) : List Char := x.kindName.toList.dropWhile (· == '/')

def Confined (x : Art) : Prop := (x.path env).map gPathGetDirname = some (mediaArtDir env)

def SameNames (x y : Art) : Prop :=
  normalForm env x.artist = normalForm env y.artist ∧ normalForm env x.album = normalForm env y.album

def CollisionFree (x y : Art) : Prop :=
  (env.md5 (albumartText env x.artist) = env.md5 (albumartText env y.artist) →
      albumartText env x.artist = albumartText env y.artist) ∧
    (env.md5 (albumartText env x.album) = env.md5 (albumartText env y.album) →
      albumartText env x.album = albumartText env y.album)

end Art

/-- Besides, the digests are written with digits, and only a blank has a blank
for its lower case. -/
structure AlbumartEnv.Hexadecimal : Prop extends env.Documented where
  md5_digits : ∀ s, ∀ c ∈ (env.md5 s).toList, c ∈ "0123456789abcdef".toList
  strdown_eq_blank : ∀ s, env.utf8Strdown s = " " → s = " "

end

section Dirname
variable {x y : List Char} {c : Char} {p : Char → Bool}

theorem rdropWhile_append_cons (h : p c = false) : (x ++ c :: y).rdropWhile p = x ++ c :: y.rdropWhile p := by
  have hlast : ¬ p c = true := Bool.not_eq_true _ ▸ h
  induction y using List.reverseRecOn with
  | nil =>
    rw [List.rdropWhile_nil]
    exact List.rdropWhile_concat_neg p x c hlast
  | append_singleton y d ih =>
    have hassoc : x ++ c :: (y ++ [d]) = (x ++ c :: y) ++ [d] := by simp
    rw [hassoc, List.rdropWhile_concat, List.rdropWhile_concat]
    split
    · exact ih
    · simp

theorem rdropWhile_of_forall (h : ∀ c ∈ y, p c = true) : y.rdropWhile p = [] := List.rdropWhile_eq_nil_iff.mpr h

theorem getDirname_of_plain {dir : List Char} (hdir : ∀ c, dir.getLast? = some c → c ≠ '/') (hne : dir ≠ [])
    (hy : '/' ∉ y) : gPathGetDirname (String.ofList (dir ++ '/' :: y)) = String.ofList dir := by
  have hname : ∀ c ∈ y, (decide (c ≠ '/')) = true := by
    intro c hc
    simp only [ne_eq, decide_not, Bool.not_eq_eq_eq_not, Bool.not_true, decide_eq_false_iff_not]
    rintro rfl
    exact hy hc
  have hbase : (dir ++ '/' :: y).rdropWhile (· ≠ '/') = dir ++ ['/'] := by
    rw [rdropWhile_append_cons (by decide), rdropWhile_of_forall hname]
  have hdirs : (dir ++ ['/']).rdropWhile (· == '/') = dir := by
    rw [List.rdropWhile_concat, if_pos (beq_self_eq_true _), List.rdropWhile_eq_self_iff]
    intro hl
    simpa using hdir _ (List.getLast?_eq_some_getLast hl)
  rw [gPathGetDirname, String.toList_ofList, hbase]
  simp [hdirs, hne]

theorem getDirname_of_slash {dir : List Char} (hc : c ≠ '/') (hy : '/' ∈ y) :
    gPathGetDirname (String.ofList (dir ++ '/' :: c :: y)) ≠ String.ofList dir := by
  obtain ⟨s, t, rfl⟩ := List.append_of_mem hy
  have hbase : (dir ++ '/' :: c :: (s ++ '/' :: t)).rdropWhile (· ≠ '/') =
      (dir ++ ['/']) ++ c :: (s ++ '/' :: t.rdropWhile (· ≠ '/')) := by
    have hh :=
      rdropWhile_append_cons (p := fun d => decide (d ≠ '/')) (x := dir ++ '/' :: c :: s) (c := '/') (y := t) rfl
    simpa using hh
  rw [gPathGetDirname, String.toList_ofList, hbase]
  dsimp only
  rw [rdropWhile_append_cons (by simpa using hc), if_neg (by simp), if_neg (by simp)]
  intro h
  have hlen := congrArg List.length (String.ofList_injective h)
  simp at hlen

end Dirname

section Paths
variable {env : AlbumartEnv} {x y : Art}

theorem albumartDigest_eq (a : Option String) : albumartDigest env a = env.md5 (albumartText env a) := by
  cases a <;> rfl

def Art.name (env : AlbumartEnv) (x : Art) : List Char :=
  x.stem ++
    '-' :: ((albumartDigest env x.artist).toList ++ '-' :: ((albumartDigest env x.album).toList ++ ".jpeg".toList))

theorem Art.path_eq (hx : x.Given) :
    x.path env = some (String.ofList ((mediaArtDir env).toList ++ '/' :: x.name env)) := by
  rw [Art.path, hildonThumbnailUtilGetAlbumartPath, if_neg hx]
  refine congrArg some (String.toList_injective ?_)
  rw [toList_buildFilename]
  exact String.toList_ofList.symm

theorem mediaArtDir_getLast? : (mediaArtDir env).toList.getLast? = some 't' := by
  simp [mediaArtDir, gBuildFilename]

theorem Art.slash_mem_name (henv : env.Hexadecimal) : '/' ∈ x.name env ↔ '/' ∈ x.stem := by
  have hdigest (a : Option String) : '/' ∉ (albumartDigest env a).toList := fun h =>
    absurd (henv.md5_digits _ '/' h) (by decide)
  simp [Art.name, hdigest]

theorem Art.confined_iff (henv : env.Hexadecimal) (hx : x.Given) : x.Confined env ↔ '/' ∉ x.stem := by
  rw [Art.Confined, Art.path_eq hx, Option.map_some, Option.some_inj]
  have hdir : mediaArtDir env = String.ofList (mediaArtDir env).toList := String.ofList_toList.symm
  constructor
  · intro h hslash
    obtain ⟨c, rest, hstem⟩ : ∃ c rest, x.stem = c :: rest := List.exists_cons_of_ne_nil (List.ne_nil_of_mem hslash)
    have hc : c ≠ '/' := by
      have hhead := List.head?_dropWhile_not (fun d => d == '/') x.kindName.toList
      rw [← Art.stem, hstem] at hhead
      simpa using hhead
    rw [Art.name, hstem, List.cons_append] at h
    refine getDirname_of_slash hc ?_ (h.trans hdir)
    rw [hstem] at hslash
    exact List.mem_append_left _ ((List.mem_cons.mp hslash).resolve_left hc.symm)
  · intro hstem
    have hlast : ∀ c, (mediaArtDir env).toList.getLast? = some c → c ≠ '/' := by
      intro c hc
      rw [mediaArtDir_getLast?] at hc
      obtain rfl := Option.some.inj hc
      decide
    have hne : (mediaArtDir env).toList ≠ [] := by
      intro hnil
      have hh : (mediaArtDir env).toList.getLast? = some 't' := mediaArtDir_getLast?
      rw [hnil] at hh
      cases hh
    have hname : '/' ∉ x.name env := fun h => hstem ((Art.slash_mem_name henv).mp h)
    exact (getDirname_of_plain hlast hne hname).trans hdir.symm

theorem stripCharacters_ne_blank {utf8Strdown : String → String} (s : String) :
    stripCharacters utf8Strdown s ≠ " " := by
  have hstrip (l : List Char) : gStrstrip l ≠ [' '] := by
    intro h
    have hlast : ¬ gAsciiIsspace ' ' = true := by
      have hh :=
        List.rdropWhile_last_not gAsciiIsspace (l.dropWhile gAsciiIsspace) (by rw [gStrstrip] at h; simp [h])
      simp only [gStrstrip] at h
      simpa only [h, List.getLast_singleton] using hh
    exact hlast rfl
  intro h
  exact hstrip _ (String.ofList_injective h)

theorem albumartText_inj (henv : env.Hexadecimal) {a b : Option String} :
    albumartText env a = albumartText env b ↔ normalForm env a = normalForm env b := by
  have hblank (s : String) : env.utf8Strdown (stripCharacters env.utf8Strdown s) ≠ env.utf8Strdown " " := by
    intro h
    rw [henv.strdown_blank] at h
    exact stripCharacters_ne_blank s (henv.strdown_eq_blank _ h)
  cases a <;> cases b <;> simp [albumartText, normalForm, hblank, (hblank _).symm]

theorem Art.sameNames_iff (henv : env.Hexadecimal) (hmd5 : Art.CollisionFree env x y) : x.SameNames env y ↔
    albumartDigest env x.artist = albumartDigest env y.artist ∧
      albumartDigest env x.album = albumartDigest env y.album := by
  rw [Art.SameNames, ← albumartText_inj henv, ← albumartText_inj henv]
  simp only [albumartDigest_eq]
  exact ⟨fun h => ⟨congrArg env.md5 h.1, congrArg env.md5 h.2⟩, fun h => ⟨hmd5.1 h.1, hmd5.2 h.2⟩⟩

theorem Art.path_inj (henv : env.Hexadecimal) (hx : x.Given) (hy : y.Given) (hmd5 : Art.CollisionFree env x y) :
    x.path env = y.path env ↔ x.stem = y.stem ∧ x.SameNames env y := by
  rw [Art.sameNames_iff henv hmd5]
  constructor
  · intro h
    obtain ⟨hartist, halbum, hstem⟩ := albumartPath_inj henv.toDocumented hx h
    exact ⟨hstem, hartist, halbum⟩
  · rintro ⟨hstem, hartist, halbum⟩
    rw [Art.path_eq hx, Art.path_eq hy, Art.name, Art.name, hstem, hartist, halbum]

/-- The kind goes into the path as it is, but for separators at its start. -/
theorem albumartPath_sound_iff (env : AlbumartEnv) (x y : Art) (henv : env.Hexadecimal) (hx : x.Given)
    (hy : y.Given)
    (hmd5 : Art.CollisionFree env x y) :
    (x.Confined env ∧ y.Confined env ∧
        (x.path env = y.path env → x.kindName = y.kindName ∧ x.SameNames env y)) ↔
      '/' ∉ x.stem ∧ '/' ∉ y.stem ∧ ¬ (x.stem = y.stem ∧ x.kindName ≠ y.kindName ∧ x.SameNames env y) := by
  rw [Art.confined_iff henv hx, Art.confined_iff henv hy, Art.path_inj henv hx hy hmd5]
  refine and_congr_right fun _ => and_congr_right fun _ => ?_
  constructor
  · rintro h ⟨hstem, hkind, hnames⟩
    exact hkind (h ⟨hstem, hnames⟩).1
  · rintro h ⟨hstem, hnames⟩
    exact ⟨not_not.mp fun hkind => h ⟨hstem, hkind, hnames⟩, hnames⟩

theorem toLower_eq_blank {c : Char} (h : c.toLower = ' ') : c = ' ' := by
  delta Char.toLower at h
  split at h
  · next hupper =>
    have hval : c.val + ('a'.val - 'A'.val) = ' '.val := congrArg Char.val h
    have hle : 65 ≤ c.val.toNat ∧ c.val.toNat ≤ 90 := hupper
    rw [← UInt32.toNat_inj, UInt32.toNat_add, show ('a'.val - 'A'.val).toNat = 32 from rfl,
      show ' '.val.toNat = 32 from rfl] at hval
    omega
  · exact h

theorem sampleAlbumartEnv_hexadecimal : sampleAlbumartEnv.Hexadecimal where
  toDocumented := sampleAlbumartEnv_documented
  md5_digits s c hc := by
    have hall : (sampleAlbumartEnv.md5 s).toList.all (fun c => decide (c ∈ "0123456789abcdef".toList)) = true := by
      simp only [sampleAlbumartEnv]
      split_ifs <;> decide
    exact of_decide_eq_true (List.all_eq_true.mp hall c hc)
  strdown_eq_blank s h := by
    have hmap : s.toList.map Char.toLower = [' '] := String.ofList_injective h
    obtain ⟨c, hs, hc⟩ := List.map_eq_singleton_iff.mp hmap
    rw [toLower_eq_blank hc] at hs
    exact String.toList_injective hs

def samePlace (kind : Option String) : Art := ⟨some "Ana", none, kind⟩

theorem albumartPath_not_confined : ¬ ∀ (env : AlbumartEnv) (x y : Art), env.Hexadecimal → x.Given → y.Given →
    Art.CollisionFree env x y → x.Confined env ∧ y.Confined env ∧
      (x.path env = y.path env → x.kindName = y.kindName ∧ x.SameNames env y) := by
  intro h
  have hgiven : (samePlace (some "../x")).Given := fun hh => nomatch hh.1
  have hfree : Art.CollisionFree sampleAlbumartEnv (samePlace (some "../x")) (samePlace (some "../x")) :=
    ⟨fun _ => rfl, fun _ => rfl⟩
  have hh :=
    h sampleAlbumartEnv (samePlace (some "../x")) (samePlace (some "../x")) sampleAlbumartEnv_hexadecimal hgiven
    hgiven hfree
  exact absurd ((Art.confined_iff sampleAlbumartEnv_hexadecimal hgiven).mp hh.1) (by decide)

theorem albumartPath_sound_sample : (samePlace none).Confined sampleAlbumartEnv ∧
    (samePlace (some "podcast")).Confined sampleAlbumartEnv ∧
      ((samePlace none).path sampleAlbumartEnv = (samePlace (some "podcast")).path sampleAlbumartEnv →
        (samePlace none).kindName = (samePlace (some "podcast")).kindName ∧
          (samePlace none).SameNames sampleAlbumartEnv (samePlace (some "podcast"))) :=
  (albumartPath_sound_iff sampleAlbumartEnv (samePlace none)
    (samePlace (some "podcast")) sampleAlbumartEnv_hexadecimal
    (fun hh => nomatch hh.1) (fun hh => nomatch hh.1) ⟨fun _ => rfl, fun _ => rfl⟩).mpr
      ⟨by decide, by decide, fun hh => absurd hh.1 (by decide)⟩

end Paths

end HildonThumbnail
