import HildonThumbnail.Thumbs.Delivered

/-! The flavour that a size and a crop flag stand for: in `hildon_thumbnail_get_uri`
and `hildon_thumbnail_is_cached`, in `hildon_thumbnail_factory_load_custom` with its
`create_pixbuf_and_callback`, and in the request API. -/

namespace HildonThumbnail

def getUriFlavour (build : Build) (width height : UInt32) (isCropped : Bool) : HildonThumbnailPluginOutType :=
  if isCropped then .cropped
  else
    match build with
    | .largeThumbnails => if width ≤ 128 ∨ height ≤ 128 then .normal else .large
    | .default | .normalThumbnails => .large

/-- HILDON_THUMBNAIL_FLAG_CROP as `load_custom` sets it. -/
def cropFlag (build : Build) (crop : Bool) : Bool :=
  match build with
  | .default => true
  | .normalThumbnails | .largeThumbnails => crop

def createPixbufPath {α : Type} (crop : Bool) (width height : UInt32) (large normal cropped : α) : α :=
  if crop then cropped
  else if width > 128 ∨ height > 128 then
    -- set twice
    let _path := large
    normal
  else normal

/-- The flavour that `load_custom` and `on_task_finished` look for first. -/
def lookedFor (crop : Bool) (width height : UInt32) : HildonThumbnailPluginOutType :=
  if crop then .cropped else if width > 128 ∨ height > 128 then .large else .normal

/-- A name that is passed on: the URI of a local file, empty where there is none, or a path. -/
inductive ThumbName
  | localUri (file : Option Path)
  | path (file : Path)
deriving DecidableEq

/-- What `create_pixbuf_and_callback` opens, and whether it takes the name for a URI. -/
structure Opening where
  urisAsPaths : Bool
  name : ThumbName
deriving DecidableEq

/-- A path is no URI, and a URI is no path: neither names a thumbnail as the other. -/
def Opening.file : Opening → Option Path
  | ⟨true, .localUri file⟩ => file
  | ⟨false, .path file⟩ => some file
  | ⟨true, .path _⟩ | ⟨false, .localUri _⟩ => none

section
variable (build : Build) (env : LocalEnv) (files later : Files) (uri : String) (crop : Bool) (width height : UInt32)

def searchedAsPng : Bool :=
  newEnough env files uri
    ((hildonThumbnailUtilGetThumbPaths env.toCacheEnv uri true).file (lookedFor crop width height))

def gUnlink (files : Files) (filename : Path) : Files := files.erase filename

/-- Only the width counts here. -/
def loadHaveAll (recreate asPng : Bool) : Bool :=
  let t : HildonThumbnailPluginOutType := if crop then .cropped else if width > 128 then .large else .normal
  !recreate && (newEnough env files uri ((hildonThumbnailUtilGetThumbPaths env.toCacheEnv uri asPng).file t) ||
    (localCopy env files uri asPng t).isSome)

inductive LoadStart
  | idle (asPng : Bool)
  | queue

/-- The first half of `load_custom`: the files it leaves, and whether it goes on at idle
time or with the daemon. -/
def loadCustomStart (recreate : Bool) : Files × LoadStart :=
  let crop := cropFlag build crop
  let asPng := searchedAsPng env files uri crop width height
  let paths := hildonThumbnailUtilGetThumbPaths env.toCacheEnv uri asPng
  if recreate then (gUnlink (gUnlink (gUnlink files paths.large) paths.normal) paths.cropped, .queue)
  else (files, if loadHaveAll env files uri crop width recreate asPng then .idle asPng else .queue)

def haveAllCbOpening (asPng : Bool) : Opening :=
  let paths := hildonThumbnailUtilGetThumbPaths env.toCacheEnv uri asPng
  let localName t := ThumbName.localUri (localFile env uri asPng t)
  let isLocal t := (localCopy env later uri asPng t).isSome
  let large := if isLocal .large then localName .large else .path paths.large
  -- both branches name the local copy
  let normal := localName .normal
  let cropped := if isLocal .cropped then localName .cropped else .path paths.cropped
  ⟨isLocal .large || isLocal .normal || isLocal .cropped, createPixbufPath crop width height large normal cropped⟩

def haveAllCb (asPng : Bool) : Option Path := (haveAllCbOpening env later uri crop width height asPng).file

def onTaskFinished : Option Path :=
  let jpeg := hildonThumbnailUtilGetThumbPaths env.toCacheEnv uri false
  let paths :=
    if gFileQueryExists later (jpeg.file (lookedFor crop width height)) then jpeg
    else hildonThumbnailUtilGetThumbPaths env.toCacheEnv uri true
  some (createPixbufPath crop width height paths.large paths.normal paths.cropped)

/-- The file that is read for the callback. `later` are the files when the main
loop or the daemon comes to it. -/
def loadCustomOpened (recreate : Bool) : Option Path :=
  match (loadCustomStart build env files uri crop width height recreate).2 with
  | .idle asPng => haveAllCb env later uri (cropFlag build crop) width height asPng
  | .queue => onTaskFinished env later uri (cropFlag build crop) width height

/-- One of the files of a flavour, in the home directory or beside the original. -/
def OfFlavour (t : HildonThumbnailPluginOutType) (p : Path) : Prop :=
  ∃ f : OutFormat, p = f.thumb env.toCacheEnv t uri ∨ localFile env uri f.asPng t = some p

/-- A file is named by `get_uri` and one is read by each API, and all that is
named, asked for or read is of one flavour. -/
structure OneFlavour (build : Build) (env : LocalEnv) (onDisk : String → Bool) (files later : Files) (uri : String)
    (width height : UInt32) (crop recreate : Bool) (t : HildonThumbnailPluginOutType) : Prop where
  getUri : ∃ p, hildonThumbnailGetUri build env files uri width height crop = some p ∧ OfFlavour env uri t p
  isCached : hildonThumbnailIsCached build env files uri width height crop = true →
    ∃ p, OfFlavour env uri t p ∧ newEnough env files uri p = true
  loadCustom : ∃ p, loadCustomOpened build env files later uri crop width height recreate = some p ∧
    OfFlavour env uri t p
  request : OfFlavour env uri t (openedFile build env onDisk later (requestGeneric build uri width height crop))

/-- A thumbnail of the flavour that is looked for is up to date in the home directory or beside
the original, and it is to be kept. -/
def FoundAtOnce (asPng recreate : Bool) : Prop :=
  let t : HildonThumbnailPluginOutType := if crop then .cropped else if width > 128 then .large else .normal
  recreate = false ∧
    (newEnough env files uri ((hildonThumbnailUtilGetThumbPaths env.toCacheEnv uri asPng).file t) = true ∨
      (localCopy env files uri asPng t).isSome = true)

/-- `have_all_cb` has one flag for three names: any local copy makes URIs of them all, and
the normal one is that of a local copy. -/
def NamedRight (asPng : Bool) : Prop :=
  if crop then
    (localCopy env later uri asPng .cropped).isSome = true ∨
      ((localCopy env later uri asPng .large).isSome = false ∧
        (localCopy env later uri asPng .normal).isSome = false)
  else ∃ t, (localCopy env later uri asPng t).isSome = true

end

section Flavours
variable {build : Build} {env : LocalEnv} {onDisk : String → Bool} {files later : Files} {uri : String}
  {width height : UInt32} {crop recreate asPng : Bool} {s t : HildonThumbnailPluginOutType} {p : Path}

theorem createPixbufPath_eq {α : Type} (large normal cropped : α) :
    createPixbufPath crop width height large normal cropped = if crop then cropped else normal := by
  rw [createPixbufPath]
  cases crop with
  | true => rfl
  | false => exact ite_self _

theorem localFile_of_isLocal (h : (localCopy env later uri asPng t).isSome = true) :
    localCopy env later uri asPng t = localFile env uri asPng t := by
  obtain ⟨file, hfile⟩ := Option.isSome_iff_exists.mp h
  rw [hfile, (localCopy_eq_some.mp hfile).1]

/-- Without the crop flag the name is that of the local copy in any case. -/
theorem haveAllCbOpening_eq (env : LocalEnv) (later : Files) (uri : String) (crop : Bool) (width height : UInt32)
    (asPng : Bool) : haveAllCbOpening env later uri crop width height asPng =
      { urisAsPaths := (localCopy env later uri asPng .large).isSome ||
          (localCopy env later uri asPng .normal).isSome || (localCopy env later uri asPng .cropped).isSome
        name :=
          if crop then
            if (localCopy env later uri asPng .cropped).isSome then .localUri (localFile env uri asPng .cropped)
            else .path ((hildonThumbnailUtilGetThumbPaths env.toCacheEnv uri asPng).file .cropped)
          else .localUri (localFile env uri asPng .normal) } := by
  rw [haveAllCbOpening]
  dsimp only
  rw [createPixbufPath_eq]
  rfl

theorem haveAllCb_cropped_of_isLocal (h : (localCopy env later uri asPng .cropped).isSome = true) :
    haveAllCb env later uri true width height asPng = localFile env uri asPng .cropped := by
  have hany : ((localCopy env later uri asPng .large).isSome || (localCopy env later uri asPng .normal).isSome ||
      (localCopy env later uri asPng .cropped).isSome) = true := by
    rw [h, Bool.or_true]
  rw [haveAllCb, haveAllCbOpening_eq, hany, if_pos rfl, if_pos h]
  rfl

/-- The path is taken for a URI where another flavour has a local copy. -/
theorem haveAllCb_cropped_of_not_isLocal (h : (localCopy env later uri asPng .cropped).isSome = false) :
    haveAllCb env later uri true width height asPng =
      if ((localCopy env later uri asPng .large).isSome ||
          (localCopy env later uri asPng .normal).isSome) = true then none
      else some ((hildonThumbnailUtilGetThumbPaths env.toCacheEnv uri asPng).file .cropped) := by
  rw [haveAllCb, haveAllCbOpening_eq, if_pos rfl, if_neg (Bool.eq_false_iff.mp h), h, Bool.or_false]
  cases (localCopy env later uri asPng .large).isSome || (localCopy env later uri asPng .normal).isSome <;> rfl

theorem haveAllCb_uncropped : haveAllCb env later uri false width height asPng =
    if ((localCopy env later uri asPng .large).isSome || (localCopy env later uri asPng .normal).isSome ||
      (localCopy env later uri asPng .cropped).isSome) = true then localFile env uri asPng .normal else none := by
  rw [haveAllCb, haveAllCbOpening_eq, if_neg Bool.false_ne_true]
  cases (localCopy env later uri asPng .large).isSome || (localCopy env later uri asPng .normal).isSome ||
    (localCopy env later uri asPng .cropped).isSome <;> rfl

theorem loadCustomOpened_eq : loadCustomOpened build env files later uri crop width height recreate =
    if loadHaveAll env files uri (cropFlag build crop) width recreate
        (searchedAsPng env files uri (cropFlag build crop) width height) then
      haveAllCb env later uri (cropFlag build crop) width height
        (searchedAsPng env files uri (cropFlag build crop) width height)
    else onTaskFinished env later uri (cropFlag build crop) width height := by
  rw [loadCustomOpened, loadCustomStart]
  cases recreate with
  | true => rfl
  | false =>
    simp only [Bool.false_eq_true, if_false]
    cases loadHaveAll env files uri (cropFlag build crop) width false
      (searchedAsPng env files uri (cropFlag build crop) width height) <;> rfl

theorem ofFlavour_home (asPng : Bool) :
    OfFlavour env uri t ((hildonThumbnailUtilGetThumbPaths env.toCacheEnv uri asPng).file t) := by
  cases asPng with
  | true => exact ⟨.png, .inl (OutFormat.file_eq (f := .png))⟩
  | false => exact ⟨.jpeg, .inl (OutFormat.file_eq (f := .jpeg))⟩

theorem ofFlavour_local (h : localFile env uri asPng t = some p) : OfFlavour env uri t p := by
  cases asPng with
  | true => exact ⟨.png, .inr h⟩
  | false => exact ⟨.jpeg, .inr h⟩

theorem ofFlavour_copy (files : Files) (asPng : Bool) : OfFlavour env uri t ((localCopy env files uri asPng t).getD
    ((hildonThumbnailUtilGetThumbPaths env.toCacheEnv uri asPng).file t)) := by
  cases hcopy : localCopy env files uri asPng t with
  | none => exact ofFlavour_home asPng
  | some p => exact ofFlavour_local (localCopy_eq_some.mp hcopy).1

theorem getUri_ofFlavour (h : hildonThumbnailGetUri build env files uri width height crop = some p) :
    OfFlavour env uri (getUriFlavour build width height crop) p := by
  have hlarge (h : some ((localCopy env files uri false .large).getD
      (hildonThumbnailUtilGetThumbPaths env.toCacheEnv uri false).large) = some p) : OfFlavour env uri .large p :=
    Option.some.inj h ▸ ofFlavour_copy files false
  rw [hildonThumbnailGetUri.eq_def] at h
  cases crop with
  | true => exact Option.some.inj h ▸ ofFlavour_copy (t := .cropped) files false
  | false =>
    cases build with
    | default => exact hlarge h
    | normalThumbnails => exact hlarge h
    | largeThumbnails =>
      simp only [Bool.false_eq_true, if_false] at h
      simp only [getUriFlavour, Bool.false_eq_true, if_false]
      split at h
      · next hsmall =>
        rw [if_pos hsmall]
        cases hcopy : localCopy env files uri false .normal with
        | none =>
          rw [hcopy] at h
          exact Option.some.inj h ▸ ofFlavour_home (t := .normal) false
        | some q =>
          rw [hcopy] at h
          cases h
      · next hsmall =>
        rw [if_neg hsmall]
        exact hlarge h

def loadCustomFlavour (build : Build) (crop : Bool) : HildonThumbnailPluginOutType :=
  if cropFlag build crop then .cropped else .normal

theorem ofFlavour_createPixbufPath (asPng : Bool) :
    let paths := hildonThumbnailUtilGetThumbPaths env.toCacheEnv uri asPng
    OfFlavour env uri (loadCustomFlavour build crop)
      (createPixbufPath (cropFlag build crop) width height paths.large paths.normal paths.cropped) := by
  intro paths
  rw [createPixbufPath_eq, loadCustomFlavour]
  cases cropFlag build crop with
  | true => exact ofFlavour_home (t := .cropped) asPng
  | false => exact ofFlavour_home (t := .normal) asPng

theorem haveAllCb_ofFlavour (h : haveAllCb env later uri (cropFlag build crop) width height asPng = some p) :
    OfFlavour env uri (loadCustomFlavour build crop) p := by
  rw [loadCustomFlavour]
  cases hcrop : cropFlag build crop with
  | true =>
    rw [hcrop] at h
    cases hlocal : (localCopy env later uri asPng .cropped).isSome with
    | true =>
      rw [haveAllCb_cropped_of_isLocal hlocal] at h
      exact ofFlavour_local h
    | false =>
      rw [haveAllCb_cropped_of_not_isLocal hlocal] at h
      split at h
      · cases h
      · exact Option.some.inj h ▸ ofFlavour_home asPng
  | false =>
    rw [hcrop, haveAllCb_uncropped] at h
    split at h
    · exact ofFlavour_local h
    · cases h

theorem onTaskFinished_ofFlavour
    (h : onTaskFinished env later uri (cropFlag build crop) width height = some p) :
    OfFlavour env uri (loadCustomFlavour build crop) p := by
  rw [onTaskFinished] at h
  obtain rfl := Option.some.inj h
  split
  · exact ofFlavour_createPixbufPath false
  · exact ofFlavour_createPixbufPath true

theorem loadCustom_ofFlavour (h : loadCustomOpened build env files later uri crop width height recreate = some p) :
    OfFlavour env uri (loadCustomFlavour build crop) p := by
  rw [loadCustomOpened_eq] at h
  split at h
  · exact haveAllCb_ofFlavour h
  · exact onTaskFinished_ofFlavour h

theorem request_ofFlavour (r : ThumbRequest) :
    OfFlavour env r.uri r.flavour (openedFile build env onDisk files r) :=
  ofFlavour_copy files _

theorem isCached_ofFlavour (h : hildonThumbnailIsCached build env files uri width height crop = true) :
    ∃ p, OfFlavour env uri (getUriFlavour build width height crop) p ∧ newEnough env files uri p = true := by
  rw [isCached_eq, Option.any_eq_true] at h
  obtain ⟨p, hp, hnew⟩ := h
  exact ⟨p, getUri_ofFlavour hp, hnew⟩

/-- The flavour can be seen from the path. -/
theorem ofFlavour_inj (hs : OfFlavour env uri s p) (ht : OfFlavour env uri t p) : s = t := by
  obtain ⟨f, hs⟩ := hs
  obtain ⟨g, ht⟩ := ht
  rcases hs with hs | hs <;> rcases ht with ht | ht
  · exact ((OutFormat.thumb_inj fun _ => rfl).mp (hs.symm.trans ht)).2.1
  · exact absurd hs (localFile_ne_thumb ht)
  · exact absurd ht (localFile_ne_thumb hs)
  · obtain ⟨_, _, _, hs⟩ := localFile_eq hs
    obtain ⟨_, _, _, ht⟩ := localFile_eq ht
    have hend := (List.append_inj' (hs.symm.trans ht) rfl).2
    simp only [List.cons.injEq] at hend
    exact HildonThumbnailPluginOutType.dirName_inj.mp hend.2.1

theorem localFile_eq_none_iff : localFile env uri asPng t = none ↔ localFile env uri false .normal = none := by
  simp only [localFile, Option.map_eq_none_iff]
  rw [localThumbPaths.eq_def, localThumbPaths.eq_def]
  split
  · split <;> simp
  · rfl

theorem getUri_isSome_iff : (∃ p, hildonThumbnailGetUri build env files uri width height crop = some p) ↔
    (crop = false → build = .largeThumbnails → width ≤ 128 ∨ height ≤ 128 →
      localCopy env files uri false .normal = none) := by
  rw [hildonThumbnailGetUri.eq_def]
  cases crop with
  | true => simp
  | false =>
    cases build with
    | default => simp
    | normalThumbnails => simp
    | largeThumbnails =>
      by_cases hsmall : width ≤ 128 ∨ height ≤ 128
      · cases localCopy env files uri false .normal <;> simp [hsmall]
      · simp [hsmall]

theorem foundAtOnce_iff : FoundAtOnce env files uri crop width asPng recreate ↔
    loadHaveAll env files uri crop width recreate asPng = true := by
  simp only [FoundAtOnce, loadHaveAll, Bool.and_eq_true, Bool.or_eq_true, Bool.not_eq_true']

theorem localFile_isSome_of_isLocal (h : (localCopy env later uri asPng s).isSome = true) :
    (localFile env uri asPng t).isSome = true := by
  rw [localFile_of_isLocal h, Option.isSome_iff_ne_none, ne_eq, localFile_eq_none_iff] at h
  rw [Option.isSome_iff_ne_none, ne_eq, localFile_eq_none_iff]
  exact h

theorem anyLocal_iff : ((localCopy env later uri asPng .large).isSome ||
      (localCopy env later uri asPng .normal).isSome || (localCopy env later uri asPng .cropped).isSome) = true ↔
    ∃ t, (localCopy env later uri asPng t).isSome = true := by
  constructor
  · intro h
    rcases Bool.or_eq_true_iff.mp h with h | hcropped
    · rcases Bool.or_eq_true_iff.mp h with hlarge | hnormal
      · exact ⟨.large, hlarge⟩
      · exact ⟨.normal, hnormal⟩
    · exact ⟨.cropped, hcropped⟩
  · rintro ⟨t, ht⟩
    cases t <;> simp [ht]

theorem haveAllCb_isSome_iff (width height : UInt32) :
    (∃ p, haveAllCb env later uri crop width height asPng = some p) ↔ NamedRight env later uri crop asPng := by
  rw [NamedRight]
  cases crop with
  | true =>
    rw [if_pos rfl]
    cases hlocal : (localCopy env later uri asPng .cropped).isSome with
    | true =>
      rw [haveAllCb_cropped_of_isLocal hlocal]
      exact iff_of_true (Option.isSome_iff_exists.mp (localFile_isSome_of_isLocal hlocal)) (.inl rfl)
    | false =>
      rw [haveAllCb_cropped_of_not_isLocal hlocal]
      cases (localCopy env later uri asPng .large).isSome <;>
        cases (localCopy env later uri asPng .normal).isSome <;> simp
  | false =>
    rw [if_neg Bool.false_ne_true, haveAllCb_uncropped, ← anyLocal_iff]
    split
    · next hany =>
      obtain ⟨t, ht⟩ := anyLocal_iff.mp hany
      exact iff_of_true (Option.isSome_iff_exists.mp (localFile_isSome_of_isLocal ht)) hany
    · next hany => exact iff_of_false (fun ⟨_, h⟩ => nomatch h) hany

theorem loadCustom_isSome_iff (hcrop : cropFlag build crop = crop) :
    (∃ p, loadCustomOpened build env files later uri crop width height recreate = some p) ↔
      (FoundAtOnce env files uri crop width (searchedAsPng env files uri crop width height) recreate →
        NamedRight env later uri crop (searchedAsPng env files uri crop width height)) := by
  rw [foundAtOnce_iff, ← haveAllCb_isSome_iff width height, loadCustomOpened_eq]
  simp only [hcrop]
  split
  · next hall => exact ⟨fun hread _ => hread, fun hread => hread hall⟩
  · next hall => exact iff_of_true ⟨_, rfl⟩ fun h => absurd h hall

theorem flavours_of_oneFlavour
    (h : OneFlavour build env onDisk files later uri width height crop recreate t) :
    getUriFlavour build width height crop = t ∧ loadCustomFlavour build crop = t ∧
      (requestGeneric build uri width height crop).flavour = t := by
  obtain ⟨p, hp, hnamed⟩ := h.getUri
  obtain ⟨q, hq, hloaded⟩ := h.loadCustom
  refine ⟨?_, ?_, ?_⟩
  · exact ofFlavour_inj (getUri_ofFlavour hp) hnamed
  · exact ofFlavour_inj (loadCustom_ofFlavour hq) hloaded
  · exact ofFlavour_inj (request_ofFlavour (requestGeneric build uri width height crop)) h.request

theorem oneFlavour_of_eq (hnamed : ∃ p, hildonThumbnailGetUri build env files uri width height crop = some p)
    (hread : ∃ p, loadCustomOpened build env files later uri crop width height recreate = some p)
    (hload : getUriFlavour build width height crop = loadCustomFlavour build crop)
    (hrequest : getUriFlavour build width height crop = (requestGeneric build uri width height crop).flavour) :
    OneFlavour build env onDisk files later uri width height crop recreate
      (getUriFlavour build width height crop) where
  getUri := hnamed.imp fun _ hp => ⟨hp, getUri_ofFlavour hp⟩
  isCached h := isCached_ofFlavour h
  loadCustom := hread.imp fun _ hp => ⟨hp, hload ▸ loadCustom_ofFlavour hp⟩
  request := hrequest ▸ request_ofFlavour (requestGeneric build uri width height crop)

theorem flavours_eq_iff (build : Build) (uri : String) (width height : UInt32) (crop : Bool) :
    (getUriFlavour build width height crop = loadCustomFlavour build crop ∧
        getUriFlavour build width height crop = (requestGeneric build uri width height crop).flavour) ↔
      crop = true ∨ (build = .largeThumbnails ∧ (width > 128 ↔ height ≤ 128)) := by
  cases crop with
  | true =>
    refine iff_of_true ?_ (.inl rfl)
    cases build <;> exact ⟨rfl, rfl⟩
  | false =>
    cases build with
    | default => exact iff_of_false (fun h => nomatch h.1) (by simp)
    | normalThumbnails => exact iff_of_false (fun h => nomatch h.1) (by simp)
    | largeThumbnails =>
      have hnamed : getUriFlavour .largeThumbnails width height false =
          if width ≤ 128 ∨ height ≤ 128 then .normal else .large := rfl
      have hload : loadCustomFlavour .largeThumbnails false = .normal := rfl
      have hrequest : (requestGeneric .largeThumbnails uri width height false).flavour =
          if width > 128 ∨ height > 128 then .normal else .large := rfl
      have hwidth : width > 128 ↔ ¬ width ≤ 128 := UInt32.not_le.symm
      have hheight : height > 128 ↔ ¬ height ≤ 128 := UInt32.not_le.symm
      rw [hnamed, hload, hrequest]
      simp only [hwidth, hheight]
      by_cases hw : width ≤ 128 <;> by_cases hh : height ≤ 128 <;> simp [hw, hh]

theorem cropFlag_eq (h : crop = true ∨ build = .largeThumbnails) : cropFlag build crop = crop := by
  rcases h with rfl | rfl
  · cases build <;> rfl
  · rfl

/-- The sizes at which a flavour is chosen differ from place to place, and two of
the choices end with the normal flavour or begin with it. Where they agree, a local
copy keeps `get_uri` from a name, or the one flag of `have_all_cb` the file from being read. -/
theorem oneFlavour_iff (build : Build) (env : LocalEnv) (onDisk : String → Bool) (files later : Files)
    (uri : String) (width height : UInt32) (crop recreate : Bool) :
    (∃ t, OneFlavour build env onDisk files later uri width height crop recreate t) ↔
      (crop = true ∨ (build = .largeThumbnails ∧ (width > 128 ↔ height ≤ 128) ∧
        localCopy env files uri false .normal = none)) ∧
      (FoundAtOnce env files uri crop width (searchedAsPng env files uri crop width height) recreate →
        NamedRight env later uri crop (searchedAsPng env files uri crop width height)) := by
  have hflavours := flavours_eq_iff build uri width height crop
  constructor
  · rintro ⟨t, ht⟩
    obtain ⟨hnamed, hload, hrequest⟩ := flavours_of_oneFlavour ht
    have hread := ht.loadCustom.imp fun _ h => h.1
    rcases hflavours.mp ⟨hnamed.trans hload.symm, hnamed.trans hrequest.symm⟩ with rfl | ⟨rfl, hsides⟩
    · exact ⟨.inl rfl, (loadCustom_isSome_iff (cropFlag_eq (.inl rfl))).mp hread⟩
    · refine ⟨?_, (loadCustom_isSome_iff (cropFlag_eq (.inr rfl))).mp hread⟩
      cases crop with
      | true => exact .inl rfl
      | false =>
        have hsmall : width ≤ 128 ∨ height ≤ 128 := by
          by_cases hwidth : width ≤ 128
          · exact .inl hwidth
          · exact .inr (hsides.mp (UInt32.not_le.mp hwidth))
        have hcopy := getUri_isSome_iff.mp (ht.getUri.imp fun _ h => h.1) rfl rfl hsmall
        exact .inr ⟨rfl, hsides, hcopy⟩
  · rintro ⟨hchoice, hread⟩
    have hsame : crop = true ∨ (build = .largeThumbnails ∧ (width > 128 ↔ height ≤ 128)) :=
      hchoice.imp_right fun h => ⟨h.1, h.2.1⟩
    have hnamed : ∃ p, hildonThumbnailGetUri build env files uri width height crop = some p := by
      refine getUri_isSome_iff.mpr fun huncropped _ _ => ?_
      rcases hchoice with hcrop | ⟨_, _, hcopy⟩
      · rw [hcrop] at huncropped
        cases huncropped
      · exact hcopy
    have hcrop := cropFlag_eq (hsame.imp_right And.left)
    obtain ⟨hload, hrequest⟩ := hflavours.mpr hsame
    exact ⟨_, oneFlavour_of_eq hnamed ((loadCustom_isSome_iff hcrop).mpr hread) hload hrequest⟩

def photoEnv : LocalEnv where
  home := ["home", "user"]
  md5 := id
  fileInfo := fun _ => some ⟨"a.jpg", 100⟩
  parent := fun _ => some ["home", "user", "MyDocs"]

theorem oneFlavour_small : ¬ ∀ (build : Build) (width height : UInt32) (crop : Bool) (env : LocalEnv)
    (onDisk : String → Bool) (files later : Files) (uri : String) (recreate : Bool),
      ∃ t, OneFlavour build env onDisk files later uri width height crop recreate t := by
  intro h
  obtain ⟨t, ht⟩ := h .default 100 100 false photoEnv (fun _ => false) ∅ ∅ "file:///home/user/MyDocs/a.jpg" true
  obtain ⟨hnamed, hload, _⟩ := flavours_of_oneFlavour ht
  exact nomatch hnamed.trans hload.symm

end Flavours

end HildonThumbnail
