import HildonThumbnail.Epeg.Orientation
import HildonThumbnail.Gdkpixbuf.Create
import HildonThumbnail.Image.WantedSize
import HildonThumbnail.Lib.Failures

/-! The plugin that makes thumbnails of JPEG files with epeg
(`hildon_thumbnail_plugin_create` in daemon/plugins/epeg-plugin.c). -/

namespace HildonThumbnail

namespace Epeg

open Gdkpixbuf (Moment)

/-- What libjpeg gives of a file that is opened to restore its orientation. From
an error it jumps to the end. -/
inductive JpegHeader
  | error
  | read (markerList : List SavedMarker)

/-- By the position of the URI what one call meets: the path of the file, its
sides if epeg opens it, whether there are pixels in a size, its header if it can
be opened, and the messages of errors. A side of a JPEG has 16 bits. -/
structure Env where
  cache : CacheEnv
  largeThumbnails : Bool
  normalThumbnails : Bool
  haveLibexif : Bool
  doCropped : Bool
  plugins : List OutPlugin
  getPath : Nat → Option String
  queryInfo : Nat → Except String UInt64
  queryAgain : Nat → Option UInt64
  now : Nat → Moment → UInt64
  fileOpen : Nat → Option (UInt16 × UInt16)
  newFromFile : Nat → Option String
  newFromFileAtScale : Nat → Option String
  pixels : Nat → Int × Int → Bool
  header : Nat → Option JpegHeader
  saved : Nat → HildonThumbnailPluginOutType → Nat → Except String Unit

def Env.asked (env : Env) : List HildonThumbnailPluginOutType :=
  (if env.largeThumbnails then [.large] else []) ++ (if env.normalThumbnails then [.normal] else []) ++ [.cropped]

/-- The cropped flavour comes before the normal one here. -/
def Env.made (env : Env) : List HildonThumbnailPluginOutType :=
  (if env.largeThumbnails then [.large] else []) ++ (if env.doCropped then [.cropped] else []) ++
    if env.normalThumbnails then [.normal] else []

def needsSome (env : Env) (files : Files) (i : Nat) (mtime : UInt64) (uri : String) :
    List HildonThumbnailPluginOutType → Bool → Png.NeedsOut
  | [], errFile => ⟨false, errFile⟩
  | t :: types, errFile =>
    let r := outpluginsNeedsOut env.cache (env.now i (.needsOut t)) t mtime uri files env.plugins errFile
    if r.retval then r else needsSome env files i mtime uri types r.errFile

structure Round where
  files : Files
  hadErr : Bool
  errFile : Bool
  nerror : Option String

def Round.fails (round : Round) : Bool := round.hadErr || round.nerror.isSome || round.errFile

def makeFlavour (env : Env) (i : Nat) (mtime : UInt64) (uri : String) (files : Files) (errFile : Bool)
    (t : HildonThumbnailPluginOutType) : Round :=
  let r := outpluginsNeedsOut env.cache (env.now i (.needsOutAgain t)) t mtime uri files env.plugins errFile
  if r.retval then
    let out := outpluginsDoOut env.cache (env.now i (.doOut t)) t mtime uri env.plugins (env.saved i t) files none
    ⟨out.1, false, r.errFile, out.2⟩
  else ⟨files, false, r.errFile, none⟩

def makeFlavours (env : Env) (i : Nat) (mtime : UInt64) (uri : String) :
    List HildonThumbnailPluginOutType → Files → Bool → Round
  | [], files, errFile => ⟨files, false, errFile, none⟩
  | t :: types, files, errFile =>
    let round := makeFlavour env i mtime uri files errFile t
    if round.nerror.isSome then round else makeFlavours env i mtime uri types round.files round.errFile

/-- The markers in which the orientation is looked for, in a build with libexif. -/
def Env.markers (env : Env) (i : Nat) : Option (List SavedMarker) :=
  if env.haveLibexif then
    match env.header i with
    | some (.read markerList) => some markerList
    | _ => none
  else none

/-- The option that the picture gets. Nothing if a byte outside of a marker is read. -/
def restoreOrientation (env : Env) (i : Nat) : Option (Option String) :=
  match env.markers i with
  | none => some none
  | some markerList =>
    (getOrientation markerList).map fun isOtag => if isOtag ≠ 0 then some (toString isOtag.toNat) else none

/-- What becomes of `pixbuf_large1`. Without a message `had_err` alone is set. -/
inductive Decoded
  | made (orientation : Option String)
  | failed (nerror : Option String)

/-- A small picture comes from gdk-pixbuf, which sees to the orientation itself. -/
def decode (env : Env) (i : Nat) (ow oh : UInt16) : Option Decoded :=
  if ow ≤ 256 ∨ oh ≤ 256 then
    match if ow < 124 ∧ oh < 124 then env.newFromFile i else env.newFromFileAtScale i with
    | some message => some (.failed (some message))
    | none => some (.made none)
  else
    (wantedSizeDividing ow.toNat oh.toNat 256 256).bind fun size =>
      if env.pixels i size then (restoreOrientation env i).map .made else some (.failed none)

/-- One round of the loop up to the label `nerror_handler`. -/
def createOne (env : Env) (i : Nat) (uri : String) (files : Files) : Option Round :=
  match env.getPath i with
  | none => some ⟨files, true, false, none⟩
  | some _ =>
    match env.queryInfo i with
    | .error message => some ⟨files, false, false, some message⟩
    | .ok mtime =>
      let r := needsSome env files i mtime uri env.asked false
      if r.retval then
        match env.fileOpen i with
        | none => some ⟨files, true, r.errFile, none⟩
        | some (ow, oh) =>
          (decode env i ow oh).map fun
            | .failed nerror => ⟨files, nerror.isNone, r.errFile, nerror⟩
            | .made _ => makeFlavours env i mtime uri env.made files r.errFile
      else some ⟨files, false, r.errFile, none⟩

structure Created where
  files : Files
  errors : Option String
  failed : List String

def message (uri : String) (round : Round) : String :=
  match round.nerror with
  | some message => message
  | none => if round.errFile then "Failed before" else "Can't open " ++ uri

/-- What follows `nerror_handler`. The error is freed before it is put on file,
so that no message gets there. -/
def nerrorHandler (env : Env) (i : Nat) (uri : String) (round : Round) (s : Created) : Created :=
  if round.fails then
    let files :=
      if round.errFile then round.files
      else
        match env.queryAgain i with
        | none => round.files
        | some mtime => outpluginsPutError env.cache (env.now i .putError) mtime uri none env.plugins round.files
    ⟨files, some (s.errors.getD "" ++ ("[`" ++ uri ++ "': " ++ message uri round ++ "] ")), uri :: s.failed⟩
  else { s with files := round.files }

def createStep (env : Env) (s : Created) (uri : String × Nat) : Option Created :=
  (createOne env uri.2 uri.1 s.files).map fun round => nerrorHandler env uri.2 uri.1 round s

def createLoop (env : Env) (uris : List String) (files : Files) : Option Created :=
  StepRun.run (createStep env) ⟨files, none, []⟩ uris.zipIdx

def Created.report (s : Created) : Failures.Report String := ⟨s.errors, s.failed⟩

def hildonThumbnailPluginCreate (env : Env) (uris : List String) (files : Files) :
    Option (Failures.Returned String) :=
  (createLoop env uris files).bind fun s => s.report.finish

def outcome (env : Env) (s : Created) (uri : String × Nat) : Option String :=
  (createOne env uri.2 uri.1 s.files).bind fun round =>
    if round.fails then some ("[`" ++ uri.1 ++ "': " ++ message uri.1 round ++ "] ") else none

def KeepsContract (env : Env) (uris : List String) (files : Files) : Prop :=
  ∃ returned, hildonThumbnailPluginCreate env uris files = some returned ∧
    Failures.Contract uris (Failures.rounds (createStep env) Prod.fst (outcome env) ⟨files, none, []⟩ uris.zipIdx)
      returned

/-- A round comes to the orientation of a picture: something is to be done for it,
both of its sides are longer than 256, and epeg has its pixels. -/
def Restores (env : Env) (files : Files) (uri : String × Nat) : Prop :=
  (∃ path, env.getPath uri.2 = some path) ∧
    ∃ mtime, env.queryInfo uri.2 = .ok mtime ∧
      (needsSome env files uri.2 mtime uri.1 env.asked false).retval = true ∧
      ∃ ow oh, env.fileOpen uri.2 = some (ow, oh) ∧ 256 < ow ∧ 256 < oh ∧
        env.pixels uri.2 (wantedSize ow.toNat oh.toNat 256 256) = true

/-- No picture that comes to it has markers out of which `get_orientation` reads. -/
def OrientationsInside (env : Env) (uris : List String) (files : Files) : Prop :=
  StepRun.Guarded (createStep env)
    (fun s uri => Restores env s.files uri → ∀ markerList, env.markers uri.2 = some markerList →
      MarkersInside markerList) ⟨files, none, []⟩ uris.zipIdx

section
variable {env : Env} {uris : List String} {files : Files} {s t : Created}

theorem restoreOrientation_isSome_iff (env : Env) (i : Nat) : (restoreOrientation env i).isSome ↔
    ∀ markerList, env.markers i = some markerList → MarkersInside markerList := by
  rw [restoreOrientation]
  cases env.markers i with
  | none => simp
  | some markerList => simp [getOrientation_isSome_iff]

theorem decode_isSome_iff (env : Env) (i : Nat) (ow oh : UInt16) : (decode env i ow oh).isSome ↔
    (256 < ow → 256 < oh → env.pixels i (wantedSize ow.toNat oh.toNat 256 256) = true →
      ∀ markerList, env.markers i = some markerList → MarkersInside markerList) := by
  rw [← restoreOrientation_isSome_iff, decode]
  by_cases hsmall : ow ≤ 256 ∨ oh ≤ 256
  · rw [if_pos hsmall]
    refine iff_of_true ?_ fun hw hh => ?_
    · cases (if ow < 124 ∧ oh < 124 then env.newFromFile i else env.newFromFileAtScale i) <;> rfl
    · rw [← UInt16.not_lt, ← UInt16.not_lt] at hsmall
      exact absurd hsmall (by simp [hw, hh])
  · obtain ⟨hw, hh⟩ := not_or.mp hsmall
    rw [UInt16.not_le] at hw hh
    have hwide : 256 < ow.toNat := UInt16.lt_iff_toNat_lt.mp hw
    have hhigh : 256 < oh.toNat := UInt16.lt_iff_toNat_lt.mp hh
    have hsize : wantedSizeDividing ow.toNat oh.toNat 256 256 = some (wantedSize ow.toNat oh.toNat 256 256) :=
      wantedSizeDividing_eq (by omega) (by omega) (by decide) (by decide)
    rw [if_neg hsmall, hsize, Option.bind_some]
    cases env.pixels i (wantedSize ow.toNat oh.toNat 256 256) <;> simp [hw, hh]

theorem createOne_isSome_iff (env : Env) (uri : String × Nat) (files : Files) :
    (createOne env uri.2 uri.1 files).isSome ↔ (Restores env files uri → ∀ markerList,
      env.markers uri.2 = some markerList → MarkersInside markerList) := by
  rw [createOne, Restores]
  cases hpath : env.getPath uri.2 with
  | none => simp
  | some path =>
    cases hquery : env.queryInfo uri.2 with
    | error message => simp
    | ok mtime =>
      cases hneeds : (needsSome env files uri.2 mtime uri.1 env.asked false).retval with
      | false => simp [hneeds]
      | true =>
        cases hopen : env.fileOpen uri.2 with
        | none => simp [hneeds]
        | some size =>
          obtain ⟨ow, oh⟩ := size
          simp only [hneeds, if_true, Option.isSome_map, decode_isSome_iff, Option.some.injEq, Except.ok.injEq,
            Prod.mk.injEq]
          constructor
          · rintro h ⟨-, m, rfl, -, w, l, ⟨rfl, rfl⟩, hw, hl, hpixels⟩
            exact h hw hl hpixels
          · intro h hw hl hpixels
            exact h ⟨⟨path, rfl⟩, mtime, rfl, hneeds, ow, oh, ⟨rfl, rfl⟩, hw, hl, hpixels⟩

theorem createStep_isSome_iff (env : Env) (s : Created) (uri : String × Nat) : (createStep env s uri).isSome ↔
    (Restores env s.files uri → ∀ markerList, env.markers uri.2 = some markerList → MarkersInside markerList) := by
  rw [createStep, Option.isSome_map, createOne_isSome_iff]

theorem createStep_report (env : Env) (s : Created) (uri : String × Nat) (t : Created)
    (h : createStep env s uri = some t) : t.report = s.report.add uri.1 (outcome env s uri) := by
  obtain ⟨round, hround, rfl⟩ := Option.map_eq_some_iff.mp h
  rw [outcome, hround, Option.bind_some, nerrorHandler]
  split <;> rfl

theorem createLoop_isSome_iff : (createLoop env uris files).isSome ↔ OrientationsInside env uris files :=
  StepRun.run_isSome_iff (P := fun _ => True) (fun _ _ _ _ _ => trivial)
    (fun s uri _ => createStep_isSome_iff env s uri) trivial _

theorem keepsContract_iff_orientationsInside :
    KeepsContract env uris files ↔ OrientationsInside env uris files := by
  rw [← createLoop_isSome_iff]
  constructor
  · rintro ⟨returned, hcall, -⟩
    obtain ⟨t, hrun, -⟩ := Option.bind_eq_some_iff.mp hcall
    exact Option.isSome_iff_exists.mpr ⟨t, hrun⟩
  · intro h
    obtain ⟨t, hrun⟩ := Option.isSome_iff_exists.mp h
    have hempty : (⟨files, none, []⟩ : Created).report = .empty := rfl
    obtain ⟨returned, hfinish, hcontract⟩ := Failures.run_contract (createStep_report env) hempty hrun
    rw [List.zipIdx_map_fst] at hcontract
    exact ⟨returned, by rw [hildonThumbnailPluginCreate, hrun, Option.bind_some, hfinish], hcontract⟩

end

end Epeg

end HildonThumbnail
