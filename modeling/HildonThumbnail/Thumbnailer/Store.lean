import Mathlib.Data.List.Zip
import HildonThumbnail.Lib.Transfer
import HildonThumbnail.OutPlugin.JpegIndex

/-! The thumbnails in the home directory as what is held for a URI, over any
requests to move, to copy and to delete. -/

namespace HildonThumbnail

/-- The two formats in the order of the rounds, and the flavours in the order of a round. -/
def thumbKeys : List (OutFormat × HildonThumbnailPluginOutType) :=
  [OutFormat.png, .jpeg].flatMap fun f => Jpeg.flavours.map fun t => (f, t)

def digestThumb (home : Path) (digest : String) (key : OutFormat × HildonThumbnailPluginOutType) : Path :=
  key.1.thumb ⟨home, id⟩ key.2 digest

/-- All that the home directory holds for the digest of a URI. -/
abbrev heldThumbs (env : CacheEnv) (files : Files) :
    String → OutFormat × HildonThumbnailPluginOutType → Option CacheFile :=
  Transfer.contents (digestThumb env.home) files

inductive StoreRequest
  | move (fromUrls toUrls : List String)
  | copy (fromUrls toUrls : List String)
  | delete (urls : List String)

def StoreRequest.onFiles (env : CacheEnv) (files : Files) : StoreRequest → Files
  | .move fromUrls toUrls => thumbnailerMove env fromUrls toUrls files
  | .copy fromUrls toUrls => thumbnailerCopy env fromUrls toUrls files
  | .delete urls => thumbnailerDelete env urls files

def digestPairs (env : CacheEnv) (fromUrls toUrls : List String) : List (String × String) :=
  (fromUrls.map env.md5).zip (toUrls.map env.md5)

/-- What a request is meant to do. -/
def StoreRequest.onHeld (env : CacheEnv)
    (held : String → OutFormat × HildonThumbnailPluginOutType → Option CacheFile) :
    StoreRequest → String → OutFormat × HildonThumbnailPluginOutType → Option CacheFile
  | .move fromUrls toUrls => Transfer.moveAll (digestPairs env fromUrls toUrls) held
  | .copy fromUrls toUrls => Transfer.copyAll (digestPairs env fromUrls toUrls) held
  | .delete urls => Transfer.dropAll (urls.map env.md5) held

section Store
variable {env : CacheEnv} {files : Files} {u v : String} {p : Path} {left : Option CacheFile → Option CacheFile}
  {op : Files → Path → Path → Files} {fromUrls toUrls urls : List String}

theorem digestThumb_separate (home : Path) : Transfer.Separate (digestThumb home) := by
  intro d e k l h
  have hthumb : k.1.thumb ⟨home, id⟩ k.2 d = l.1.thumb ⟨home, id⟩ l.2 e := h
  obtain ⟨hf, ht, hd⟩ := (OutFormat.thumb_inj fun e => e).mp hthumb
  exact ⟨hd, Prod.ext hf ht⟩

theorem mem_thumbKeys (k : OutFormat × HildonThumbnailPluginOutType) : k ∈ thumbKeys := by
  obtain ⟨f, t⟩ := k
  cases f <;> cases t <;> decide

theorem thumbKeys_nodup : thumbKeys.Nodup := by decide

theorem gRename_carries : Transfer.Carries (fun _ => none) gRename := by
  intro files a b p
  rw [gRename]
  split
  · next h =>
    rw [h, Option.none_or]
    split
    · next hb => rw [hb]
    · split
      · next ha => rw [ha, h]
      · rfl
  · next file h =>
    rw [KeyTable.lookup_insert_eq, KeyTable.lookup_erase_eq, h]
    rfl

theorem gFileCopy_carries : Transfer.Carries id gFileCopy := by
  intro files a b p
  have hsame : (if p = a then files.lookup a else files.lookup p) = files.lookup p := by
    split
    · next ha => rw [ha]
    · rfl
  rw [id_eq, hsame, gFileCopy]
  split
  · next h =>
    rw [h, Option.none_or]
    split
    · next hb => rw [hb]
    · rfl
  · next file h =>
    rw [KeyTable.lookup_insert_eq, h]
    rfl

theorem eachFormat_pair_eq : eachFormat (pairThumbs env op u v) files = thumbKeys.foldl (fun files k =>
    op files (digestThumb env.home (env.md5 u) k) (digestThumb env.home (env.md5 v) k)) files := by
  change [OutFormat.png, .jpeg].foldl (fun files f => pairThumbs env op u v files f.asPng) files = _
  simp only [Jpeg.pairThumbs_eq, thumbKeys, List.foldl_flatMap, List.foldl_map]
  rfl

theorem eachFormat_delete_eq : eachFormat (deleteThumbs env u) files =
    thumbKeys.foldl (fun files k => files.erase (digestThumb env.home (env.md5 u) k)) files := by
  change [OutFormat.png, .jpeg].foldl (fun files f => deleteThumbs env u files f.asPng) files = _
  simp only [Jpeg.deleteThumbs_eq, thumbKeys, List.foldl_flatMap, List.foldl_map]
  rfl

theorem heldThumbs_eachPair (h : Transfer.Carries left op) :
    heldThumbs env (eachPair env op fromUrls toUrls files) =
    Transfer.transferAll left (digestPairs env fromUrls toUrls) (heldThumbs env files) := by
  rw [eachPair, digestPairs, List.zip_map, Transfer.transferAll, List.foldl_map]
  generalize fromUrls.zip toUrls = pairs
  induction pairs generalizing files with
  | nil => rfl
  | cons pair pairs ih =>
    rw [List.foldl_cons, List.foldl_cons, ih, eachFormat_pair_eq, heldThumbs,
      Transfer.contents_carry (digestThumb_separate env.home) h thumbKeys_nodup mem_thumbKeys]
    rfl

theorem heldThumbs_delete : heldThumbs env (thumbnailerDelete env urls files) =
    Transfer.dropAll (urls.map env.md5) (heldThumbs env files) := by
  rw [thumbnailerDelete, Transfer.dropAll, List.foldl_map]
  induction urls generalizing files with
  | nil => rfl
  | cons u urls ih => rw [List.foldl_cons, List.foldl_cons, ih, eachFormat_delete_eq, heldThumbs,
      Transfer.contents_erase (digestThumb_separate env.home) mem_thumbKeys]

theorem heldThumbs_request (env : CacheEnv) (files : Files) (request : StoreRequest) :
    heldThumbs env (request.onFiles env files) = request.onHeld env (heldThumbs env files) := by
  cases request with
  | move fromUrls toUrls => exact heldThumbs_eachPair gRename_carries
  | copy fromUrls toUrls => exact heldThumbs_eachPair gFileCopy_carries
  | delete urls => exact heldThumbs_delete

theorem lookup_eachPair_other (h : Transfer.Carries left op) (hp : ∀ d k, p ≠ digestThumb env.home d k) :
    (eachPair env op fromUrls toUrls files).lookup p = files.lookup p := by
  rw [eachPair]
  generalize fromUrls.zip toUrls = pairs
  induction pairs generalizing files with
  | nil => rfl
  | cons pair pairs ih => rw [List.foldl_cons, ih, eachFormat_pair_eq,
      Transfer.lookup_carry_other h (fun k _ => hp _ k) fun k _ => hp _ k]

theorem lookup_request_other (files : Files) (hp : ∀ d k, p ≠ digestThumb env.home d k) (request : StoreRequest) :
    (request.onFiles env files).lookup p = files.lookup p := by
  cases request with
  | move fromUrls toUrls => exact lookup_eachPair_other gRename_carries hp
  | copy fromUrls toUrls => exact lookup_eachPair_other gFileCopy_carries hp
  | delete urls =>
    rw [StoreRequest.onFiles, thumbnailerDelete]
    induction urls generalizing files with
    | nil => rfl
    | cons u urls ih =>
      rw [List.foldl_cons, ih, eachFormat_delete_eq]
      have herase (ks : List _) (files : Files) : (ks.foldl (fun files k =>
          files.erase (digestThumb env.home (env.md5 u) k)) files).lookup p = files.lookup p := by
        induction ks generalizing files with
        | nil => rfl
        | cons k ks ih => rw [List.foldl_cons, ih, AList.lookup_erase_ne (hp _ k)]
      exact herase thumbKeys files

/-- Two directories that hold the same thumbnails and agree on everything else. -/
theorem lookup_eq_of_held {files files' : Files} (hheld : heldThumbs env files = heldThumbs env files')
    (hother : ∀ p, (∀ d k, p ≠ digestThumb env.home d k) → files.lookup p = files'.lookup p) (p : Path) :
    files.lookup p = files'.lookup p := by
  by_cases h : ∃ d k, p = digestThumb env.home d k
  · obtain ⟨d, k, rfl⟩ := h
    exact congrFun (congrFun hheld d) k
  · exact hother p fun d k e => h ⟨d, k, e⟩

end Store

/-- Any requests leave what they are meant to leave, and touch nothing but thumbnails. -/
theorem requests_refine_store (env : CacheEnv) (requests : List StoreRequest) (files : Files) :
    heldThumbs env (requests.foldl (StoreRequest.onFiles env) files) =
        requests.foldl (StoreRequest.onHeld env) (heldThumbs env files) ∧
      ∀ p, (∀ d k, p ≠ digestThumb env.home d k) →
        (requests.foldl (StoreRequest.onFiles env) files).lookup p = files.lookup p := by
  induction requests generalizing files with
  | nil => exact ⟨rfl, fun _ _ => rfl⟩
  | cons request requests ih =>
    obtain ⟨hheld, hother⟩ := ih (request.onFiles env files)
    refine ⟨?_, fun p hp => ?_⟩
    · rw [List.foldl_cons, hheld, heldThumbs_request, List.foldl_cons]
    · rw [List.foldl_cons, hother p hp, lookup_request_other files hp]

section Laws
variable {env : CacheEnv} {files : Files} {fromUrls toUrls : List String}

theorem digestPairs_fst (hlen : fromUrls.length = toUrls.length) :
    (digestPairs env fromUrls toUrls).map Prod.fst = fromUrls.map env.md5 :=
  List.map_fst_zip (by simp [hlen])

theorem digestPairs_snd (hlen : fromUrls.length = toUrls.length) :
    (digestPairs env fromUrls toUrls).map Prod.snd = toUrls.map env.md5 :=
  List.map_snd_zip (by simp [hlen])

theorem digestPairs_apart (hlen : fromUrls.length = toUrls.length)
    (hnodup : ((fromUrls ++ toUrls).map env.md5).Nodup) :
    Transfer.Apart (digestPairs env fromUrls toUrls) := by
  rw [Transfer.Apart, digestPairs_fst hlen, digestPairs_snd hlen, ← List.map_append]
  exact hnodup

theorem digestPairs_swap : (digestPairs env fromUrls toUrls).map Prod.swap = digestPairs env toUrls fromUrls :=
  List.zip_swap _ _

end Laws

/-- Where no digest is named twice, to move is to copy and to delete, and a move
to URIs without thumbnails can be undone. -/
theorem move_copy_delete (env : CacheEnv) (fromUrls toUrls : List String) (files : Files)
    (hlen : fromUrls.length = toUrls.length) (hnodup : ((fromUrls ++ toUrls).map env.md5).Nodup) :
    (∀ p, (thumbnailerDelete env fromUrls (thumbnailerCopy env fromUrls toUrls files)).lookup p =
        (thumbnailerMove env fromUrls toUrls files).lookup p) ∧
      ((∀ v ∈ toUrls, ∀ (f : OutFormat) t, files.lookup (f.thumb env t v) = none) →
        ∀ p, (thumbnailerMove env toUrls fromUrls (thumbnailerMove env fromUrls toUrls files)).lookup p =
          files.lookup p) := by
  have hapart := digestPairs_apart hlen hnodup
  have hmove := heldThumbs_request env files (.move fromUrls toUrls)
  constructor
  · refine @lookup_eq_of_held env _ _ ?_ fun p hp => ?_
    · have hcopy := heldThumbs_request env files (.copy fromUrls toUrls)
      have hheld := Transfer.dropAll_copyAll (s := heldThumbs env files) hapart
      rw [digestPairs_fst hlen] at hheld
      exact (heldThumbs_delete.trans (congrArg (Transfer.dropAll _) hcopy)).trans (hheld.trans hmove.symm)
    · have hdelete := lookup_request_other (thumbnailerCopy env fromUrls toUrls files) hp (.delete fromUrls)
      have hcopy := lookup_request_other files hp (.copy fromUrls toUrls)
      exact (hdelete.trans hcopy).trans (lookup_request_other files hp (.move fromUrls toUrls)).symm
  · intro hfree
    refine @lookup_eq_of_held env _ _ ?_ fun p hp => ?_
    · have hback := heldThumbs_request env (thumbnailerMove env fromUrls toUrls files)
        (.move toUrls fromUrls)
      have hheld := Transfer.moveAll_back (s := heldThumbs env files) hapart
      rw [digestPairs_snd hlen, digestPairs_swap] at hheld
      refine (hback.trans (congrArg (Transfer.moveAll _) hmove)).trans (hheld fun d hd k => ?_)
      obtain ⟨v, hv, rfl⟩ := List.mem_map.mp hd
      exact hfree v hv k.1 k.2
    · have hback := lookup_request_other (thumbnailerMove env fromUrls toUrls files) hp (.move toUrls fromUrls)
      exact hback.trans (lookup_request_other files hp (.move fromUrls toUrls))

theorem move_copy_delete_two : let env : CacheEnv := ⟨["home"], id⟩
    let fromUrls := ["file:///a.jpg", "file:///b.jpg"]
    let toUrls := ["file:///c.jpg", "file:///d.jpg"]
    let files : Files := (∅ : Files).insert (OutFormat.jpeg.thumb env .large "file:///a.jpg") ⟨5, .jpeg⟩
    (∀ p, (thumbnailerDelete env fromUrls (thumbnailerCopy env fromUrls toUrls files)).lookup p =
        (thumbnailerMove env fromUrls toUrls files).lookup p) ∧
      ∀ p, (thumbnailerMove env toUrls fromUrls (thumbnailerMove env fromUrls toUrls files)).lookup p =
        files.lookup p := by
  intro env fromUrls toUrls files
  obtain ⟨hdelete, hback⟩ := move_copy_delete env fromUrls toUrls files (by decide) (by decide)
  refine ⟨hdelete, hback fun v hv f t => ?_⟩
  have hthumb : f.thumb env t v ≠ OutFormat.jpeg.thumb env .large "file:///a.jpg" := by
    intro h
    obtain ⟨rfl, rfl, rfl⟩ := (OutFormat.thumb_inj fun e => e).mp h
    exact absurd hv (by decide)
  rw [KeyTable.lookup_insert_eq, if_neg hthumb]
  rfl

end HildonThumbnail
