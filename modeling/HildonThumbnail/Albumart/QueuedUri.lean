import HildonThumbnail.Cache.Files

/-! The URI of fetched album art: the daemon queues one thumbnail for it
(`do_the_work` of daemon/albumart.c) and the client loads one by it
(`intercept_callback` of thumbs/hildon-albumart-obj.c). Paths and URIs are the
bytes of C strings. -/

namespace HildonThumbnail

def asciiBytes (s : String) : List UInt8 := s.toList.map fun c => c.toNat.toUInt8

/-- What `g_filename_to_uri` leaves as it is. -/
def acceptable (b : UInt8) : Bool :=
  (0x61 ≤ b && b ≤ 0x7a) || (0x41 ≤ b && b ≤ 0x5a) || (0x30 ≤ b && b ≤ 0x39) ||
    b ∈ asciiBytes "!$&'()*+,-./:=@_~"

def hexDigit (n : UInt8) : UInt8 := if n < 10 then 0x30 + n else 0x41 + (n - 10)

def escapeByte (b : UInt8) : List UInt8 :=
  if acceptable b then [b] else [0x25, hexDigit (b >>> 4), hexDigit (b &&& 0xf)]

def gEscapeUriString (path : List UInt8) : List UInt8 := path.flatMap escapeByte

def gPathIsAbsolute (path : List UInt8) : Bool := path.head? = some 0x2f

def gFilenameToUri (path : List UInt8) : Option (List UInt8) :=
  if gPathIsAbsolute path then
    let escaped := gEscapeUriString path
    some (asciiBytes "file://" ++ (if escaped.head? = some 0x2f then [] else [0x2f]) ++ escaped)
  else none

/-- `uris[0]` of the call of Queue. -/
def queuedUri (path : List UInt8) : Option (List UInt8) := gFilenameToUri path

/-- `g_strdup_printf ("file://%s", path)`. -/
def loadedUri (path : List UInt8) : List UInt8 := asciiBytes "file://" ++ path

/-- A C string as the text of which each character is a byte. -/
def asText (bytes : List UInt8) : String := String.ofList (bytes.map fun b => Char.ofNat b.toNat)

section Escaping
variable {path : List UInt8}

theorem length_escapeByte (b : UInt8) : (escapeByte b).length = if acceptable b then 1 else 3 := by
  rw [escapeByte]
  split <;> rfl

theorem length_le_gEscapeUriString (path : List UInt8) : path.length ≤ (gEscapeUriString path).length := by
  induction path with
  | nil => exact Nat.le_refl 0
  | cons b path ih =>
    have hbyte := length_escapeByte b
    rw [gEscapeUriString] at ih ⊢
    rw [List.flatMap_cons, List.length_append, List.length_cons, hbyte]
    split <;> omega

theorem gEscapeUriString_eq_iff : gEscapeUriString path = path ↔ path.all acceptable = true := by
  induction path with
  | nil => simp [gEscapeUriString]
  | cons b path ih =>
    have hcons : gEscapeUriString (b :: path) = escapeByte b ++ gEscapeUriString path := rfl
    rw [hcons, List.all_cons, Bool.and_eq_true, ← ih]
    constructor
    · intro h
      have hlength := congrArg List.length h
      rw [List.length_append, length_escapeByte, List.length_cons] at hlength
      have hrest := length_le_gEscapeUriString path
      have hb : acceptable b = true := by
        by_contra hb
        rw [if_neg hb] at hlength
        omega
      rw [escapeByte, if_pos hb] at h
      exact ⟨hb, (List.cons.inj h).2⟩
    · rintro ⟨hb, hrest⟩
      rw [escapeByte, if_pos hb, hrest]
      rfl

theorem head?_gEscapeUriString (h : gPathIsAbsolute path = true) : (gEscapeUriString path).head? = some 0x2f := by
  cases path with
  | nil => simp [gPathIsAbsolute] at h
  | cons b path =>
    obtain rfl : b = 0x2f := by simpa [gPathIsAbsolute] using h
    rfl

theorem queuedUri_eq (h : gPathIsAbsolute path = true) :
    queuedUri path = some (asciiBytes "file://" ++ gEscapeUriString path) := by
  rw [queuedUri, gFilenameToUri, if_pos h]
  simp only [head?_gEscapeUriString h, if_true, List.append_nil]

example : queuedUri (asciiBytes "/a b/~c") = some (asciiBytes "file:///a%20b/~c") := by decide

theorem queuedUri_eq_loadedUri_iff (h : gPathIsAbsolute path = true) :
    queuedUri path = some (loadedUri path) ↔ path.all acceptable = true := by
  rw [queuedUri_eq h, loadedUri, Option.some_inj, List.append_cancel_left_eq, gEscapeUriString_eq_iff]

end Escaping

theorem toNat_char_ofNat {n : Nat} (h : n < 256) : (Char.ofNat n).toNat = n := by
  have hvalid : n.isValidChar := .inl (by omega)
  rw [Char.ofNat, dif_pos hvalid]
  rfl

theorem asText_injective : Function.Injective asText := by
  intro a b h
  have hchars := congrArg String.toList h
  simp only [asText, String.toList_ofList] at hchars
  refine List.map_injective_iff.mpr ?_ hchars
  intro x y hxy
  have hvalue : (Char.ofNat x.toNat).toNat = (Char.ofNat y.toNat).toNat := congrArg Char.toNat hxy
  rw [toNat_char_ofNat x.toNat_lt, toNat_char_ofNat y.toNat_lt] at hvalue
  exact UInt8.toNat_inj.mp hvalue

section Names
variable {env : CacheEnv} {path : List UInt8}

/-- The daemon queues the thumbnail that the client loads, and both give it one
name. -/
structure SameThumb (env : CacheEnv) (path : List UInt8) : Prop where
  uri : queuedUri path = some (loadedUri path)
  paths : ∀ asPng, (queuedUri path).map (fun uri => hildonThumbnailUtilGetThumbPaths env (asText uri) asPng) =
    some (hildonThumbnailUtilGetThumbPaths env (asText (loadedUri path)) asPng)

theorem digestName_of_thumbPaths {u v : String} {asPng : Bool}
    (h : hildonThumbnailUtilGetThumbPaths env u asPng = hildonThumbnailUtilGetThumbPaths env v asPng) :
    digestName env u asPng = digestName env v asPng := by
  have hlarge := congrArg ThumbPaths.large h
  simpa [hildonThumbnailUtilGetThumbPaths] using hlarge

/-- The digest is of the exact bytes, so one escaped byte is enough to miss. -/
theorem sameThumb_iff (hmd5 : Function.Injective env.md5) (habsolute : gPathIsAbsolute path = true) :
    (SameThumb env path ↔ path.all acceptable = true) ∧
      ∀ asPng, (queuedUri path).map (fun uri => hildonThumbnailUtilGetThumbPaths env (asText uri) asPng) =
        some (hildonThumbnailUtilGetThumbPaths env (asText (loadedUri path)) asPng) ↔
          path.all acceptable = true := by
  constructor
  · constructor
    · exact fun h => (queuedUri_eq_loadedUri_iff habsolute).mp h.uri
    · intro h
      have huri := (queuedUri_eq_loadedUri_iff habsolute).mpr h
      exact ⟨huri, fun asPng => by rw [huri, Option.map_some]⟩
  · intro asPng
    rw [← queuedUri_eq_loadedUri_iff habsolute, queuedUri_eq habsolute, Option.map_some, Option.some_inj,
      Option.some_inj]
    constructor
    · intro h
      exact asText_injective (hmd5 (md5_of_digestName (digestName_of_thumbPaths h)))
    · intro h
      rw [h]

theorem not_sameThumb : ¬ ∀ (env : CacheEnv) (path : List UInt8), Function.Injective env.md5 →
    gPathIsAbsolute path = true → SameThumb env path := by
  intro h
  have habsolute : gPathIsAbsolute (asciiBytes "/home/jo doe/.cache/media-art/album-0-1.jpeg") = true := by decide
  have hsame := h ⟨["home", "jo doe"], id⟩ _ Function.injective_id habsolute
  have hall := (queuedUri_eq_loadedUri_iff habsolute).mp hsame.uri
  exact absurd hall (by decide)

theorem sameThumb_plain :
    SameThumb ⟨["home", "user"], id⟩ (asciiBytes "/home/user/.cache/media-art/album-0-1.jpeg") :=
  (sameThumb_iff Function.injective_id (by decide)).1.mpr (by decide)

end Names

end HildonThumbnail
