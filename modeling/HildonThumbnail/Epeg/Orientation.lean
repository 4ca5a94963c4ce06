import Mathlib.Algebra.Ring.Nat
import Mathlib.Data.List.Range

/-! The orientation tag in the saved markers of a JPEG file (`get_orientation` in
daemon/plugins/epeg-plugin.c), on a little-endian host. -/

namespace HildonThumbnail

/-- An entry of libjpeg's list of saved markers. `data_length` is a 32-bit number. -/
structure SavedMarker where
  marker : UInt8
  data : List UInt8
  dataLength_lt : data.length < 2 ^ 32

inductive Endian
  | little
  | big
deriving DecidableEq

def leth : List UInt8 := [0x49, 0x49, 0x2a, 0x00]
def beth : List UInt8 := [0x4d, 0x4d, 0x00, 0x2a]
def exifJpegMarker : UInt8 := 0xE0 + 1
def exifIdentString : List UInt8 := [0x45, 0x78, 0x69, 0x66, 0, 0]

def slice (data : List UInt8) (i n : Nat) : List UInt8 := (data.drop i).take n

/-- What stands at an index; nothing if that is not wholly inside of the data. -/
def readBytes (data : List UInt8) (i n : Nat) : Option (List UInt8) :=
  if i + n ≤ data.length then some (slice data i n) else none

def deEndian (endian : Endian) (bytes : List UInt8) : UInt32 :=
  match endian with
  | .little => bytes.foldr (fun b v => v * 256 + b.toUInt32) 0
  | .big => bytes.foldl (fun v b => v * 256 + b.toUInt32) 0

def deGet16 (data : List UInt8) (i : Nat) (endian : Endian) : Option UInt32 :=
  (readBytes data i 2).map (deEndian endian)

def deGet32 (data : List UInt8) (i : Nat) (endian : Endian) : Option UInt32 :=
  (readBytes data i 4).map (deEndian endian)

/-- 0x112 as it is written in the file. -/
def orientTagId : Endian → List UInt8
  | .little => [0x12, 0x01]
  | .big => [0x01, 0x12]

/-- The last of the Exif markers. -/
def findExifMarker : List SavedMarker → Option SavedMarker → Option (Option SavedMarker)
  | [], exifMarker => some exifMarker
  | cmarker :: markers, exifMarker =>
    if cmarker.marker = exifJpegMarker then
      (readBytes cmarker.data 0 6).bind fun ident =>
        findExifMarker markers (if ident = exifIdentString then some cmarker else exifMarker)
    else findExifMarker markers exifMarker

/-- The loop while i < 16, with the turns that are left. -/
def findTiffHeader (data : List UInt8) : Nat → Nat → Option (Option (Nat × Endian))
  | 0, _ => some none
  | turns + 1, i =>
    (readBytes data i 4).bind fun header =>
      if header = leth then some (some (i, .little))
      else if header = beth then some (some (i, .big))
      else findTiffHeader data turns (i + 1)

/-- The loop while (tags--). -/
def tagLoop (data : List UInt8) (endian : Endian) : Nat → UInt32 → Option UInt32
  | 0, _ => some 0
  | tags + 1, i =>
    (deGet16 data (i + 2).toNat endian).bind fun type =>
      (deGet32 data (i + 4).toNat endian).bind fun count =>
        (readBytes data i.toNat 2).bind fun tag =>
          if tag = orientTagId endian then
            if type ≠ 3 ∨ count ≠ 1 then some 0
            else (deGet16 data (i + 8).toNat endian).map fun ret => if ret ≤ 8 then ret else 0
          else tagLoop data endian tags (i + 12)

def ifdOrientation (data : List UInt8) (tiff : Nat) (endian : Endian) : Option UInt32 :=
  (deGet32 data (tiff + 4) endian).bind fun offset =>
    let i := UInt32.ofNat tiff + offset
    if (i + 2).toNat > data.length then some 0
    else
      (deGet16 data i.toNat endian).bind fun tags =>
        let i := i + 2
        if (i + tags * 12).toNat > data.length then some 0
        else tagLoop data endian tags.toNat i

def exifOrientation (data : List UInt8) : Option UInt32 :=
  if data.length < 32 then some 0
  else
    (findTiffHeader data 16 0).bind fun header =>
      match header with
      | none => some 0
      | some (tiff, endian) => if tiff = 0 then some 0 else ifdOrientation data tiff endian

/-- Nothing if a byte outside of the data of a marker is read. -/
def getOrientation (markers : List SavedMarker) : Option UInt32 :=
  (findExifMarker markers none).bind fun exifMarker =>
    match exifMarker with
    | none => some 0
    | some exifMarker => exifOrientation exifMarker.data

section Places
variable (data : List UInt8) (endian : Endian)

def isExif (m : SavedMarker) : Bool :=
  decide (m.marker = exifJpegMarker) && decide (slice m.data 0 6 = exifIdentString)

def headerAt (i : Nat) : Option (Nat × Endian) :=
  if slice data i 4 = leth then some (i, .little) else if slice data i 4 = beth then some (i, .big) else none

def tiffHeader : Option (Nat × Endian) := (List.range 16).findSome? (headerAt data)

/-- Where the tags are counted, as a 32-bit number. -/
def ifdPlace (tiff : Nat) : Nat := (tiff + (deEndian endian (slice data (tiff + 4) 4)).toNat) % 2 ^ 32

def tagCount (place : Nat) : Nat := (deEndian endian (slice data place 2)).toNat

/-- The place of an entry, as a 32-bit number. -/
def entryPlace (start k : Nat) : Nat := (start + 12 * k) % 2 ^ 32

def IsOrientation (place : Nat) : Prop := slice data place 2 = orientTagId endian

def Wellformed (place : Nat) : Prop :=
  deEndian endian (slice data (place + 2) 2) = 3 ∧ deEndian endian (slice data (place + 4) 4) = 1

/-- All entries up to the orientation are inside, as far as they are read. -/
def EntriesInside (tags start : Nat) : Prop :=
  ∀ k < tags, (∀ j < k, ¬ IsOrientation data endian (entryPlace start j)) →
    entryPlace start k + 8 ≤ data.length ∧
      (IsOrientation data endian (entryPlace start k) → Wellformed data endian (entryPlace start k) →
        entryPlace start k + 10 ≤ data.length)

/-- The count of the tags is not so near to 2^32 that the test before it wraps, and
where the end of the entries wraps they are inside for another reason. -/
def IfdInside (tiff : Nat) : Prop :=
  ifdPlace data endian tiff + 2 < 2 ^ 32 ∧
    (ifdPlace data endian tiff + 2 ≤ data.length →
      2 ^ 32 ≤ ifdPlace data endian tiff + 2 + 12 * tagCount data endian (ifdPlace data endian tiff) →
        EntriesInside data endian (tagCount data endian (ifdPlace data endian tiff))
          (ifdPlace data endian tiff + 2))

/-- No marker with the code of Exif is shorter than the identifier. -/
def IdentsInside (markers : List SavedMarker) : Prop := ∀ m ∈ markers, m.marker = exifJpegMarker → 6 ≤ m.data.length

/-- Nor do the places in the last Exif marker wrap. -/
structure MarkersInside (markers : List SavedMarker) : Prop where
  idents : IdentsInside markers
  ifd : ∀ m, markers.reverse.find? isExif = some m → 32 ≤ m.data.length →
    ∀ tiff endian, tiffHeader m.data = some (tiff, endian) → tiff ≠ 0 → IfdInside m.data endian tiff

end Places

section Reads
variable {data : List UInt8} {endian : Endian} {i : UInt32} {n : Nat}

theorem readBytes_of_le {i n : Nat} (h : i + n ≤ data.length) :
    readBytes data i n = some (slice data i n) := if_pos h

theorem readBytes_of_lt {i n : Nat} (h : data.length < i + n) : readBytes data i n = none := if_neg (by omega)

theorem findExifMarker_of_inside (markers : List SavedMarker) (exifMarker : Option SavedMarker)
    (h : IdentsInside markers) :
    findExifMarker markers exifMarker = some ((markers.reverse.find? isExif).or exifMarker) := by
  induction markers generalizing exifMarker with
  | nil => rfl
  | cons m markers ih =>
    have hrest : IdentsInside markers := fun m' hm' => h m' (List.mem_cons_of_mem _ hm')
    rw [findExifMarker, List.reverse_cons, List.find?_append]
    by_cases hcode : m.marker = exifJpegMarker
    · have hread : readBytes m.data 0 6 = some (slice m.data 0 6) := readBytes_of_le (h m List.mem_cons_self hcode)
      rw [if_pos hcode, hread, Option.bind_some, ih _ hrest, Option.or_assoc]
      by_cases hident : slice m.data 0 6 = exifIdentString
      · simp [isExif, hcode, hident]
      · simp [isExif, hcode, hident]
    · rw [if_neg hcode, ih _ hrest, Option.or_assoc]
      simp [isExif, hcode]

theorem findExifMarker_of_outside (markers : List SavedMarker) (exifMarker : Option SavedMarker)
    (h : ¬ IdentsInside markers) : findExifMarker markers exifMarker = none := by
  induction markers generalizing exifMarker with
  | nil => exact absurd (fun m hm => nomatch hm) h
  | cons m markers ih =>
    rw [findExifMarker]
    by_cases hcode : m.marker = exifJpegMarker
    · rw [if_pos hcode]
      by_cases hlen : 6 ≤ m.data.length
      · have hrest : ¬ IdentsInside markers := by
          intro hrest
          refine h fun m' hm' => ?_
          rcases List.mem_cons.mp hm' with rfl | hm'
          · exact fun _ => hlen
          · exact hrest m' hm'
        rw [readBytes_of_le hlen, Option.bind_some, ih _ hrest]
      · rw [readBytes_of_lt (by omega)]
        rfl
    · have hrest : ¬ IdentsInside markers := by
        intro hrest
        refine h fun m' hm' hcode' => ?_
        rcases List.mem_cons.mp hm' with rfl | hm'
        · exact absurd hcode' hcode
        · exact hrest m' hm' hcode'
      rw [if_neg hcode, ih _ hrest]

theorem findTiffHeader_eq (hlen : 32 ≤ data.length) (turns i : Nat) (hi : i + turns ≤ 16) :
    findTiffHeader data turns i = some ((List.range' i turns).findSome? (headerAt data)) := by
  induction turns generalizing i with
  | zero => rfl
  | succ turns ih =>
    rw [findTiffHeader, readBytes_of_le (by omega), Option.bind_some, List.range'_succ,
      List.findSome?_cons, headerAt]
    split_ifs with hleth hbeth
    · rfl
    · rfl
    · exact ih (i + 1) (by omega)

theorem toNat_add_small (i c : UInt32) {p : Nat} (hp : i.toNat + c.toNat = p) (hlt : p < 2 ^ 32) :
    (i + c).toNat = p := by
  rw [UInt32.toNat_add, hp]
  exact Nat.mod_eq_of_lt hlt

theorem deGet16_of_le {place : Nat} (h : place + 2 ≤ data.length) :
    deGet16 data place endian = some (deEndian endian (slice data place 2)) := by
  rw [deGet16, readBytes_of_le h, Option.map_some]

theorem deGet16_of_lt {place : Nat} (h : data.length < place + 2) : deGet16 data place endian = none := by
  rw [deGet16, readBytes_of_lt h, Option.map_none]

theorem deGet32_of_le {place : Nat} (h : place + 4 ≤ data.length) :
    deGet32 data place endian = some (deEndian endian (slice data place 4)) := by
  rw [deGet32, readBytes_of_le h, Option.map_some]

theorem deGet32_of_lt {place : Nat} (h : data.length < place + 4) : deGet32 data place endian = none := by
  rw [deGet32, readBytes_of_lt h, Option.map_none]

/-- The fields of an entry that is not wholly inside are never all read. -/
theorem tagLoop_of_outside (hdata : data.length < 2 ^ 32) (tags : Nat) (hout : data.length < i.toNat + 8) :
    tagLoop data endian (tags + 1) i = none := by
  rw [tagLoop]
  by_cases htag : i.toNat + 2 ≤ data.length
  · rw [toNat_add_small i 2 rfl (by simp only [UInt32.reduceToNat]; omega)]
    by_cases htype : i.toNat + 4 ≤ data.length
    · rw [toNat_add_small i 4 rfl (by simp only [UInt32.reduceToNat]; omega),
        deGet32_of_lt (by simp only [UInt32.reduceToNat]; omega)]
      cases deGet16 data (i.toNat + (2 : UInt32).toNat) endian <;> rfl
    · rw [deGet16_of_lt (by simp only [UInt32.reduceToNat]; omega)]
      rfl
  · rw [readBytes_of_lt (by omega : data.length < i.toNat + 2)]
    cases deGet16 data (i + 2).toNat endian with
    | none => rfl
    | some type => cases deGet32 data (i + 4).toNat endian <;> rfl

theorem tagLoop_of_inside (hdata : data.length < 2 ^ 32) (tags : Nat) (hin : i.toNat + 8 ≤ data.length) :
    tagLoop data endian (tags + 1) i =
      if slice data i.toNat 2 = orientTagId endian then
        if deEndian endian (slice data (i.toNat + 2) 2) ≠ 3 ∨
          deEndian endian (slice data (i.toNat + 4) 4) ≠ 1 then some 0
        else (deGet16 data (i.toNat + 8) endian).map fun ret => if ret ≤ 8 then ret else 0
      else tagLoop data endian tags (i + 12) := by
  have htype : (i + 2).toNat = i.toNat + 2 := toNat_add_small i 2 rfl (by omega)
  have hcount : (i + 4).toNat = i.toNat + 4 := toNat_add_small i 4 rfl (by omega)
  have hret : (i + 8).toNat = i.toNat + 8 := toNat_add_small i 8 rfl (by omega)
  rw [tagLoop, htype, hcount, hret, deGet16_of_le (by omega), deGet32_of_le (by omega), readBytes_of_le (by omega)]
  rfl

theorem tagLoop_succ_isSome_iff (hdata : data.length < 2 ^ 32) (tags : Nat) (i : UInt32) :
    (tagLoop data endian (tags + 1) i).isSome ↔ i.toNat + 8 ≤ data.length ∧
      (IsOrientation data endian i.toNat → Wellformed data endian i.toNat → i.toNat + 10 ≤ data.length) ∧
        (¬ IsOrientation data endian i.toNat → (tagLoop data endian tags (i + 12)).isSome) := by
  by_cases hin : i.toNat + 8 ≤ data.length
  · rw [tagLoop_of_inside hdata tags hin]
    by_cases htag : IsOrientation data endian i.toNat
    · have horient : slice data i.toNat 2 = orientTagId endian := htag
      rw [if_pos horient]
      by_cases hwell : Wellformed data endian i.toNat
      · rw [if_neg fun h => h.elim (· hwell.1) (· hwell.2), Option.isSome_map]
        by_cases hret : i.toNat + 10 ≤ data.length
        · simp [deGet16_of_le (show i.toNat + 8 + 2 ≤ data.length by omega), hin, hret, htag]
        · simp [deGet16_of_lt (show data.length < i.toNat + 8 + 2 by omega), hret, htag, hwell]
      · rw [if_pos (Decidable.not_and_iff_or_not.mp hwell)]
        simp [hin, htag, hwell]
    · have horient : ¬ slice data i.toNat 2 = orientTagId endian := htag
      rw [if_neg horient]
      simp [hin, htag]
  · rw [tagLoop_of_outside hdata tags (by omega)]
    simp [hin]

theorem entryPlace_succ (i : UInt32) (k : Nat) : entryPlace (i + 12).toNat k = entryPlace i.toNat (k + 1) := by
  have hadd : (i + 12).toNat = (i.toNat + 12) % 2 ^ 32 := UInt32.toNat_add i 12
  rw [entryPlace, entryPlace, hadd]
  omega

theorem entryPlace_zero (i : UInt32) : entryPlace i.toNat 0 = i.toNat := by
  have hlt := i.toNat_lt
  rw [entryPlace]
  omega

theorem tagLoop_isSome_iff (hdata : data.length < 2 ^ 32) (tags : Nat) (i : UInt32) :
    (tagLoop data endian tags i).isSome ↔ EntriesInside data endian tags i.toNat := by
  induction tags generalizing i with
  | zero => simp [tagLoop, EntriesInside]
  | succ tags ih =>
    rw [tagLoop_succ_isSome_iff hdata, ih]
    constructor
    · rintro ⟨hfields, hret, hrest⟩ k hk hbefore
      cases k with
      | zero =>
        rw [entryPlace_zero]
        exact ⟨hfields, hret⟩
      | succ k =>
        have hfirst := hbefore 0 (by omega)
        rw [entryPlace_zero] at hfirst
        rw [← entryPlace_succ]
        refine hrest hfirst k (by omega) fun j hj => ?_
        rw [entryPlace_succ]
        exact hbefore (j + 1) (by omega)
    · intro h
      have hzero := h 0 (by omega) fun j hj => absurd hj (by omega)
      rw [entryPlace_zero] at hzero
      refine ⟨hzero.1, hzero.2, fun hfirst k hk hbefore => ?_⟩
      rw [entryPlace_succ]
      refine h (k + 1) (by omega) fun j hj => ?_
      cases j with
      | zero =>
        rw [entryPlace_zero]
        exact hfirst
      | succ j =>
        rw [← entryPlace_succ]
        exact hbefore j (by omega)

theorem deEndian_lt (endian : Endian) {bytes : List UInt8} (h : bytes.length ≤ 2) :
    (deEndian endian bytes).toNat < 65536 := by
  match bytes, h with
  | [], _ => cases endian <;> decide
  | [b], _ =>
    have hb := b.toNat_lt
    cases endian <;> simp [deEndian] <;> omega
  | [b, c], _ =>
    have hb := b.toNat_lt
    have hc := c.toNat_lt
    cases endian <;> simp [deEndian] <;> omega

theorem tagCount_lt (data : List UInt8) (endian : Endian) (place : Nat) : tagCount data endian place < 65536 :=
  deEndian_lt endian (List.length_take_le 2 _)

/-- Without a wrap the test on the number of the tags is enough. -/
theorem entriesInside_of_le {tags start : Nat} (hdata : data.length < 2 ^ 32)
    (h : start + 12 * tags ≤ data.length) :
    EntriesInside data endian tags start := by
  intro k hk _
  have hplace : entryPlace start k = start + 12 * k := by
    rw [entryPlace]
    omega
  rw [hplace]
  exact ⟨by omega, fun _ _ => by omega⟩

theorem ifdOrientation_isSome_iff (hdata : data.length < 2 ^ 32) (hlen : 32 ≤ data.length) {tiff : Nat}
    (htiff : tiff < 16) :
    (ifdOrientation data tiff endian).isSome ↔ IfdInside data endian tiff := by
  rw [ifdOrientation, deGet32_of_le (by omega), Option.bind_some, IfdInside]
  have hplace : (UInt32.ofNat tiff + deEndian endian (slice data (tiff + 4) 4)).toNat =
    ifdPlace data endian tiff := by
    rw [UInt32.toNat_add, UInt32.toNat_ofNat', ifdPlace]
    omega
  generalize UInt32.ofNat tiff + deEndian endian (slice data (tiff + 4) 4) = i at hplace
  rw [← hplace]
  have hi := i.toNat_lt
  have htags := tagCount_lt data endian i.toNat
  have hwrap : (i + 2).toNat = (i.toNat + 2) % 2 ^ 32 := UInt32.toNat_add i 2
  dsimp only
  by_cases hend : i.toNat + 2 < 2 ^ 32
  · have hstart : (i + 2).toNat = i.toNat + 2 := by omega
    rw [hstart]
    by_cases hcount : i.toNat + 2 ≤ data.length
    · have hafter : (i + 2 + deEndian endian (slice data i.toNat 2) * 12).toNat =
          (i.toNat + 2 + 12 * tagCount data endian i.toNat) % 2 ^ 32 := by
        have htwelve : (12 : UInt32).toNat = 12 := rfl
        rw [tagCount] at htags ⊢
        rw [UInt32.toNat_add, UInt32.toNat_mul, hstart, htwelve]
        omega
      rw [if_neg (by omega), deGet16_of_le hcount, Option.bind_some, hafter, ← tagCount]
      by_cases hall : (i.toNat + 2 + 12 * tagCount data endian i.toNat) % 2 ^ 32 > data.length
      · rw [if_pos hall]
        refine iff_of_true rfl ⟨hend, fun _ hwraps => ?_⟩
        -- the wrapped end is small and the data is long
        omega
      · rw [if_neg hall, tagLoop_isSome_iff hdata, hstart]
        by_cases hwraps : 2 ^ 32 ≤ i.toNat + 2 + 12 * tagCount data endian i.toNat
        · exact ⟨fun h => ⟨hend, fun _ _ => h⟩, fun h => h.2 hcount hwraps⟩
        · have hinside : i.toNat + 2 + 12 * tagCount data endian i.toNat ≤ data.length := by omega
          exact iff_of_true (entriesInside_of_le hdata hinside) ⟨hend, fun _ h => absurd h hwraps⟩
    · rw [if_pos (by omega)]
      exact iff_of_true rfl ⟨hend, fun h => absurd h hcount⟩
  · rw [if_neg (by omega), deGet16_of_lt (by omega)]
    exact iff_of_false (by simp) fun h => hend h.1

theorem tagLoop_le {tags : Nat} {r : UInt32} (h : tagLoop data endian tags i = some r) : r ≤ 8 := by
  induction tags generalizing i with
  | zero =>
    obtain rfl := Option.some.inj h
    decide
  | succ tags ih =>
    rw [tagLoop] at h
    obtain ⟨type, _, h⟩ := Option.bind_eq_some_iff.mp h
    obtain ⟨count, _, h⟩ := Option.bind_eq_some_iff.mp h
    obtain ⟨tag, _, h⟩ := Option.bind_eq_some_iff.mp h
    split at h
    · split at h
      · obtain rfl := Option.some.inj h
        decide
      · obtain ⟨ret, _, rfl⟩ := Option.map_eq_some_iff.mp h
        split
        · next hle => exact hle
        · decide
    · exact ih h

theorem ifdOrientation_le {tiff : Nat} {r : UInt32} (h : ifdOrientation data tiff endian = some r) : r ≤ 8 := by
  obtain ⟨offset, _, h⟩ := Option.bind_eq_some_iff.mp h
  dsimp only at h
  split at h
  · obtain rfl := Option.some.inj h
    decide
  · obtain ⟨tags, _, h⟩ := Option.bind_eq_some_iff.mp h
    split at h
    · obtain rfl := Option.some.inj h
      decide
    · exact tagLoop_le h

theorem exifOrientation_le {r : UInt32} (h : exifOrientation data = some r) : r ≤ 8 := by
  rw [exifOrientation] at h
  split at h
  · obtain rfl := Option.some.inj h
    decide
  · obtain ⟨header, _, h⟩ := Option.bind_eq_some_iff.mp h
    split at h
    · obtain rfl := Option.some.inj h
      decide
    · split at h
      · obtain rfl := Option.some.inj h
        decide
      · exact ifdOrientation_le h

theorem getOrientation_le {markers : List SavedMarker} {r : UInt32}
    (h : getOrientation markers = some r) : r ≤ 8 := by
  obtain ⟨exifMarker, _, h⟩ := Option.bind_eq_some_iff.mp h
  cases exifMarker with
  | none =>
    obtain rfl := Option.some.inj h
    decide
  | some exifMarker => exact exifOrientation_le h

theorem tiffHeader_lt {tiff : Nat} (h : tiffHeader data = some (tiff, endian)) : tiff < 16 := by
  obtain ⟨i, hi, hheader⟩ := List.exists_of_findSome?_eq_some h
  rw [headerAt] at hheader
  have hlt := List.mem_range.mp hi
  split_ifs at hheader
  · obtain ⟨rfl, _⟩ := Prod.mk.inj (Option.some.inj hheader)
    exact hlt
  · obtain ⟨rfl, _⟩ := Prod.mk.inj (Option.some.inj hheader)
    exact hlt

theorem exifOrientation_isSome_iff (hdata : data.length < 2 ^ 32) :
    (exifOrientation data).isSome ↔ (32 ≤ data.length →
    ∀ tiff endian, tiffHeader data = some (tiff, endian) → tiff ≠ 0 → IfdInside data endian tiff) := by
  rw [exifOrientation]
  by_cases hlen : data.length < 32
  · rw [if_pos hlen]
    exact iff_of_true rfl fun h => absurd hlen (by omega)
  · have hheader : findTiffHeader data 16 0 = some (tiffHeader data) := by
      rw [findTiffHeader_eq (by omega) 16 0 (by omega), tiffHeader, List.range_eq_range']
    rw [if_neg hlen, hheader, Option.bind_some]
    cases hfound : tiffHeader data with
    | none => exact iff_of_true rfl fun _ tiff endian h => nomatch h
    | some header =>
      obtain ⟨tiff, endian⟩ := header
      dsimp only
      by_cases hzero : tiff = 0
      · rw [if_pos hzero]
        refine iff_of_true rfl fun _ tiff' endian' h hne => ?_
        obtain ⟨rfl, _⟩ := Prod.mk.inj (Option.some.inj h)
        exact absurd hzero hne
      · rw [if_neg hzero, ifdOrientation_isSome_iff hdata (by omega) (tiffHeader_lt hfound)]
        constructor
        · intro hinside _ tiff' endian' h _
          obtain ⟨rfl, rfl⟩ := Prod.mk.inj (Option.some.inj h)
          exact hinside
        · intro h
          exact h (by omega) tiff endian rfl hzero

theorem getOrientation_isSome_iff (markers : List SavedMarker) :
    (getOrientation markers).isSome ↔ MarkersInside markers := by
  rw [getOrientation]
  by_cases hidents : IdentsInside markers
  · rw [findExifMarker_of_inside markers none hidents, Option.bind_some, Option.or_none]
    cases hexif : markers.reverse.find? isExif with
    | none => exact iff_of_true rfl ⟨hidents, fun m hm => nomatch hexif.symm.trans hm⟩
    | some m =>
      dsimp only
      rw [exifOrientation_isSome_iff m.dataLength_lt]
      constructor
      · intro h
        refine ⟨hidents, fun m' hm' => ?_⟩
        obtain rfl := Option.some.inj (hexif.symm.trans hm')
        exact h
      · intro h
        exact h.ifd m hexif
  · rw [findExifMarker_of_outside markers none hidents]
    exact iff_of_false (by simp) fun h => hidents h.idents

/-- The identifier is compared before any test of the length, and a place near 2^32
passes the tests. -/
theorem getOrientation_safe_iff (markers : List SavedMarker) :
    (∃ r, getOrientation markers = some r ∧ r ≤ 8) ↔ MarkersInside markers := by
  rw [← getOrientation_isSome_iff, Option.isSome_iff_exists]
  exact exists_congr fun r => and_iff_left_of_imp getOrientation_le

def shortExifMarker : SavedMarker := ⟨0xE1, [0x45, 0x78, 0x69, 0x66], by decide⟩

theorem getOrientation_short_marker :
    ¬ ∀ markers : List SavedMarker, ∃ r, getOrientation markers = some r ∧ r ≤ 8 := by
  intro h
  obtain ⟨r, hr, _⟩ := h [shortExifMarker]
  have hnone : getOrientation [shortExifMarker] = none := by decide
  rw [hnone] at hr
  cases hr

/-- The offset of the tags makes their place 2^32 - 2, and the test of the place
plus two against the length is passed. -/
example :
    getOrientation
      [⟨0xE1, exifIdentString ++ leth ++ [0xf8, 0xff, 0xff, 0xff] ++ List.replicate 18 0, by decide⟩] =
    none := by decide

example : getOrientation [⟨0xE1, exifIdentString ++ leth ++ [8, 0, 0, 0] ++ [1, 0] ++
    [0x12, 0x01, 3, 0, 1, 0, 0, 0, 6, 0, 0, 0] ++ [0, 0, 0, 0], by decide⟩] = some 6 := by decide

end Reads

end HildonThumbnail
