import HildonThumbnail.Lib.Bytes
import HildonThumbnail.Epeg.Orientation

/-! An Exif block as a camera writes it, and what `get_orientation` reads from it. -/

namespace HildonThumbnail

def Endian.bytes (endian : Endian) (width n : Nat) : List UInt8 :=
  match endian with
  | .little => Bytes.ofNat width n
  | .big => (Bytes.ofNat width n).reverse

def Endian.header : Endian → List UInt8
  | .little => leth
  | .big => beth

/-- An entry of a TIFF directory. The four bytes of its value are two numbers here. -/
structure IfdEntry where
  tag : UInt16
  type : UInt16
  count : UInt32
  value : UInt16
  rest : UInt16

def IfdEntry.encode (endian : Endian) (e : IfdEntry) : List UInt8 :=
  endian.bytes 2 e.tag.toNat ++ (endian.bytes 2 e.type.toNat ++ (endian.bytes 4 e.count.toNat ++
    (endian.bytes 2 e.value.toNat ++ endian.bytes 2 e.rest.toNat)))

/-- `gap` stands between the header and the first directory, `rest` after that. -/
structure ExifBlock where
  endian : Endian
  gap : List UInt8
  entries : List IfdEntry
  next : UInt32
  rest : List UInt8
  entries_lt : entries.length < 2 ^ 16
  length_lt : gap.length + 12 * entries.length + rest.length + 20 < 2 ^ 32

def ExifBlock.encode (b : ExifBlock) : List UInt8 :=
  exifIdentString ++ (b.endian.header ++ (b.endian.bytes 4 (8 + b.gap.length) ++ (b.gap ++
    (b.endian.bytes 2 b.entries.length ++ (b.entries.flatMap (IfdEntry.encode b.endian) ++
      (b.endian.bytes 4 b.next.toNat ++ b.rest))))))

/-- The first entry with the tag decides. -/
def orientationOf (entries : List IfdEntry) : UInt32 :=
  match entries.find? fun e => e.tag = 0x112 with
  | none => 0
  | some e => if e.type = 3 ∧ e.count = 1 ∧ e.value ≤ 8 then e.value.toUInt32 else 0

section Encode
variable {endian : Endian} {data pre rest bytes : List UInt8} {i m n width : Nat}

theorem slice_skip (h : pre.length = m) (i n : Nat) : slice (pre ++ rest) (m + i) n = slice rest i n := by
  rw [slice, ← h, List.drop_append, List.drop_eq_nil_of_le (by omega), List.nil_append, Nat.add_sub_cancel_left]
  rfl

theorem slice_here (h : bytes.length = n) : slice (bytes ++ rest) 0 n = bytes := by
  rw [slice, ← h, List.drop_zero, List.take_left]

@[simp] theorem length_bytes (endian : Endian) (width n : Nat) : (endian.bytes width n).length = width := by
  cases endian with
  | little => exact Bytes.length_ofNat width n
  | big => exact List.length_reverse.trans (Bytes.length_ofNat width n)

theorem deEndian_bytes (h : n < 256 ^ width) : deEndian endian (endian.bytes width n) = UInt32.ofNat n := by
  have hvalue := Bytes.toUInt32_ofNat_of_lt h
  cases endian with
  | little => exact hvalue
  | big =>
    rw [Endian.bytes, deEndian, List.foldl_reverse]
    exact hvalue

theorem deEndian_bytes16 (v : UInt16) : deEndian endian (endian.bytes 2 v.toNat) = v.toUInt32 := by
  rw [deEndian_bytes v.toNat_lt, UInt32.ofNat_uInt16ToNat]

theorem deEndian_bytes32 (v : UInt32) : deEndian endian (endian.bytes 4 v.toNat) = v := by
  rw [deEndian_bytes v.toNat_lt, UInt32.ofNat_toNat]

theorem bytes_orientTagId (endian : Endian) : endian.bytes 2 0x112 = orientTagId endian := by
  cases endian <;> decide

theorem bytes_eq_orientTagId (v : UInt16) : endian.bytes 2 v.toNat = orientTagId endian ↔ v = 0x112 := by
  constructor
  · intro h
    have hvalue := congrArg (deEndian endian) (h.trans (bytes_orientTagId endian).symm)
    rw [deEndian_bytes16, deEndian_bytes (by decide)] at hvalue
    have hnat := congrArg UInt32.toNat hvalue
    exact UInt16.toNat_inj.mp hnat
  · rintro rfl
    exact bytes_orientTagId endian

@[simp] theorem length_entry (endian : Endian) (e : IfdEntry) : (e.encode endian).length = 12 := by
  simp [IfdEntry.encode]

@[simp] theorem length_entries (endian : Endian) (entries : List IfdEntry) :
    (entries.flatMap (IfdEntry.encode endian)).length = 12 * entries.length := by
  induction entries with
  | nil => rfl
  | cons e entries ih =>
    rw [List.flatMap_cons, List.length_append, ih, length_entry, List.length_cons]
    omega

/-- The fields of an entry are where they are looked for. -/
theorem slice_entry (e : IfdEntry) (h : pre.length = m) :
    slice (pre ++ (e.encode endian ++ rest)) m 2 = endian.bytes 2 e.tag.toNat ∧
      slice (pre ++ (e.encode endian ++ rest)) (m + 2) 2 = endian.bytes 2 e.type.toNat ∧
      slice (pre ++ (e.encode endian ++ rest)) (m + 4) 4 = endian.bytes 4 e.count.toNat ∧
      slice (pre ++ (e.encode endian ++ rest)) (m + 8) 2 = endian.bytes 2 e.value.toNat := by
  have htag := length_bytes endian 2 e.tag.toNat
  have htype := length_bytes endian 2 e.type.toNat
  have hcount := length_bytes endian 4 e.count.toNat
  have hvalue := length_bytes endian 2 e.value.toNat
  rw [IfdEntry.encode, List.append_assoc, List.append_assoc, List.append_assoc, List.append_assoc]
  refine ⟨?_, ?_, ?_, ?_⟩
  · exact (slice_skip h 0 2).trans (slice_here htag)
  · exact (slice_skip h 2 2).trans ((slice_skip htag 0 2).trans (slice_here htype))
  · exact (slice_skip h 4 4).trans ((slice_skip htag 2 4).trans ((slice_skip htype 0 4).trans (slice_here hcount)))
  · exact (slice_skip h 8 2).trans ((slice_skip htag 6 2).trans ((slice_skip htype 4 2).trans
      ((slice_skip hcount 0 2).trans (slice_here hvalue))))

theorem tagLoop_entries (entries : List IfdEntry) {start : UInt32} (hstart : start.toNat = pre.length)
    (hlen : (pre ++ (entries.flatMap (IfdEntry.encode endian) ++ rest)).length < 2 ^ 32) :
    tagLoop (pre ++ (entries.flatMap (IfdEntry.encode endian) ++ rest)) endian entries.length start =
      some (orientationOf entries) := by
  induction entries generalizing pre start with
  | nil => rfl
  | cons e entries ih =>
    rw [List.flatMap_cons, List.append_assoc] at hlen ⊢
    have hsize : (pre ++ (e.encode endian ++ (entries.flatMap (IfdEntry.encode endian) ++ rest))).length =
        pre.length + 12 + 12 * entries.length + rest.length := by
      simp only [List.length_append, length_entry, length_entries]
      omega
    obtain ⟨htag, htype, hcount, hvalue⟩ := slice_entry e hstart.symm
    rw [List.length_cons, tagLoop_of_inside hlen entries.length (by omega), htag, htype, hcount,
      deGet16_of_le (by omega), hvalue, deEndian_bytes16, deEndian_bytes32, deEndian_bytes16]
    by_cases horient : e.tag = 0x112
    · rw [if_pos ((bytes_eq_orientTagId e.tag).mpr horient), orientationOf,
        List.find?_cons_of_pos (by simpa using horient)]
      have htype3 : e.type.toUInt32 = 3 ↔ e.type = 3 := by
        rw [← UInt32.toNat_inj, ← UInt16.toNat_inj, UInt16.toNat_toUInt32]
        rfl
      have hvalue8 : e.value.toUInt32 ≤ 8 ↔ e.value ≤ 8 := by
        rw [UInt32.le_iff_toNat_le, UInt16.le_iff_toNat_le, UInt16.toNat_toUInt32]
        rfl
      by_cases hwell : e.type = 3 ∧ e.count = 1
      · obtain ⟨htype', hcount'⟩ := hwell
        rw [if_neg (by simp [htype', hcount']), Option.map_some]
        simp only [hvalue8, htype', hcount', true_and]
      · rw [if_pos (by rw [ne_eq, htype3]; tauto)]
        dsimp only
        rw [if_neg fun h => hwell ⟨h.1, h.2.1⟩]
    · rw [if_neg (mt (bytes_eq_orientTagId e.tag).mp horient), orientationOf,
        List.find?_cons_of_neg (by simpa using horient), ← orientationOf]
      have hnext : (start + 12).toNat = (pre ++ e.encode endian).length := by
        rw [List.length_append, length_entry, ← hstart]
        exact toNat_add_small start 12 rfl (by omega)
      have hrest := ih hnext (by rw [List.append_assoc]; exact hlen)
      rwa [List.append_assoc] at hrest

@[simp] theorem length_header (endian : Endian) : endian.header.length = 4 := by cases endian <;> rfl

theorem length_encode (b : ExifBlock) :
    b.encode.length = b.gap.length + 12 * b.entries.length + b.rest.length + 20 := by
  simp only [ExifBlock.encode, List.length_append, length_header, length_bytes, length_entries, exifIdentString,
    List.length_cons, List.length_nil]
  omega

theorem tiffHeader_encode (endian : Endian) (rest : List UInt8) :
    tiffHeader (exifIdentString ++ (endian.header ++ rest)) = some (6, endian) := by
  cases endian <;> rfl

/-- The first directory is read from where the offset says. -/
theorem ifdOrientation_encode (b : ExifBlock) :
    ifdOrientation b.encode 6 b.endian = some (orientationOf b.entries) := by
  have hlen := length_encode b
  have hlt := b.length_lt
  have hident : exifIdentString.length = 6 := rfl
  have hheader := length_header b.endian
  have hoffset : slice b.encode (6 + 4) 4 = b.endian.bytes 4 (8 + b.gap.length) :=
    (slice_skip hident 4 4).trans ((slice_skip hheader 0 4).trans (slice_here (length_bytes _ _ _)))
  have hcount : slice b.encode (14 + b.gap.length) 2 = b.endian.bytes 2 b.entries.length := by
    have hplace : 14 + b.gap.length = 6 + (4 + (4 + (b.gap.length + 0))) := by omega
    rw [hplace]
    exact (slice_skip hident _ 2).trans ((slice_skip hheader _ 2).trans ((slice_skip (length_bytes _ _ _) _ 2).trans
      ((slice_skip rfl 0 2).trans (slice_here (length_bytes _ _ _)))))
  have hfirst : (UInt32.ofNat 6 + UInt32.ofNat (8 + b.gap.length)).toNat = 14 + b.gap.length := by
    rw [UInt32.toNat_add, UInt32.toNat_ofNat', UInt32.toNat_ofNat']
    omega
  rw [ifdOrientation, deGet32_of_le (by omega), Option.bind_some, hoffset, deEndian_bytes (by omega)]
  generalize UInt32.ofNat 6 + UInt32.ofNat (8 + b.gap.length) = i at hfirst
  have hstart : (i + 2).toNat = 16 + b.gap.length :=
    toNat_add_small i 2 (by simp only [UInt32.reduceToNat]; omega) (by omega)
  have hentries := b.entries_lt
  have hend : (i + 2 + UInt32.ofNat b.entries.length * 12).toNat = 16 + b.gap.length + 12 * b.entries.length := by
    rw [UInt32.toNat_add, UInt32.toNat_mul, hstart, UInt32.toNat_ofNat']
    simp only [UInt32.reduceToNat]
    omega
  have htags : (UInt32.ofNat b.entries.length).toNat = b.entries.length := by
    rw [UInt32.toNat_ofNat']
    omega
  dsimp only
  rw [if_neg (by omega), hfirst, deGet16_of_le (by omega), Option.bind_some, hcount, deEndian_bytes (by omega),
    if_neg (by omega), htags]
  have hsplit : b.encode = exifIdentString ++ (b.endian.header ++ (b.endian.bytes 4 (8 + b.gap.length) ++ (b.gap ++
      b.endian.bytes 2 b.entries.length))) ++ (b.entries.flatMap (IfdEntry.encode b.endian) ++
        (b.endian.bytes 4 b.next.toNat ++ b.rest)) := by
    simp only [ExifBlock.encode, List.append_assoc]
  rw [hsplit] at hlen ⊢
  refine tagLoop_entries b.entries ?_ (by omega)
  rw [hstart]
  simp only [List.length_append, length_header, length_bytes, hident]
  omega

theorem exifOrientation_encode (b : ExifBlock) : exifOrientation b.encode = some (orientationOf b.entries) := by
  have hlen := length_encode b
  rw [exifOrientation]
  by_cases hshort : b.encode.length < 32
  · have hempty : b.entries = [] := List.length_eq_zero_iff.mp (by omega)
    rw [if_pos hshort, hempty]
    rfl
  · have hheader : findTiffHeader b.encode 16 0 = some (some (6, b.endian)) := by
      rw [findTiffHeader_eq (by omega) 16 0 (by omega), ← List.range_eq_range']
      exact congrArg some (tiffHeader_encode b.endian _)
    rw [if_neg hshort, hheader, Option.bind_some]
    exact ifdOrientation_encode b

end Encode

def ExifBlock.marker (b : ExifBlock) : SavedMarker := ⟨exifJpegMarker, b.encode, length_encode b ▸ b.length_lt⟩

/-- Whatever the byte order and wherever the directory stands, the first
orientation entry of the last Exif block is the one that is read. -/
theorem getOrientation_encode (b : ExifBlock) (before after : List SavedMarker)
    (hidents : IdentsInside (before ++ after)) (hlast : ∀ m ∈ after, isExif m = false) :
    getOrientation (before ++ b.marker :: after) = some (orientationOf b.entries) := by
  have hall : IdentsInside (before ++ b.marker :: after) := by
    intro m hm hcode
    rcases List.mem_append.mp hm with hm | hm
    · exact hidents m (List.mem_append_left _ hm) hcode
    · rcases List.mem_cons.mp hm with rfl | hm
      · change 6 ≤ b.encode.length
        rw [length_encode]
        omega
      · exact hidents m (List.mem_append_right _ hm) hcode
  have hfind : (before ++ b.marker :: after).reverse.find? isExif =
      some b.marker := by
    have hafter : after.reverse.find? isExif = none := by
      rw [List.find?_eq_none]
      exact fun m hm => by simp [hlast m (List.mem_reverse.mp hm)]
    have hexif : isExif b.marker = true := rfl
    rw [List.reverse_append, List.reverse_cons, List.append_assoc, List.find?_append, hafter, Option.none_or,
      List.singleton_append, List.find?_cons_of_pos hexif]
  rw [getOrientation, findExifMarker_of_inside _ none hall, hfind, Option.bind_some]
  exact exifOrientation_encode b

theorem getOrientation_encode_big : getOrientation ([⟨0xE2, [1, 2], by decide⟩] ++ ExifBlock.marker
    ⟨.big, [], [⟨0x10f, 2, 4, 0x4d61, 0x6500⟩, ⟨0x112, 3, 1, 6, 0⟩], 0, [], by decide, by decide⟩ ::
      [⟨0xE1, List.replicate 40 0, by decide⟩]) = some 6 :=
  getOrientation_encode
    ⟨.big, [], [⟨0x10f, 2, 4, 0x4d61, 0x6500⟩, ⟨0x112, 3, 1, 6, 0⟩], 0, [], by decide, by decide⟩
    _ _ (by unfold IdentsInside; decide) (by decide)

end HildonThumbnail
