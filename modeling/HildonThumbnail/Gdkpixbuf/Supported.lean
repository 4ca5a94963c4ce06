import HildonThumbnail.Lib.PointerArray
import HildonThumbnail.Lib.While
import Mathlib.Algebra.Ring.Nat

/-! The MIME types that the gdk-pixbuf plugin supports
(`hildon_thumbnail_plugin_supported` in daemon/plugins/gdkpixbuf-plugin.c). -/

namespace HildonThumbnail

/-- `len` is a guint. -/
structure GPtrArray (α : Type) where
  items : List α
  len_lt : items.length < 2 ^ 32

def gPtrArrayNew {α : Type} : GPtrArray α := ⟨[], Nat.two_pow_pos 32⟩

/-- An array that would overflow aborts the program. -/
def gPtrArrayAdd {α : Type} (array : GPtrArray α) (a : α) : Option (GPtrArray α) :=
  if h : array.items.length + 1 < 2 ^ 32 then some ⟨array.items ++ [a], by simpa using h⟩ else none

/-- What `gdk_pixbuf_format_get_mime_types` returns for a format; it may be NULL. -/
abbrev PixbufFormat := Option (List String)

namespace PixbufPlugin

structure Collecting where
  copy : List PixbufFormat
  typesSupport : GPtrArray String

/-- One turn of `while (copy)`, on what it has left; nothing is left of a program that
has aborted. The inner index stays in its range, as every MIME type that it passes is in the array. -/
def collectStep : Option Collecting → Option (Option Collecting)
  | none => none
  | some ⟨[], _⟩ => none
  -- the `continue`
  | some ⟨none :: copy, typesSupport⟩ => some (some ⟨none :: copy, typesSupport⟩)
  | some ⟨some mimeTypes :: copy, typesSupport⟩ =>
    some ((mimeTypes.foldlM gPtrArrayAdd typesSupport).map fun added => ⟨copy, added⟩)

/-- The array is zeroed, for `len + 1 + 1` pointers. -/
def supportedArray (typesSupport : GPtrArray String) : Option (PointerArray String) :=
  let len := UInt32.ofNat typesSupport.items.length
  ((PointerArray.alloc0 (len + 1 + 1).toNat).writeFrom 0 typesSupport.items).bind fun supported =>
    supported.write typesSupport.items.length "sketch/png"

/-- `supported` is the static variable. -/
def hildonThumbnailPluginSupported (fuel : Nat) (supported : Option (PointerArray String))
    (formats : List PixbufFormat) : Option (PointerArray String) :=
  match supported with
  | some supported => some supported
  | none => (WhileLoop.exec collectStep fuel (some ⟨formats, gPtrArrayNew⟩)).join.bind fun collected =>
      supportedArray collected.typesSupport

def allMimeTypes (formats : List PixbufFormat) : List String := formats.flatMap fun mimeTypes => mimeTypes.getD []

/-- The first call returns, in an array that ends with the NULL. -/
def ReturnsAll (formats : List PixbufFormat) : Prop :=
  ∃ fuel, hildonThumbnailPluginSupported fuel none formats =
    some (PointerArray.filled (allMimeTypes formats ++ ["sketch/png"]) 1)

section
variable {α : Type}

theorem GPtrArray.eq_of_items {array array' : GPtrArray α} (h : array.items = array'.items) : array = array' := by
  cases array
  cases array'
  cases h
  rfl

theorem foldlM_gPtrArrayAdd {l : List α} {array array' : GPtrArray α} :
    l.foldlM gPtrArrayAdd array = some array' ↔ array'.items = array.items ++ l := by
  induction l generalizing array with
  | nil =>
    simp only [List.foldlM_nil, List.append_nil, Option.pure_def, Option.some.injEq]
    exact ⟨fun h => h ▸ rfl, fun h => (GPtrArray.eq_of_items h).symm⟩
  | cons a l ih =>
    rw [List.foldlM_cons, gPtrArrayAdd]
    by_cases hlt : array.items.length + 1 < 2 ^ 32
    · rw [dif_pos hlt, Option.bind_eq_bind, Option.bind_some, ih]
      simp
    · rw [dif_neg hlt]
      refine iff_of_false (by simp) fun h => hlt ?_
      have hlen := array'.len_lt
      rw [h, List.length_append, List.length_cons] at hlen
      omega

end

section
variable {formats copy : List PixbufFormat} {typesSupport collected : GPtrArray String}

theorem collectStep_list (mimeTypes : List String) (copy : List PixbufFormat) (typesSupport : GPtrArray String) :
    collectStep (some ⟨some mimeTypes :: copy, typesSupport⟩) =
      some ((mimeTypes.foldlM gPtrArrayAdd typesSupport).map fun added => ⟨copy, added⟩) := rfl

theorem not_ends_of_null (copy : List PixbufFormat) (typesSupport : GPtrArray String) :
    ¬ WhileLoop.Ends collectStep (some ⟨none :: copy, typesSupport⟩) := by
  have hstuck : ∀ s, s = some (Collecting.mk (none :: copy) typesSupport) →
      ∃ t, collectStep s = some t ∧ t = some (Collecting.mk (none :: copy) typesSupport) := by
    rintro s rfl
    exact ⟨_, rfl, rfl⟩
  exact WhileLoop.not_ends_of_invariant hstuck rfl

/-- The loop comes to its end exactly if no format is without a list and the array does not overflow. -/
theorem collected_iff : WhileLoop.EndsIn collectStep (some ⟨formats, typesSupport⟩) (some ⟨copy, collected⟩) ↔
    copy = [] ∧ none ∉ formats ∧ collected.items = typesSupport.items ++ allMimeTypes formats := by
  induction formats generalizing typesSupport with
  | nil =>
    rw [WhileLoop.endsIn_of_none rfl, Option.some.injEq, Collecting.mk.injEq]
    have hitems : collected = typesSupport ↔ collected.items = typesSupport.items :=
      ⟨fun h => h ▸ rfl, GPtrArray.eq_of_items⟩
    simp [allMimeTypes, hitems]
  | cons format formats ih =>
    cases format with
    | none =>
      refine iff_of_false (fun h => ?_) (by simp)
      exact not_ends_of_null formats typesSupport ⟨_, h⟩
    | some mimeTypes =>
      have hall : allMimeTypes (some mimeTypes :: formats) = mimeTypes ++ allMimeTypes formats := rfl
      rw [WhileLoop.endsIn_of_some (collectStep_list mimeTypes formats typesSupport), hall, ← List.append_assoc]
      cases hadded : mimeTypes.foldlM gPtrArrayAdd typesSupport with
      | none =>
        refine iff_of_false (fun h => ?_) ?_
        · cases (WhileLoop.endsIn_of_none rfl).mp h
        · rintro ⟨_, _, hitems⟩
          have hprefix : (typesSupport.items ++ mimeTypes).length ≤ collected.items.length := by
            rw [hitems]
            simp
          have hlt := Nat.lt_of_le_of_lt hprefix collected.len_lt
          rw [foldlM_gPtrArrayAdd.mpr (show (GPtrArray.mk _ hlt).items = _ from rfl)] at hadded
          cases hadded
      | some added =>
        rw [← foldlM_gPtrArrayAdd.mp hadded]
        simpa using ih

theorem supportedArray_eq (h : typesSupport.items.length + 2 < 2 ^ 32) :
    supportedArray typesSupport = some (PointerArray.filled (typesSupport.items ++ ["sketch/png"]) 1) := by
  have hcells : (UInt32.ofNat typesSupport.items.length + 1 + 1).toNat = typesSupport.items.length + 2 := by
    simp only [UInt32.toNat_add, UInt32.toNat_ofNat', UInt32.toNat_one]
    omega
  have hfilled : (PointerArray.filled [] (typesSupport.items.length + 2)).writeFrom 0 typesSupport.items =
      some (PointerArray.filled typesSupport.items 2) := PointerArray.writeFrom_filled [] typesSupport.items 2
  rw [supportedArray, hcells, PointerArray.alloc0_eq, hfilled]
  exact PointerArray.write_filled typesSupport.items 1 "sketch/png"

/-- With less room than for the NULL, the sum wraps. -/
theorem supportedArray_of_wrapping (h : 2 ^ 32 ≤ typesSupport.items.length + 2) :
    supportedArray typesSupport = none := by
  have hlt := typesSupport.len_lt
  have hcells : (UInt32.ofNat typesSupport.items.length + 1 + 1).toNat + 2 ^ 32 =
    typesSupport.items.length + 2 := by
    simp only [UInt32.toNat_add, UInt32.toNat_ofNat', UInt32.toNat_one]
    omega
  by_contra hsome
  obtain ⟨supported, hsupported⟩ := Option.ne_none_iff_exists'.mp hsome
  obtain ⟨written, hwritten, hlast⟩ := Option.bind_eq_some_iff.mp hsupported
  have hlength := PointerArray.length_writeFrom hwritten
  have hroom := (PointerArray.write_eq_some hlast).1
  rw [PointerArray.alloc0, List.length_replicate] at hlength
  omega

theorem returns_iff {supported : PointerArray String} :
    (∃ fuel, hildonThumbnailPluginSupported fuel none formats = some supported) ↔
      ∃ typesSupport, none ∉ formats ∧ typesSupport.items = allMimeTypes formats ∧
        supportedArray typesSupport = some supported := by
  constructor
  · rintro ⟨fuel, hreturn⟩
    obtain ⟨⟨copy, collected⟩, hcollected, harray⟩ := Option.bind_eq_some_iff.mp hreturn
    obtain ⟨_, hnotNull, hitems⟩ := collected_iff.mp ⟨fuel, Option.join_eq_some_iff.mp hcollected⟩
    exact ⟨collected, hnotNull, hitems, harray⟩
  · rintro ⟨typesSupport, hnotNull, hitems, harray⟩
    have hcollected : WhileLoop.EndsIn collectStep (some ⟨formats, gPtrArrayNew⟩) (some ⟨[], typesSupport⟩) :=
      collected_iff.mpr ⟨rfl, hnotNull, hitems⟩
    obtain ⟨fuel, hends⟩ := hcollected
    refine ⟨fuel, ?_⟩
    rw [hildonThumbnailPluginSupported, hends]
    exact harray

/-- The first call returns the types of all formats exactly if each has a list, and if they fit
into a guint with the two pointers after them. -/
theorem returnsAll_iff (formats : List PixbufFormat) :
    ReturnsAll formats ↔ none ∉ formats ∧ (allMimeTypes formats).length + 2 < 2 ^ 32 := by
  rw [ReturnsAll, returns_iff]
  constructor
  · rintro ⟨typesSupport, hnotNull, hitems, harray⟩
    refine ⟨hnotNull, ?_⟩
    by_contra hlarge
    rw [← hitems] at hlarge
    rw [supportedArray_of_wrapping (Nat.le_of_not_lt hlarge)] at harray
    cases harray
  · rintro ⟨hnotNull, hlt⟩
    exact ⟨⟨allMimeTypes formats, by omega⟩, hnotNull, rfl, supportedArray_eq hlt⟩

theorem not_returnsAll : ¬ ∀ formats : List PixbufFormat, ReturnsAll formats := by
  intro hall
  obtain ⟨fuel, hreturn⟩ := hall [none]
  obtain ⟨_, hnotNull, _⟩ := returns_iff.mp ⟨fuel, hreturn⟩
  exact hnotNull (by simp)

end

end PixbufPlugin

end HildonThumbnail
