import HildonThumbnail.Manager.CheckDir
import Mathlib.Data.List.Induction

/-! Which service the scans leave for a key, in terms of the listing order. -/

namespace HildonThumbnail

def Declaration.info (s : Declaration) : ValueInfo := ⟨some s.name, s.mtime, false⟩

def preAddDeclaration (pre : ServiceTable) (s : Declaration) : ServiceTable :=
  preAdd s.name s.mtime s.uriScheme pre s.mimeType

theorem preAddFile_eq (pre : ServiceTable) (file : DirFile) :
    preAddFile pre file = file.declarations.foldl preAddDeclaration pre := by
  rw [preAddFile, DirFile.declarations]
  cases file.keyfile with
  | none => rfl
  | some keyfile =>
    dsimp only
    split
    · rw [List.foldl_flatMap]
      simp only [List.foldl_map, preAddDeclaration]
    · rfl

theorem foldl_preAddFile_eq (entries : List (String × DirFile)) (pre : ServiceTable) :
    entries.foldl (fun pre e => preAddFile pre e.2) pre =
      (entries.flatMap fun e => e.2.declarations).foldl preAddDeclaration pre := by
  simp only [preAddFile_eq, List.foldl_flatMap]

theorem lookup_preAddDeclaration (pre : ServiceTable) (s : Declaration) (key : String) :
    (preAddDeclaration pre s).lookup key =
      if s.key = key ∧ (pre.lookup s.mimeType).all (fun vi => vi.mtime < s.mtime) = true then some s.info
      else pre.lookup key := by
  rw [preAddDeclaration, preAdd]
  by_cases h : (pre.lookup s.mimeType).all (fun vi => vi.mtime < s.mtime) = true
  · simp only [h, if_true, and_true, KeyTable.lookup_insert_eq]
    simp only [Declaration.key, Declaration.info, eq_comm]
  · simp [h]

/-- The scan keeps, for each key, the last declaration that it does not skip. -/
theorem lookup_foldl_preAddDeclaration (l : List Declaration) (key : String) :
    (l.foldl preAddDeclaration ∅).lookup key =
      ((unskipped l.reverse).find? fun s => s.key = key).map Declaration.info := by
  induction l using List.reverseRecOn generalizing key with
  | nil => rfl
  | append_singleton l s ih =>
    have hall : ((l.foldl preAddDeclaration ∅).lookup s.mimeType).all (fun vi => vi.mtime < s.mtime) =
        ((unskipped l.reverse).find? fun e => e.key = s.mimeType).all fun e => e.mtime < s.mtime := by
      rw [ih, Option.all_map]
      rfl
    rw [List.foldl_append, List.foldl_cons, List.foldl_nil, lookup_preAddDeclaration, hall, ih]
    simp only [List.reverse_append, List.reverse_singleton, List.singleton_append, unskipped]
    by_cases hs : ((unskipped l.reverse).find? fun e => e.key = s.mimeType).all
        (fun e => decide (e.mtime < s.mtime)) = true
    · by_cases hk : s.key = key <;> simp [hs, hk]
    · simp [hs]

theorem lookup_preAddOverrides (now : Nat) (pre : ServiceTable) (keyfile : KeyFile) (key : String) :
    (preAddOverrides now pre keyfile).lookup key =
      if key ∈ keyfile.groups then some ⟨keyfile.getString key "Name", now, true⟩
      else pre.lookup key := by
  rw [preAddOverrides]
  induction keyfile.groups generalizing pre with
  | nil => simp
  | cons g gs ih =>
    rw [List.foldl_cons, ih, KeyTable.lookup_insert_eq]
    by_cases hg : key = g
    · subst hg; simp
    · simp [hg]

theorem lookup_checkDirPre (now : Nat) (d : Directory) (key : String) :
    ((checkDirPre now d).lookup key).map ValueInfo.name = d.listed key := by
  have hbase := lookup_foldl_preAddDeclaration d.declarations key
  rw [Directory.declarations, ← foldl_preAddFile_eq] at hbase
  have hnone : d.overrideName key = none →
      ((checkDirPre now d).lookup key).map ValueInfo.name = (d.lastListed key).map fun s => some s.name := by
    intro ho
    have hl : (checkDirPre now d).lookup key =
        ((unskipped d.declarations.reverse).find? fun s => s.key = key).map Declaration.info := by
      rw [checkDirPre]
      cases hd : d.overrides with
      | none => exact hbase
      | some keyfile =>
        have hg : key ∉ keyfile.groups := by simpa [Directory.overrideName, hd] using ho
        rw [lookup_preAddOverrides, if_neg hg]
        exact hbase
    rw [hl, Option.map_map]
    rfl
  rw [Directory.listed]
  cases ho : d.overrideName key with
  | none => exact hnone ho
  | some n =>
    cases hd : d.overrides with
    | none => simp [Directory.overrideName, hd] at ho
    | some keyfile =>
      simp only [Directory.overrideName, hd, Option.bind_some, Option.ite_none_right_eq_some,
        Option.some.injEq] at ho
      simp only [checkDirPre, hd, lookup_preAddOverrides, if_pos ho.1, Option.map_some, ho.2]

def enteredName (override : Bool) (old : Option String) (v : ValueInfo) : Option String :=
  match if !v.prio && !override then old else none with
  | none => v.name
  | some oname => if gAsciiStrcasecmpEq (v.name.getD "") oname then old else v.name

theorem handlerName_enter [DBusGlib] (override : Bool) (m : ThumbnailManager) (key : String) (v : ValueInfo)
    (j : String) : handlerName (enterHandler override m (key, v)) j =
      if j = key then enteredName override (handlerName m key) v else handlerName m j := by
  simp only [enterHandler, enteredName]
  cases if !v.prio && !override then handlerName m key else none with
  | none => exact handlerName_add ..
  | some oname =>
    dsimp only
    split
    · split
      · next h => rw [h]
      · rfl
    · exact handlerName_add ..

theorem handlerName_foldl_enter [DBusGlib] (override : Bool) (l : List (String × ValueInfo))
    (hnd : (l.map Prod.fst).Nodup) (m : ThumbnailManager) (key : String) :
    (∀ v, (key, v) ∈ l → handlerName (l.foldl (enterHandler override) m) key =
      enteredName override (handlerName m key) v) ∧
    ((∀ v, (key, v) ∉ l) → handlerName (l.foldl (enterHandler override) m) key = handlerName m key) := by
  induction l generalizing m with
  | nil => simp
  | cons e l ih =>
    obtain ⟨j, w⟩ := e
    have hnd' := List.nodup_cons.mp hnd
    have hi := ih hnd'.2 (enterHandler override m (j, w))
    simp only [List.foldl_cons]
    by_cases hj : key = j
    · subst hj
      have hnot : ∀ v, (key, v) ∉ l := fun v hv => hnd'.1 (List.mem_map.mpr ⟨(key, v), hv, rfl⟩)
      have hval := hi.2 hnot
      rw [handlerName_enter, if_pos rfl] at hval
      refine ⟨fun v hv => ?_, fun h => absurd List.mem_cons_self (h w)⟩
      have he : v = w := by simpa [hnot v] using hv
      rw [he, hval]
    · rw [handlerName_enter, if_neg hj] at hi
      have hmem : ∀ v, (key, v) ∈ (j, w) :: l ↔ (key, v) ∈ l := by simp [hj]
      simpa only [hmem] using hi

theorem handlerName_checkDir [DBusGlib] (order : KeyTable.Order String) (now : Nat) (m : ThumbnailManager)
    (dir : Option Directory) (override : Bool) (key : String) :
    handlerName (thumbnailManagerCheckDir order now m dir override) key =
      match dir.bind fun d => (checkDirPre now d).lookup key with
      | some v => enteredName override (handlerName m key) v
      | none => handlerName m key := by
  cases dir with
  | none => rfl
  | some d =>
    have hf := handlerName_foldl_enter override (order.visit (checkDirPre now d))
      (order.keys_nodup _) m key
    simp only [order.mem_visit] at hf
    rw [thumbnailManagerCheckDir, Option.bind_some]
    cases hl : (checkDirPre now d).lookup key with
    | none => exact hf.2 (by simp [hl])
    | some v => exact hf.1 v hl

def listedService (system user : Option Directory) (key : String) : Option String :=
  ((user.bind fun d => d.listed key).or (system.bind fun d => d.listed key)).join

theorem handlerName_check [DBusGlib] (order : KeyTable.Order String) (now : Nat) (system user : Option Directory)
    (key : String) :
    handlerName (thumbnailManagerCheck order now thumbnailManagerInit system user) key =
      listedService system user key := by
  have hlisted (dir : Option Directory) : (dir.bind fun d => d.listed key) =
      (dir.bind fun d => (checkDirPre now d).lookup key).map ValueInfo.name := by
    cases dir with
    | none => rfl
    | some d => exact (lookup_checkDirPre now d key).symm
  rw [thumbnailManagerCheck, handlerName_checkDir, handlerName_checkDir, handlerName_init,
    listedService, hlisted user, hlisted system]
  cases user.bind fun d => (checkDirPre now d).lookup key with
  | some v => simp [enteredName]
  | none =>
    cases system.bind fun d => (checkDirPre now d).lookup key with
    | none => rfl
    | some v => simp [enteredName]

theorem mem_of_mem_unskipped {l : List Declaration} {s : Declaration} (h : s ∈ unskipped l) : s ∈ l := by
  induction l with
  | nil => exact h
  | cons t earlier ih =>
    rw [unskipped] at h
    split at h
    · rcases List.mem_cons.mp h with rfl | h
      · exact List.mem_cons_self
      · exact List.mem_cons_of_mem _ (ih h)
    · exact List.mem_cons_of_mem _ (ih h)

theorem Directory.listed_isSome {d : Directory} {key : String} (h : (d.listed key).isSome) :
    d.HasEntry key := by
  rw [Directory.listed] at h
  cases ho : d.overrideName key with
  | some n => exact .inl (by rw [ho]; rfl)
  | none =>
    rw [ho] at h
    simp only [Option.isSome_map] at h
    obtain ⟨s, hs⟩ := Option.isSome_iff_exists.mp h
    have hm := mem_of_mem_unskipped (List.mem_of_find?_eq_some hs)
    exact .inr ⟨s, List.mem_reverse.mp hm, by simpa using List.find?_some hs⟩

end HildonThumbnail
