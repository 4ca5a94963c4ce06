import HildonThumbnail.Lib.KeyTable
import HildonThumbnail.Lib.PointerArray
import HildonThumbnail.Lib.Run

/-! The tool that registers thumbnailer commands with the exec plug-in
(thumbs/thumber-register.c). -/

namespace HildonThumbnail

inductive GKeyValue
  | string (value : String)
  | stringList (values : List String)
  | boolean (value : Bool)
deriving DecidableEq

abbrev GKeyFile := KeyTable String (KeyTable String GKeyValue)

namespace GKeyFile

def getValue (k : GKeyFile) (group key : String) : Option GKeyValue :=
  (k.lookup group).bind fun keys => keys.lookup key

def getString (k : GKeyFile) (group key : String) : Option String :=
  match k.getValue group key with
  | some (.string value) => some value
  | some (.stringList _) | some (.boolean _) | none => none

def getStringList (k : GKeyFile) (group key : String) : Option (List String) :=
  match k.getValue group key with
  | some (.stringList values) => some values
  | some (.string _) | some (.boolean _) | none => none

def setValue (k : GKeyFile) (group key : String) (value : GKeyValue) : GKeyFile :=
  k.insert group (((k.lookup group).getD ∅).insert key value)

def removeGroup (k : GKeyFile) (group : String) : GKeyFile := k.erase group

theorem getValue_setValue (k : GKeyFile) (group key : String) (value : GKeyValue) (group' key' : String) :
    (k.setValue group key value).getValue group' key' =
      if group' = group ∧ key' = key then some value else k.getValue group' key' := by
  rw [getValue, getValue, setValue, KeyTable.lookup_insert_eq]
  by_cases hg : group' = group
  · subst hg
    rw [if_pos rfl, Option.bind_some, KeyTable.lookup_insert_eq]
    by_cases hk : key' = key
    · simp [hk]
    · cases k.lookup group' <;> simp [hk]
  · simp [hg]

theorem getValue_removeGroup (k : GKeyFile) (group group' key : String) :
    (k.removeGroup group).getValue group' key = if group' = group then none else k.getValue group' key := by
  rw [getValue, getValue, removeGroup, KeyTable.lookup_erase_eq]
  split <;> rfl

end GKeyFile

def thumberGroup : String := "Hildon Thumbnailer"

/-- No type has the name of the group that lists the types. -/
abbrev MimeType := { m : String // m ≠ thumberGroup }

/-- The directory BIN_PATH, which is compiled into a format and ends up before
the quotes. -/
structure BinPath where
  path : String
  plain : '"' ∉ path.toList ∧ '%' ∉ path.toList

def convertCmd (bin : BinPath) (cmd : String) : String :=
  bin.path ++ "/" ++ "hildon-thumbnailer-wrap.sh \"" ++ cmd ++
    "\" \"\x7buri\x7d\" \"\x7blarge\x7d\" \"\x7bnormal\x7d\" \"\x7bcropped\x7d\" \"\x7bmime_at\x7d\" \"\x7bmime\x7d\""

/-- What stands between the first two quotes. -/
def quotedCommand (exec : String) : Option String :=
  match exec.toList.dropWhile (· ≠ '"') with
  | [] => none
  | _ :: check => if '"' ∈ check then some (String.ofList (check.takeWhile (· ≠ '"'))) else none

/-- The loop over the listed types: the array that is being filled and the
number of its cells that are. -/
structure MimeTypesLoop where
  keyfile : GKeyFile
  mimetypes : PointerArray String
  z : Nat

/-- A type that is `undone` is left out of the array, and the file is told so by
`forget`. -/
def MimeTypesLoop.step (undone : GKeyFile → String → Bool) (forget : GKeyFile → String → GKeyFile)
    (s : MimeTypesLoop) (o : String) : Option MimeTypesLoop :=
  if undone s.keyfile o then some { s with keyfile := forget s.keyfile o }
  else (s.mimetypes.write s.z o).map fun cells => { s with mimetypes := cells, z := s.z + 1 }

/-- `g_key_file_set_string_list` with the array, which is freed after it. -/
def setMimeTypes (k : GKeyFile) (mimetypes : PointerArray String) (length : Nat) : Option GKeyFile :=
  (mimetypes.read length).bind fun values =>
    mimetypes.freev.map fun _ => k.setValue thumberGroup "MimeTypes" (.stringList values)

/-- The file is absent at first. A run that goes outside an array, or whose file
has no list of types (`length` is not set then), has no result. -/
def thumberRegister (bin : BinPath) (cmd : String) (mime : MimeType) (config : Option GKeyFile) :
    Option (Option GKeyFile) :=
  let listed : Option GKeyFile :=
    match config with
    | none =>
      ((PointerArray.alloc0 2).write 0 mime.1).bind fun mimetypes =>
        setMimeTypes (GKeyFile.setValue ∅ thumberGroup "DoCropping" (.boolean false)) mimetypes 1
    | some k =>
      (k.getStringList thumberGroup "MimeTypes").bind fun o =>
        (StepRun.run (MimeTypesLoop.step (fun _ o => o = mime.1) fun k _ => k)
          ⟨k, PointerArray.alloc0 (o.length + 2), 0⟩ o).bind fun s =>
            (s.mimetypes.write s.z mime.1).bind fun mimetypes => setMimeTypes s.keyfile mimetypes (o.length + 1)
  listed.map fun k => some (k.setValue mime.1 "Exec" (.string (convertCmd bin cmd)))

/-- What the two ways to unregister have in common. -/
def unregisterWhere (undone : GKeyFile → String → Bool) (config : Option GKeyFile) : Option (Option GKeyFile) :=
  match config with
  | none => some none
  | some k =>
    (k.getStringList thumberGroup "MimeTypes").bind fun o =>
      if 0 < o.length then
        (StepRun.run (MimeTypesLoop.step undone GKeyFile.removeGroup) ⟨k, PointerArray.alloc0 o.length, 0⟩ o).bind
          fun s => (setMimeTypes s.keyfile s.mimetypes (o.length + 1)).map some
      else some (some k)

def thumberUnregister (cmd : String) : Option GKeyFile → Option (Option GKeyFile) :=
  unregisterWhere fun k o => (k.getString o "Exec").bind quotedCommand = some cmd

def thumberUnregisterMime (mime : MimeType) : Option GKeyFile → Option (Option GKeyFile) :=
  unregisterWhere fun _ o => o = mime.1

inductive ThumberRun
  | register (cmd : String) (mime : MimeType)
  | unregister (cmd : String)
  | unregisterMime (mime : MimeType)

def thumberStep (bin : BinPath) (config : Option GKeyFile) : ThumberRun → Option (Option GKeyFile)
  | .register cmd mime => thumberRegister bin cmd mime config
  | .unregister cmd => thumberUnregister cmd config
  | .unregisterMime mime => thumberUnregisterMime mime config

/-! The command each type is registered with. -/

def ThumberRun.apply (r : MimeType → Option String) : ThumberRun → MimeType → Option String
  | .register cmd mime => Function.update r mime (some cmd)
  | .unregister cmd => fun m => (r m).filter fun c => c ≠ cmd
  | .unregisterMime mime => Function.update r mime none

def registered (runs : List ThumberRun) : MimeType → Option String :=
  runs.foldl ThumberRun.apply fun _ => none

structure Lists (bin : BinPath) (r : MimeType → Option String) (k : GKeyFile) (types : List String) : Prop where
  list : k.getStringList thumberGroup "MimeTypes" = some types
  once : types.Nodup
  exactly : ∀ o, o ∈ types ↔ ∃ m : MimeType, m.1 = o ∧ (r m).isSome
  exec : ∀ m cmd, r m = some cmd → k.getString m.1 "Exec" = some (convertCmd bin cmd)

def ConfigLists (bin : BinPath) (r : MimeType → Option String) : Option GKeyFile → Prop
  | none => ∀ m, r m = none
  | some k => ∃ types, Lists bin r k types

def upToQuote (cmd : String) : String := String.ofList (cmd.toList.takeWhile (· ≠ '"'))

/-- Unregistering removes something, and a command that is cut at a quote is not
taken for another. -/
def Undoable (r : MimeType → Option String) : ThumberRun → Prop
  | .register _ _ => True
  | .unregister cmd => (∀ m, r m = none) ∨
      (∃ m, r m = some cmd) ∧ ∀ m c, r m = some c → (upToQuote c = cmd ↔ c = cmd)
  | .unregisterMime mime => (∀ m, r m = none) ∨ (r mime).isSome

theorem quotedCommand_convertCmd (bin : BinPath) (cmd : String) :
    quotedCommand (convertCmd bin cmd) = some (upToQuote cmd) := by
  have hlist : ∃ post, (convertCmd bin cmd).toList =
      (bin.path.toList ++ "/hildon-thumbnailer-wrap.sh ".toList) ++ '"' :: (cmd.toList ++ '"' :: post) := by
    refine ⟨(" \"\x7buri\x7d\" \"\x7blarge\x7d\" \"\x7bnormal\x7d\"" ++
      " \"\x7bcropped\x7d\" \"\x7bmime_at\x7d\" \"\x7bmime\x7d\"").toList, ?_⟩
    simp [convertCmd]
  obtain ⟨post, hpost⟩ := hlist
  have hname : "/hildon-thumbnailer-wrap.sh ".toList.all (fun c => decide (c ≠ '"')) = true := by decide
  have hbefore : ∀ c ∈ bin.path.toList ++ "/hildon-thumbnailer-wrap.sh ".toList, decide (c ≠ '"') = true := by
    intro c hc
    rcases List.mem_append.mp hc with hc | hc
    · exact decide_eq_true fun heq => bin.plain.1 (heq ▸ hc)
    · exact List.all_eq_true.mp hname c hc
  rw [quotedCommand, hpost, List.dropWhile_append_of_pos hbefore]
  have hquote : '"' ∈ cmd.toList ++ '"' :: post := List.mem_append_right _ List.mem_cons_self
  have hcut : (cmd.toList ++ '"' :: post).takeWhile (· ≠ '"') = cmd.toList.takeWhile (· ≠ '"') := by
    induction cmd.toList with
    | nil => simp
    | cons c l ih =>
      by_cases hc : c = '"'
      · simp [hc]
      · simpa [hc] using ih
  show (if '"' ∈ cmd.toList ++ '"' :: post then
    some (String.ofList ((cmd.toList ++ '"' :: post).takeWhile (· ≠ '"'))) else none) = _
  rw [if_pos hquote, hcut, upToQuote]

theorem run_mimeTypesLoop (undone : GKeyFile → String → Bool) (forget : GKeyFile → String → GKeyFile)
    {os : List String} (hnd : os.Nodup)
    (hother : ∀ k, ∀ o ∈ os, ∀ o' ∈ os, o' ≠ o → undone (forget k o') o = undone k o) (k : GKeyFile)
    (kept : List String) (n : Nat) :
    StepRun.run (MimeTypesLoop.step undone forget)
        ⟨k, PointerArray.filled kept ((os.filter fun o => !undone k o).length + n), kept.length⟩ os =
      some ⟨(os.filter (undone k)).foldl forget k, PointerArray.filled (kept ++ os.filter fun o => !undone k o) n,
        (kept ++ os.filter fun o => !undone k o).length⟩ := by
  induction os generalizing k kept with
  | nil => simp
  | cons o os ih =>
    obtain ⟨ho, hnd⟩ := List.nodup_cons.mp hnd
    have hother' : ∀ k, ∀ p ∈ os, ∀ p' ∈ os, p' ≠ p → undone (forget k p') p = undone k p :=
      fun k p hp p' hp' => hother k p (List.mem_cons_of_mem o hp) p' (List.mem_cons_of_mem o hp')
    rw [StepRun.run_cons, MimeTypesLoop.step]
    by_cases hu : undone k o = true
    · have hsame : ∀ p ∈ os, undone (forget k o) p = undone k p := by
        intro p hp
        exact hother k p (List.mem_cons_of_mem o hp) o List.mem_cons_self fun heq => ho (heq ▸ hp)
      have hleft : os.filter (fun p => !undone (forget k o) p) = os.filter fun p => !undone k p :=
        List.filter_congr fun p hp => by rw [hsame p hp]
      have hgone : os.filter (undone (forget k o)) = os.filter (undone k) := List.filter_congr hsame
      have hrest := ih hnd hother' (forget k o) kept
      rw [hleft, hgone] at hrest
      simpa [hu] using hrest
    · have hrest := ih hnd hother' k (kept ++ [o])
      have hcells : (os.filter fun p => !undone k p).length + 1 + n =
        (os.filter fun p => !undone k p).length + n + 1 := by
        omega
      simp only [hu, List.filter_cons, Bool.not_false, if_true, List.length_cons, hcells,
        PointerArray.write_filled]
      simpa using hrest

theorem setMimeTypes_filled (k : GKeyFile) (l : List String) (n : Nat) {length : Nat} (h : l.length ≤ length) :
    setMimeTypes k (PointerArray.filled l (n + 1)) length =
      some (k.setValue thumberGroup "MimeTypes" (.stringList l)) := by
  rw [setMimeTypes, PointerArray.read_filled_of_le l n length h, Option.bind_some, PointerArray.freev_filled,
    Option.map_some]

/-- The array has as many cells as there were types. When none of them is left
out it has no NULL. -/
theorem unregisterWhere_eq {undone : GKeyFile → String → Bool} {k : GKeyFile} {types : List String}
    (hlist : k.getStringList thumberGroup "MimeTypes" = some types) (hnd : types.Nodup)
    (hother : ∀ k, ∀ o ∈ types, ∀ o' ∈ types, o' ≠ o → undone (k.removeGroup o') o = undone k o) :
    unregisterWhere undone (some k) =
      if types = [] then some (some k)
      else if types.filter (undone k) = [] then none
      else some (some (((types.filter (undone k)).foldl GKeyFile.removeGroup k).setValue thumberGroup "MimeTypes"
        (.stringList (types.filter fun o => !undone k o)))) := by
  have hlen : types.length = (types.filter fun o => !undone k o).length + (types.filter (undone k)).length := by
    rw [List.length_eq_length_filter_add (undone k), Nat.add_comm]
  have hloop := run_mimeTypesLoop undone GKeyFile.removeGroup hnd hother k [] (types.filter (undone k)).length
  rw [← hlen, List.nil_append, ← PointerArray.alloc0_eq, List.length_nil] at hloop
  simp only [unregisterWhere, hlist, Option.bind_some]
  by_cases htypes : types = []
  · simp [htypes]
  · rw [if_pos (List.length_pos_of_ne_nil htypes), if_neg htypes, hloop, Option.bind_some]
    by_cases hgone : types.filter (undone k) = []
    · have hread := PointerArray.read_filled (types.filter fun o => !undone k o) 0 (types.length + 1) (by omega)
      simp only [if_pos, hgone, List.length_nil, setMimeTypes, hread, Option.bind_none, Option.map_none]
    · obtain ⟨e, he⟩ := Nat.exists_eq_succ_of_ne_zero (mt List.eq_nil_of_length_eq_zero hgone)
      rw [if_neg hgone]
      dsimp only
      rw [he, setMimeTypes_filled _ _ e (by omega), Option.map_some]

section Lists
variable {bin : BinPath} {r r' : MimeType → Option String} {k : GKeyFile} {types : List String}

theorem getString_foldl_removeGroup {gone : List String} {o : String} (h : o ∉ gone) (key : String) :
    (gone.foldl GKeyFile.removeGroup k).getString o key = k.getString o key := by
  have hlookup : (gone.foldl GKeyFile.removeGroup k).lookup o = k.lookup o :=
    KeyTable.lookup_foldl_erase_of_notMem h k
  rw [GKeyFile.getString, GKeyFile.getString, GKeyFile.getValue, hlookup, ← GKeyFile.getValue]

theorem getString_setMimeTypes (m : MimeType) (values : List String) (key : String) :
    (k.setValue thumberGroup "MimeTypes" (.stringList values)).getString m.1 key = k.getString m.1 key := by
  rw [GKeyFile.getString, GKeyFile.getString, GKeyFile.getValue_setValue, if_neg]
  exact fun h => m.2 h.1

theorem getStringList_setMimeTypes (values : List String) :
    (k.setValue thumberGroup "MimeTypes" (.stringList values)).getStringList thumberGroup "MimeTypes" =
      some values := by
  rw [GKeyFile.getStringList, GKeyFile.getValue_setValue, if_pos ⟨rfl, rfl⟩]

theorem Lists.mem_iff (h : Lists bin r k types) (m : MimeType) : m.1 ∈ types ↔ (r m).isSome := by
  rw [h.exactly]
  constructor
  · rintro ⟨m', heq, hm⟩
    obtain rfl := Subtype.ext heq
    exact hm
  · exact fun hm => ⟨m, rfl, hm⟩

theorem Lists.eq_nil_iff (h : Lists bin r k types) : types = [] ↔ ∀ m, r m = none := by
  rw [List.eq_nil_iff_forall_not_mem]
  constructor
  · intro hno m
    exact Option.not_isSome_iff_eq_none.mp (mt (h.mem_iff m).mpr (hno m.1))
  · intro hnone o ho
    obtain ⟨m, _, hm⟩ := (h.exactly o).mp ho
    rw [hnone m] at hm
    cases hm

/-- What the file lists after the types in `undone` have been left out. -/
theorem Lists.forget {undone : GKeyFile → String → Bool} (h : Lists bin r k types)
    (hr : ∀ m, r' m = none ∨ r' m = r m) (hundone : ∀ m, (r m).isSome → (undone k m.1 = true ↔ r' m = none)) :
    Lists bin r' (((types.filter (undone k)).foldl GKeyFile.removeGroup k).setValue thumberGroup "MimeTypes"
      (.stringList (types.filter fun o => !undone k o))) (types.filter fun o => !undone k o) := by
  have hkeeps (m : MimeType) (hm : (r' m).isSome) : r' m = r m :=
    (hr m).resolve_left fun hnone => by simp [hnone] at hm
  refine ⟨getStringList_setMimeTypes _, h.once.filter _, fun o => ?_, fun m cmd hm => ?_⟩
  · rw [List.mem_filter]
    constructor
    · rintro ⟨ho, hleft⟩
      obtain ⟨m, rfl, hm⟩ := (h.exactly o).mp ho
      refine ⟨m, rfl, ?_⟩
      by_contra hgone
      rw [(hundone m hm).mpr (Option.not_isSome_iff_eq_none.mp hgone)] at hleft
      cases hleft
    · rintro ⟨m, rfl, hm⟩
      have hsome : (r m).isSome := hkeeps m hm ▸ hm
      refine ⟨(h.mem_iff m).mpr hsome, ?_⟩
      rw [Bool.not_eq_true', Bool.eq_false_iff]
      intro hgone
      rw [(hundone m hsome).mp hgone] at hm
      cases hm
  · have hrm : r m = some cmd := by rw [← hkeeps m (by rw [hm]; rfl), hm]
    have hstays : m.1 ∉ types.filter (undone k) := by
      intro hgone
      have hnone := (hundone m (by rw [hrm]; rfl)).mp (List.mem_filter.mp hgone).2
      rw [hnone] at hm
      cases hm
    rw [getString_setMimeTypes, getString_foldl_removeGroup hstays]
    exact h.exec m cmd hrm

theorem unregisterWhere_lists_iff {undone : GKeyFile → String → Bool} (h : Lists bin r k types)
    (hother : ∀ k, ∀ o ∈ types, ∀ o' ∈ types, o' ≠ o → undone (k.removeGroup o') o = undone k o)
    (hr : ∀ m, r' m = none ∨ r' m = r m) :
    (∃ config, unregisterWhere undone (some k) = some config ∧ ConfigLists bin r' config) ↔
      (∀ m, r m = none) ∨ (∃ m, (r m).isSome ∧ undone k m.1 = true) ∧
        ∀ m, (r m).isSome → (undone k m.1 = true ↔ r' m = none) := by
  rw [unregisterWhere_eq h.list h.once hother]
  by_cases htypes : types = []
  · have hnone := h.eq_nil_iff.mp htypes
    refine iff_of_true ⟨some k, if_pos htypes, types, ?_⟩ (.inl hnone)
    have hsame : r' = r := by
      funext m
      exact (hr m).elim (fun hm => hm.trans (hnone m).symm) id
    exact hsame ▸ h
  · rw [if_neg htypes]
    have hsome : ¬ ∀ m, r m = none := mt h.eq_nil_iff.mpr htypes
    by_cases hgone : types.filter (undone k) = []
    · rw [if_pos hgone]
      refine iff_of_false (fun ⟨config, hconfig, _⟩ => by cases hconfig) ?_
      rintro (hnone | ⟨⟨m, hm, hundone⟩, _⟩)
      · exact hsome hnone
      · exact List.filter_eq_nil_iff.mp hgone m.1 ((h.mem_iff m).mpr hm) hundone
    · rw [if_neg hgone]
      constructor
      · rintro ⟨config, hconfig, hlists⟩
        obtain rfl := Option.some.inj hconfig
        obtain ⟨types', hlists⟩ := hlists
        have hleft := hlists.list
        rw [getStringList_setMimeTypes, Option.some.injEq] at hleft
        refine .inr ⟨?_, fun m hm => ?_⟩
        · obtain ⟨o, ho⟩ := List.exists_mem_of_ne_nil _ hgone
          obtain ⟨ho, hundone⟩ := List.mem_filter.mp ho
          obtain ⟨m, rfl, hm⟩ := (h.exactly o).mp ho
          exact ⟨m, hm, hundone⟩
        · have hmem := hlists.mem_iff m
          rw [← hleft, List.mem_filter, h.mem_iff, Option.isSome_iff_ne_none (o := r' m)] at hmem
          simp only [hm, true_and, Bool.not_eq_true', ne_eq] at hmem
          rw [← not_iff_not, Bool.not_eq_true]
          exact hmem
      · rintro (hnone | ⟨_, hundone⟩)
        · exact absurd hnone hsome
        · exact ⟨_, rfl, _, h.forget hr hundone⟩

theorem lists_enter (left : List String) (cmd : String) (mime : MimeType)
    (hleft : ∀ o, o ∈ left ↔ ∃ m : MimeType, m ≠ mime ∧ m.1 = o ∧ (r m).isSome) (hnd : left.Nodup)
    (hexec : ∀ m c, r m = some c → k.getString m.1 "Exec" = some (convertCmd bin c)) :
    Lists bin (Function.update r mime (some cmd))
      ((k.setValue thumberGroup "MimeTypes" (.stringList (left ++ [mime.1]))).setValue mime.1 "Exec"
        (.string (convertCmd bin cmd))) (left ++ [mime.1]) := by
  refine ⟨?_, ?_, fun o => ?_, fun m c hm => ?_⟩
  · rw [GKeyFile.getStringList, GKeyFile.getValue_setValue, if_neg fun h => mime.2 h.1.symm]
    exact getStringList_setMimeTypes (k := k) _
  · rw [List.nodup_append]
    refine ⟨hnd, List.nodup_singleton _, fun o ho o' ho' heq => ?_⟩
    obtain ⟨m, hne, hm, _⟩ := (hleft o).mp ho
    exact hne (Subtype.ext (hm.trans (heq.trans (List.mem_singleton.mp ho'))))
  · rw [List.mem_append, hleft, List.mem_singleton]
    constructor
    · rintro (⟨m, hne, hm, hsome⟩ | rfl)
      · exact ⟨m, hm, by rwa [Function.update_of_ne hne]⟩
      · exact ⟨mime, rfl, by simp⟩
    · rintro ⟨m, rfl, hsome⟩
      by_cases hm : m = mime
      · exact .inr (congrArg Subtype.val hm)
      · exact .inl ⟨m, hm, rfl, by rwa [Function.update_of_ne hm] at hsome⟩
  · by_cases hmime : m = mime
    · subst hmime
      rw [Function.update_self, Option.some.injEq] at hm
      rw [GKeyFile.getString, GKeyFile.getValue_setValue, if_pos ⟨rfl, rfl⟩, hm]
    · rw [Function.update_of_ne hmime] at hm
      have hne : ¬ (m.1 = mime.1 ∧ "Exec" = "Exec") := fun h => hmime (Subtype.ext h.1)
      rw [GKeyFile.getString, GKeyFile.getValue_setValue, if_neg hne]
      exact (getString_setMimeTypes m _ _).trans (hexec m c hm)

theorem thumberRegister_lists (cmd : String) (mime : MimeType) {config : Option GKeyFile}
    (h : ConfigLists bin r config) : ∃ config', thumberRegister bin cmd mime config = some config' ∧
      ConfigLists bin (Function.update r mime (some cmd)) config' := by
  cases config with
  | none =>
    have hwrite := PointerArray.write_filled [] 1 mime.1
    rw [← PointerArray.alloc0_eq] at hwrite
    let k := GKeyFile.setValue ∅ thumberGroup "DoCropping" (.boolean false)
    have hset := setMimeTypes_filled k [mime.1] 0 (Nat.le_refl 1)
    have hnone : ∀ m, r m = none := h
    have hlists : Lists bin _ _ _ :=
      lists_enter (k := k) (r := r) [] cmd mime (by simp [hnone]) List.nodup_nil (by simp [hnone])
    refine ⟨some _, ?_, _, hlists⟩
    simp only [thumberRegister]
    rw [show (PointerArray.alloc0 2 : PointerArray String).write 0 mime.1 = _ from hwrite, Option.bind_some]
    exact congrArg (Option.map _) hset
  | some k =>
    obtain ⟨types, h⟩ := h
    let left := types.filter fun o => !decide (o = mime.1)
    let gone := types.filter fun o => decide (o = mime.1)
    have hlen : types.length = left.length + gone.length := by
      rw [List.length_eq_length_filter_add (fun o => decide (o = mime.1)), Nat.add_comm]
    have hloop := run_mimeTypesLoop (fun _ o => decide (o = mime.1)) (fun k _ => k) h.once
      (fun _ _ _ _ _ _ => rfl) k [] (gone.length + 2)
    rw [← Nat.add_assoc, ← hlen, List.nil_append, ← PointerArray.alloc0_eq, List.length_nil] at hloop
    have hfits : (left ++ [mime.1]).length ≤ types.length + 1 := by
      rw [List.length_append, List.length_singleton]
      omega
    have hset := setMimeTypes_filled k (left ++ [mime.1]) gone.length hfits
    have hleft (o : String) : o ∈ left ↔ ∃ m : MimeType, m ≠ mime ∧ m.1 = o ∧ (r m).isSome := by
      rw [List.mem_filter, h.exactly]
      constructor
      · rintro ⟨⟨m, rfl, hm⟩, hne⟩
        exact ⟨m, fun heq => by simp [heq] at hne, rfl, hm⟩
      · rintro ⟨m, hne, rfl, hm⟩
        refine ⟨⟨m, rfl, hm⟩, ?_⟩
        simpa using fun heq => hne (Subtype.ext heq)
    refine ⟨some _, ?_, _, lists_enter left cmd mime hleft (h.once.filter _) h.exec⟩
    simp only [thumberRegister, h.list, Option.bind_some, hloop]
    rw [PointerArray.write_filled, Option.bind_some, List.foldl_fixed]
    exact congrArg (Option.map _) hset

theorem thumberUnregister_lists_iff (cmd : String) (h : Lists bin r k types) :
    (∃ config, thumberUnregister cmd (some k) = some config ∧
      ConfigLists bin ((ThumberRun.unregister cmd).apply r) config) ↔ Undoable r (.unregister cmd) := by
  have hother (k : GKeyFile) (o : String) (_ : o ∈ types) (o' : String) (_ : o' ∈ types) (hne : o' ≠ o) :
      decide (((k.removeGroup o').getString o "Exec").bind quotedCommand = some cmd) =
        decide ((k.getString o "Exec").bind quotedCommand = some cmd) := by
    rw [GKeyFile.getString, GKeyFile.getString, GKeyFile.getValue_removeGroup, if_neg hne.symm]
  have hundone {m : MimeType} {c : String} (hm : r m = some c) :
      decide ((k.getString m.1 "Exec").bind quotedCommand = some cmd) = true ↔ upToQuote c = cmd := by
    rw [h.exec m c hm, Option.bind_some, quotedCommand_convertCmd, decide_eq_true_eq, Option.some.injEq]
  have hforgotten {m : MimeType} {c : String} (hm : r m = some c) :
      (ThumberRun.unregister cmd).apply r m = none ↔ c = cmd := by
    simp [ThumberRun.apply, hm]
  refine (unregisterWhere_lists_iff h hother fun m => ?_).trans (or_congr_right ?_)
  · cases hm : r m with
    | none => exact .inl (by simp [ThumberRun.apply, hm])
    | some c =>
      by_cases hc : c = cmd
      · exact .inl ((hforgotten hm).mpr hc)
      · exact .inr (by simp [ThumberRun.apply, hm, hc])
  · constructor
    · rintro ⟨⟨m, hsome, hu⟩, hall⟩
      obtain ⟨c, hm⟩ := Option.isSome_iff_exists.mp hsome
      have hc := (hforgotten hm).mp ((hall m hsome).mp hu)
      refine ⟨⟨m, hc ▸ hm⟩, fun m c hm => ?_⟩
      rw [← hundone hm, ← hforgotten hm]
      exact hall m (by rw [hm]; rfl)
    · rintro ⟨⟨m, hm⟩, hall⟩
      refine ⟨⟨m, by rw [hm]; rfl, (hundone hm).mpr ((hall m cmd hm).mpr rfl)⟩, fun m hsome => ?_⟩
      obtain ⟨c, hm⟩ := Option.isSome_iff_exists.mp hsome
      rw [hundone hm, hforgotten hm]
      exact hall m c hm

theorem thumberUnregisterMime_lists_iff (mime : MimeType) (h : Lists bin r k types) :
    (∃ config, thumberUnregisterMime mime (some k) = some config ∧
      ConfigLists bin ((ThumberRun.unregisterMime mime).apply r) config) ↔ Undoable r (.unregisterMime mime) := by
  have hundone (m : MimeType) : decide (m.1 = mime.1) = true ↔ m = mime := by
    rw [decide_eq_true_eq]
    exact Subtype.ext_iff.symm
  refine (unregisterWhere_lists_iff h (fun _ _ _ _ _ _ => rfl) fun m => ?_).trans (or_congr_right ?_)
  · by_cases hm : m = mime
    · exact .inl (by simp [ThumberRun.apply, hm])
    · exact .inr (Function.update_of_ne hm _ _)
  · constructor
    · rintro ⟨⟨m, hsome, hu⟩, _⟩
      exact (hundone m).mp hu ▸ hsome
    · intro hsome
      refine ⟨⟨mime, hsome, (hundone mime).mpr rfl⟩, fun m hm => ?_⟩
      rw [hundone]
      by_cases heq : m = mime
      · simp [ThumberRun.apply, heq]
      · rw [ThumberRun.apply, Function.update_of_ne heq]
        exact iff_of_false heq (Option.isSome_iff_ne_none.mp hm)

theorem thumberStep_lists_iff {config : Option GKeyFile} (h : ConfigLists bin r config) (run : ThumberRun) :
    (∃ config', thumberStep bin config run = some config' ∧ ConfigLists bin (run.apply r) config') ↔
      Undoable r run := by
  cases run with
  | register cmd mime => exact iff_of_true (thumberRegister_lists cmd mime h) trivial
  | unregister cmd =>
    cases config with
    | none => exact iff_of_true ⟨none, rfl, fun m => by simp [ThumberRun.apply, h m]⟩ (.inl h)
    | some k =>
      obtain ⟨types, h⟩ := h
      exact thumberUnregister_lists_iff cmd h
  | unregisterMime mime =>
    cases config with
    | none =>
      refine iff_of_true ⟨none, rfl, fun m => ?_⟩ (.inl h)
      by_cases hm : m = mime <;> simp [ThumberRun.apply, hm, h m]
    | some k =>
      obtain ⟨types, h⟩ := h
      exact thumberUnregisterMime_lists_iff mime h

end Lists

theorem registered_snoc (runs : List ThumberRun) (run : ThumberRun) :
    registered (runs ++ [run]) = run.apply (registered runs) := by
  simp [registered]

/-- All along the runs the file is right, and no array is left, exactly when
every run that unregisters has something to undo. -/
theorem thumberRuns_list_iff (bin : BinPath) (runs : List ThumberRun) :
    (∀ pre, pre <+: runs → ∃ config, StepRun.run (thumberStep bin) none pre = some config ∧
      ConfigLists bin (registered pre) config) ↔
    ∀ pre run, pre ++ [run] <+: runs → Undoable (registered pre) run := by
  apply List.forall_prefix_iff
  · exact ⟨none, rfl, fun _ => rfl⟩
  · rintro pre run ⟨config, hrun, hlists⟩
    rw [← thumberStep_lists_iff hlists run, registered_snoc]
    constructor
    · rintro ⟨config', hrun', hlists'⟩
      obtain ⟨u, hu, hstep⟩ := (StepRun.run_snoc _).mp hrun'
      obtain rfl := Option.some.inj (hrun.symm.trans hu)
      exact ⟨config', hstep, hlists'⟩
    · rintro ⟨config', hstep, hlists'⟩
      exact ⟨config', (StepRun.run_snoc _).mpr ⟨config, hrun, hstep⟩, hlists'⟩

theorem thumberRuns_not_list : ¬ ∀ (bin : BinPath) (runs : List ThumberRun),
    ∃ config, StepRun.run (thumberStep bin) none runs = some config ∧ ConfigLists bin (registered runs) config := by
  intro h
  let bin : BinPath := ⟨"/usr/bin", by decide⟩
  let png : MimeType := ⟨"image/png", by decide⟩
  obtain ⟨config, hrun, _⟩ := h bin [.register "a" png, .unregister "b"]
  have hread : StepRun.run (thumberStep bin) none [.register "a" png, .unregister "b"] = none := by decide
  rw [hread] at hrun
  cases hrun

end HildonThumbnail
