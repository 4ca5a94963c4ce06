import HildonThumbnail.Lib.Refs
import HildonThumbnail.Video.CreateThumbnails
import HildonThumbnail.Video.Thumber
import HildonThumbnail.Video.ValidThumb

/-! One run of the GStreamer pipeline: how it is built, the messages it is
watched by, the frame that becomes the thumbnail, and what is left of it
(`thumber_pipe_run` in thumbnailers/gst-video-thumbnailer/gst-thumb-pipe.c). -/

namespace HildonThumbnail

namespace PipeRun

inductive GstState
  | null
  | ready
  | paused
  | playing
deriving DecidableEq

inductive GstObject
  | pipeline
  | source
  | decodebin
  | sinkbin
  | videoScaler
  | videoColor
  | videoFilter
  | videoSink
  | caps
  | videopad
  | ghostpad
  | bus
  | message
  | pixbuf (id : Nat)
deriving DecidableEq

structure GdkPixbuf where
  id : Nat
  frame : ValidThumb.Frame

/-- An element message goes with the sink's last pixbuf at the time, or NULL. -/
inductive BusMessage
  | stateChanged (ofPipeline : Bool) (newState : GstState)
  | element (name : String) (lastPixbuf : Option GdkPixbuf)
  | error (lerror : Option String)
  | eos
  | other

inductive Link
  | source
  | scaler
  | sink

/-- What the run meets. The bus is empty, and the pipeline timed out, after its messages; `scaled`
is the size that a scaled picture of a frame comes to. -/
structure PipeEnv where
  cache : CacheEnv
  standard : Bool
  cropped : Bool
  made : GstObject → Bool
  linked : Link → Bool
  duration : Option Int
  messages : List BusMessage
  scaled : HildonThumbnailPluginOutType → FrameSize → Int × Int
  saves : HildonThumbnailPluginOutType → Save

/-- What is returned, and the message of the error that is set. -/
structure Result where
  success : Bool
  error : Option String

def Result.failed (message : String) : Result := ⟨false, some message⟩
def Result.done : Result := ⟨true, none⟩

/-- `seeks` are the positions that the pipeline was asked to go to. -/
structure Pipe where
  refs : Refs GstObject
  backupPixbuf : Option GdkPixbuf
  seeks : List Int
  files : Files

def gstSecond : Int := 1000000000

def seekOf (duration : Int) : Int := if duration > 120 * gstSecond then 45 * gstSecond else duration.tdiv 3

def errorMessage (lerror : Option String) : String := lerror.getD "Undefined error running the pipeline"

section
variable (env : PipeEnv)

/-- Of a factory that has no such element there is no object to give back. -/
def make (r : Refs GstObject) (objects : List GstObject) : Refs GstObject := r.takeAll (objects.filter env.made)

def unmake (r : Refs GstObject) (objects : List GstObject) : Refs GstObject := r.giveAll (objects.filter env.made)

def sinkObjects : List GstObject := [.sinkbin, .videoFilter, .videoColor, .videoScaler, .videoSink]

/-- An object that is put into a bin is the bin's from then on. -/
def initializePipe (r : Refs GstObject) : Refs GstObject × Result :=
  if !env.made .pipeline then (r, .failed "Failed to create pipeline element")
  else
    let r := make env (r.take .pipeline) [.source, .decodebin]
    if !(env.made .source && env.made .decodebin) then
      (unmake env (r.give .pipeline) [.source, .decodebin],
        .failed "Failed to create source and decodebin elements")
    else
      let r := r.giveAll [.source, .decodebin]
      if !env.linked .source then (r.give .pipeline, .failed "Failed to link source and decoding components")
      else
        let r := make env r [.sinkbin, .videoScaler, .videoColor, .videoFilter, .videoSink]
        if !(sinkObjects.all env.made) then
          (unmake env (r.give .pipeline) sinkObjects, .failed "Failed to create scaler, filter and sink elements")
        else
          let r := r.giveAll [.videoScaler, .videoColor, .videoFilter, .videoSink]
          if !env.linked .scaler then
            (r.giveAll [.pipeline, .sinkbin], .failed "Failed to link scaler and filter elements")
          else
            let r := r.take .caps
            if !env.linked .sink then
              (r.giveAll [.pipeline, .sinkbin, .caps],
                .failed "Failed to link filter and sink elements with color caps")
            else
              let r := ((r.give .caps).take .videopad).take .ghostpad
              (r.giveAll [.ghostpad, .videopad, .sinkbin], .done)

def deinitializePipe (p : Pipe) : Pipe :=
  let refs := p.refs.give .pipeline
  match p.backupPixbuf with
  | none => { p with refs := refs }
  | some pix => { p with refs := refs.give (.pixbuf pix.id), backupPixbuf := none }

/-- The loop of `wait_for_state_change`, with the messages it leaves on the bus. -/
def stateLoop (state : GstState) : List BusMessage → Refs GstObject → List BusMessage × Refs GstObject × Result
  | [], r => ([], r, .failed "Pipeline timed out")
  | m :: messages, r =>
    let r := (r.take .message).give .message
    match m with
    | .stateChanged true newState => if newState = state then (messages, r, .done) else stateLoop state messages r
    | .stateChanged false _ => stateLoop state messages r
    | .element _ _ => stateLoop state messages r
    | .error lerror => (messages, r, .failed (errorMessage lerror))
    | .eos => (messages, r, .failed "Reached end-of-file without proper content")
    | .other => stateLoop state messages r

def waitForStateChange (state : GstState) (messages : List BusMessage) (r : Refs GstObject) :
    List BusMessage × Refs GstObject × Result :=
  let (messages, r, result) := stateLoop state messages (r.take .bus)
  (messages, r.give .bus, result)

def Frame.size (frame : ValidThumb.Frame) : FrameSize := ⟨Int32.ofNat frame.width, Int32.ofNat frame.height⟩

/-- There is no picture without a width or a height, and saving it fails without an error. -/
def savePicture (uri : String) (frame : FrameSize) (t : HildonThumbnailPluginOutType) (files : Files) :
    Files × Result :=
  let (width, height) := env.scaled t frame
  if t ≠ .cropped ∧ ¬ (0 < width ∧ 0 < height) then (files, ⟨false, none⟩)
  else
    match gdkPixbufSave files (savedName env.cache uri t) (env.saves t) with
    | (files, none) => (files, .done)
    | (files, some message) => (files, .failed message)

def savePictures (uri : String) (frame : FrameSize) : List HildonThumbnailPluginOutType → Files → Files × Result
  | [], files => (files, .done)
  | t :: ts, files =>
    let (files, result) := savePicture env uri frame t files
    if result.success then savePictures uri frame ts files else (files, result)

def createPictures (uri : String) (frame : FrameSize) (files : Files) : Files × Result :=
  if env.standard ∧ (frame.width ≤ 0 ∨ frame.height ≤ 0) then (files, .failed "Invalid size of frame in buffer")
  else
    savePictures env uri frame
      ((if env.standard then [.large, .normal] else []) ++ if env.cropped then [.cropped] else [])
      files

def createFrom (uri : String) (pix : GdkPixbuf) (p : Pipe) : Pipe × Result :=
  let (files, result) := createPictures env uri (Frame.size pix.frame) p.files
  ({ p with files := files }, result)

def isPixbufName (name : String) : Bool := name = "preroll-pixbuf" || name = "pixbuf"

/-- The loop of `wait_for_image_buffer`. -/
def imageLoop (uri : String) : List BusMessage → Pipe → Pipe × Result
  | [], p => (p, .failed "Pipeline timed out")
  | m :: messages, p =>
    let p := { p with refs := p.refs.take .message }
    let unref := fun p : Pipe => { p with refs := p.refs.give .message }
    match m with
    | .element name lastPixbuf =>
      if isPixbufName name then
        match lastPixbuf with
        | none => (unref p, .failed "Non-existing image buffer returned by pipeline")
        | some pix =>
          let p := { p with refs := p.refs.take (.pixbuf pix.id) }
          if ValidThumb.checkForValidThumb pix.frame then
            let (p, result) := createFrom env uri pix p
            (unref { p with refs := p.refs.give (.pixbuf pix.id) }, result)
          else
            -- If not good, get the first as backup in case there are no good ones and then continue
            match p.backupPixbuf with
            | none => imageLoop uri messages (unref { p with backupPixbuf := some pix })
            | some _ => imageLoop uri messages (unref { p with refs := p.refs.give (.pixbuf pix.id) })
      else imageLoop uri messages (unref p)
    | .error lerror => (unref p, .failed (errorMessage lerror))
    | .eos =>
      match p.backupPixbuf with
      | some pix =>
        let (p, result) := createFrom env uri pix p
        (unref { p with refs := p.refs.give (.pixbuf pix.id), backupPixbuf := none }, result)
      | none => (unref p, .failed "Reached end-of-file without proper content")
    | .stateChanged _ _ => imageLoop uri messages (unref p)
    | .other => imageLoop uri messages (unref p)

def waitForImageBuffer (uri : String) (messages : List BusMessage) (p : Pipe) : Pipe × Result :=
  let (p, result) := imageLoop env uri messages { p with refs := p.refs.take .bus }
  ({ p with refs := p.refs.give .bus }, result)

def thumberPipeRun (uri : String) (p : Pipe) : Pipe × Result :=
  let p := { p with backupPixbuf := none }
  let (refs, initialized) := initializePipe env p.refs
  if !initialized.success then ({ p with refs := refs }, initialized)
  else
    let (messages, refs, prerolled) := waitForStateChange .paused env.messages refs
    let p := { p with refs := refs }
    if !prerolled.success then (deinitializePipe p, prerolled)
    else
      let p := { p with seeks := p.seeks ++ env.duration.toList.map seekOf }
      let (p, result) := waitForImageBuffer env uri messages p
      (deinitializePipe p, result)

end

section Initialize
variable (env : PipeEnv) (r : Refs GstObject)

/-- The pipeline is all that is held of what was made, or nothing where the run goes no further. -/
theorem initializePipe_owes :
    ((initializePipe env r).2 = .done ∧ r.Owes (initializePipe env r).1 [.pipeline]) ∨
      (∃ message, (initializePipe env r).2 = .failed message) ∧ r.Owes (initializePipe env r).1 [] := by
  rw [initializePipe]
  split
  · exact .inr ⟨⟨_, rfl⟩, .refl r⟩
  have hpipeline := (Refs.Owes.refl r).take GstObject.pipeline
  have hsources : r.Owes (make env (r.take .pipeline) [.source, .decodebin])
      (.pipeline :: [GstObject.source, .decodebin].filter env.made) :=
    (hpipeline.takeAll _).perm List.perm_append_comm
  dsimp only
  split
  · refine .inr ⟨⟨_, rfl⟩, ?_⟩
    have hgiven := hsources.give_head
    rw [← List.append_nil (List.filter _ _)] at hgiven
    exact hgiven.giveAll
  next hmade =>
  have hboth : env.made .source = true ∧ env.made .decodebin = true := by simpa using hmade
  have hadded :
      r.Owes ((make env (r.take .pipeline) [.source, .decodebin]).giveAll [.source, .decodebin]) [.pipeline] := by
    refine Refs.Owes.giveAll (hsources.perm ?_)
    simp only [List.filter_cons, hboth.1, hboth.2, if_true, List.filter_nil]
    decide
  generalize (make env (r.take .pipeline) [.source, .decodebin]).giveAll [.source, .decodebin] = r₁ at hadded
  split
  · exact .inr ⟨⟨_, rfl⟩, hadded.give_head⟩
  have hsinks : r.Owes (make env r₁ [.sinkbin, .videoScaler, .videoColor, .videoFilter, .videoSink])
      (.pipeline :: sinkObjects.filter env.made) := by
    refine (hadded.takeAll _).perm (List.perm_append_comm.trans (List.Perm.cons _ (List.Perm.filter _ ?_)))
    decide
  split
  · refine .inr ⟨⟨_, rfl⟩, ?_⟩
    have hgiven := hsinks.give_head
    rw [← List.append_nil (List.filter _ _)] at hgiven
    exact hgiven.giveAll
  next hmade =>
  have hall : sinkObjects.filter env.made = sinkObjects := by
    rw [Bool.not_eq_true, Bool.not_eq_false'] at hmade
    exact List.filter_eq_self.mpr fun o ho => List.all_eq_true.mp hmade o ho
  have hfilled : r.Owes ((make env r₁ [.sinkbin, .videoScaler, .videoColor, .videoFilter, .videoSink]).giveAll
      [.videoScaler, .videoColor, .videoFilter, .videoSink]) [.pipeline, .sinkbin] := by
    refine Refs.Owes.giveAll (hsinks.perm ?_)
    rw [hall]
    decide
  generalize (make env r₁ [.sinkbin, .videoScaler, .videoColor, .videoFilter, .videoSink]).giveAll
    [.videoScaler, .videoColor, .videoFilter, .videoSink] = r₂ at hfilled
  split
  · exact .inr ⟨⟨_, rfl⟩, Refs.Owes.giveAll hfilled⟩
  have hcaps := hfilled.take GstObject.caps
  split
  · refine .inr ⟨⟨_, rfl⟩, Refs.Owes.giveAll (hcaps.perm ?_)⟩
    decide
  · have hpads := ((hcaps.give_head).take GstObject.videopad).take GstObject.ghostpad
    refine .inl ⟨rfl, Refs.Owes.giveAll (hpads.perm ?_)⟩
    decide

end Initialize

/-- What a message makes of the wait for a state, if it ends it. -/
def BusMessage.prerolls (state : GstState) : BusMessage → Option Result
  | .stateChanged true newState => if newState = state then some .done else none
  | .stateChanged false _ => none
  | .element _ _ => none
  | .error lerror => some (.failed (errorMessage lerror))
  | .eos => some (.failed "Reached end-of-file without proper content")
  | .other => none

/-- What a message makes of the wait for a frame, if it ends it: the frame that
is to be the thumbnail, or an error. `backup` is the first frame before it. -/
def BusMessage.decides (backup : Option GdkPixbuf) : BusMessage → Option (Except String GdkPixbuf)
  | .element name lastPixbuf =>
    if isPixbufName name then
      match lastPixbuf with
      | none => some (.error "Non-existing image buffer returned by pipeline")
      | some pix => if ValidThumb.checkForValidThumb pix.frame then some (.ok pix) else none
    else none
  | .error lerror => some (.error (errorMessage lerror))
  | .eos =>
    some (match backup with
      | some pix => .ok pix
      | none => .error "Reached end-of-file without proper content")
  | .stateChanged _ _ => none
  | .other => none

def BusMessage.frame? : BusMessage → Option GdkPixbuf
  | .element name lastPixbuf => if isPixbufName name then lastPixbuf else none
  | .error _ | .eos | .stateChanged _ _ | .other => none

def BusMessage.passes (m : BusMessage) : Bool := (m.decides none).isNone

/-- What the first message that does not pass says, with the first of the frames that passed. -/
def chosenFrom (backup : Option GdkPixbuf) (messages : List BusMessage) : Except String GdkPixbuf :=
  ((messages.dropWhile BusMessage.passes).head?.bind
    (BusMessage.decides (backup.or ((messages.takeWhile BusMessage.passes).findSome? BusMessage.frame?)))).getD
    (.error "Pipeline timed out")

def outcome (env : PipeEnv) (uri : String) (files : Files) : Except String GdkPixbuf → Files × Result
  | .error message => (files, .failed message)
  | .ok pix => createPictures env uri (Frame.size pix.frame) files

section Loops
variable {env : PipeEnv} {uri : String} {r : Refs GstObject} {as : List GstObject}

theorem Owes.message {r' : Refs GstObject} (h : r.Owes r' as) : r.Owes ((r'.take .message).give .message) as :=
  (h.take GstObject.message).give_head

theorem stateLoop_owes (state : GstState) (messages : List BusMessage) {r' : Refs GstObject} (h : r.Owes r' as) :
    r.Owes (stateLoop state messages r').2.1 as := by
  induction messages generalizing r' with
  | nil => exact h
  | cons m messages ih =>
    have hm := Owes.message h
    cases m with
    | stateChanged ofPipeline newState =>
      cases ofPipeline with
      | false => exact ih hm
      | true =>
        rw [stateLoop]
        split
        · exact hm
        · exact ih hm
    | element name lastPixbuf => exact ih hm
    | error lerror => exact hm
    | eos => exact hm
    | other => exact ih hm

theorem stateLoop_eq (state : GstState) (messages : List BusMessage) (r : Refs GstObject) :
    (stateLoop state messages r).1 = (messages.dropWhile fun m => (m.prerolls state).isNone).tail ∧
      (stateLoop state messages r).2.2 =
        (messages.findSome? (BusMessage.prerolls state)).getD (.failed "Pipeline timed out") := by
  induction messages generalizing r with
  | nil => exact ⟨rfl, rfl⟩
  | cons m messages ih =>
    cases m with
    | stateChanged ofPipeline newState =>
      cases ofPipeline with
      | false => exact ih _
      | true =>
        by_cases hstate : newState = state
        · simp [stateLoop, BusMessage.prerolls, hstate]
        · simpa [stateLoop, BusMessage.prerolls, hstate] using ih _
    | element name lastPixbuf => exact ih _
    | error lerror => exact ⟨rfl, rfl⟩
    | eos => exact ⟨rfl, rfl⟩
    | other => exact ih _

theorem decides_isNone (m : BusMessage) (backup : Option GdkPixbuf) : (m.decides backup).isNone = m.passes := by
  cases m <;> rfl

theorem chosenFrom_cons (backup : Option GdkPixbuf) (m : BusMessage) (messages : List BusMessage) :
    chosenFrom backup (m :: messages) = (m.decides backup).getD (chosenFrom (backup.or m.frame?) messages) := by
  have hpasses := decides_isNone m backup
  cases hm : m.passes with
  | true =>
    rw [hm] at hpasses
    rw [Option.isNone_iff_eq_none.mp hpasses, Option.getD_none, chosenFrom, List.dropWhile_cons_of_pos hm,
      List.takeWhile_cons_of_pos hm, List.findSome?_cons, chosenFrom]
    cases hframe : m.frame? with
    | none => rw [Option.or_none]
    | some pix => cases backup <;> rfl
  | false =>
    rw [hm, Option.isNone_eq_false_iff, Option.isSome_iff_exists] at hpasses
    obtain ⟨c, hc⟩ := hpasses
    rw [hc, Option.getD_some, chosenFrom, List.dropWhile_cons_of_neg (by simp [hm]),
      List.takeWhile_cons_of_neg (by simp [hm]), List.findSome?_nil, Option.or_none, List.head?_cons,
        Option.bind_some, hc,
      Option.getD_some]

/-- The references that are to the frame that is kept. -/
def Pipe.backup (p : Pipe) : List GstObject := (p.backupPixbuf.map fun pix => GstObject.pixbuf pix.id).toList

theorem imageLoop_spec (messages : List BusMessage) {p : Pipe} (h : r.Owes p.refs (p.backup ++ as)) :
    r.Owes (imageLoop env uri messages p).1.refs ((imageLoop env uri messages p).1.backup ++ as) ∧
      (imageLoop env uri messages p).1.seeks = p.seeks ∧
      ((imageLoop env uri messages p).1.files, (imageLoop env uri messages p).2) =
        outcome env uri p.files (chosenFrom p.backupPixbuf messages) := by
  induction messages generalizing p with
  | nil => exact ⟨h, rfl, rfl⟩
  | cons m messages ih =>
    have hm := Owes.message h
    rw [chosenFrom_cons]
    cases m with
    | stateChanged ofPipeline newState =>
      have hrest := ih (p := { p with refs := (p.refs.take .message).give .message }) hm
      simpa [imageLoop, BusMessage.decides, BusMessage.frame?] using hrest
    | element name lastPixbuf =>
      by_cases hname : isPixbufName name = true
      · cases lastPixbuf with
        | none =>
          simp only [imageLoop, BusMessage.decides, hname, if_true]
          exact ⟨hm, trivial, rfl⟩
        | some pix =>
          have htaken := (h.take GstObject.message).take (GstObject.pixbuf pix.id)
          by_cases hvalid : ValidThumb.checkForValidThumb pix.frame = true
          · simp only [imageLoop, BusMessage.decides, hname, hvalid, if_true, createFrom]
            exact ⟨htaken.give_head.give_head, trivial, rfl⟩
          · cases hbackup : p.backupPixbuf with
            | none =>
              rw [Pipe.backup, hbackup] at htaken
              have hkept := (htaken.perm (List.Perm.swap _ _ _)).give_head
              have hrest := @ih { p with
                refs := ((p.refs.take .message).take (.pixbuf pix.id)).give .message
                backupPixbuf := some pix } hkept
              simpa [imageLoop, BusMessage.decides, BusMessage.frame?, hname, hvalid, hbackup] using hrest
            | some first =>
              have hrest := @ih { p with
                refs := (((p.refs.take .message).take (.pixbuf pix.id)).give (.pixbuf pix.id)).give .message }
                htaken.give_head.give_head
              simpa [imageLoop, BusMessage.decides, BusMessage.frame?, hname, hvalid, hbackup] using hrest
      · have hrest := ih (p := { p with refs := (p.refs.take .message).give .message }) hm
        simpa [imageLoop, BusMessage.decides, BusMessage.frame?, hname] using hrest
    | error lerror => exact ⟨hm, rfl, rfl⟩
    | eos =>
      cases hbackup : p.backupPixbuf with
      | none =>
        rw [Pipe.backup, hbackup] at hm
        simp only [imageLoop, BusMessage.decides, hbackup]
        exact ⟨hm, trivial, rfl⟩
      | some pix =>
        have htaken := h.take GstObject.message
        rw [Pipe.backup, hbackup] at htaken
        have hgiven := (htaken.perm (List.Perm.swap _ _ _)).give_head
        simp only [imageLoop, BusMessage.decides, hbackup, createFrom]
        exact ⟨hgiven.give_head, trivial, rfl⟩
    | other =>
      have hrest := ih (p := { p with refs := (p.refs.take .message).give .message }) hm
      simpa [imageLoop, BusMessage.decides, BusMessage.frame?] using hrest

theorem deinitialize_spec {p : Pipe} (h : r.Owes p.refs (p.backup ++ [.pipeline])) :
    r.Owes (deinitializePipe p).refs [] ∧ (deinitializePipe p).backupPixbuf = none ∧
      (deinitializePipe p).files = p.files ∧
      (deinitializePipe p).seeks = p.seeks := by
  have hgiven := (h.perm List.perm_append_comm).give_head
  cases hbackup : p.backupPixbuf with
  | none =>
    rw [Pipe.backup, hbackup] at hgiven
    simp only [deinitializePipe, hbackup]
    exact ⟨hgiven, trivial, trivial, trivial⟩
  | some pix =>
    rw [Pipe.backup, hbackup] at hgiven
    simp only [deinitializePipe, hbackup]
    exact ⟨hgiven.give_head, trivial, trivial, trivial⟩

end Loops

section Pictures
variable (env : PipeEnv) (uri : String)

/-- The scaled picture of a standard flavour has no width or no height. -/
def EmptyPicture (frame : FrameSize) : Prop :=
  env.standard = true ∧ ∃ t, t ≠ .cropped ∧ ¬ (0 < (env.scaled t frame).1 ∧ 0 < (env.scaled t frame).2)

/-- An error is set whenever the answer is FALSE, but for a picture that is empty. -/
def Result.Told (env : PipeEnv) (frame : FrameSize) (result : Result) : Prop :=
  (result.success = true ∧ result.error = none) ∨
    (result.success = false ∧ (result.error = none → EmptyPicture env frame))

theorem savePicture_told {frame : FrameSize} {t : HildonThumbnailPluginOutType}
    (hstandard : t ≠ .cropped → env.standard = true) (files : Files) :
      (savePicture env uri frame t files).2.Told env frame := by
  rw [savePicture]
  dsimp only
  split
  · next hempty => exact .inr ⟨rfl, fun _ => ⟨hstandard hempty.1, t, hempty⟩⟩
  · split
    · exact .inl ⟨rfl, rfl⟩
    · exact .inr ⟨rfl, fun h => nomatch h⟩

theorem savePictures_told {frame : FrameSize} {ts : List HildonThumbnailPluginOutType}
    (hstandard : ∀ t ∈ ts, t ≠ .cropped → env.standard = true) (files : Files) :
    (savePictures env uri frame ts files).2.Told env frame := by
  induction ts generalizing files with
  | nil => exact .inl ⟨rfl, rfl⟩
  | cons t ts ih =>
    rw [savePictures]
    dsimp only
    split
    · exact ih (fun t ht => hstandard t (List.mem_cons_of_mem _ ht)) _
    · exact savePicture_told env uri (hstandard t List.mem_cons_self) files

theorem createPictures_told (frame : FrameSize) (files : Files) :
    (createPictures env uri frame files).2.Told env frame := by
  rw [createPictures]
  split
  · exact .inr ⟨rfl, fun h => nomatch h⟩
  · refine savePictures_told env uri (fun t ht hne => ?_) files
    cases hstandard : env.standard with
    | true => rfl
    | false =>
      rw [hstandard] at ht
      have hcropped : t = .cropped := by
        cases hc : env.cropped <;> simp [hc] at ht
        exact ht
      exact absurd hcropped hne

end Pictures

def PipeEnv.prerolled (env : PipeEnv) : Result :=
  (env.messages.findSome? (BusMessage.prerolls .paused)).getD (.failed "Pipeline timed out")

/-- The messages after the one that tells that the pipeline is paused. -/
def PipeEnv.played (env : PipeEnv) : List BusMessage :=
  (env.messages.dropWhile fun m => (m.prerolls .paused).isNone).tail

/-- What the run comes to, by what building the pipeline comes to. -/
def pipeOutcome (env : PipeEnv) (uri : String) (files : Files) (initialized : Result) : Files × Result :=
  if !initialized.success then (files, initialized)
  else if !env.prerolled.success then (files, env.prerolled)
  else outcome env uri files (chosenFrom none env.played)

section Run
variable (env : PipeEnv) (uri : String)

theorem waitForStateChange_spec {r r' : Refs GstObject} {as : List GstObject} (h : r.Owes r' as) :
    (waitForStateChange .paused env.messages r').1 = env.played ∧
      r.Owes (waitForStateChange .paused env.messages r').2.1 as ∧
      (waitForStateChange .paused env.messages r').2.2 = env.prerolled := by
  have heq := stateLoop_eq .paused env.messages (r'.take .bus)
  exact ⟨heq.1, (stateLoop_owes .paused env.messages (h.take GstObject.bus)).give_head, heq.2⟩

theorem waitForImageBuffer_spec (messages : List BusMessage) {r : Refs GstObject} {as : List GstObject} {p : Pipe}
    (h : r.Owes p.refs (p.backup ++ as)) :
    r.Owes (waitForImageBuffer env uri messages p).1.refs ((waitForImageBuffer env uri messages p).1.backup ++ as) ∧
      (waitForImageBuffer env uri messages p).1.seeks = p.seeks ∧
      ((waitForImageBuffer env uri messages p).1.files, (waitForImageBuffer env uri messages p).2) =
        outcome env uri p.files (chosenFrom p.backupPixbuf messages) := by
  have htake : r.Owes (p.refs.take .bus) (p.backup ++ GstObject.bus :: as) :=
    (h.take GstObject.bus).perm List.perm_middle.symm
  obtain ⟨howes, hseeks, hfiles⟩ := @imageLoop_spec env uri r _ messages { p with refs := p.refs.take .bus } htake
  exact ⟨(howes.perm List.perm_middle).give_head, hseeks, hfiles⟩

theorem thumberPipeRun_owes (p : Pipe) :
    p.refs.Owes (thumberPipeRun env uri p).1.refs [] ∧ (thumberPipeRun env uri p).1.backupPixbuf = none ∧
      (thumberPipeRun env uri p).1.seeks ⊆ p.seeks ++ env.duration.toList.map seekOf ∧
      ((thumberPipeRun env uri p).1.files, (thumberPipeRun env uri p).2) =
        pipeOutcome env uri p.files (initializePipe env p.refs).2 := by
  rw [thumberPipeRun, pipeOutcome]
  dsimp only
  rcases initializePipe_owes env p.refs with ⟨hdone, howes⟩ | ⟨⟨message, hfailed⟩, howes⟩
  · obtain ⟨hplayed, hwaited, hprerolled⟩ := waitForStateChange_spec env howes
    rw [hdone, hplayed, hprerolled]
    simp only [Result.done, Bool.not_true, Bool.false_eq_true, if_false]
    split
    · obtain ⟨hgiven, hnone, hfiles, hseeks⟩ := deinitialize_spec (p := ⟨_, none, p.seeks, p.files⟩) hwaited
      exact ⟨hgiven, hnone, by rw [hseeks]; exact List.subset_append_left _ _, by rw [hfiles]⟩
    · obtain ⟨hshown, hsought, hfiles⟩ := waitForImageBuffer_spec env uri env.played
        (p := ⟨_, none, p.seeks ++ env.duration.toList.map seekOf, p.files⟩) hwaited
      obtain ⟨hgiven, hnone, hkept, hseeks⟩ := deinitialize_spec hshown
      exact ⟨hgiven, hnone, by rw [hseeks, hsought]; exact List.Subset.refl _, by rw [hkept]; exact hfiles⟩
  · rw [hfailed]
    exact ⟨howes, rfl, List.subset_append_left _ _, rfl⟩

theorem prerolled_told : env.prerolled = .done ∨ ∃ message, env.prerolled = .failed message := by
  rw [PipeEnv.prerolled]
  cases hfound : env.messages.findSome? (BusMessage.prerolls .paused) with
  | none => exact .inr ⟨_, rfl⟩
  | some result =>
    obtain ⟨m, _, hm⟩ := List.exists_of_findSome?_eq_some hfound
    cases m with
    | stateChanged ofPipeline newState =>
      cases ofPipeline with
      | false => cases hm
      | true =>
        obtain ⟨_, hm⟩ := Option.ite_none_right_eq_some.mp hm
        exact .inl (Option.some.inj hm).symm
    | element name lastPixbuf => cases hm
    | error lerror => exact .inr ⟨_, (Option.some.inj hm).symm⟩
    | eos => exact .inr ⟨_, (Option.some.inj hm).symm⟩
    | other => cases hm

/-- The position is in the first three eighths of the film. -/
theorem seekOf_le {duration : Int} (h : 0 ≤ duration) :
    0 ≤ seekOf duration ∧ 8 * seekOf duration ≤ 3 * duration := by
  rw [seekOf, Int.tdiv_eq_ediv_of_nonneg h, gstSecond]
  split <;> omega

end Run

/-- Whatever elements, links and messages the run meets, it gives back each reference that it takes,
and once; it makes its thumbnails of the frame that the first decisive message settles on; it seeks in
the first three eighths of the film only; and it sets an error just when it fails, unless a scaled
picture of that frame is empty. -/
theorem thumberPipeRun_spec (env : PipeEnv) (uri : String) (p : Pipe) :
    let run := thumberPipeRun env uri p
    p.refs.Owes run.1.refs [] ∧ run.1.backupPixbuf = none ∧
      (run.1.files, run.2) = pipeOutcome env uri p.files (initializePipe env p.refs).2 ∧
      (∀ duration, env.duration = some duration → 0 ≤ duration → ∀ seek ∈ run.1.seeks, seek ∉ p.seeks →
        0 ≤ seek ∧ 8 * seek ≤ 3 * duration) ∧
      (run.2.success = true → run.2.error = none) ∧
      (run.2.success = false → run.2.error = none →
        ∃ pix, chosenFrom none env.played = .ok pix ∧ EmptyPicture env (Frame.size pix.frame)) := by
  intro run
  obtain ⟨howes, hnone, hseeks, houtcome⟩ := thumberPipeRun_owes env uri p
  refine ⟨howes, hnone, houtcome, fun duration hduration hpos seek hseek hnew => ?_, ?_⟩
  · have hmem := (List.mem_append.mp (hseeks hseek)).resolve_left hnew
    rw [hduration, Option.toList_some, List.map_singleton, List.mem_singleton] at hmem
    rw [hmem]
    exact seekOf_le hpos
  · have hresult : run.2 = (pipeOutcome env uri p.files (initializePipe env p.refs).2).2 :=
      congrArg Prod.snd houtcome
    rw [hresult]
    rcases initializePipe_owes env p.refs with ⟨hdone, _⟩ | ⟨⟨message, hfailed⟩, _⟩
    · rcases prerolled_told env with hprerolled | ⟨message, hprerolled⟩
      · rw [pipeOutcome, hdone, hprerolled]
        simp only [Result.done, Bool.not_true, Bool.false_eq_true, if_false]
        cases hchosen : chosenFrom none env.played with
        | error message => exact ⟨fun h => (nomatch h), fun _ h => nomatch h⟩
        | ok pix =>
          rcases createPictures_told env uri (Frame.size pix.frame) p.files with ⟨hsuccess, herror⟩ |
            ⟨hfalse, hempty⟩
          · refine ⟨fun _ => herror, fun hfalse => ?_⟩
            rw [outcome, hsuccess] at hfalse
            cases hfalse
          · refine ⟨fun hsuccess => ?_, fun _ herror => ⟨pix, rfl, hempty herror⟩⟩
            rw [outcome, hfalse] at hsuccess
            cases hsuccess
      · rw [pipeOutcome, hdone, hprerolled]
        exact ⟨fun h => (nomatch h), fun _ h => nomatch h⟩
    · rw [pipeOutcome, hfailed]
      exact ⟨fun h => (nomatch h), fun _ h => nomatch h⟩

end PipeRun

end HildonThumbnail
