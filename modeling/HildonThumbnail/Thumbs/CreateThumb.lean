import Mathlib.Data.List.TakeDrop
import Mathlib.Data.Nat.Find
import HildonThumbnail.Lib.While

/-! How the standalone thumbnailer feeds a file to the image loader
(`create_thumb` in thumbs/thumber-gdk-pixbuf.c). -/

namespace HildonThumbnail.CreateThumb

def blk : Nat := 4

def bufferSize : Nat := 2048

/-- What the file and the loader do. `data` are the bytes that can be read; the
functions of stdio fail by the turn of the loop, those of the loader by what it
has been given. -/
structure Env (π : Type) where
  data : List UInt8
  ftell : Nat → Bool
  fseek : Nat → Bool
  write : List (List UInt8) → List UInt8 → Bool
  close : List (List UInt8) → Bool
  getPixbuf : List (List UInt8) → Option π
  cropResize : π → π

structure Reading where
  pos : Nat
  itemsRead : Nat
  turns : Nat
  offered : List (List UInt8)
  broken : Bool
  closes : Nat
deriving DecidableEq

def fread (data : List UInt8) (pos size count : Nat) : List UInt8 := (data.drop pos).take (size * count)

section
variable {π : Type} (env : Env π)

/-- `goto cleanup`; the loader is closed before that. -/
def Reading.cleanup (s : Reading) : Reading := { s with broken := true, closes := s.closes + 1 }

/-- The bytes that a turn offers to the loader, if it gets that far. -/
def readTurn (s : Reading) : Option (Nat × List UInt8) :=
  if !env.ftell s.turns then none
  else
    let items := fread env.data s.pos blk (bufferSize / blk)
    if items.length / blk < bufferSize / blk then
      if !env.fseek s.turns then none else some (items.length / blk, fread env.data s.pos 1 bufferSize)
    else some (items.length / blk, items.take (items.length / blk * blk))

def step (s : Reading) : Option Reading :=
  if s.broken || s.itemsRead < bufferSize / blk then none
  else
    let turn := { s with turns := s.turns + 1 }
    match readTurn env s with
    | none => some turn.cleanup
    | some (itemsRead, bytes) =>
      let read := { turn with itemsRead := itemsRead, pos := s.pos + bytes.length, offered := s.offered ++ [bytes] }
      if env.write s.offered bytes then some read else some read.cleanup

structure Thumbed (π : Type) where
  offered : List (List UInt8)
  closes : Nat
  result : Option π

def finish (s : Reading) : Thumbed π :=
  if s.broken then ⟨s.offered, s.closes, none⟩
  else
    ⟨s.offered, s.closes + 1, if env.close s.offered then (env.getPixbuf s.offered).map env.cropResize else none⟩

/-- With the flag for cropping, and the file open. -/
def createThumb (fuel : Nat) : Option (Thumbed π) :=
  (WhileLoop.exec (step env) fuel ⟨0, bufferSize / blk, 0, [], false, 0⟩).map (finish env)

/-- The number of the whole buffers in the file. -/
def wholeBuffers : Nat := env.data.length / bufferSize

def buffer (k : Nat) : List UInt8 := (env.data.drop (bufferSize * k)).take bufferSize

/-- The file as it is read plainly: buffer after buffer, up to one that is not full. -/
def buffers (n : Nat) : List (List UInt8) := (List.range n).map (buffer env)

/-- The turn in which something fails. -/
def FailsAt (k : Nat) : Prop :=
  env.ftell k = false ∨ (k = wholeBuffers env ∧ env.fseek k = false) ∨
    env.write (buffers env k) (buffer env k) = false

instance (k : Nat) : Decidable (FailsAt env k) := inferInstanceAs (Decidable (_ ∨ _ ∨ _))

end

section Turns
variable {π : Type} {env : Env π} {k : Nat} {t : Reading}

theorem buffers_succ (k : Nat) : buffers env (k + 1) = buffers env k ++ [buffer env k] := by
  rw [buffers, List.range_succ, List.map_append, List.map_singleton, ← buffers]

theorem flatten_buffers (k : Nat) : (buffers env k).flatten = env.data.take (bufferSize * k) := by
  induction k with
  | zero => simp [buffers]
  | succ k ih =>
    rw [buffers_succ, List.flatten_append, ih, List.flatten_singleton, buffer, Nat.mul_succ, List.take_add]

theorem length_buffer (k : Nat) : (buffer env k).length = min bufferSize (env.data.length - bufferSize * k) := by
  rw [buffer, List.length_take, List.length_drop]

theorem length_buffer_of_lt (h : k < wholeBuffers env) : (buffer env k).length = bufferSize := by
  have hle : (k + 1) * bufferSize ≤ env.data.length := (Nat.le_div_iff_mul_le (by decide)).mp h
  rw [length_buffer]
  simp only [bufferSize] at hle ⊢
  omega

theorem length_buffer_last : (buffer env (wholeBuffers env)).length < bufferSize := by
  have hmod := Nat.mod_lt env.data.length (show bufferSize > 0 by decide)
  have hdiv := Nat.div_add_mod env.data.length bufferSize
  rw [length_buffer, wholeBuffers]
  omega

/-- The state before a turn that nothing has failed in. -/
def before (env : Env π) (k : Nat) : Reading := ⟨bufferSize * k, bufferSize / blk, k, buffers env k, false, 0⟩

/-- A full buffer is read in blocks; the bytes of the last one are read again,
one by one, from where the blocks began. -/
theorem readTurn_before (hk : k ≤ wholeBuffers env) : readTurn env (before env k) =
    if env.ftell k = false ∨ (k = wholeBuffers env ∧ env.fseek k = false) then none
    else some ((buffer env k).length / blk, buffer env k) := by
  have hblocks : fread env.data (bufferSize * k) blk (bufferSize / blk) = buffer env k := rfl
  have hbytes : fread env.data (bufferSize * k) 1 bufferSize = buffer env k := by
    rw [fread, Nat.one_mul, buffer]
  cases htell : env.ftell k with
  | false => simp [readTurn, before, htell]
  | true =>
    rcases Nat.lt_or_eq_of_le hk with hlt | rfl
    · have hfull := length_buffer_of_lt hlt
      have hne : k ≠ wholeBuffers env := by omega
      have hitems : ¬ (buffer env k).length / blk < bufferSize / blk := by rw [hfull]; omega
      have hall : (buffer env k).take ((buffer env k).length / blk * blk) = buffer env k := by
        rw [List.take_of_length_le (by rw [hfull]; decide)]
      simp only [readTurn, before, htell, hblocks, hne, hitems, hall, Bool.not_true, Bool.false_eq_true, if_false,
        false_and, or_false, Bool.true_eq_false]
    · have hshort : (buffer env (wholeBuffers env)).length < bufferSize := length_buffer_last
      have hitems : (buffer env (wholeBuffers env)).length / blk < bufferSize / blk := by
        simp only [bufferSize, blk] at hshort ⊢
        omega
      cases hseek : env.fseek (wholeBuffers env) <;> simp [readTurn, before, htell, hblocks, hbytes, hitems, hseek]

theorem step_before (hk : k ≤ wholeBuffers env) (hok : ¬ FailsAt env k) : step env (before env k) =
    some { before env (k + 1) with
      pos := bufferSize * k + (buffer env k).length, itemsRead := (buffer env k).length / blk } := by
  obtain ⟨htell, hrest⟩ := not_or.mp hok
  obtain ⟨hseek, hwrite⟩ := not_or.mp hrest
  have hturn := readTurn_before hk
  rw [if_neg (not_or.mpr ⟨htell, hseek⟩)] at hturn
  rw [step, if_neg (by simp [before]), hturn]
  simp only [before, buffers_succ, Bool.not_eq_false _ ▸ hwrite, if_true]

theorem step_before_lt (hk : k < wholeBuffers env) (hok : ¬ FailsAt env k) :
    step env (before env k) = some (before env (k + 1)) := by
  rw [step_before (Nat.le_of_lt hk) hok, length_buffer_of_lt hk, ← Nat.mul_succ]
  rfl

/-- What a failing turn leaves: the loader is closed, and given at most the buffer of this turn. -/
theorem step_before_fails (hk : k ≤ wholeBuffers env) (hfails : FailsAt env k) :
    ∃ t, step env (before env k) = some t ∧ t.broken = true ∧ t.closes = 1 ∧
      (t.offered = buffers env k ∨ t.offered = buffers env (k + 1)) := by
  have hturn := readTurn_before hk
  rw [step, if_neg (by simp [before]), hturn]
  by_cases hread : env.ftell k = false ∨ (k = wholeBuffers env ∧ env.fseek k = false)
  · rw [if_pos hread]
    exact ⟨_, rfl, rfl, rfl, .inl rfl⟩
  · have hwrite : env.write (buffers env k) (buffer env k) = false := by
      rcases hfails with h | h | h
      · exact absurd (.inl h) hread
      · exact absurd (.inr h) hread
      · exact h
    rw [if_neg hread]
    refine ⟨_, if_neg (by simp [before, hwrite]), rfl, rfl, .inr (buffers_succ k).symm⟩

theorem endsIn_before (hk : k ≤ wholeBuffers env) (hok : ∀ j < k, ¬ FailsAt env j) :
    WhileLoop.EndsIn (step env) (before env 0) t ↔ WhileLoop.EndsIn (step env) (before env k) t := by
  induction k with
  | zero => exact Iff.rfl
  | succ k ih =>
    have hrest := ih (by omega) fun j hj => hok j (by omega)
    exact hrest.trans (WhileLoop.endsIn_of_some (step_before_lt hk (hok k (Nat.lt_succ_self k))))

theorem endsIn_of_ok (hok : ∀ j ≤ wholeBuffers env, ¬ FailsAt env j) :
    ∃ t, WhileLoop.EndsIn (step env) (before env 0) t ∧ t.broken = false ∧ t.closes = 0 ∧
      t.offered = buffers env (wholeBuffers env + 1) := by
  have hlast := step_before (Nat.le_refl _) (hok (wholeBuffers env) (Nat.le_refl _))
  have hshort : (buffer env (wholeBuffers env)).length / blk < bufferSize / blk := by
    have hlt : (buffer env (wholeBuffers env)).length < bufferSize := length_buffer_last
    simp only [bufferSize, blk] at hlt ⊢
    omega
  refine ⟨_, (endsIn_before (Nat.le_refl _) fun j hj => hok j (Nat.le_of_lt hj)).mpr
    ((WhileLoop.endsIn_of_some hlast).mpr ((WhileLoop.endsIn_of_none ?_).mpr rfl)), rfl, rfl, rfl⟩
  rw [step, if_pos (by simp [hshort])]

theorem endsIn_of_fails (hk : k ≤ wholeBuffers env) (hok : ∀ j < k, ¬ FailsAt env j) (hfails : FailsAt env k) :
    ∃ t, WhileLoop.EndsIn (step env) (before env 0) t ∧ t.broken = true ∧ t.closes = 1 ∧
      (t.offered = buffers env k ∨ t.offered = buffers env (k + 1)) := by
  obtain ⟨t, hstep, hbroken, hrest⟩ := step_before_fails hk hfails
  have hends : WhileLoop.EndsIn (step env) t t := (WhileLoop.endsIn_of_none (by rw [step, hbroken]; rfl)).mpr rfl
  exact ⟨t, (endsIn_before hk hok).mpr ((WhileLoop.endsIn_of_some hstep).mpr hends), hbroken, hrest⟩

end Turns

/-- For every file the loop ends, and the loader is closed once on every path. If
no turn fails the loader gets the bytes of the file in their order, and else
the buffers up to the first turn that fails, and there is no thumbnail. -/
theorem createThumb_loads {π : Type} (env : Env π) : ∃ n r, (∀ fuel, n ≤ fuel → createThumb env fuel = some r) ∧
    r.closes = 1 ∧ (∀ b ∈ r.offered, b.length ≤ bufferSize) ∧
    ((∀ j ≤ wholeBuffers env, ¬ FailsAt env j) → r.offered.flatten = env.data ∧
      r.result = if env.close r.offered then (env.getPixbuf r.offered).map env.cropResize else none) ∧
    ∀ k ≤ wholeBuffers env, FailsAt env k → (∀ j < k, ¬ FailsAt env j) → r.result = none ∧
      (r.offered = buffers env k ∨ r.offered = buffers env (k + 1)) := by
  have hresult {t : Reading} (ht : WhileLoop.EndsIn (step env) (before env 0) t) :
      ∃ n, ∀ fuel, n ≤ fuel → createThumb env fuel = some (finish env t) := by
    obtain ⟨n, hn⟩ := ht
    refine ⟨n, fun fuel hfuel => ?_⟩
    have hexec := WhileLoop.exec_eq_some_of_le hfuel hn
    exact congrArg (Option.map (finish env)) hexec
  have hlength (n : Nat) : ∀ b ∈ buffers env n, b.length ≤ bufferSize := by
    intro b hb
    obtain ⟨k, _, rfl⟩ := List.mem_map.mp hb
    exact List.length_take_le _ _
  by_cases hok : ∀ j ≤ wholeBuffers env, ¬ FailsAt env j
  · obtain ⟨t, ht, hbroken, hcloses, hoffered⟩ := endsIn_of_ok hok
    obtain ⟨n, hn⟩ := hresult ht
    have hall : (buffers env (wholeBuffers env + 1)).flatten = env.data := by
      rw [flatten_buffers, List.take_of_length_le]
      have hlt := Nat.lt_mul_div_succ env.data.length (show 0 < bufferSize by decide)
      rw [wholeBuffers]
      omega
    rw [finish, if_neg (by simp [hbroken]), hcloses, hoffered] at hn
    exact ⟨n, _, hn, rfl, hlength _, fun _ => ⟨hall, rfl⟩, fun k hk hfails _ => absurd hfails (hok k hk)⟩
  · obtain ⟨k, hk, hfails, hbefore⟩ : ∃ k ≤ wholeBuffers env, FailsAt env k ∧ ∀ j < k, ¬ FailsAt env j := by
      have hex : ∃ k, k ≤ wholeBuffers env ∧ FailsAt env k := by
        by_contra h
        exact hok fun j hj hfails => h ⟨j, hj, hfails⟩
      obtain ⟨hk, hfails⟩ := Nat.find_spec hex
      exact ⟨Nat.find hex, hk, hfails, fun j hj hfails' => Nat.find_min hex hj ⟨by omega, hfails'⟩⟩
    obtain ⟨t, ht, hbroken, hcloses, hoffered⟩ := endsIn_of_fails hk hbefore hfails
    obtain ⟨n, hn⟩ := hresult ht
    rw [finish, if_pos hbroken, hcloses] at hn
    refine ⟨n, _, hn, rfl, ?_, fun hok' => absurd hfails (hok' k hk), fun l hl hfails' hbefore' => ?_⟩
    · rcases hoffered with h | h
      · exact h ▸ hlength k
      · exact h ▸ hlength (k + 1)
    · obtain rfl : l = k := by
        rcases Nat.lt_trichotomy l k with hlt | heq | hlt
        · exact absurd hfails' (hbefore l hlt)
        · exact heq
        · exact absurd hfails (hbefore' k hlt)
      exact ⟨rfl, hoffered⟩

end HildonThumbnail.CreateThumb
