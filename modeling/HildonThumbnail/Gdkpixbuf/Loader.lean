import HildonThumbnail.Image.CroppedSize
import HildonThumbnail.Lib.While

/-! Loading an image from a stream (`load_from_stream`, `max_pix_check_cb` and
`my_gdk_pixbuf_new_from_stream` of daemon/plugins/pixbuf-io-loader.c). -/

namespace HildonThumbnail

section SizeCheck
variable {linfo : LoadInfo} {w h : Int}

theorem toGuint_eq {n : Int} (hn : 0 ≤ n) (hlt : n < 2 ^ 32) : toGuint n = n := Int.emod_eq_of_lt hn hlt

/-- A product that wraps is of sides of which one is too large already. -/
theorem maxPixCheck_iff (hw : 1 ≤ w) (hw' : w < 2 ^ 31) (hh : 1 ≤ h) (hh' : h < 2 ^ 31) (hpix : 1 ≤ linfo.maxPix)
    (hmaxW : 1 ≤ linfo.maxW) (harea : linfo.maxW * linfo.maxH < 2 ^ 31) :
    maxPixCheck linfo w h = true ↔ w * h > linfo.maxPix ∨ w > linfo.maxW ∨ h > linfo.maxH := by
  have hset : ¬ (linfo.maxPix = 0 ∧ linfo.maxW = 0 ∧ linfo.maxH = 0) := by omega
  have hwidth : toGuint w = w := toGuint_eq (by omega) (by omega)
  have hheight : toGuint h = h := toGuint_eq (by omega) (by omega)
  rw [maxPixCheck, if_neg hset, hwidth, hheight]
  simp only [Bool.or_eq_true, decide_eq_true_eq, or_assoc]
  by_cases hlarge : w > linfo.maxW ∨ h > linfo.maxH
  · simp only [hlarge, or_true]
  · obtain ⟨hwide, hhigh⟩ := not_or.mp hlarge
    have hproduct : w * h ≤ linfo.maxW * linfo.maxH := Int.mul_le_mul (by omega) (by omega) (by omega) (by omega)
    have hpos : 0 < w * h := Int.mul_pos (by omega) (by omega)
    rw [intMul_eq hw hh (by omega), toGuint_eq (by omega) (by omega)]

theorem maxPixCheck_wrapping : maxPixCheck (loadInfo false) 65536 65536 = true ↔
    (65536 * 65536 : Int) > (loadInfo false).maxPix ∨ 65536 > (loadInfo false).maxW ∨
      65536 > (loadInfo false).maxH :=
  maxPixCheck_iff (by decide) (by decide) (by decide) (by decide) (by decide) (by decide) (by decide)

end SizeCheck

/-- What the stream and the loader do: `emitted` are the sizes of the
`size-prepared` signals of a write or of the close, and `getPixbuf` is what
the loader has in the end. -/
structure LoaderCall where
  emitted : List (Int × Int)
  result : Except String Unit

structure LoaderEnv (π : Type*) where
  read : Nat → Except String Nat
  write : Nat → LoaderCall
  close : LoaderCall
  getPixbuf : Option π

/-- `nRead` counts the reads; `error` tells whether the argument of this name is
still the one of the caller, and `caller` is what was put into the error of the
caller, in this order. -/
structure Loading where
  nRead : Nat
  stop : Bool
  broken : Bool
  res : Bool
  error : Bool
  caller : List String

namespace Loading

def start : Loading := ⟨0, false, false, true, true, []⟩

def setError (s : Loading) (message : String) : Loading :=
  { s with caller := if s.error then s.caller ++ [message] else s.caller }

/-- A call that fails reports to `error`, which is then set to NULL. -/
def fail (s : Loading) (message : String) : Loading :=
  { s.setError message with res := false, error := false }

def signal (linfo : LoadInfo) (s : Loading) (emitted : List (Int × Int)) : Loading :=
  { s with stop := s.stop || emitted.any fun size => maxPixCheck linfo size.1 size.2 }

variable {π : Type*} (linfo : LoadInfo) (env : LoaderEnv π)

def step (s : Loading) : Option Loading :=
  if s.broken || s.stop then none
  else
    let read := { s with nRead := s.nRead + 1 }
    match env.read s.nRead with
    | .error message => some { read.fail message with broken := true }
    | .ok 0 => some { read with broken := true }
    | .ok (_ + 1) =>
      if read.stop then some { read with broken := true }
      else
        let written := read.signal linfo (env.write s.nRead).emitted
        match (env.write s.nRead).result with
        | .error message => some { written.fail message with broken := true }
        | .ok _ => some written

def close (s : Loading) : Loading :=
  let closed := s.signal linfo env.close.emitted
  match env.close.result with
  | .error message => closed.fail message
  | .ok _ => closed

def finish (s : Loading) : Loading :=
  let closed := s.close linfo env
  if closed.stop then { closed.setError "original image too large" with res := false } else closed

def pixbuf (s : Loading) : Option π := if s.res then env.getPixbuf else none

/-- The turn of a read that finds the end or fails, or of a write that fails or
is too much for the size check. -/
def Terminal (i : Nat) : Prop :=
  (∀ n, env.read i ≠ .ok (n + 1)) ∨ (∃ message, (env.write i).result = .error message) ∨
    ∃ size ∈ (env.write i).emitted, maxPixCheck linfo size.1 size.2 = true

section Loop
variable {linfo env} {s t : Loading}

theorem signal_stop {emitted : List (Int × Int)} : (s.signal linfo emitted).stop = true ↔
    s.stop = true ∨ ∃ size ∈ emitted, maxPixCheck linfo size.1 size.2 = true := by
  simp [signal]

def TurnFailed (env : LoaderEnv π) (i : Nat) : Prop :=
  (∃ message, env.read i = .error message) ∨
    (∃ n, env.read i = .ok (n + 1)) ∧ ∃ message, (env.write i).result = .error message

/-- What a turn leaves: a loop that is over, or one more read of a turn that was
not the last. -/
theorem step_cases (h : s.step linfo env = some t) :
    t.nRead = s.nRead + 1 ∧ (Terminal linfo env s.nRead ↔ t.broken = true ∨ t.stop = true) ∧
      ((¬ TurnFailed env s.nRead ∧ (t.res, t.error, t.caller) = (s.res, s.error, s.caller)) ∨
        TurnFailed env s.nRead ∧ ∃ message,
          (t.res, t.error, t.caller) = (false, false, if s.error then s.caller ++ [message] else s.caller)) := by
  rw [step] at h
  split at h
  · cases h
  next hgo =>
  obtain ⟨hbroken, hstop⟩ : s.broken = false ∧ s.stop = false := by simpa using hgo
  split at h
  · next message hread =>
    obtain rfl := Option.some.inj h
    refine ⟨rfl, ?_, .inr ⟨.inl ⟨message, hread⟩, message, rfl⟩⟩
    simp [Terminal, hread]
  · next hread =>
    obtain rfl := Option.some.inj h
    refine ⟨rfl, ?_, .inl ⟨?_, rfl⟩⟩
    · simp [Terminal, hread]
    · simp [TurnFailed, hread]
  · next n hread =>
    rw [if_neg (by simp [hstop])] at h
    split at h
    · next message hwrite =>
      obtain rfl := Option.some.inj h
      refine ⟨rfl, ?_, .inr ⟨.inr ⟨⟨n, hread⟩, message, hwrite⟩, message, rfl⟩⟩
      simp [Terminal, hwrite]
    · next hwrite =>
      obtain rfl := Option.some.inj h
      refine ⟨rfl, ?_, .inl ⟨?_, rfl⟩⟩
      · have hkept : ({ s with nRead := s.nRead + 1 }.signal linfo (env.write s.nRead).emitted).broken = false :=
          hbroken
        rw [hkept, signal_stop]
        simp [Terminal, hread, hwrite, hstop]
      · simp [TurnFailed, hread, hwrite]

theorem step_eq_none : s.step linfo env = none ↔ s.broken = true ∨ s.stop = true := by
  constructor
  · intro h
    by_contra hgo
    obtain ⟨hbroken, hstop⟩ : s.broken = false ∧ s.stop = false := by simpa using hgo
    rw [step, hbroken, hstop] at h
    simp only [Bool.or_self, Bool.false_eq_true, if_false] at h
    split at h
    · cases h
    · cases h
    · split at h <;> cases h
  · intro h
    rw [step, if_pos (by simpa using h)]

theorem ends_of_terminal {i : Nat} (hi : Terminal linfo env i) (hs : s.nRead ≤ i) :
    WhileLoop.Ends (step linfo env) s := by
  induction hn : i - s.nRead generalizing s with
  | zero =>
    cases hstep : s.step linfo env with
    | none => exact ⟨s, (WhileLoop.endsIn_of_none hstep).mpr rfl⟩
    | some t =>
      obtain ⟨_, hterminal, _⟩ := step_cases hstep
      have heq : s.nRead = i := by omega
      rw [heq] at hterminal
      exact (WhileLoop.ends_of_some hstep).mpr
        ⟨t, (WhileLoop.endsIn_of_none (step_eq_none.mpr (hterminal.mp hi))).mpr rfl⟩
  | succ n ih =>
    cases hstep : s.step linfo env with
    | none => exact ⟨s, (WhileLoop.endsIn_of_none hstep).mpr rfl⟩
    | some t =>
      obtain ⟨hread, _, _⟩ := step_cases hstep
      exact (WhileLoop.ends_of_some hstep).mpr (ih (by omega) (by omega))

theorem ends_iff : WhileLoop.Ends (step linfo env) start ↔ ∃ i, Terminal linfo env i := by
  constructor
  · intro h
    by_contra hnone
    refine WhileLoop.not_ends_of_invariant (P := fun s => s.broken = false ∧ s.stop = false) ?_ ⟨rfl, rfl⟩ h
    intro s hs
    cases hstep : s.step linfo env with
    | none =>
      have hover := step_eq_none.mp hstep
      simp [hs] at hover
    | some t =>
      obtain ⟨_, hterminal, _⟩ := step_cases hstep
      have hgo := mt hterminal.mpr fun hi => hnone ⟨_, hi⟩
      exact ⟨t, rfl, by simpa using hgo⟩
  · rintro ⟨i, hi⟩
    exact ends_of_terminal hi (Nat.zero_le i)

/-- The error of the caller is set once when a turn has failed, and the pointer to
it is then given up. -/
structure Told (env : LoaderEnv π) (s : Loading) : Prop where
  res_eq : s.res = s.error
  caller : s.caller.length = if s.error then 0 else 1
  failed : s.error = false ↔ ∃ i < s.nRead, TurnFailed env i

theorem told_start : start.Told env where
  res_eq := rfl
  caller := rfl
  failed := by simp [start]

theorem Told.step (hs : s.Told env) (h : s.step linfo env = some t) : t.Told env := by
  obtain ⟨hread, _, ⟨hok, hsame⟩ | ⟨hfailed, message, htold⟩⟩ := step_cases h
  · obtain ⟨hres, herror, hcaller⟩ : t.res = s.res ∧ t.error = s.error ∧ t.caller = s.caller := by simpa using hsame
    refine ⟨by rw [hres, herror, hs.res_eq], by rw [hcaller, herror, hs.caller], ?_⟩
    rw [herror, hs.failed, hread]
    constructor
    · rintro ⟨i, hi, hturn⟩
      exact ⟨i, by omega, hturn⟩
    · rintro ⟨i, hi, hturn⟩
      have hne : i ≠ s.nRead := by
        rintro rfl
        exact hok hturn
      exact ⟨i, by omega, hturn⟩
  · obtain ⟨hres, herror, hcaller⟩ : t.res = false ∧ t.error = false ∧
        t.caller = if s.error then s.caller ++ [message] else s.caller := by simpa using htold
    refine ⟨by rw [hres, herror], ?_, ?_⟩
    · have hlength := hs.caller
      rw [hcaller, herror]
      cases hlive : s.error <;> simp [hlive] at hlength ⊢ <;> omega
    · simp only [herror, true_iff]
      exact ⟨s.nRead, by omega, hfailed⟩

theorem nRead_le {i : Nat} (hi : Terminal linfo env i) (h : WhileLoop.EndsIn (step linfo env) start s) :
    s.nRead ≤ i + 1 := by
  have hlast : s.nRead ≤ i + 1 ∧ (s.nRead = i + 1 → s.broken = true ∨ s.stop = true) := by
    refine h.invariant (P := fun s => s.nRead ≤ i + 1 ∧ (s.nRead = i + 1 → s.broken = true ∨ s.stop = true)) ?_ ?_
    · intro s t ⟨hle, hover⟩ hstep
      obtain ⟨hread, hterminal, _⟩ := step_cases hstep
      have hgo : ¬ s.nRead = i + 1 := by
        intro heq
        rw [step_eq_none.mpr (hover heq)] at hstep
        cases hstep
      refine ⟨by omega, fun heq => hterminal.mp ?_⟩
      have hturn : s.nRead = i := by omega
      rw [hturn]
      exact hi
    · simp [start]
  exact hlast.1

def CallFailed (env : LoaderEnv π) (s : Loading) : Prop :=
  (∃ i < s.nRead, TurnFailed env i) ∨ ∃ message, env.close.result = .error message

theorem length_setError {s : Loading} (message : String) (h : s.caller.length = if s.error then 0 else 1) :
    (s.setError message).caller.length = 1 := by
  rw [setError]
  cases hlive : s.error <;> simp [hlive] at h ⊢ <;> omega

theorem Told.close (linfo : LoadInfo) (hs : s.Told env) : let t := s.close linfo env
    t.res = t.error ∧ (t.caller.length = if t.error then 0 else 1) ∧ (t.error = false ↔ CallFailed env s) := by
  rw [Loading.close, CallFailed]
  cases hclose : env.close.result with
  | error message =>
    have hlength :=
      length_setError message (show (s.signal linfo env.close.emitted).caller.length = _ from hs.caller)
    exact ⟨rfl, hlength, by simp [fail]⟩
  | ok _ =>
    refine ⟨hs.res_eq, hs.caller, ?_⟩
    have hok : ¬ ∃ message, (Except.ok ‹Unit› : Except String Unit) = .error message := by
      rintro ⟨_, ⟨⟩⟩
    rw [or_iff_left hok]
    exact hs.failed

theorem Told.finish (linfo : LoadInfo) (hs : s.Told env) : let t := s.finish linfo env
    (CallFailed env s ∨ t.stop = true → t.caller.length = 1 ∧ t.res = false) ∧
      (¬ (CallFailed env s ∨ t.stop = true) → t.caller = [] ∧ t.res = true) := by
  obtain ⟨hres, hlength, hfailed⟩ := hs.close linfo
  rw [Loading.finish, ← hfailed]
  cases hstop : (s.close linfo env).stop with
  | true =>
    have hset := length_setError "original image too large" hlength
    have hstopped : ((s.close linfo env).setError "original image too large").stop = true := hstop
    simp [hset, hstopped]
  | false =>
    cases hlive : (s.close linfo env).error with
    | true =>
      rw [hlive] at hres hlength
      simp [hstop, hres, List.length_eq_zero_iff.mp hlength]
    | false =>
      rw [hlive] at hres hlength
      exact ⟨fun _ => ⟨hlength, hres⟩, fun h => absurd (.inl rfl) h⟩

end Loop

/-- Loading ends when the stream ends, fails or is stopped, and then the caller
has an error exactly when something went wrong, and only one. -/
theorem loadFromStream : (WhileLoop.Ends (step linfo env) start ↔ ∃ i, Terminal linfo env i) ∧
    ∀ s, WhileLoop.EndsIn (step linfo env) start s → let t := s.finish linfo env
      (∀ i, Terminal linfo env i → s.nRead ≤ i + 1) ∧ t.caller.length ≤ 1 ∧
        (CallFailed env s ∨ t.stop = true → t.caller.length = 1 ∧ t.pixbuf env = none) ∧
        (¬ (CallFailed env s ∨ t.stop = true) → t.caller = [] ∧ t.pixbuf env = env.getPixbuf) := by
  refine ⟨ends_iff, fun s hs => ?_⟩
  have htold : s.Told env := hs.invariant (fun _ _ h hstep => h.step hstep) told_start
  obtain ⟨hbad, hgood⟩ := htold.finish linfo
  refine ⟨fun i hi => nRead_le hi hs, ?_, fun h => ?_, fun h => ?_⟩
  · by_cases h : CallFailed env s ∨ (s.finish linfo env).stop = true
    · exact (hbad h).1.le
    · simp [(hgood h).1]
  · obtain ⟨hlength, hres⟩ := hbad h
    exact ⟨hlength, by rw [pixbuf, hres]; rfl⟩
  · obtain ⟨hcaller, hres⟩ := hgood h
    exact ⟨hcaller, by rw [pixbuf, hres]; rfl⟩

/-- The first write announces a size that is too large and fails, and so does the
close. -/
def oversized : LoaderEnv Unit where
  read _ := .ok 65536
  write _ := ⟨[(30000, 30000)], .error "Corrupt image"⟩
  close := ⟨[], .error "Premature end"⟩
  getPixbuf := some ()

theorem loadFromStream_oversized : ∃ s, WhileLoop.EndsIn (step (loadInfo true) oversized) start s ∧
    (s.finish (loadInfo true) oversized).caller.length = 1 ∧
      (s.finish (loadInfo true) oversized).pixbuf oversized = none := by
  have hterminal : Terminal (loadInfo true) oversized 0 := .inr (.inl ⟨_, rfl⟩)
  obtain ⟨s, hs⟩ := (loadFromStream (loadInfo true) oversized).1.mpr ⟨0, hterminal⟩
  obtain ⟨_, _, hbad, _⟩ := (loadFromStream (loadInfo true) oversized).2 s hs
  exact ⟨s, hs, hbad (.inl (.inr ⟨_, rfl⟩))⟩

end Loading

end HildonThumbnail
