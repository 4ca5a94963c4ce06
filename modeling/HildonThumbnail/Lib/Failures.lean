import HildonThumbnail.Lib.PointerArray
import HildonThumbnail.Lib.Run

/-! Loops that go on after a failure. What failed is put before a list and told
in a text; at the end the list becomes an array with a NULL behind it. -/

namespace Failures

variable {ν : Type*}

structure Report (ν : Type*) where
  errors : Option String
  failed : List ν

namespace Report

def empty : Report ν := ⟨none, []⟩

def add (r : Report ν) (name : ν) : Option String → Report ν
  | none => r
  | some text => ⟨some (r.errors.getD "" ++ text), name :: r.failed⟩

def addAll (r : Report ν) (rounds : List (ν × Option String)) : Report ν :=
  rounds.foldl (fun r round => r.add round.1 round.2) r

end Report

/-- The names of the rounds that failed, in their order. -/
def failing (rounds : List (ν × Option String)) : List ν := (rounds.filter fun round => round.2.isSome).map Prod.fst

structure Returned (ν : Type*) where
  failed : Option (PointerArray ν)
  error : Option String

/-- An array for the list and a NULL, filled from its start. -/
def pointers (failed : List ν) : Option (PointerArray ν) :=
  (failed.zipIdx.foldlM (fun cells a => PointerArray.write cells a.2 a.1)
    (PointerArray.alloc0 (failed.length + 1))).bind fun cells => PointerArray.writeNull cells failed.length

def Report.finish (r : Report ν) : Option (Returned ν) :=
  if r.errors.isSome ∧ r.failed ≠ [] then (pointers r.failed).map fun cells => ⟨some cells, r.errors⟩
  else some ⟨none, none⟩

/-- Every name has had its round. There is an error exactly if there is an array,
which holds the names that failed, the last one first, and then a NULL. -/
structure Contract (names : List ν) (rounds : List (ν × Option String)) (returned : Returned ν) : Prop where
  processed : rounds.map Prod.fst = names
  error_iff : returned.error.isSome ↔ returned.failed.isSome
  failed : ∀ cells, returned.failed = some cells ↔
    failing rounds ≠ [] ∧ cells = (failing rounds).reverse.map some ++ [none]

section Reports
variable {r : Report ν} {names : List ν} {rounds : List (ν × Option String)}

@[simp] theorem failing_nil : failing ([] : List (ν × Option String)) = [] := rfl

theorem failing_cons (name : ν) (outcome : Option String) (rounds : List (ν × Option String)) :
    failing ((name, outcome) :: rounds) = (outcome.elim [] fun _ => [name]) ++ failing rounds := by
  cases outcome <;> rfl

theorem failing_sublist (rounds : List (ν × Option String)) : (failing rounds).Sublist (rounds.map Prod.fst) :=
  List.filter_sublist.map _

theorem addAll_failed (r : Report ν) (rounds : List (ν × Option String)) :
    (r.addAll rounds).failed = (failing rounds).reverse ++ r.failed := by
  induction rounds generalizing r with
  | nil => rfl
  | cons round rounds ih =>
    obtain ⟨name, outcome⟩ := round
    have hrest := ih (r.add name outcome)
    rw [failing_cons, List.reverse_append, List.append_assoc]
    cases outcome with
    | none => exact hrest
    | some text => exact hrest

/-- The two accumulators are set together. -/
theorem addAll_errors (r : Report ν) (rounds : List (ν × Option String)) :
    (r.addAll rounds).errors.isSome ↔ r.errors.isSome ∨ failing rounds ≠ [] := by
  induction rounds generalizing r with
  | nil => simp [Report.addAll]
  | cons round rounds ih =>
    obtain ⟨name, outcome⟩ := round
    have hrest := ih (r.add name outcome)
    rw [failing_cons]
    cases outcome with
    | none => exact hrest
    | some text =>
      refine hrest.trans ?_
      simp [Report.add]

theorem pointers_eq (failed : List ν) : pointers failed = some (failed.map some ++ [none]) := by
  have hwrite : failed.zipIdx.foldlM (fun cells a => PointerArray.write cells a.2 a.1)
      (PointerArray.alloc0 (failed.length + 1)) = some (PointerArray.filled failed 1) :=
    PointerArray.writeFrom_filled [] failed 1
  rw [pointers, hwrite, Option.bind_some, PointerArray.writeNull_filled]
  rfl

theorem empty_addAll_failed (rounds : List (ν × Option String)) :
    (Report.empty.addAll rounds).failed = (failing rounds).reverse := by
  rw [addAll_failed, Report.empty, List.append_nil]

theorem empty_addAll_errors (rounds : List (ν × Option String)) :
    (Report.empty.addAll rounds).errors.isSome ↔ failing rounds ≠ [] := by
  rw [addAll_errors]
  simp [Report.empty]

theorem finish_addAll (rounds : List (ν × Option String)) : (Report.empty.addAll rounds).finish =
    some ⟨if failing rounds = [] then none else some ((failing rounds).reverse.map some ++ [none]),
      (Report.empty.addAll rounds).errors⟩ := by
  have herrors := empty_addAll_errors rounds
  have hfailed := empty_addAll_failed rounds
  rw [Report.finish]
  by_cases hnone : failing rounds = []
  · have hnull : (Report.empty.addAll rounds).errors = none := by simpa [hnone] using herrors
    rw [if_neg fun h => herrors.mp h.1 hnone, if_pos hnone, hnull]
  · rw [if_pos ⟨herrors.mpr hnone, by simpa [hfailed] using hnone⟩, if_neg hnone, pointers_eq, hfailed,
      Option.map_some]

theorem contract_of_addAll (h : rounds.map Prod.fst = names) :
    ∃ returned, (Report.empty.addAll rounds).finish = some returned ∧ Contract names rounds returned := by
  have herrors := empty_addAll_errors rounds
  refine ⟨_, finish_addAll rounds, h, ?_, ?_⟩
  · rw [herrors]
    by_cases hnone : failing rounds = [] <;> simp [hnone]
  · intro cells
    by_cases hnone : failing rounds = []
    · simp [hnone]
    · simp [hnone, eq_comm]

end Reports

section Runs
variable {σ ι : Type*} {step : σ → ι → Option σ} {report : σ → Report ν} {name : ι → ν}
  {outcome : σ → ι → Option String} {s t : σ} {labels : List ι}

/-- The rounds of a loop, up to where it breaks off. -/
def rounds (step : σ → ι → Option σ) (name : ι → ν) (outcome : σ → ι → Option String) :
    σ → List ι → List (ν × Option String)
  | _, [] => []
  | s, a :: labels => (name a, outcome s a) :: (step s a).elim [] fun t => rounds step name outcome t labels

theorem rounds_cons_of_step {a : ι} (h : step s a = some t) :
    rounds step name outcome s (a :: labels) = (name a, outcome s a) :: rounds step name outcome t labels := by
  rw [rounds, h]
  rfl

theorem run_names (h : StepRun.run step s labels = some t) :
    (rounds step name outcome s labels).map Prod.fst = labels.map name := by
  induction labels generalizing s with
  | nil => rfl
  | cons a labels ih =>
    obtain ⟨u, hstep, hrest⟩ := Option.bind_eq_some_iff.mp h
    rw [rounds_cons_of_step hstep, List.map_cons, ih hrest]
    rfl

theorem run_report (hreport : ∀ s a t, step s a = some t → report t = (report s).add (name a) (outcome s a))
    (h : StepRun.run step s labels = some t) :
    report t = (report s).addAll (rounds step name outcome s labels) := by
  induction labels generalizing s with
  | nil => exact congrArg report (Option.some.inj h).symm
  | cons a labels ih =>
    obtain ⟨u, hstep, hrest⟩ := Option.bind_eq_some_iff.mp h
    rw [ih hrest, rounds_cons_of_step hstep, hreport s a u hstep]
    rfl

/-- A loop that gets to its end keeps the contract, if each of its rounds
reports its own outcome and no other. -/
theorem run_contract (hreport : ∀ s a t, step s a = some t → report t = (report s).add (name a) (outcome s a))
    (hs : report s = Report.empty) (h : StepRun.run step s labels = some t) :
    ∃ returned, (report t).finish = some returned ∧
      Contract (labels.map name) (rounds step name outcome s labels) returned := by
  rw [run_report hreport h, hs]
  exact contract_of_addAll (run_names h)

end Runs

end Failures
