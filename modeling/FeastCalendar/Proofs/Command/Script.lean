import FeastCalendar.Attempt
import FeastCalendar.Command.Run

/-!
What scripts write to the errors, and how they fail. Up to a failure most of them write log records
only; a chain of scripts writes what its steps write, and fails as the first step that does. A value
that a chain gives is told by the values of its steps.
-/

namespace FeastCalendar.Command
open Attempt (FailsOnly)

def IsRecord (line : String) : Prop :=
  ∃ level ∈ ["DEBUG", "WARNING"], ∃ source ∈ [anchorLog, novenaLog], ∃ message : String,
    line = level ++ " [" ++ source ++ "] " ++ message

/-- Log records are all that was written to the errors in between. -/
def OnlyLogged (before after : Transcript) : Prop :=
  ∃ records : List String, after.errors = before.errors ++ records.toArray ∧
    ∀ line ∈ records, IsRecord line

theorem OnlyLogged.of_eq {before after : Transcript} (same : after.errors = before.errors) :
    OnlyLogged before after :=
  ⟨[], by simp [same], List.forall_mem_nil _⟩

theorem OnlyLogged.trans {before between after : Transcript} (first : OnlyLogged before between)
    (later : OnlyLogged between after) : OnlyLogged before after := by
  obtain ⟨records, written, known⟩ := first
  obtain ⟨others, writtenLater, knownLater⟩ := later
  refine ⟨records ++ others, ?_, List.forall_mem_append.mpr ⟨known, knownLater⟩⟩
  simp [written, writtenLater]

variable {α β : Type} {allowed : Failure → Prop}

/-- A script that writes nothing but log records to the errors, and that fails in allowed ways. -/
structure Logs (allowed : Failure → Prop) (script : Script α) : Prop where
  logged : ∀ before, OnlyLogged before (script.run before).2
  failsOnly : ∀ before failure,
    (script.run before).1 = .error (.failure failure) → allowed failure

/-- A script that, where it fails, does so in an allowed way and has written nothing but log records
to the errors. -/
def Tells (allowed : Failure → Prop) (script : Script α) : Prop :=
  ∀ before failure, (script.run before).1 = .error (.failure failure) →
    allowed failure ∧ OnlyLogged before (script.run before).2

def Finishes (script : Script α) : Prop := ∀ before, ∃ value, (script.run before).1 = .ok value

def Gives (script : Script α) (value : α) : Prop := ∃ before, (script.run before).1 = .ok value

theorem Logs.tells {script : Script α} (logs : Logs allowed script) : Tells allowed script :=
  fun before failure refused => ⟨logs.failsOnly before failure refused, logs.logged before⟩

theorem Finishes.tells {script : Script α} (finishes : Finishes script) : Tells allowed script := by
  intro before failure refused
  obtain ⟨value, found⟩ := finishes before
  cases found.symm.trans refused

section Steps

theorem finishes_pure (value : α) : Finishes (pure value) := fun _ => ⟨value, rfl⟩

theorem finishes_say (line : String) : Finishes (say line) := fun _ => ⟨(), rfl⟩

theorem finishes_sayAll (lines : List String) : Finishes (sayAll lines) := fun _ => ⟨(), rfl⟩

theorem finishes_complain (line : String) : Finishes (complain line) := fun _ => ⟨(), rfl⟩

theorem logs_pure (value : α) : Logs allowed (pure value : Script α) :=
  ⟨fun _ => .of_eq rfl, fun _ _ refused => nomatch refused⟩

theorem logs_say (line : String) : Logs allowed (say line) :=
  ⟨fun _ => .of_eq rfl, fun _ _ refused => nomatch refused⟩

theorem logs_sayAll (lines : List String) : Logs allowed (sayAll lines) :=
  ⟨fun _ => .of_eq rfl, fun _ _ refused => nomatch refused⟩

theorem logs_throw_other (cause : Breakdown) (other : ∀ failure, cause ≠ .failure failure) :
    Logs allowed (throw cause : Script α) := by
  refine ⟨fun _ => .of_eq rfl, ?_⟩
  rintro _ failure ⟨⟩
  exact absurd rfl (other failure)

theorem logs_throw {failure : Failure} (fits : allowed failure) :
    Logs allowed (throw (.failure failure) : Script α) := by
  refine ⟨fun _ => .of_eq rfl, ?_⟩
  rintro _ _ ⟨⟩
  exact fits

theorem logs_lift {attempt : Except Failure α} (fits : FailsOnly allowed attempt) :
    Logs allowed (lift attempt) := by
  refine ⟨fun _ => .of_eq rfl, ?_⟩
  intro before failure refused
  obtain ⟨own, met, same⟩ := Attempt.mapError_eq_error.mp
    (show attempt.mapError Breakdown.failure = .error (.failure failure) from refused)
  cases same
  exact fits failure met

theorem logs_log (verbose : Bool) (level : LogLevel) {source : String}
    (known : source ∈ [anchorLog, novenaLog]) (message : String) :
    Logs allowed (log verbose level source message) := by
  have writes : ∀ line, IsRecord line → Logs allowed (complain line) := fun line record =>
    ⟨fun before => ⟨[line], by rfl, List.forall_mem_singleton.mpr record⟩,
      fun _ _ refused => nomatch refused⟩
  cases level with
  | debug =>
    rw [log]
    split
    · exact writes _ ⟨"DEBUG", by decide, source, known, message, rfl⟩
    · exact logs_pure ()
  | warning => exact writes _ ⟨"WARNING", by decide, source, known, message, rfl⟩

end Steps

section Chains

variable {first : Script α} {next : α → Script β}

theorem run_bind (first : Script α) (next : α → Script β) (before : Transcript) :
    (∃ cause, (first.run before).1 = .error cause ∧
      (first >>= next).run before = (.error cause, (first.run before).2)) ∨
    ∃ value, (first.run before).1 = .ok value ∧
      (first >>= next).run before = (next value).run (first.run before).2 := by
  have split : (first >>= next).run before =
      (ExceptT.bindCont next (first.run before).1).run (first.run before).2 := rfl
  cases came : (first.run before).1 with
  | error cause =>
    rw [came] at split
    exact Or.inl ⟨cause, rfl, split⟩
  | ok value =>
    rw [came] at split
    exact Or.inr ⟨value, rfl, split⟩

theorem Logs.bind (start : Logs allowed first)
    (rest : ∀ value, Gives first value → Logs allowed (next value)) :
    Logs allowed (first >>= next) := by
  constructor
  · intro before
    rcases run_bind first next before with ⟨cause, -, cut⟩ | ⟨value, found, goesOn⟩
    · rw [cut]
      exact start.logged before
    · rw [goesOn]
      exact (start.logged before).trans ((rest value ⟨before, found⟩).logged _)
  · intro before failure refused
    rcases run_bind first next before with ⟨cause, met, cut⟩ | ⟨value, found, goesOn⟩
    · rw [cut] at refused
      cases refused
      exact start.failsOnly before failure met
    · rw [goesOn] at refused
      exact (rest value ⟨before, found⟩).failsOnly _ failure refused

theorem Logs.tells_bind (start : Logs allowed first)
    (rest : ∀ value, Gives first value → Tells allowed (next value)) :
    Tells allowed (first >>= next) := by
  intro before failure refused
  rcases run_bind first next before with ⟨cause, met, cut⟩ | ⟨value, found, goesOn⟩
  · rw [cut] at refused ⊢
    cases refused
    exact ⟨start.failsOnly before failure met, start.logged before⟩
  · rw [goesOn] at refused ⊢
    obtain ⟨fits, later⟩ := rest value ⟨before, found⟩ _ failure refused
    exact ⟨fits, (start.logged before).trans later⟩

theorem Tells.bind (start : Tells allowed first) (rest : ∀ value, Finishes (next value)) :
    Tells allowed (first >>= next) := by
  intro before failure refused
  rcases run_bind first next before with ⟨cause, met, cut⟩ | ⟨value, found, goesOn⟩
  · rw [cut] at refused ⊢
    cases refused
    exact start before failure met
  · rw [goesOn] at refused
    obtain ⟨result, reached⟩ := rest value (first.run before).2
    cases reached.symm.trans refused

theorem Finishes.bind (start : Finishes first) (rest : ∀ value, Finishes (next value)) :
    Finishes (first >>= next) := by
  intro before
  rcases run_bind first next before with ⟨cause, met, -⟩ | ⟨value, -, goesOn⟩
  · obtain ⟨value, found⟩ := start before
    cases found.symm.trans met
  · rw [goesOn]
    exact rest value _

section Loops

variable {step : α → PUnit → Script (ForInStep PUnit)} {given : List α}

theorem logs_forIn (each : ∀ value, Logs allowed (step value PUnit.unit)) :
    Logs allowed (forIn given PUnit.unit step) := by
  induction given with
  | nil => exact logs_pure _
  | cons value rest ih =>
    rw [List.forIn_cons]
    apply (each value).bind
    intro next _
    cases next with
    | done => exact logs_pure _
    | yield => exact ih

theorem finishes_forIn (each : ∀ value, Finishes (step value PUnit.unit)) :
    Finishes (forIn given PUnit.unit step) := by
  induction given with
  | nil => exact finishes_pure _
  | cons value rest ih =>
    rw [List.forIn_cons]
    apply (each value).bind
    intro next
    cases next with
    | done => exact finishes_pure _
    | yield => exact ih

end Loops

theorem Gives.of_bind {result : β} (gives : Gives (first >>= next) result) :
    ∃ value, Gives first value ∧ Gives (next value) result := by
  obtain ⟨before, reached⟩ := gives
  rcases run_bind first next before with ⟨cause, -, cut⟩ | ⟨value, found, goesOn⟩
  · rw [cut] at reached
    cases reached
  · rw [goesOn] at reached
    exact ⟨value, ⟨before, found⟩, ⟨_, reached⟩⟩

theorem Gives.of_pure {value result : α} (gives : Gives (pure value : Script α) result) :
    value = result := by
  obtain ⟨before, reached⟩ := gives
  exact Except.ok.inj reached

theorem Gives.of_lift {attempt : Except Failure α} {value : α} (gives : Gives (lift attempt) value) :
    attempt = .ok value := by
  obtain ⟨before, reached⟩ := gives
  exact Attempt.mapError_eq_ok.mp
    (show attempt.mapError Breakdown.failure = .ok value from reached)

end Chains

section Values

theorem built_of_tableOf {verbose : Bool} {year : Int} {table : AnchorTable}
    (gives : Gives (tableOf verbose year) table) :
    AnchorTable.builtin (.int year) = .ok table := by
  obtain ⟨own, found, later⟩ := gives.of_bind
  obtain ⟨easter, -, later⟩ := later.of_bind
  obtain ⟨logged, -, later⟩ := later.of_bind
  cases later.of_pure
  exact found.of_lift

theorem forall₂_seriesPoints {verbose : Bool} {anchor : Text} {years : List Int}
    {points : List (Int × Int)} (gives : Gives (seriesPoints verbose anchor years) points) :
    List.Forall₂ (fun year point =>
      (almanac.table (.int year) >>= fun table => EquinoxSeries.point table anchor year) =
        .ok point) years points := by
  induction years generalizing points with
  | nil =>
    cases gives.of_pure
    exact .nil
  | cons year rest ih =>
    obtain ⟨table, built, later⟩ := gives.of_bind
    obtain ⟨point, found, later⟩ := later.of_bind
    obtain ⟨others, further, later⟩ := later.of_bind
    cases later.of_pure
    exact .cons (Attempt.bind_eq_ok.mpr ⟨table, built_of_tableOf built, found.of_lift⟩) (ih further)

/-- The series that the command draws is the one that is built without logging. -/
theorem build_of_seriesPoints {verbose : Bool} {anchor : Text} {first last : Int}
    {points : List (Int × Int)}
    (gives : Gives (seriesPoints verbose anchor (EquinoxSeries.years first last)) points) :
    EquinoxSeries.build almanac anchor first last = .ok points :=
  Attempt.mapM_eq_ok.mpr (forall₂_seriesPoints gives)

end Values

end FeastCalendar.Command
