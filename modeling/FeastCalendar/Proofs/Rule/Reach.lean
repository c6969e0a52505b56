import FeastCalendar.Attempt
import FeastCalendar.Proofs.Civil.Weekday
import FeastCalendar.Rule.Resolve

/-!
How far rules reach. A rule counts from an anchor to one day or two, which the calendar may not
hold; that apart, a rule gives a date or is at fault.
-/

namespace FeastCalendar
open Civil (Date lastDay)
open Attempt (FailsOnly)

def Failure.IsFault (failure : Failure) : Prop := ∃ fault, failure = .fault fault

theorem Failure.IsFault.within {failure : Failure} (own : failure.IsFault) (entry : Option Text)
    (year : Option Json) (rule : Option RuleSlot) : (failure.within entry year rule).IsFault := by
  obtain ⟨fault, rfl⟩ := own
  exact ⟨_, rfl⟩

theorem Failure.not_isFault_beyondRange : ¬(Failure.date .beyondRange).IsFault :=
  fun ⟨_, same⟩ => nomatch same

abbrev Held (day : Int) : Prop := 1 ≤ day ∧ day ≤ lastDay

def Held.date {day : Int} (held : Held day) : Date := ⟨day, held.1, held.2⟩

variable {α β : Type}

/-- An attempt that leaves the calendar unless something holds; if it fails then, it is by a
fault. -/
structure LeavesUnless (stays : Prop) (attempt : Except Failure α) : Prop where
  fault : stays → FailsOnly Failure.IsFault attempt
  leave : ¬stays → attempt = .error (.date .beyondRange)

namespace LeavesUnless

variable {stays other : Prop}

theorem iff_graveUnless {attempt : Except Failure α} :
    LeavesUnless stays attempt ↔
      Attempt.GraveUnless (.date .beyondRange) Failure.IsFault stays attempt :=
  ⟨fun leaves => ⟨leaves.fault, leaves.leave⟩, fun leaves => ⟨leaves.allow, leaves.leave⟩⟩

theorem of_failsOnly {attempt : Except Failure α} (faults : FailsOnly Failure.IsFault attempt) :
    LeavesUnless True attempt :=
  iff_graveUnless.mpr (.of_failsOnly faults)

theorem congr {attempt : Except Failure α} (leaves : LeavesUnless stays attempt)
    (same : stays ↔ other) : LeavesUnless other attempt :=
  iff_graveUnless.mpr ((iff_graveUnless.mp leaves).congr same)

theorem bind {first : Except Failure α} {next : α → Except Failure β}
    (start : LeavesUnless stays first) (later : α → Prop)
    (rest : ∀ value, first = .ok value → LeavesUnless (later value) (next value)) :
    LeavesUnless (stays ∧ ∀ value, first = .ok value → later value) (first >>= next) :=
  iff_graveUnless.mpr
    ((iff_graveUnless.mp start).bind later fun value found => iff_graveUnless.mp (rest value found))

theorem within {attempt : Except Failure α} (leaves : LeavesUnless stays attempt)
    (entry : Option Text) (year : Option Json) (rule : Option RuleSlot) :
    LeavesUnless stays (attempt.mapError fun failure => failure.within entry year rule) :=
  iff_graveUnless.mpr ((iff_graveUnless.mp leaves).mapError
    (fun _ own => own.within entry year rule) rfl)

theorem inRange (day : Int) : LeavesUnless (Held day) (inRange (Date.ofNumber? day)) := by
  refine ⟨?_, ?_⟩
  · intro held
    obtain ⟨date, found, -⟩ := Date.exists_ofNumber? held
    rw [found]
    exact Attempt.failsOnly_ok date
  · intro beyond
    have absent : Date.ofNumber? day = none := by
      rw [Date.ofNumber?_eq_none_iff]
      omega
    rw [absent]
    rfl

/-- What follows on reaching a day may hang on which day it is. -/
theorem inRange_bind (day : Int) (later : Int → Prop) {next : Date → Except Failure α}
    (rest : ∀ moved : Date, LeavesUnless (later moved.number) (next moved)) :
    LeavesUnless (Held day ∧ later day) (FeastCalendar.inRange (Date.ofNumber? day) >>= next) := by
  refine ((LeavesUnless.inRange day).bind (fun moved => later moved.number)
    fun moved _ => rest moved).congr ?_
  refine and_congr_right fun held => ?_
  obtain ⟨moved, found, number⟩ := Date.exists_ofNumber? held
  rw [found]
  simp [inRange_eq_ok, number]

end LeavesUnless

namespace Anchors

theorem getForRule_eq_ok {anchors : Anchors} {key : Text} {year : Json} {date : Date} :
    anchors.getForRule key year = .ok date ↔ anchors.find? key = some date := by
  cases anchors with
  | table own =>
    simp only [getForRule, AnchorTable.get, AnchorTable.find?, find?, dates]
    cases Keyed.find? own.dates key <;> simp
  | plain own =>
    simp only [getForRule, find?, dates]
    cases Keyed.find? own key <;> simp

theorem get_eq_ok {anchors : Anchors} {key : Text} {date : Date} :
    anchors.get key = .ok date ↔ anchors.find? key = some date := by
  cases anchors with
  | table own =>
    simp only [get, AnchorTable.get, AnchorTable.find?, find?, dates]
    cases Keyed.find? own.dates key <;> simp
  | plain own =>
    simp only [get, find?, dates]
    cases Keyed.find? own key <;> simp

theorem getForRule_faults (anchors : Anchors) (key : Text) (year : Json) :
    FailsOnly Failure.IsFault (anchors.getForRule key year) := by
  cases anchors with
  | table own =>
    simp only [getForRule, AnchorTable.get]
    split
    · exact Attempt.failsOnly_ok _
    · exact Attempt.failsOnly_error ⟨_, rfl⟩
  | plain own =>
    simp only [getForRule]
    split
    · exact Attempt.failsOnly_ok _
    · exact Attempt.failsOnly_error ⟨_, rfl⟩

end Anchors

namespace Rule

def countsFrom? (rule : Rule) (anchors : Anchors) (feast : Option RuleSlot) : Option Date :=
  match rule with
  | relative key _ _ _ => anchors.find? key.val
  | nthWeekdayAfter key _ _ => anchors.find? key.val
  | beforeFeast _ key =>
    match borrowedKey key feast with
    | .ok key => anchors.find? key.val
    | .error _ => none
  | _ => none

def countsTo (rule : Rule) (day : Int) : List Int :=
  match rule with
  | relative _ offset none _ => [day + offset]
  | relative _ offset (some weekday) .onOrAfter =>
    [day + offset, day + offset + (weekday.val - (day + offset)) % 7]
  | relative _ offset (some weekday) .onOrBefore =>
    [day + offset, day + offset - (day + offset - weekday.val) % 7]
  | nthWeekdayAfter _ weekday count =>
    [day + 1 + (weekday.val - day - 1) % 7 + 7 * (count.val - 1)]
  | beforeFeast days _ => [day - (days.val - 1)]
  | _ => []

def StaysWithin (rule : Rule) (anchors : Anchors) (feast : Option RuleSlot) : Prop :=
  ∀ start, rule.countsFrom? anchors feast = some start → ∀ day ∈ rule.countsTo start.number, Held day

variable {anchors : Anchors} {feast : Option RuleSlot}

theorem fixedDate_faults {year month day : Int} (years : 0 ≤ year ∧ year ≤ 9999)
    (months : 1 ≤ month ∧ month ≤ 12) (days : 1 ≤ day ∧ day ≤ 31) :
    FailsOnly Failure.IsFault (fixedDate (.int year) month day) := by
  have words : (Civil.isWord year && Civil.isWord month && Civil.isWord day) = true := by
    simp [Civil.isWord, Civil.wordLimit]
    omega
  have named : Date.ofYmd year month day ≠ .error .beyondRange := by
    rw [Date.ofYmd, words, Bool.not_true, if_neg Bool.false_ne_true]
    split
    · split
      · simp
      · simp
    · simp
  simp only [fixedDate, Json.whole?]
  cases found : Date.ofYmd year month day with
  | ok date => exact Attempt.failsOnly_ok date
  | error cause =>
    cases cause with
    | beyondRange => exact absurd found named
    | _ => exact Attempt.failsOnly_error ⟨_, rfl⟩

theorem borrowedKey_faults (key : Option Key) (feast : Option RuleSlot) :
    FailsOnly Failure.IsFault (borrowedKey key feast) := by
  unfold borrowedKey
  split
  · exact Attempt.failsOnly_ok _
  · exact Attempt.failsOnly_ok _
  · exact Attempt.failsOnly_error ⟨_, rfl⟩

theorem leavesUnless_of_anchor (key : Text) (year : Json) (days : Int → List Int)
    {step : Date → Except Failure Date}
    (each : ∀ start, LeavesUnless (∀ day ∈ days start.number, Held day) (step start)) :
    LeavesUnless (∀ start, anchors.find? key = some start → ∀ day ∈ days start.number, Held day)
      (anchors.getForRule key year >>= step) := by
  refine ((LeavesUnless.of_failsOnly (anchors.getForRule_faults key year)).bind _
    fun start _ => each start).congr ?_
  simp only [Anchors.getForRule_eq_ok, true_and]

theorem dateIn_leavesUnless (rule : Rule) {year : Int} (years : 0 ≤ year ∧ year ≤ 9999)
    (anchors : Anchors) (feast : Option RuleSlot) :
    LeavesUnless (rule.StaysWithin anchors feast) (rule.dateIn (.int year) anchors feast) := by
  cases rule with
  | fixed month day =>
    refine (LeavesUnless.of_failsOnly (fixedDate_faults years month.property day.property)).congr ?_
    simp [StaysWithin, countsFrom?]
  | anchor key =>
    refine (LeavesUnless.of_failsOnly (anchors.getForRule_faults key.val _)).congr ?_
    simp [StaysWithin, countsFrom?]
  | relative key offset weekday policy =>
    refine leavesUnless_of_anchor key.val _ _ fun start => ?_
    cases weekday with
    | none =>
      refine ((LeavesUnless.inRange _).bind _ fun moved _ =>
        LeavesUnless.of_failsOnly (Attempt.failsOnly_ok moved)).congr ?_
      simp [countsTo]
    | some weekday =>
      cases policy with
      | onOrAfter =>
        simp only [Date.align?_onOrAfter]
        refine (LeavesUnless.inRange_bind _ (fun day => Held (day + (weekday.val - day) % 7))
          fun moved => LeavesUnless.inRange _).congr ?_
        simp [countsTo]
      | onOrBefore =>
        simp only [Date.align?_onOrBefore]
        refine (LeavesUnless.inRange_bind _ (fun day => Held (day - (day - weekday.val) % 7))
          fun moved => LeavesUnless.inRange _).congr ?_
        simp [countsTo]
  | nthWeekdayAfter key weekday count =>
    refine leavesUnless_of_anchor key.val _ _ fun start => ?_
    rw [Date.nthWeekdayAfter?_eq weekday.property count.property]
    refine (LeavesUnless.inRange _).congr ?_
    simp [countsTo]
  | beforeFeast days key =>
    have step : ∀ own : Key, LeavesUnless
        (∀ start, anchors.find? own.val = some start → Held (start.number - (days.val - 1)))
        (anchors.getForRule own.val (.int year) >>= fun date =>
          inRange (date.add? (-(days.val - 1)))) := by
      intro own
      refine (leavesUnless_of_anchor own.val _ (fun day => [day + -(days.val - 1)])
        fun start => (LeavesUnless.inRange _).congr ?_).congr ?_
      · simp
      · simp [Int.sub_eq_add_neg]
    refine ((LeavesUnless.of_failsOnly (borrowedKey_faults key feast)).bind _
      fun own _ => step own).congr ?_
    simp only [StaysWithin, countsFrom?, countsTo]
    cases borrowedKey key feast <;> simp
  | raw text =>
    refine (LeavesUnless.of_failsOnly (Attempt.failsOnly_error ⟨_, rfl⟩)).congr ?_
    simp [StaysWithin, countsFrom?]

end Rule

end FeastCalendar
