import FeastCalendar.Civil.Parts
import FeastCalendar.Proofs.Rule.Reach

/-!
How a rule ends. A rule fails for want of its anchor, because it names no day, because it was not
understood or because it counts beyond the calendar; otherwise its date is the day it counts to.
-/

namespace FeastCalendar
open Civil (Date lastDay)

inductive Ending where
  | missing
  | noDay
  | unread
  | beyond
  | on (date : Date)

def Ending.of? : Except Failure Date → Option Ending
  | .ok date => some (on date)
  | .error (.date .beyondRange) => some beyond
  | .error (.fault fault) =>
    match fault.kind with
    | .unknownAnchor => some missing
    | .invalidParameter => some noDay
    | .unresolvable => some unread
    | _ => none
  | .error _ => none

/-- The year in which a key is said to be missing: a table's own, if it has one. -/
def Anchors.yearOfMissing (anchors : Anchors) (year : Json) : Json :=
  match anchors with
  | .table own => (Fault.yearGiven own.year).getD year
  | .plain _ => year

theorem Anchors.getForRule_missing {anchors : Anchors} {key : Text}
    (missing : anchors.find? key = none) (year : Int) (rule : Option RuleSlot) :
    (anchors.getForRule key (.int year)).mapError
        (fun failure => failure.within none (some (.int year)) rule) =
      .error (.fault {
        cause := .unknownAnchor key
        year := some (anchors.yearOfMissing (.int year))
        rule := rule }) := by
  cases anchors with
  | table own =>
    have absent : own.find? key = none := missing
    simp only [getForRule, AnchorTable.get, absent, yearOfMissing]
    cases Fault.yearGiven own.year <;> rfl
  | plain own =>
    have absent : Keyed.find? own key = none := missing
    simp only [getForRule, absent]
    rfl

/-- Days reached one after another: the last of them, if the calendar holds each. -/
def reach (start : Date) (days : List Int) : Except Failure Date :=
  days.foldlM (fun _ day => inRange (Date.ofNumber? day)) start

theorem reach_eq_ok {start date : Date} {days : List Int} :
    reach start days = .ok date ↔
      (∀ day ∈ days, Held day) ∧ date.number = days.getLastD start.number := by
  induction days generalizing start with
  | nil =>
    rw [reach, List.foldlM_nil, Attempt.pure_eq_ok, Date.ext_iff, eq_comm]
    simp
  | cons day days ih =>
    have onward : reach start (day :: days) =
        inRange (Date.ofNumber? day) >>= fun next => reach next days := rfl
    rw [onward, Attempt.bind_eq_ok, List.getLastD_cons, List.forall_mem_cons]
    constructor
    · rintro ⟨next, found, later⟩
      have number := Date.number_of_ofNumber? (inRange_eq_ok.mp found)
      obtain ⟨held, last⟩ := ih.mp later
      rw [number] at last
      refine ⟨⟨?_, held⟩, last⟩
      rw [← number]
      exact ⟨next.one_le, next.le_last⟩
    · rintro ⟨⟨here, held⟩, last⟩
      obtain ⟨next, found, number⟩ := Date.exists_ofNumber? here
      rw [← number] at last
      exact ⟨next, inRange_eq_ok.mpr found, ih.mpr ⟨held, last⟩⟩

theorem reach_eq_error {start : Date} {days : List Int} {failure : Failure} :
    reach start days = .error failure ↔
      (∃ day ∈ days, ¬Held day) ∧ failure = .date .beyondRange := by
  induction days generalizing start with
  | nil => simp [reach, pure, Except.pure]
  | cons day days ih =>
    have onward : reach start (day :: days) =
        inRange (Date.ofNumber? day) >>= fun next => reach next days := rfl
    rw [onward, Attempt.bind_eq_error, inRange_eq_error, Date.ofNumber?_eq_none_iff]
    simp only [List.exists_mem_cons_iff, ih]
    constructor
    · rintro (⟨beyond, rfl⟩ | ⟨next, -, astray, rfl⟩)
      · exact ⟨Or.inl (by unfold Held; omega), rfl⟩
      · exact ⟨Or.inr astray, rfl⟩
    · rintro ⟨astray, rfl⟩
      by_cases here : Held day
      · obtain ⟨next, found, -⟩ := Date.exists_ofNumber? here
        have later := astray.resolve_left (not_not_intro here)
        exact Or.inr ⟨next, inRange_eq_ok.mpr found, later, rfl⟩
      · exact Or.inl ⟨by unfold Held at here; omega, rfl⟩

namespace Rule

/-- The anchor whose date a rule needs. A span before the feast that names none borrows that of a
feast placed by one. -/
def neededKey? (rule : Rule) (feast : Option RuleSlot) : Option Key :=
  match rule with
  | anchor key => some key
  | relative key _ _ _ => some key
  | nthWeekdayAfter key _ _ => some key
  | beforeFeast _ (some key) => some key
  | beforeFeast _ none =>
    match feast with
    | some (.rule (.anchor key)) => some key
    | _ => none
  | fixed _ _ => none
  | raw _ => none

/-- How a rule ends, told by its anchor and by day numbers. -/
def Ends (rule : Rule) (year : Int) (anchors : Anchors) (feast : Option RuleSlot) : Ending → Prop
  | .missing => ∃ key, rule.neededKey? feast = some key ∧ anchors.find? key.val = none
  -- A day that its month lacks, or a span before a feast that is placed by no anchor.
  | .noDay =>
    (∃ month day, rule = fixed month day ∧ Civil.monthLength year month.val < day.val) ∨
      ∃ days, rule = beforeFeast days none ∧ ∀ key, feast ≠ some (.rule (.anchor key))
  | .unread => ∃ text, rule = raw text
  | .beyond => ∃ key start, rule.neededKey? feast = some key ∧
      anchors.find? key.val = some start ∧ ∃ day ∈ rule.countsTo start.number, ¬Held day
  -- The day named, or the last day counted to, each day on the way being in the calendar.
  | .on date =>
    (∃ month day, rule = fixed month day ∧
      date.year = year ∧ date.month = month.val ∧ date.day = day.val) ∨
    ∃ key start, rule.neededKey? feast = some key ∧ anchors.find? key.val = some start ∧
      (∀ day ∈ rule.countsTo start.number, Held day) ∧
        date.number = (rule.countsTo start.number).getLastD start.number

variable {anchors : Anchors} {feast : Option RuleSlot}

theorem dateIn_of_neededKey {rule : Rule} {key : Key} (needed : rule.neededKey? feast = some key)
    (year : Json) :
    rule.dateIn year anchors feast =
      anchors.getForRule key.val year >>= fun start =>
        reach start (rule.countsTo start.number) := by
  cases rule with
  | fixed month day => cases needed
  | raw text => cases needed
  | anchor own =>
    cases needed
    simp only [dateIn, countsTo, reach, List.foldlM_nil, bind_pure]
  | relative own offset weekday policy =>
    cases needed
    rw [dateIn]
    refine Attempt.bind_congr fun start _ => ?_
    cases weekday with
    | none =>
      simp only [reach, countsTo, List.foldlM_cons, List.foldlM_nil, Date.add?]
    | some weekday =>
      cases policy <;> simp only [reach, countsTo, List.foldlM_cons, List.foldlM_nil, bind_pure]
      · refine Attempt.bind_congr fun moved found => ?_
        rw [Date.align?_onOrAfter, Date.number_of_ofNumber? (inRange_eq_ok.mp found)]
      · refine Attempt.bind_congr fun moved found => ?_
        rw [Date.align?_onOrBefore, Date.number_of_ofNumber? (inRange_eq_ok.mp found)]
  | nthWeekdayAfter own weekday count =>
    cases needed
    rw [dateIn]
    refine Attempt.bind_congr fun start _ => ?_
    simp only [reach, countsTo, List.foldlM_cons, List.foldlM_nil, bind_pure]
    rw [Date.nthWeekdayAfter?_eq weekday.property count.property]
  | beforeFeast days own =>
    have borrowed : borrowedKey own feast = .ok key := by
      unfold neededKey? at needed
      unfold borrowedKey
      cases own with
      | some own =>
        cases needed
        rfl
      | none =>
        simp only at needed ⊢
        split at needed
        next =>
          cases needed
          rfl
        next => cases needed
    have named : (beforeFeast days own).dateIn year anchors feast =
        anchors.getForRule key.val year >>= fun start =>
          inRange (start.add? (-(days.val - 1))) := by
      rw [dateIn, borrowed]
      rfl
    rw [named]
    refine Attempt.bind_congr fun start _ => ?_
    simp only [reach, countsTo, List.foldlM_cons, List.foldlM_nil, bind_pure, Date.add?,
      Int.sub_eq_add_neg]

theorem fixedDate_of_lacking {year : Int} (years : 1 ≤ year ∧ year ≤ 9999) {month : Month}
    {day : MonthDay} (lacking : Civil.monthLength year month.val < day.val) :
    fixedDate (.int year) month.val day.val = .error (.invalid (.noSuchDate .day)) := by
  have months := month.property
  have days := day.property
  have words : (Civil.isWord year && Civil.isWord month.val && Civil.isWord day.val) = true := by
    simp [Civil.isWord, Civil.wordLimit]
    omega
  have refused : Date.ofYmd year month.val day.val = .error .day := by
    rw [Date.ofYmd, words, Bool.not_true, if_neg Bool.false_ne_true, dif_pos years, dif_pos months,
      dif_neg (by omega)]
  simp only [fixedDate, Json.whole?, refused]

theorem fixedDate_eq_ok {year : Int} {month : Month} {day : MonthDay} {date : Date} :
    fixedDate (.int year) month.val day.val = .ok date ↔
      date.year = year ∧ date.month = month.val ∧ date.day = day.val := by
  have named : fixedDate (.int year) month.val day.val = .ok date ↔
      Date.ofYmd year month.val day.val = .ok date := by
    simp only [fixedDate, Json.whole?]
    split
    next found => simp [found]
    next refused => simp [refused]
    next refused => simp [refused, Failure.invalid]
  rw [named]
  constructor
  · exact Date.parts_of_ofYmd
  · rintro ⟨rfl, months, days⟩
    rw [← months, ← days]
    exact date.ofYmd_parts

theorem resolve_eq (rule : Rule) (year : Int) (anchors : Anchors) (feast : Option RuleSlot) :
    rule.resolve (.int year) anchors feast =
      (rule.dateIn (.int year) anchors feast).mapError fun failure =>
        failure.within none (some (.int year)) (some (.rule rule)) := rfl

theorem resolve_of_missing {rule : Rule} {key : Key} (needed : rule.neededKey? feast = some key)
    (missing : anchors.find? key.val = none) (year : Int) :
    rule.resolve (.int year) anchors feast = .error (.fault {
      cause := .unknownAnchor key.val
      year := some (anchors.yearOfMissing (.int year))
      rule := some (.rule rule) }) := by
  rw [resolve_eq, dateIn_of_neededKey needed, Attempt.mapError_bind,
    Anchors.getForRule_missing missing]
  rfl

theorem resolve_of_found {rule : Rule} {key : Key} (needed : rule.neededKey? feast = some key)
    {start : Date} (found : anchors.find? key.val = some start) (year : Int) :
    rule.resolve (.int year) anchors feast = reach start (rule.countsTo start.number) := by
  have counted : rule.dateIn (.int year) anchors feast =
      reach start (rule.countsTo start.number) := by
    rw [dateIn_of_neededKey needed, Anchors.getForRule_eq_ok.mpr found]
    rfl
  rw [resolve_eq, counted]
  cases outcome : reach start (rule.countsTo start.number) with
  | ok date => rfl
  | error failure =>
    obtain ⟨-, rfl⟩ := reach_eq_error.mp outcome
    rfl

theorem resolve_of_noDay {rule : Rule} {year : Int} (years : 1 ≤ year ∧ year ≤ 9999)
    (ends : rule.Ends year anchors feast .noDay) :
    ∃ cause, rule.resolve (.int year) anchors feast = .error (.fault {
      cause := .invalid cause
      year := some (.int year)
      rule := some (.rule rule) }) := by
  rcases ends with ⟨month, day, rfl, lacking⟩ | ⟨days, rfl, alone⟩
  · refine ⟨.noSuchDate .day, ?_⟩
    rw [resolve_eq, dateIn, fixedDate_of_lacking years lacking]
    rfl
  · refine ⟨.nothingToBorrow, ?_⟩
    have refused : borrowedKey none feast = .error (.invalid .nothingToBorrow) := by
      unfold borrowedKey
      split
      next given => cases given
      next key _ => exact absurd rfl (alone key)
      next => rfl
    rw [resolve_eq, dateIn, refused]
    rfl

theorem of?_resolve {rule : Rule} {year : Int} (years : 1 ≤ year ∧ year ≤ 9999) {ending : Ending}
    (ends : rule.Ends year anchors feast ending) :
    Ending.of? (rule.resolve (.int year) anchors feast) = some ending := by
  cases ending with
  | missing =>
    obtain ⟨key, needed, missing⟩ := ends
    rw [resolve_of_missing needed missing]
    rfl
  | noDay =>
    obtain ⟨cause, refused⟩ := resolve_of_noDay years ends
    rw [refused]
    rfl
  | unread =>
    obtain ⟨text, rfl⟩ := ends
    rfl
  | beyond =>
    obtain ⟨key, start, needed, found, astray⟩ := ends
    rw [resolve_of_found needed found, reach_eq_error.mpr ⟨astray, rfl⟩]
    rfl
  | on date =>
    have dated : rule.resolve (.int year) anchors feast = .ok date := by
      rcases ends with ⟨month, day, rfl, parts⟩ | ⟨key, start, needed, found, held, number⟩
      · exact Attempt.mapError_eq_ok.mpr (fixedDate_eq_ok.mpr parts)
      · rw [resolve_of_found needed found]
        exact reach_eq_ok.mpr ⟨held, number⟩
    rw [dated]
    rfl

theorem exists_ends (rule : Rule) {year : Int} (years : 1 ≤ year ∧ year ≤ 9999) (anchors : Anchors)
    (feast : Option RuleSlot) : ∃ ending, rule.Ends year anchors feast ending := by
  cases needed : rule.neededKey? feast with
  | some key =>
    cases found : anchors.find? key.val with
    | none => exact ⟨.missing, key, needed, found⟩
    | some start =>
      cases outcome : reach start (rule.countsTo start.number) with
      | error failure => exact ⟨.beyond, key, start, needed, found, (reach_eq_error.mp outcome).1⟩
      | ok date => exact ⟨.on date, Or.inr ⟨key, start, needed, found, reach_eq_ok.mp outcome⟩⟩
  | none =>
    cases rule with
    | raw text => exact ⟨.unread, text, rfl⟩
    | fixed month day =>
      by_cases lacking : Civil.monthLength year month.val < day.val
      · exact ⟨.noDay, Or.inl ⟨month, day, rfl, lacking⟩⟩
      · obtain ⟨date, named, -⟩ := Date.exists_ofYmd years month.property
          ⟨day.property.1, Int.not_lt.mp lacking⟩
        exact ⟨.on date, Or.inl ⟨month, day, rfl, Date.parts_of_ofYmd named⟩⟩
    | beforeFeast days own =>
      cases own with
      | some own => cases needed
      | none =>
        refine ⟨.noDay, Or.inr ⟨days, rfl, ?_⟩⟩
        rintro key rfl
        cases needed
    | _ => cases needed

theorem circumstances_of_resolve {rule : Rule} {year : Int} (years : 1 ≤ year ∧ year ≤ 9999)
    {fault : Fault} (refused : rule.resolve (.int year) anchors feast = .error (.fault fault)) :
    fault.rule = some (.rule rule) ∧
      fault.year = some (if fault.kind = .unknownAnchor then anchors.yearOfMissing (.int year)
        else .int year) := by
  obtain ⟨ending, ends⟩ := rule.exists_ends years anchors feast
  cases ending with
  | missing =>
    obtain ⟨key, needed, missing⟩ := ends
    cases (resolve_of_missing needed missing year).symm.trans refused
    exact ⟨rfl, rfl⟩
  | noDay =>
    obtain ⟨cause, told⟩ := resolve_of_noDay years ends
    cases told.symm.trans refused
    exact ⟨rfl, rfl⟩
  | unread =>
    obtain ⟨text, rfl⟩ := ends
    cases refused
    exact ⟨rfl, rfl⟩
  | beyond =>
    have shown := of?_resolve years ends
    rw [refused, Ending.of?] at shown
    split at shown <;> cases shown
  | on date =>
    have shown := of?_resolve years ends
    rw [refused, Ending.of?] at shown
    split at shown <;> cases shown

/-- A rule ends in exactly one way, told by day numbers: at an anchor that is missing, without a day
to name, as a wording that was not understood, beyond the calendar, or on its date. A fault carries
the rule and a year, which is a table's own where the table lacks the anchor. -/
theorem resolve_outcome (rule : Rule) {year : Int} (years : 1 ≤ year ∧ year ≤ 9999)
    (anchors : Anchors) (feast : Option RuleSlot) :
    (∃! ending, rule.Ends year anchors feast ending) ∧
    (∀ ending, Ending.of? (rule.resolve (.int year) anchors feast) = some ending ↔
      rule.Ends year anchors feast ending) ∧
    ∀ fault, rule.resolve (.int year) anchors feast = .error (.fault fault) →
      fault.rule = some (.rule rule) ∧
        fault.year = some (if fault.kind = .unknownAnchor then anchors.yearOfMissing (.int year)
          else .int year) := by
  obtain ⟨ending, ends⟩ := rule.exists_ends years anchors feast
  have alone : ∀ other, rule.Ends year anchors feast other → other = ending := fun other also =>
    Option.some.inj ((of?_resolve years also).symm.trans (of?_resolve years ends))
  refine ⟨⟨ending, ends, alone⟩, fun other => ⟨?_, of?_resolve years⟩, ?_⟩
  · intro shown
    cases (of?_resolve years ends).symm.trans shown
    exact ends
  · exact fun fault => circumstances_of_resolve years

def sundayBefore : Rule := .relative (.named "easter") (-9) (some (.of 0)) .onOrBefore

theorem resolve_outcome_sundayBefore :
    (1 ≤ (2025 : Int) ∧ (2025 : Int) ≤ 9999) ∧
      (∃ easter sunday, easter.iso = "2025-04-20" ∧ sunday.iso = "2025-04-06" ∧
        sundayBefore.Ends 2025 (.plain [("easter", easter)]) none (.on sunday)) ∧
      (∃ early, early.iso = "0001-01-12" ∧
        sundayBefore.Ends 1 (.plain [("easter", early)]) none .beyond) ∧
      ∃ fault, sundayBefore.resolve (.int 2025) (.table ⟨.int 2024, []⟩) none =
          .error (.fault fault) ∧
        fault.rule = some (.rule sundayBefore) ∧ fault.year = some (.int 2024) := by
  have years : 1 ≤ (2025 : Int) ∧ (2025 : Int) ≤ 9999 := by decide
  refine ⟨years, ?_, ?_, ?_⟩
  · refine ⟨⟨739361, by decide, by decide⟩, ⟨739347, by decide, by decide⟩, by decide, by decide,
      ?_⟩
    exact ((resolve_outcome sundayBefore years _ none).2.1 _).mp rfl
  · refine ⟨⟨12, by decide, by decide⟩, by decide, ?_⟩
    exact ((resolve_outcome sundayBefore (by decide) _ none).2.1 _).mp rfl
  · obtain ⟨fault, refused, kind⟩ : ∃ fault,
        sundayBefore.resolve (.int 2025) (.table ⟨.int 2024, []⟩) none = .error (.fault fault) ∧
          fault.kind = .unknownAnchor := ⟨_, rfl, rfl⟩
    obtain ⟨rule, year⟩ := (resolve_outcome sundayBefore years _ none).2.2 fault refused
    rw [if_pos kind] at year
    exact ⟨fault, refused, rule, year⟩

end Rule

end FeastCalendar
