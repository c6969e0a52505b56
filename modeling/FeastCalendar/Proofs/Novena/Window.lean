import FeastCalendar.Attempt
import FeastCalendar.Novena.Window
import FeastCalendar.Proofs.Rule.Failing

/-!
Windows of novenas. Feast and duration settle the window, so that start, feast and duration always
agree and no novena is refused as broken; the start rule is only compared with the start.
-/

namespace FeastCalendar
open Civil (Date)

def Failure.Whole (failure : Failure) : Prop :=
  ∀ fault, failure = .fault fault → fault.kind ≠ .brokenInvariant

theorem Failure.whole_fault {fault : Fault} (kind : fault.kind ≠ .brokenInvariant) :
    (Failure.fault fault).Whole := by
  intro other same
  cases same
  exact kind

theorem Failure.Whole.within {failure : Failure} (whole : failure.Whole) (entry : Option Text)
    (year : Option Json) (rule : Option RuleSlot) : (failure.within entry year rule).Whole := by
  cases failure with
  | fault fault => exact whole_fault (whole fault rfl)
  | _ => exact fun _ same => nomatch same

theorem Failure.admitsRules_whole : AdmitsRules Whole where
  refused _ _ := whole_fault (by simp [Fault.kind, Cause.kind])
  unwritable _ := fun _ same => nomatch same
  unread _ := whole_fault (by simp [Fault.kind, Cause.kind])
  beyond := fun _ same => nomatch same
  wrongType _ := fun _ same => nomatch same

theorem RuleSlot.resolve_whole (slot : RuleSlot) (year : Json) (anchors : Anchors)
    (feast : Option RuleSlot) : Attempt.FailsOnly Failure.Whole (slot.resolve year anchors feast) := by
  refine Attempt.failsOnly_mapError fun failure refused => Failure.Whole.within ?_ _ _ _
  refine slot.dateIn_failsOnly Failure.admitsRules_whole (fun key => ?_) feast failure refused
  exact Anchors.getForRule_failsOnly fun _ => Failure.whole_fault (by simp [Fault.kind, Cause.kind])

namespace Novena

variable {novena : Novena} {year : Json} {anchors : Anchors}

theorem checkedDuration_eq_ok {duration : Int} :
    novena.checkedDuration year = .ok duration ↔
      novena.effectiveDuration = .int duration ∧ 1 ≤ duration ∧ duration ≤ maxDuration := by
  unfold checkedDuration
  cases novena.effectiveDuration with
  | int days =>
    simp only [Json.int.injEq]
    split
    next range =>
      constructor
      · intro same
        cases same
        exact ⟨rfl, range⟩
      · rintro ⟨rfl, -⟩
        rfl
    next range =>
      constructor
      · intro same
        cases same
      · rintro ⟨rfl, within⟩
        exact absurd within range
  | _ => simp

theorem checkedDuration_whole (novena : Novena) (year : Json) :
    Attempt.FailsOnly Failure.Whole (novena.checkedDuration year) := by
  have refusal : Failure.Whole
      (.raised (.duration novena.effectiveDuration) (some novena.id.val) (Fault.yearGiven year)) :=
    Failure.raised_cases (Failure.whole_fault (by simp [Fault.kind, Cause.kind]))
      fun _ _ same => nomatch same
  unfold checkedDuration
  simp only
  split
  · split
    · exact Attempt.failsOnly_ok _
    · exact Attempt.failsOnly_error refusal
  · exact Attempt.failsOnly_error refusal

theorem startHint_whole (novena : Novena) (start : RuleSlot) (year : Json) (anchors : Anchors)
    (feast : Date) : Attempt.FailsOnly Failure.Whole (novena.startHint start year anchors feast) := by
  refine (start.resolve_whole year anchors _).bind fun hinted _ => ?_
  split
  · split
    · exact RuleSlot.resolve_whole _ _ _ _
    · exact Attempt.failsOnly_ok _
  · exact Attempt.failsOnly_ok _

theorem dates_whole (novena : Novena) (year : Json) (anchors : Anchors) (duration : Int) :
    Attempt.FailsOnly Failure.Whole (novena.dates year anchors duration) := by
  refine (novena.feast.resolve_whole year anchors none).bind fun feast _ => ?_
  refine (Attempt.FailsOnly.bind
    (failsOnly_inRange Failure.admitsRules_whole.beyond _)) fun start _ => ?_
  split
  · exact (novena.startHint_whole _ year anchors feast).bind fun hint _ => Attempt.failsOnly_ok _
  · exact Attempt.failsOnly_ok _

theorem dates_eq_ok {duration : Int} {feast start : Date} {hint : Option Date} :
    novena.dates year anchors duration = .ok (feast, start, hint) ↔
      novena.feast.resolve year anchors none = .ok feast ∧
        feast.add? (-(duration - 1)) = some start ∧
        match novena.start with
        | some slot => ∃ date, novena.startHint slot year anchors feast = .ok date ∧ hint = some date
        | none => hint = none := by
  unfold dates
  simp only [Attempt.bind_eq_ok, inRange_eq_ok]
  cases novena.start with
  | none =>
    simp only [Attempt.pure_eq_ok, Prod.mk.injEq]
    constructor
    · rintro ⟨_, found, _, moved, rfl, rfl, rfl⟩
      exact ⟨found, moved, rfl⟩
    · rintro ⟨found, moved, rfl⟩
      exact ⟨feast, found, start, moved, rfl, rfl, rfl⟩
  | some slot =>
    simp only [Attempt.bind_eq_ok, Attempt.pure_eq_ok, Prod.mk.injEq]
    constructor
    · rintro ⟨_, found, _, moved, date, hinted, rfl, rfl, rfl⟩
      exact ⟨found, moved, date, hinted, rfl⟩
    · rintro ⟨found, moved, date, hinted, rfl⟩
      exact ⟨feast, found, start, moved, date, hinted, rfl, rfl, rfl⟩

def windowOn (novena : Novena) (duration : Int) (feast start : Date) (hint : Option Date) :
    NovenaInstance where
  id := novena.id.val
  title := novena.title
  start := start
  feast := feast
  duration := duration
  category := novena.category
  tags := novena.tags
  source := novena.source
  hint := hint
  hintAccepted := hint = some start

theorem window_agrees {duration : Int} {feast start : Date} (positive : 1 ≤ duration)
    (moved : feast.add? (-(duration - 1)) = some start) :
    start ≤ feast ∧ start.daysTo feast + 1 = duration := by
  have number := Date.number_of_ofNumber? moved
  rw [Date.le_iff, Date.daysTo]
  omega

/-- The checks that start, feast and duration agree never fail. -/
theorem resolve_unchecked (novena : Novena) (year : Json) (anchors : Anchors) :
    novena.resolve year anchors = (do
      let duration ← novena.checkedDuration year
      let (feast, start, hint) ← (novena.dates year anchors duration).mapError fun failure =>
        failure.within (some novena.id.val) none none
      return novena.windowOn duration feast start hint) := by
  refine Attempt.bind_congr fun duration checked => ?_
  refine Attempt.bind_congr fun ⟨feast, start, hint⟩ dated => ?_
  have positive := (checkedDuration_eq_ok.mp checked).2.1
  have moved := (dates_eq_ok.mp (Attempt.mapError_eq_ok.mp dated)).2.1
  obtain ⟨order, span⟩ := window_agrees positive moved
  have ordered : ¬feast < start := by
    rw [Date.le_iff] at order
    rw [Date.lt_iff]
    omega
  simp only [if_neg ordered, span, ne_eq, not_true_eq_false, if_false]
  rfl

theorem resolve_eq_ok {window : NovenaInstance} :
    novena.resolve year anchors = .ok window ↔
      ∃ duration feast start hint, novena.checkedDuration year = .ok duration ∧
        novena.dates year anchors duration = .ok (feast, start, hint) ∧
        novena.windowOn duration feast start hint = window := by
  rw [resolve_unchecked]
  simp only [Attempt.bind_eq_ok, Attempt.mapError_eq_ok, Attempt.pure_eq_ok]
  constructor
  · rintro ⟨duration, checked, ⟨feast, start, hint⟩, dated, same⟩
    exact ⟨duration, feast, start, hint, checked, dated, same⟩
  · rintro ⟨duration, feast, start, hint, checked, dated, same⟩
    exact ⟨duration, checked, ⟨feast, start, hint⟩, dated, same⟩

theorem resolve_whole (novena : Novena) (year : Json) (anchors : Anchors) :
    Attempt.FailsOnly Failure.Whole (novena.resolve year anchors) := by
  rw [resolve_unchecked]
  refine (novena.checkedDuration_whole year).bind fun duration _ => ?_
  refine Attempt.FailsOnly.bind ?_ fun found _ => Attempt.failsOnly_ok _
  refine Attempt.failsOnly_mapError fun failure refused => ?_
  exact (novena.dates_whole year anchors duration failure refused).within _ _ _

theorem resolve_start_irrelevant {window other : NovenaInstance} {start : Option RuleSlot}
    (found : novena.resolve year anchors = .ok window)
    (otherFound : Novena.resolve { novena with start := start } year anchors = .ok other) :
    other.start = window.start ∧ other.feast = window.feast ∧ other.duration = window.duration := by
  obtain ⟨duration, feast, begun, hint, checked, dated, rfl⟩ := resolve_eq_ok.mp found
  obtain ⟨otherDuration, otherFeast, otherBegun, otherHint, otherChecked, otherDated, rfl⟩ :=
    resolve_eq_ok.mp otherFound
  cases checked.symm.trans otherChecked
  obtain ⟨feastFound, moved, -⟩ := dates_eq_ok.mp dated
  obtain ⟨otherFeastFound, otherMoved, -⟩ := dates_eq_ok.mp otherDated
  cases feastFound.symm.trans otherFeastFound
  cases moved.symm.trans otherMoved
  exact ⟨rfl, rfl, rfl⟩

/-- A window ends on the feast, begins as many days before as the duration says and holds together;
the start rule leaves a hint and moves nothing. No novena is refused as broken. -/
theorem resolve_window (novena : Novena) (year : Json) (anchors : Anchors) :
    (∀ window, novena.resolve year anchors = .ok window →
      novena.effectiveDuration = .int window.duration ∧
      1 ≤ window.duration ∧ window.duration ≤ 4000 ∧
      novena.feast.resolve year anchors none = .ok window.feast ∧
      window.feast.add? (-(window.duration - 1)) = some window.start ∧
      window.start ≤ window.feast ∧ window.start.daysTo window.feast + 1 = window.duration ∧
      (window.hint.isSome ↔ novena.start.isSome) ∧
      (window.hintAccepted ↔ window.hint = some window.start) ∧
      ∀ start other, Novena.resolve { novena with start := start } year anchors = .ok other →
        other.start = window.start ∧ other.feast = window.feast ∧
          other.duration = window.duration) ∧
    ∀ fault, novena.resolve year anchors = .error (.fault fault) →
      fault.kind ≠ .brokenInvariant := by
  refine ⟨?_, fun fault refused => novena.resolve_whole year anchors _ refused fault rfl⟩
  intro window found
  have others : ∀ start other,
      Novena.resolve { novena with start := start } year anchors = .ok other →
        other.start = window.start ∧ other.feast = window.feast ∧ other.duration = window.duration :=
    fun _ _ otherFound => resolve_start_irrelevant found otherFound
  obtain ⟨duration, feast, start, hint, checked, dated, rfl⟩ := resolve_eq_ok.mp found
  obtain ⟨effective, positive, bounded⟩ := checkedDuration_eq_ok.mp checked
  obtain ⟨feastFound, moved, hinted⟩ := dates_eq_ok.mp dated
  obtain ⟨order, span⟩ := window_agrees positive moved
  have present : hint.isSome ↔ novena.start.isSome := by
    split at hinted
    next slot given =>
      obtain ⟨date, -, rfl⟩ := hinted
      simp [given]
    next absent =>
      subst hinted
      simp [absent]
  exact ⟨effective, positive, bounded, feastFound, moved, order, span, present,
    by simp [windowOn], others⟩

def epiphany : Novena where
  id := .named "epiphany"
  title := .str "Epiphany"
  feast := .rule (.fixed (.of 1) (.of 6))
  start := some (.rule (.fixed (.of 12) (.of 29)))

theorem resolve_window_epiphany :
    ∃ window other, epiphany.resolve (.int 2025) (.plain []) = .ok window ∧
      window.start.iso = "2024-12-29" ∧ window.duration = 9 ∧ window.hint = some window.start ∧
      window.hintAccepted ∧
      Novena.resolve { epiphany with start := none } (.int 2025) (.plain []) = .ok other ∧
      other.start = window.start ∧ other.feast = window.feast ∧
      ∃ fault, Novena.resolve { epiphany with duration := .bool true } (.int 2025) (.plain []) =
          .error (.fault fault) ∧
        fault.kind ≠ .brokenInvariant := by
  obtain ⟨window, found, start, duration, hint⟩ : ∃ window,
      epiphany.resolve (.int 2025) (.plain []) = .ok window ∧ window.start.iso = "2024-12-29" ∧
        window.duration = 9 ∧ window.hint = some window.start :=
    ⟨_, rfl, by decide, rfl, rfl⟩
  obtain ⟨other, otherFound⟩ : ∃ other,
      Novena.resolve { epiphany with start := none } (.int 2025) (.plain []) = .ok other := ⟨_, rfl⟩
  obtain ⟨fault, refused⟩ : ∃ fault,
      Novena.resolve { epiphany with duration := .bool true } (.int 2025) (.plain []) =
        .error (.fault fault) := ⟨_, rfl⟩
  obtain ⟨-, -, -, -, -, -, -, -, accepted, others⟩ :=
    (resolve_window epiphany (.int 2025) (.plain [])).1 window found
  obtain ⟨sameStart, sameFeast, -⟩ := others none other otherFound
  exact ⟨window, other, found, start, duration, hint, accepted.mpr hint, otherFound, sameStart,
    sameFeast, fault, refused, (resolve_window _ _ _).2 fault refused⟩

end Novena

end FeastCalendar
