import FeastCalendar.Novena.Basic
import FeastCalendar.Rule.Resolve

/-!
The window of a novena in one year. The feast and the duration alone decide it; the start rule is
compared with the computed start and accepted or discarded.
-/

namespace FeastCalendar

open Civil (Date)

namespace Novena

def checkedDuration (novena : Novena) (year : Json) : Except Failure Int :=
  let refusal : Failure :=
    .raised (.duration novena.effectiveDuration) (some novena.id.val) (Fault.yearGiven year)
  match novena.effectiveDuration with
  | .int days => if 1 ≤ days ∧ days ≤ maxDuration then .ok days else .error refusal
  | _ => .error refusal

/-- The date of the start rule. A fixed day that comes after the feast is taken in the year
before. -/
def startHint (novena : Novena) (start : RuleSlot) (year : Json) (anchors : Anchors)
    (feast : Date) : Except Failure Date := do
  let hinted ← start.resolve year anchors (some novena.feast)
  match start with
  | .rule (.fixed _ _) =>
    if feast < hinted then start.resolve (.int (year.whole?.getD 0 - 1)) anchors none
    else return hinted
  | _ => return hinted

def dates (novena : Novena) (year : Json) (anchors : Anchors) (duration : Int) :
    Except Failure (Date × Date × Option Date) := do
  let feast ← novena.feast.resolve year anchors none
  let start ← inRange (feast.add? (-(duration - 1)))
  match novena.start with
  | some slot => return (feast, start, some (← novena.startHint slot year anchors feast))
  | none => return (feast, start, none)

def broken (novena : Novena) (year : Json) (cause : Cause) : Except Failure NovenaInstance :=
  .error (.fault {
    cause := cause, entry := some novena.id.val, year := Fault.yearGiven year })

/-- The window of a novena. Start, feast and duration agree, or the novena is refused as broken. -/
def resolve (novena : Novena) (year : Json) (anchors : Anchors) :
    Except Failure NovenaInstance := do
  let duration ← novena.checkedDuration year
  let (feast, start, hint) ← (novena.dates year anchors duration).mapError fun failure =>
    failure.within (some novena.id.val) none none
  if feast < start then novena.broken year (.startAfterFeast start feast)
  else
    let span := start.daysTo feast + 1
    if span ≠ duration then novena.broken year (.spanMismatch span duration)
    else return {
      id := novena.id.val
      title := novena.title
      start := start
      feast := feast
      duration := duration
      category := novena.category
      tags := novena.tags
      source := novena.source
      hint := hint
      hintAccepted := hint = some start }

end Novena

end FeastCalendar
