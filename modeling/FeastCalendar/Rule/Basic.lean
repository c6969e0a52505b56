import FeastCalendar.Civil.Weekday
import FeastCalendar.Json.Printer

/-!
Rules that place a celebration in a year. The numbers of a rule are in their ranges and its anchor
keys are not empty, by type.
-/

namespace FeastCalendar

open Civil (SnapPolicy)

abbrev Between (low high : Int) := { n : Int // low ≤ n ∧ n ≤ high }

abbrev Month := Between 1 12
abbrev MonthDay := Between 1 31
abbrev Weekday := Between 0 6

abbrev Count := { n : Int // 1 ≤ n }

abbrev Key := { text : Text // text ≠ [] }

def Between.of {low high : Int} (n : Int)
    (within : decide (low ≤ n ∧ n ≤ high) = true := by exact Eq.refl true) : Between low high :=
  ⟨n, of_decide_eq_true within⟩

def Count.of (n : Int) (positive : decide (1 ≤ n) = true := by exact Eq.refl true) : Count :=
  ⟨n, of_decide_eq_true positive⟩

def Key.named (name : String) (filled : decide (name ≠ "") = true := by exact Eq.refl true) : Key :=
  ⟨name, fun empty => of_decide_eq_true filled (Text.ofString_eq_nil.mp empty)⟩

/-- A value that stands for a wording, and that can be written. -/
abbrev Wording := { text : Json // text.isWritable = true }

def Wording.str (text : Text) : Wording := ⟨.str text, rfl⟩

inductive Rule where
  | fixed (month : Month) (day : MonthDay)
  | anchor (key : Key)
  /-- A number of days from an anchor, then on to a weekday if one is given. -/
  | relative (key : Key) (offset : Int) (weekday : Option Weekday) (policy : SnapPolicy)
  /-- The `count`th such weekday strictly after an anchor. -/
  | nthWeekdayAfter (key : Key) (weekday : Weekday) (count : Count)
  /-- The first of `days` days that end on an anchor, or on the anchor of the feast. -/
  | beforeFeast (days : Count) (key : Option Key)
  | raw (text : Wording)
deriving DecidableEq

namespace Rule

def describe : Rule → String
  | fixed month day => Text.recordText "FixedRule"
      [("month", Text.intText month.val), ("day", Text.intText day.val)]
  | anchor key => Text.recordText "AnchorRule" [("anchor", Text.quote key.val)]
  | relative key offset weekday policy => Text.recordText "RelativeRule"
      [("anchor", Text.quote key.val), ("offset_days", Text.intText offset),
        ("weekday", match weekday with | some day => Text.intText day.val | none => "None"),
        ("weekday_policy", Text.quote policy.name)]
  | nthWeekdayAfter key weekday count => Text.recordText "NthWeekdayAfterRule"
      [("anchor", Text.quote key.val), ("weekday", Text.intText weekday.val),
        ("n", Text.intText count.val)]
  | beforeFeast days key => Text.recordText "BeforeFeastRule"
      [("days_before", Text.intText days.val),
        ("anchor", match key with | some key => Text.quote key.val | none => "None")]
  | raw text => Text.recordText "RawRule" [("text", text.val.literal)]

end Rule

/-- What stands where a rule belongs: a rule, or a value that is none. -/
inductive RuleSlot where
  | rule (rule : Rule)
  | stray (value : Json)
deriving DecidableEq

namespace RuleSlot

instance : Coe Rule RuleSlot := ⟨rule⟩

def describe : RuleSlot → String
  | .rule placed => placed.describe
  | .stray value => value.literal

end RuleSlot

end FeastCalendar
