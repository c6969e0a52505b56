import FeastCalendar.Civil.Parts
import FeastCalendar.Main
import FeastCalendar.Report.EquinoxSeries
import FeastCalendar.Proofs.Easter.FullMoon
import FeastCalendar.Proofs.Anchor.Closure
import FeastCalendar.Proofs.Novena.Window
import FeastCalendar.Proofs.Novena.Batch
import FeastCalendar.Proofs.Civil.Weekday
import FeastCalendar.Proofs.Rule.Reach
import FeastCalendar.Proofs.Anchor.Builtin
import FeastCalendar.Proofs.Novena.Index
import FeastCalendar.Proofs.Observance.Table
import FeastCalendar.Proofs.Observance.Turns
import FeastCalendar.Proofs.Observance.Season
import FeastCalendar.Proofs.Observance.Builtin
import FeastCalendar.Proofs.Observance.SundayName
import FeastCalendar.Proofs.Observance.Sunday
import FeastCalendar.Proofs.Sorting
import FeastCalendar.Proofs.Text.Numeral
import FeastCalendar.Proofs.Civil.Iso
import FeastCalendar.Proofs.Observance.Gathering
import FeastCalendar.Proofs.Json.RoundTrip
import FeastCalendar.Proofs.Rule.Checked
import FeastCalendar.Proofs.Rule.Wire
import FeastCalendar.Proofs.Rule.Settled
import FeastCalendar.Proofs.Novena.Refusal
import FeastCalendar.Proofs.Novena.Wire
import FeastCalendar.Proofs.Novena.RoundTrip
import FeastCalendar.Proofs.Rule.Outcome
import FeastCalendar.Proofs.Rule.Wording
import FeastCalendar.Proofs.Rule.Reading
import FeastCalendar.Proofs.Rule.Saying
import FeastCalendar.Proofs.Session
import FeastCalendar.Proofs.Civil.Anniversary
import FeastCalendar.Proofs.Novena.Span
import FeastCalendar.Proofs.Novena.Scrape
import FeastCalendar.Proofs.Day.Lectionary
import FeastCalendar.Proofs.Novena.Bundled
import FeastCalendar.Proofs.Report.MonthGrid
import FeastCalendar.Proofs.Text.Integer
import FeastCalendar.Proofs.Civil.Calendar
import FeastCalendar.Proofs.Novena.Calendar
import FeastCalendar.Proofs.Novena.Hints
import FeastCalendar.Proofs.Anchor.Liturgical
import FeastCalendar.Proofs.Observance.Celebrated
import FeastCalendar.Proofs.Civil.Search
import FeastCalendar.Proofs.Rule.Restated
import FeastCalendar.Proofs.Rule.Grammar
import FeastCalendar.Proofs.Novena.FixedStart
import FeastCalendar.Proofs.Observance.OrdinarySundays
import FeastCalendar.Proofs.Rule.Failing
import FeastCalendar.Proofs.Novena.Attribution
import FeastCalendar.Proofs.Day.LiturgicalYear
import FeastCalendar.Proofs.Report.MonthLayout
import FeastCalendar.Proofs.Text.Line
import FeastCalendar.Proofs.Rule.Message
import FeastCalendar.Proofs.Command.Script
import FeastCalendar.Proofs.Command.Complaint
import FeastCalendar.Proofs.Civil.Nearest
import FeastCalendar.Proofs.Text.Naming
