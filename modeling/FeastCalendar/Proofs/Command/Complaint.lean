import FeastCalendar.Proofs.Command.Script
import FeastCalendar.Proofs.Novena.Bundled
import FeastCalendar.Proofs.Novena.Refusal
import FeastCalendar.Proofs.Observance.Sunday
import FeastCalendar.Proofs.Rule.Failing

/-!
What a command complains of. A command that meets a fault writes its message after the log records
and nothing else. Of the texts that a caller gives, the message takes in two as they are: the key of
a missing anchor and the name of the entry. It is on one line if these have no line break.
-/

namespace FeastCalendar
open Attempt (FailsOnly)
open Text (OneLine)

/-- A fault whose message takes in nothing as it is but the key of a missing anchor and the name of
an entry. -/
structure Fault.Tidy (fault : Fault) : Prop where
  cause : (∃ key, fault.cause = .unknownAnchor key) ∨ OneLine fault.cause.message
  year : ∀ given, fault.year = some given → ∃ n, given = .int n

theorem Fault.whole_year (year : Int) :
    ∀ given, some (Json.int year) = some given → ∃ n, given = .int n := by
  rintro _ ⟨⟩
  exact ⟨year, rfl⟩

theorem Fault.Tidy.oneLine_message_iff {fault : Fault} (tidy : fault.Tidy) :
    OneLine fault.message ↔
      (∀ key, fault.cause = .unknownAnchor key → .char '\n' ∉ key) ∧
        ∀ entry, fault.entry = some entry → .char '\n' ∉ entry := by
  have years : ∀ given ∈ fault.year, OneLine given.display.shown := by
    intro given told
    obtain ⟨n, rfl⟩ := tidy.year given told
    exact Text.oneLine_shown_ofString.mpr (Text.oneLine_intText n)
  have missing : OneLine fault.cause.message ↔
      ∀ key, fault.cause = .unknownAnchor key → .char '\n' ∉ key := by
    constructor
    · intro line key same
      rw [same, Cause.oneLine_message_iff] at line
      exact Text.oneLine_shown.mp (line _ (List.mem_singleton_self _))
    · intro plain
      rcases tidy.cause with ⟨key, same⟩ | line
      · rw [same, Cause.oneLine_message_iff]
        exact List.forall_mem_singleton.mpr (Text.oneLine_shown.mpr (plain key same))
      · exact line
  rw [oneLine_message, missing, and_iff_left years]
  simp only [Text.oneLine_shown, Option.mem_def]

namespace Failure

def Tidy (failure : Failure) : Prop := ∀ fault, failure = .fault fault → fault.Tidy

theorem tidy_fault {fault : Fault} (tidy : fault.Tidy) : (Failure.fault fault).Tidy := by
  rintro _ ⟨⟩
  exact tidy

theorem tidy_of_ne {failure : Failure} (other : ∀ fault, failure ≠ .fault fault) : failure.Tidy :=
  fun fault same => absurd same (other fault)

theorem tidy_of_line {cause : Cause} (line : OneLine cause.message) :
    (Failure.fault { cause := cause }).Tidy :=
  tidy_fault ⟨Or.inr line, nofun⟩

theorem OfDate.tidy {failure : Failure} (dated : failure.OfDate) : failure.Tidy := by
  obtain ⟨cause, rfl⟩ := dated
  exact tidy_of_ne fun _ => nofun

theorem Tidy.within {failure : Failure} (tidy : failure.Tidy) (entry : Option Text)
    (year : Option Json) (whole : ∀ given, year = some given → ∃ n, given = .int n)
    (rule : Option RuleSlot) :
    (failure.within entry year rule).Tidy := by
  cases failure with
  | fault own =>
    obtain ⟨cause, told⟩ := tidy own rfl
    refine tidy_fault ⟨cause, ?_⟩
    show ∀ given, (own.year <|> year) = some given → ∃ n, given = .int n
    cases known : own.year with
    | some given => exact fun other same => told other (known.trans same)
    | none => exact whole
  | _ => exact tidy

theorem admitsChecks_tidy (held : Prop) : AdmitsChecks Tidy held :=
  ⟨fun _ line => tidy_of_line line, fun _ => tidy_of_ne fun _ => nofun⟩

theorem admitsRules_tidy : AdmitsRules Tidy where
  toAdmitsChecks := admitsChecks_tidy True
  unread text := tidy_of_line ((Cause.unreadText text).oneLine_message_iff.mpr (List.forall_mem_nil _))
  beyond := tidy_of_ne fun _ => nofun
  wrongType _ := tidy_of_ne fun _ => nofun

end Failure

open Failure (Tidy admitsChecks_tidy admitsRules_tidy tidy_of_ne)

section Reading

theorem Rule.ofJson_tidy (value : Json) : FailsOnly Tidy (ofJson value) :=
  (ofJson_graveUnless (admitsChecks_tidy False) False.elim).failsOnly (tidy_of_ne fun _ => nofun)

theorem Novena.optionalRule_tidy (value : Json) : FailsOnly Tidy (optionalRule value) :=
  (optionalRule_graveUnless (admitsChecks_tidy False) False.elim).failsOnly
    (tidy_of_ne fun _ => nofun)

theorem NovenaIndex.load_tidy (text : String) : FailsOnly Tidy (load text) := by
  have within : ∀ failure : Failure, failure.Tidy → ∀ entry, (failure.within entry none none).Tidy :=
    fun _ tidy entry => tidy.within entry none nofun none
  have parsed : FailsOnly Tidy ((Json.parse Json.nestingLimit text).mapError .json) :=
    Attempt.failsOnly_mapError fun _ _ => tidy_of_ne fun _ => nofun
  exact parsed.bind fun value _ =>
    (ofJson_graveUnless (admitsChecks_tidy False) within False.elim).failsOnly
      (tidy_of_ne fun _ => nofun)

theorem Phrase.parseBuiltin_tidy (text : String) : FailsOnly Tidy (parseBuiltin text) :=
  parse_failsOnly (admitsChecks_tidy False) (fun _ => tidy_of_ne fun _ => nofun) text _

end Reading

section Years

variable {year : Int} {table : AnchorTable}

theorem Easter.sunday_tidy (year : Int) : FailsOnly Tidy (sunday year) := by
  unfold sunday
  split
  · exact Attempt.failsOnly_mapError fun _ _ => tidy_of_ne fun _ => nofun
  · apply Attempt.failsOnly_error
    exact Failure.tidy_fault ⟨Or.inr (show OneLine "year must be 1..9999" by simp [OneLine]),
      Fault.whole_year year⟩

theorem AnchorTable.builtin_tidy (year : Int) : FailsOnly Tidy (builtin (.int year)) := by
  by_cases held : 1 ≤ year ∧ year ≤ 9999
  · obtain ⟨table, built⟩ := exists_builtin held
    rw [built]
    exact Attempt.failsOnly_ok table
  · -- The year is looked at before anything is placed.
    have outside : builtin (.int year) = .error (.fault {
        cause := .invalid .yearOutOfRange, year := some (.int year) }) :=
      Attempt.bind_eq_error.mpr (Or.inr ⟨year, rfl, Attempt.bind_eq_error.mpr (Or.inl (if_neg held))⟩)
    have sunday := Easter.sunday_tidy year
    rw [Easter.sunday, if_neg held] at sunday
    rw [outside]
    exact Attempt.failsOnly_error (sunday _ rfl)

theorem AnchorTable.year_of_builtin_eq (built : builtin (.int year) = .ok table) :
    table.year = .int year := by
  obtain ⟨own, easter, order, same, -, -, dates, -, rfl⟩ := buildWithin_eq_ok.mp built
  exact same.symm

theorem AnchorTable.get_tidy (built : builtin (.int year) = .ok table) (key : Text) :
    FailsOnly Tidy (table.get key) := by
  unfold get
  split
  · exact Attempt.failsOnly_ok _
  · apply Attempt.failsOnly_error
    rw [year_of_builtin_eq built]
    exact Failure.tidy_fault ⟨Or.inl ⟨key, rfl⟩, Fault.whole_year year⟩

theorem RuleSlot.resolve_tidy (built : AnchorTable.builtin (.int year) = .ok table)
    (slot : RuleSlot) (feast : Option RuleSlot) :
    FailsOnly Tidy (slot.resolve (.int year) (.table table) feast) := by
  have met : FailsOnly Tidy (slot.dateIn (.int year) (.table table) feast) :=
    RuleSlot.dateIn_failsOnly admitsRules_tidy
      (fun key => show FailsOnly Tidy ((Anchors.table table).getForRule key (.int year)) from
        AnchorTable.get_tidy built key) slot feast
  apply Attempt.failsOnly_mapError
  intro cause refused
  exact (met cause refused).within none _ (Fault.whole_year year) _

theorem NovenaBatch.resolve_tidy (novenas : List Novena) (given : Json) (anchors : Anchors) :
    FailsOnly Tidy (resolve novenas given anchors) := by
  have all : FailsOnly Tidy (resolveAll given anchors novenas) := by
    induction novenas with
    | nil => exact Attempt.failsOnly_ok _
    | cons novena rest ih =>
      unfold resolveAll
      split
      · exact ih.bind fun _ _ => Attempt.failsOnly_ok _
      · exact ih.bind fun _ _ => Attempt.failsOnly_ok _
      next failure other _ =>
        apply Attempt.failsOnly_error
        exact tidy_of_ne other
  apply all.bind
  intro parts _
  apply FailsOnly.bind
  · unfold NovenaInstance.sort
    split
    · exact Attempt.failsOnly_ok _
    · exact Attempt.failsOnly_error (tidy_of_ne fun _ => nofun)
  · exact fun _ _ => Attempt.failsOnly_ok _

theorem ObservanceTable.build_tidy (built : AnchorTable.builtin (.int year) = .ok table) :
    FailsOnly Tidy (build (.int year) (.table table) Catalogue.builtin) := by
  have held := AnchorTable.years_of_builtin built
  obtain ⟨roman⟩ := exists_romanYear held built
  obtain ⟨emissions, emitted, -⟩ := roman.exists_ofYear held built
  rw [build_eq_ok.mpr ⟨emissions, emitted, rfl⟩]
  exact Attempt.failsOnly_ok _

theorem Day.ofTable_tidy (built : AnchorTable.builtin (.int year) = .ok table) (date : Civil.Date)
    (observances : ObservanceTable) : FailsOnly Tidy (ofTable date (.table table) observances) := by
  obtain ⟨roman⟩ := exists_romanYear (AnchorTable.years_of_builtin built) built
  rw [ofTable, roman.ofDate_eq date]
  exact Attempt.failsOnly_ok _

theorem Attributes.compute_tidy (attributes : Attributes) (day : Day) (wanted : List Text) :
    FailsOnly Tidy (attributes.compute Definitions.builtin day wanted) := by
  apply FailsOnly.foldlM
  intro known name _
  split
  next kind _ =>
    have values : FailsOnly Tidy (kind.values Definitions.builtin day) := by
      cases kind with
      | lectionary =>
        apply (AnchorTable.builtin_tidy _).bind
        intro table built
        exact (AnchorTable.get_tidy built _).bind fun _ _ => Attempt.failsOnly_ok _
      | _ => exact Attempt.failsOnly_ok _
    exact values.bind fun _ _ => Attempt.failsOnly_ok _
  next => exact Attempt.failsOnly_error (tidy_of_ne fun _ => nofun)

theorem YearTable.row_tidy (built : AnchorTable.builtin (.int year) = .ok table) (style : Style)
    (columns : List String) (shown : Int) : FailsOnly Tidy (row style columns shown table) := by
  apply FailsOnly.bind
  · apply FailsOnly.mapM
    intro name _
    exact (AnchorTable.get_tidy built _).bind fun _ _ => Attempt.failsOnly_ok _
  · exact fun _ _ => Attempt.failsOnly_ok _

theorem MonthGrid.monthDates_tidy (year month : Int) : FailsOnly Tidy (monthDates year month) := by
  apply FailsOnly.bind ((Anchor.dayOf_failsOnly year month 1).mono fun _ dated => dated.tidy)
  intro first _
  apply FailsOnly.mapM
  exact fun days _ => (inRange_failsOnly _).mono fun _ dated => dated.tidy

theorem MonthGrid.lines_tidy (built : AnchorTable.builtin (.int year) = .ok table) (title : String)
    (dates : List Civil.Date) (observances : ObservanceTable) (novenas : List NovenaInstance) :
    FailsOnly Tidy (lines title dates (.table table) observances novenas) := by
  apply FailsOnly.bind
  · apply FailsOnly.mapM
    intro date _
    apply (Day.ofTable_tidy built date observances).bind
    intro day _
    apply FailsOnly.bind
    · unfold NovenaCalendar.active
      dsimp only
      split
      · exact Attempt.failsOnly_ok _
      · exact Attempt.failsOnly_error (tidy_of_ne fun _ => nofun)
    · intro running _
      apply ((inRange_failsOnly _).mono fun _ dated => dated.tidy).bind
      exact fun _ _ => Attempt.failsOnly_ok _
  · exact fun _ _ => Attempt.failsOnly_ok _

end Years

namespace Command

variable {year : Int} {table : AnchorTable}

theorem easterDates_logs (years : List Int) : Logs Tidy (easterDates years) := by
  induction years with
  | nil => exact logs_pure ()
  | cons year rest ih =>
    apply (logs_lift (Easter.sunday_tidy year)).bind
    intro easter _
    exact (logs_say _).bind fun _ _ => ih

theorem tableOf_logs (verbose : Bool) (year : Int) : Logs Tidy (tableOf verbose year) := by
  apply (logs_lift (AnchorTable.builtin_tidy year)).bind
  intro table _
  apply (logs_lift (Easter.sunday_tidy year)).bind
  intro easter _
  exact (logs_log verbose .debug (by decide) _).bind fun _ _ => logs_pure table

theorem logBatch_logs (verbose : Bool) (year : Int) (anchors : Anchors) (novenas : List Novena) :
    Logs Tidy (logBatch verbose year anchors novenas) := by
  induction novenas with
  | nil => exact logs_pure ()
  | cons novena rest ih =>
    unfold logBatch
    dsimp only
    split
    · split
      · split
        · exact (logs_log verbose .debug (by decide) _).bind fun _ _ => ih
        · exact ih
      · exact ih
    · exact (logs_log verbose .warning (by decide) _).bind fun _ _ => ih
    · exact logs_pure ()

theorem batchOf_logs (verbose : Bool) (year : Int) (novenas : List Novena) :
    Logs Tidy (batchOf verbose year novenas) := by
  apply (tableOf_logs verbose year).bind
  intro table _
  apply (logBatch_logs verbose year table novenas).bind
  exact fun _ _ => logs_lift (NovenaBatch.resolve_tidy novenas _ _)

theorem observancesOf_logs (verbose : Bool) (year : Int) :
    Logs Tidy (observancesOf verbose year) := by
  apply (tableOf_logs verbose year).bind
  exact fun table gives => logs_lift (ObservanceTable.build_tidy (built_of_tableOf gives))

theorem printAnchors_logs (verbose : Bool) (year : Int) (json : Bool) :
    Logs Tidy (printAnchors verbose year json) := by
  apply (tableOf_logs verbose year).bind
  intro table _
  dsimp only
  split
  · exact logs_say _
  · exact logs_sayAll _

theorem resolveRule_tells (around : Surroundings) (verbose : Bool) (year : Int) (rule : String)
    (feast : Option String) : Tells Tidy (resolveRule around verbose year rule feast) := by
  unfold resolveRule
  split
  next value feastValue _ =>
    apply Logs.tells
    apply (logs_lift (Rule.ofJson_tidy value)).bind
    intro rule _
    apply (logs_lift (Novena.optionalRule_tidy feastValue)).bind
    intro feast _
    apply (tableOf_logs verbose year).bind
    intro table gives
    apply (logs_lift (RuleSlot.resolve_tidy (built_of_tableOf gives) (.rule rule) feast)).bind
    intro date _
    exact (logs_say _).bind fun _ _ => logs_pure 0
  next => exact (@logs_throw _ _ (.json .tooDeep) (tidy_of_ne fun _ => nofun)).tells
  next => exact ((finishes_complain _).bind fun _ => finishes_pure 2).tells

theorem indexOf_logs (files : Files) (path : Option String) : Logs Tidy (indexOf files path) := by
  unfold indexOf
  split
  next => exact logs_pure _
  next =>
    split
    next => exact logs_lift (NovenaIndex.load_tidy _)
    next fault _ => exact logs_throw_other (Breakdown.file fault) fun _ same => nomatch same

theorem printNovenas_tells (files : Files) (verbose : Bool) (year : Int) (index : Option String)
    (json : Bool) : Tells Tidy (printNovenas files verbose year index json) := by
  apply (indexOf_logs files index).tells_bind
  intro novenas _
  apply (batchOf_logs verbose year novenas).tells_bind
  intro batch _
  apply Finishes.tells
  cases json with
  | true => exact (finishes_say _).bind fun _ => finishes_pure _
  | false =>
    apply (finishes_sayAll _).bind
    intro _
    apply (finishes_forIn fun _ => (finishes_complain _).bind fun _ => finishes_pure _).bind
    exact fun _ => finishes_pure _

theorem printObservances_logs (verbose : Bool) (year : Int) (month : Option Int) (json : Bool) :
    Logs Tidy (printObservances verbose year month json) := by
  apply (observancesOf_logs verbose year).bind
  intro table _
  dsimp only
  split
  · exact logs_say _
  · exact logs_sayAll _

theorem printDay_tells (verbose : Bool) (text : String) (wanted : List String) :
    Tells Tidy (printDay verbose text wanted) := by
  unfold printDay
  split
  next => exact (@logs_throw _ _ (.date .beyondRange) (tidy_of_ne fun _ => nofun)).tells
  next => exact ((finishes_complain _).bind fun _ => finishes_pure 2).tells
  next date _ =>
    apply Logs.tells
    apply (tableOf_logs verbose date.year).bind
    intro table gives
    have built := built_of_tableOf gives
    apply (logs_lift (ObservanceTable.build_tidy built)).bind
    intro observances _
    apply (logs_lift (Day.ofTable_tidy built date observances)).bind
    intro day _
    dsimp only
    apply Logs.bind
    · apply logs_forIn
      intro name
      split
      · exact (tableOf_logs verbose date.year).bind fun _ _ => logs_pure _
      · exact logs_pure _
    · intro _ _
      apply (logs_lift (Attributes.compute_tidy _ day _)).bind
      exact fun values _ => (logs_sayAll _).bind fun _ _ => logs_pure 0

theorem yearRows_logs (verbose : Bool) (style : YearTable.Style) (columns : List String)
    (listMonth : Option Int) (count : Nat) (year : Int) :
    Logs Tidy (yearRows verbose style columns listMonth count year) := by
  induction count generalizing year with
  | zero => exact logs_pure []
  | succ count ih =>
    apply (tableOf_logs verbose year).bind
    intro table gives
    have built := built_of_tableOf gives
    apply (logs_lift (YearTable.row_tidy built style columns year)).bind
    intro row _
    apply (logs_say row).bind
    intro _ _
    have goesOn : ∀ hits : List Civil.Date, Logs Tidy (do
        return hits ++ (← yearRows verbose style columns listMonth count (year + 1))) :=
      fun hits => (ih (year + 1)).bind fun _ _ => logs_pure _
    dsimp only
    split
    · apply (logs_lift (AnchorTable.get_tidy built _)).bind
      intro easter _
      exact (logs_pure _).bind fun hits _ => goesOn hits
    · exact (logs_pure _).bind fun hits _ => goesOn hits

theorem printYears_logs (verbose : Bool) (first last : Int) (columns : String)
    (style : YearTable.Style) (listMonth : Option Int) :
    Logs Tidy (printYears verbose first last columns style listMonth) := by
  unfold printYears
  dsimp only
  split
  · exact logs_pure _
  · apply (logs_sayAll _).bind
    intro _ _
    apply (yearRows_logs verbose style _ listMonth _ first).bind
    intro hits _
    split
    · apply (logs_sayAll _).bind
      intro _ _
      split
      · exact (logs_say _).bind fun _ _ => logs_pure _
      · exact (logs_sayAll _).bind fun _ _ => logs_pure _
    · exact logs_pure _

theorem printMonth_logs (verbose : Bool) (year month : Int) :
    Logs Tidy (printMonth verbose year month) := by
  apply (logs_lift (MonthGrid.monthDates_tidy year month)).bind
  intro dates _
  apply (observancesOf_logs verbose year).bind
  intro observances _
  apply (batchOf_logs verbose year _).bind
  intro batch _
  apply (tableOf_logs verbose year).bind
  intro table gives
  apply (logs_lift (MonthGrid.lines_tidy (built_of_tableOf gives) _ dates observances _)).bind
  exact fun lines _ => logs_sayAll lines

theorem seriesPoints_logs (verbose : Bool) (anchor : Text) (years : List Int) :
    Logs Tidy (seriesPoints verbose anchor years) := by
  induction years with
  | nil => exact logs_pure []
  | cons year rest ih =>
    apply (tableOf_logs verbose year).bind
    intro table gives
    have point : FailsOnly Tidy (EquinoxSeries.point table anchor year) :=
      (AnchorTable.get_tidy (built_of_tableOf gives) anchor).bind fun _ _ => Attempt.failsOnly_ok _
    exact (logs_lift point).bind fun _ _ => ih.bind fun _ _ => logs_pure _

theorem sayExtent_logs (points : List (Int × Int)) : Logs Tidy (sayExtent points) := by
  unfold sayExtent
  split
  · exact logs_say _
  · exact logs_throw_other Breakdown.noYears fun _ same => nomatch same

theorem gatherSeries_logs (verbose : Bool) (years : Option (List Int))
    (styles : Keyed Text EquinoxSeries.Style) : Logs Tidy (gatherSeries verbose years styles) := by
  induction styles with
  | nil => exact logs_pure []
  | cons entry rest ih =>
    cases years with
    | none => exact logs_throw (tidy_of_ne fun _ => nofun)
    | some range =>
      apply (seriesPoints_logs verbose entry.1 range).bind
      intro points _
      dsimp only
      split
      · exact (sayExtent_logs points).bind fun _ _ => ih.bind fun _ _ => logs_pure _
      · exact (logs_pure _).bind fun _ _ => ih.bind fun _ _ => logs_pure _

theorem printScatter_logs (around : Surroundings) (verbose : Bool) (first last : Int)
    (pentecost : Bool) (base : String) :
    Logs Tidy (printScatter around verbose first last pentecost base) := by
  have missing : ∀ name, Logs Tidy (throw (.missingLibrary name) : Script Unit) :=
    fun name => logs_throw_other (.missingLibrary name) fun _ same => nomatch same
  unfold printScatter
  split
  · exact missing "numpy"
  · exact missing "matplotlib"
  · apply (gatherSeries_logs verbose _ _).bind
    intro series _
    dsimp only
    split
    next => exact logs_say _
    next fault _ => exact logs_throw_other (Breakdown.file fault) fun _ same => nomatch same

/-- Whatever is asked for, a fault is met with nothing but log records written before, and is tidy. -/
theorem perform_tells (around : Surroundings) (verbose : Bool) (request : Request) :
    Tells Tidy (perform around verbose request) := by
  cases request with
  | easter years => exact (easterDates_logs years).tells.bind fun _ => finishes_pure _
  | anchors year json =>
    exact (printAnchors_logs verbose year json).tells.bind fun _ => finishes_pure _
  | resolve year rule feast =>
    exact (resolveRule_tells around verbose year rule feast).bind fun _ => finishes_pure _
  | novenas year index json =>
    exact (printNovenas_tells around.files verbose year index json).bind fun _ => finishes_pure _
  | observances year month json =>
    exact (printObservances_logs verbose year month json).tells.bind fun _ => finishes_pure _
  | day date wanted => exact (printDay_tells verbose date wanted).bind fun _ => finishes_pure _
  | parse words =>
    apply (logs_lift (Phrase.parseBuiltin_tidy _)).tells_bind
    exact fun rule _ => ((finishes_say _).bind fun _ => finishes_pure _).tells
  | yearTable first last columns style listMonth =>
    exact (printYears_logs verbose first last columns style listMonth).tells
  | month given => exact (printMonth_logs verbose _ _).tells.bind fun _ => finishes_pure _
  | scatter first last pentecost base =>
    exact (printScatter_logs around verbose first last pentecost base).tells.bind
      fun _ => finishes_pure _

def breakdown? (around : Surroundings) (words : List String) : Option Breakdown :=
  match Line.read words with
  | .error _ => none
  | .ok line =>
    match ((perform around line.verbose line.request).run {}).1 with
    | .error cause => some cause
    | .ok _ => none

/-- Log records, and after them one complaint. -/
def Complains (errors message : String) : Prop :=
  ∃ records : List String, (∀ line ∈ records, IsRecord line) ∧
    errors = textOf records.toArray ++ (programError message ++ "\n")

theorem textOf_push (lines : Array String) (line : String) :
    textOf (lines.push line) = textOf lines ++ (line ++ "\n") := by
  simp [textOf, String.join]

theorem oneLine_programError {message : String} :
    OneLine (programError message) ↔ OneLine message := by
  have words : OneLine "novenacal: error: " := by simp [OneLine]
  exact Text.oneLine_append.trans (and_iff_right words)

/-- Whatever the words and the surroundings, a command that meets a fault ends the program with status 2,
and its message is all that is written to the errors after the log records. It is one line unless
there is a line break in the key of a missing anchor or in the name of the entry; all else that it
takes from a caller it quotes. -/
theorem run_fault {around : Surroundings} {words : List String} {fault : Fault}
    (met : breakdown? around words = some (.failure (.fault fault))) :
    (run around words).ending = .status 2 ∧ Complains (run around words).errors fault.message ∧
      (OneLine (programError fault.message) ↔
        (∀ key, fault.cause = .unknownAnchor key → .char '\n' ∉ key) ∧
          ∀ entry, fault.entry = some entry → .char '\n' ∉ entry) := by
  unfold breakdown? at met
  split at met
  next => cases met
  next line read =>
    have told := perform_tells around line.verbose line.request {}
    unfold run
    simp only [read]
    generalize (perform around line.verbose line.request).run {} = ended at met told
    obtain ⟨result, transcript⟩ := ended
    cases result with
    | ok ending => cases met
    | error cause =>
      cases met
      obtain ⟨tidy, records, written, known⟩ := told _ rfl
      refine ⟨rfl, ⟨records, known, ?_⟩, ?_⟩
      · have all : transcript.errors = records.toArray := written.trans Array.empty_append
        rw [← all]
        exact textOf_push transcript.errors _
      · rw [oneLine_programError]
        exact (tidy fault rfl).oneLine_message_iff

def askFor (anchor : String) : List String :=
  ["resolve", "2025", "\x7b\"type\": \"anchor\", \"anchor\": \"" ++ anchor ++ "\"\x7d"]

def missingAnchor (key : Key) : Fault where
  cause := .unknownAnchor key.val
  year := some (.int 2025)
  rule := some (.rule (.anchor key))

def bare : Surroundings where
  files := ⟨[]⟩
  today := .first
  refusal := fun _ => "malformed text"
  range? := none
  draw? := none

theorem run_fault_nowhere :
    breakdown? bare (askFor "nowhere") = some (.failure (.fault (missingAnchor (.named "nowhere")))) ∧
      (run bare (askFor "nowhere")).ending = .status 2 ∧
      OneLine (programError (missingAnchor (.named "nowhere")).message) := by
  have met : breakdown? bare (askFor "nowhere") =
      some (.failure (.fault (missingAnchor (.named "nowhere")))) := by decide +kernel
  obtain ⟨ending, -, line⟩ := run_fault met
  refine ⟨met, ending, line.mpr ⟨?_, nofun⟩⟩
  rintro _ ⟨⟩
  decide

theorem Complains.count_newline {errors message : String} (complains : Complains errors message)
    (line : OneLine message) (unlogged : errors.toList.head? = some 'n') :
    errors.toList.count '\n' = 1 := by
  obtain ⟨records, known, rfl⟩ := complains
  cases records with
  | nil =>
    have whole : OneLine (programError message) := oneLine_programError.mpr line
    rw [show textOf [].toArray = "" from rfl, String.empty_append, String.toList_append,
      List.count_append, List.count_eq_zero.mpr whole]
    rfl
  | cons record rest =>
    -- A record begins with its level.
    obtain ⟨level, listed, source, -, text, rfl⟩ := known record (List.mem_cons_self ..)
    simp only [List.mem_cons, List.not_mem_nil, or_false] at listed
    rcases listed with rfl | rfl <;> simp [textOf] at unlogged

theorem errors_brokenKey : (run bare (askFor "a\\nb")).errors =
    "novenacal: error: Unknown anchor 'a\nb' (year=2025, rule=AnchorRule(anchor='a\\nb'))\n" := by
  decide +kernel

/-- A line break in the name of an anchor makes two lines of the complaint. -/
theorem not_always_one_line :
    ¬∀ around words fault, breakdown? around words = some (.failure (.fault fault)) →
      (run around words).ending = .status 2 ∧
        ∃ message, OneLine message ∧ Complains (run around words).errors message := by
  intro always
  have met : breakdown? bare (askFor "a\\nb") =
      some (.failure (.fault (missingAnchor (.named "a\nb")))) := by decide +kernel
  obtain ⟨-, message, line, complains⟩ := always _ _ _ met
  rw [errors_brokenKey] at complains
  exact absurd (complains.count_newline line rfl) (by decide)

end Command

end FeastCalendar
