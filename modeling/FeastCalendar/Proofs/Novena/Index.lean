import FeastCalendar.Novena.Wire
import FeastCalendar.Proofs.Anchor.Builtin
import FeastCalendar.Proofs.Json.RoundTrip
import FeastCalendar.Proofs.Novena.Batch

/-!
The novenas of an index against the built-in anchors. An entry is at fault or has its window, unless
it asks for a day beyond the calendar; such an entry, and nothing else, ends the batch.
-/

namespace FeastCalendar
open Civil (Date)
open Attempt (FailsOnly)

def RuleSlot.StaysWithin (slot : RuleSlot) (anchors : Anchors) (feast : Option RuleSlot) : Prop :=
  ∀ rule, slot = .rule rule → rule.StaysWithin anchors feast

theorem RuleSlot.resolve_leavesUnless (rule : Rule) (year : Int) (years : 0 ≤ year ∧ year ≤ 9999)
    (anchors : Anchors) (feast : Option RuleSlot) :
    LeavesUnless (RuleSlot.StaysWithin (.rule rule) anchors feast)
      (RuleSlot.resolve (.rule rule) (.int year) anchors feast) := by
  refine ((rule.dateIn_leavesUnless years anchors feast).within _ _ _).congr ?_
  simp [StaysWithin]

namespace Novena

variable {novena : Novena} {year : Int} {anchors : Anchors}

structure Legible (novena : Novena) : Prop where
  feast : ∃ rule, novena.feast = .rule rule
  start : ∀ slot, novena.start = some slot → ∃ rule, slot = .rule rule
  title : ∃ text, novena.title = .str text
  duration : novena.effectiveDuration.isWritable = true

/-- The days that a novena asks for are in the calendar: those of the feast rule, the start that the
duration gives, and those of the start rule. A later one is asked for only if there was an answer
to the one before. -/
def StaysWithin (novena : Novena) (year : Json) (anchors : Anchors) : Prop :=
  ∀ duration, novena.effectiveDuration = .int duration → 1 ≤ duration → duration ≤ maxDuration →
    novena.feast.StaysWithin anchors none ∧
      ∀ feast, novena.feast.resolve year anchors none = .ok feast →
        Held (feast.number - (duration - 1)) ∧
          ∀ slot, novena.start = some slot → slot.StaysWithin anchors (some novena.feast)

theorem checkedDuration_faults (legible : novena.Legible) (year : Json) :
    FailsOnly Failure.IsFault (novena.checkedDuration year) := by
  have refusal : (Failure.raised (.duration novena.effectiveDuration) (some novena.id.val)
      (Fault.yearGiven year)).IsFault :=
    Failure.raised_cases ⟨_, rfl⟩
      fun long => (long (List.forall_mem_singleton.mpr legible.duration)).elim
  unfold checkedDuration
  simp only
  split
  · split
    · exact Attempt.failsOnly_ok _
    · exact Attempt.failsOnly_error refusal
  · exact Attempt.failsOnly_error refusal

theorem startHint_leavesUnless (novena : Novena) (rule : Rule) (held : 1 ≤ year ∧ year ≤ 9999)
    (anchors : Anchors) (feast : Date) :
    LeavesUnless (RuleSlot.StaysWithin (.rule rule) anchors (some novena.feast))
      (novena.startHint (.rule rule) (.int year) anchors feast) := by
  have first := RuleSlot.resolve_leavesUnless rule year ⟨by omega, held.2⟩ anchors
    (some novena.feast)
  refine (first.bind (fun _ => True) fun hinted _ => ?_).congr (by simp)
  split
  next month day same =>
    cases same
    split
    · refine (RuleSlot.resolve_leavesUnless _ (year - 1) ⟨by omega, by omega⟩ anchors
        none).congr ?_
      simp [RuleSlot.StaysWithin, Rule.StaysWithin, Rule.countsFrom?]
    · exact LeavesUnless.of_failsOnly (Attempt.failsOnly_ok _)
  next => exact LeavesUnless.of_failsOnly (Attempt.failsOnly_ok _)

theorem dates_leavesUnless (legible : novena.Legible) (held : 1 ≤ year ∧ year ≤ 9999)
    (anchors : Anchors) (duration : Int) :
    LeavesUnless (novena.feast.StaysWithin anchors none ∧
        ∀ feast, novena.feast.resolve (.int year) anchors none = .ok feast →
          Held (feast.number - (duration - 1)) ∧
            ∀ slot, novena.start = some slot → slot.StaysWithin anchors (some novena.feast))
      (novena.dates (.int year) anchors duration) := by
  obtain ⟨rule, feastRule⟩ := legible.feast
  have feasts : LeavesUnless (novena.feast.StaysWithin anchors none)
      (novena.feast.resolve (.int year) anchors none) := by
    rw [feastRule]
    exact RuleSlot.resolve_leavesUnless rule year ⟨by omega, held.2⟩ anchors none
  refine feasts.bind _ fun feast _ => ?_
  refine LeavesUnless.inRange_bind (feast.number - (duration - 1))
    (fun _ => ∀ slot, novena.start = some slot → slot.StaysWithin anchors (some novena.feast))
    fun start => ?_
  cases given : novena.start with
  | none =>
    refine (LeavesUnless.of_failsOnly (Attempt.failsOnly_ok _)).congr ?_
    simp
  | some slot =>
    obtain ⟨hintRule, rfl⟩ := legible.start slot given
    refine ((startHint_leavesUnless novena hintRule held anchors feast).bind (fun _ => True)
      fun hint _ => LeavesUnless.of_failsOnly (Attempt.failsOnly_ok _)).congr ?_
    simp

theorem resolve_leavesUnless (legible : novena.Legible) (held : 1 ≤ year ∧ year ≤ 9999)
    (anchors : Anchors) :
    LeavesUnless (novena.StaysWithin (.int year) anchors) (novena.resolve (.int year) anchors) := by
  rw [resolve_unchecked]
  refine ((LeavesUnless.of_failsOnly (checkedDuration_faults legible _)).bind _ fun duration _ =>
    ((dates_leavesUnless legible held anchors duration).within _ _ _).bind (fun _ => True)
      fun dates _ => LeavesUnless.of_failsOnly (Attempt.failsOnly_ok _)).congr ?_
  simp only [checkedDuration_eq_ok, implies_true, and_true, true_and, StaysWithin, and_imp]

theorem isRule_of_optionalRule {value : Json} {found : Option RuleSlot}
    (read : optionalRule value = .ok found) :
    ∀ slot, found = some slot → ∃ rule, slot = .rule rule := by
  intro slot given
  subst given
  cases value with
  | null => cases read
  | _ =>
    obtain ⟨rule, -, same⟩ := Attempt.bind_eq_ok.mp read
    cases Attempt.pure_eq_ok.mp same
    exact ⟨rule, rfl⟩

theorem legible_of_ofMembers {members : Keyed Text Json} (read : ofMembers members = .ok novena)
    (written : (Json.obj members).isWritable = true) : novena.Legible := by
  unfold ofMembers at read
  simp only [Attempt.bind_eq_ok, Attempt.pure_eq_ok] at read
  obtain ⟨title, -, feast, -, start, startRead, tags, -, patronage, -, id, -, rfl⟩ := read
  refine ⟨⟨feast, rfl⟩, isRule_of_optionalRule startRead, ⟨_, rfl⟩, ?_⟩
  unfold effectiveDuration
  split
  · rfl
  · exact Json.isWritable_getD written rfl _

theorem legible_of_ofJson {entry : Json} (read : ofJson entry = .ok novena)
    (written : entry.isWritable = true) : novena.Legible := by
  cases entry with
  | obj members => exact legible_of_ofMembers (Attempt.mapError_eq_ok.mp read) written
  | _ => cases read

end Novena

namespace NovenaIndex

theorem load_of_parse {text : String} {value : Json}
    (parsed : Json.parse Json.nestingLimit text = .ok value) : load text = ofJson value := by
  rw [load, parsed]
  rfl

theorem legible_of_load {text : String} {novenas : List Novena} (loaded : load text = .ok novenas) :
    ∀ novena ∈ novenas, novena.Legible := by
  obtain ⟨value, parsed, listed⟩ := Attempt.bind_eq_ok.mp loaded
  have written := Json.isWritable_of_parse (Attempt.mapError_eq_ok.mp parsed)
  cases value with
  | arr entries =>
    intro novena member
    obtain ⟨entry, here, read⟩ := (Attempt.mem_of_mapM listed).mp member
    exact Novena.legible_of_ofJson read (Json.isWritable_arr.mp written entry here)
  | _ => cases listed

end NovenaIndex

namespace NovenaBatch

/-- The entries of an index make a batch, in which each has its window or its fault, unless one of
them asks for a day beyond the calendar; then there is no batch at all. -/
theorem resolve_loaded {text : String} {novenas : List Novena} {year : Int}
    (loaded : NovenaIndex.load text = .ok novenas) (held : 1 ≤ year ∧ year ≤ 9999) :
    ∃ table, AnchorTable.builtin (.int year) = .ok table ∧
      ((∀ novena ∈ novenas, novena.StaysWithin (.int year) table) →
        ∃ batch, resolve novenas (.int year) table = .ok batch ∧
          ∀ novena ∈ novenas,
            (∃ window ∈ batch.instances, novena.resolve (.int year) table = .ok window) ∨
              ∃ fault, novena.resolve (.int year) table = .error (.fault fault) ∧
                ⟨novena.id, fault⟩ ∈ batch.failures) ∧
      ((∃ novena ∈ novenas, ¬novena.StaysWithin (.int year) table) →
        resolve novenas (.int year) table = .error (.date .beyondRange)) := by
  obtain ⟨table, built⟩ := AnchorTable.exists_builtin held
  have legible := NovenaIndex.legible_of_load loaded
  have leaves := fun novena member =>
    Novena.resolve_leavesUnless (legible novena member) held (.table table)
  refine ⟨table, built, ?_, ?_⟩
  · intro stay
    have isolated : ∀ novena ∈ novenas, Isolated (.int year) table novena :=
      fun novena member => (leaves novena member).fault (stay novena member)
    obtain ⟨sorted, -, stably, resolved⟩ :=
      resolve_eq_ok (fun novena member => (legible novena member).title) isolated
    refine ⟨_, resolved, fun novena member => ?_⟩
    cases own : novena.resolve (.int year) table with
    | ok window =>
      refine Or.inl ⟨window, stably.perm.mem_iff.mpr (List.mem_filterMap.mpr ⟨novena, member, ?_⟩), rfl⟩
      rw [windowOf, own]
      rfl
    | error failure =>
      obtain ⟨fault, rfl⟩ := isolated novena member failure own
      refine Or.inr ⟨fault, rfl, List.mem_filterMap.mpr ⟨novena, member, ?_⟩⟩
      rw [faultOf, own]
  · rintro ⟨novena, member, strays⟩
    have escapes := (leaves novena member).leave strays
    rcases isolated_or_first (.int year) table novenas with all | ⟨before, first, after, rfl, earlier,
      astray⟩
    · exact absurd (all novena member _ escapes) Failure.not_isFault_beyondRange
    · -- The first entry that is not isolated is one that leaves the calendar.
      have firstStrays : ¬first.StaysWithin (.int year) table :=
        fun stays => astray ((leaves first (by simp)).fault stays)
      have firstEscapes := (leaves first (by simp)).leave firstStrays
      exact resolve_eq_error earlier firstEscapes Failure.not_isFault_beyondRange

def near : Novena where
  id := .named "near"
  title := .str "near"
  feast := .rule (.anchor (.named "pentecost"))
  duration := .int 1

def far : Novena where
  id := .named "far"
  title := .str "far"
  feast := .rule (.relative (.named "easter") 4000000 none .onOrAfter)

def nearText : String :=
  "\x7b\"id\": \"near\", \"durationDays\": 1, " ++
    "\"feastRule\": \x7b\"type\": \"anchor\", \"anchor\": \"pentecost\"\x7d\x7d"

def farText : String :=
  "\x7b\"id\": \"far\", \"feastRule\": " ++
    "\x7b\"type\": \"relative\", \"anchor\": \"easter\", \"offsetDays\": 4000000\x7d\x7d"

theorem load_near : NovenaIndex.load ("[" ++ nearText ++ "]") = .ok [near] := by decide +kernel

theorem load_near_far :
    NovenaIndex.load ("[" ++ nearText ++ ", " ++ farText ++ "]") = .ok [near, far] := by
  decide +kernel

theorem near_stays (year : Json) (anchors : Anchors) : near.StaysWithin year anchors := by
  rintro duration given - -
  cases given
  refine ⟨?_, fun feast _ => ⟨?_, by simp [near]⟩⟩
  · rintro _ ⟨⟩ start counted
    cases counted
  · have low := feast.one_le
    have high := feast.le_last
    exact ⟨by omega, by omega⟩

theorem far_strays {anchors : Anchors} {easter : Date} (dated : anchors.find? "easter" = some easter)
    (year : Json) : ¬far.StaysWithin year anchors := by
  intro stays
  have counted := (stays 9 rfl (by decide) (by decide)).1 _ rfl easter dated
  have beyond := counted (easter.number + 4000000) (List.mem_singleton.mpr rfl)
  have low := easter.one_le
  have high := beyond.2
  unfold Civil.lastDay at high
  omega

theorem exists_cycleDate {year : Int} {table : AnchorTable} (held : 1 ≤ year ∧ year ≤ 9999)
    (built : AnchorTable.builtin (.int year) = .ok table) :
    ∀ entry ∈ Definitions.easterCycle, ∃ date, Anchors.find? table entry.1 = some date := by
  obtain ⟨_, _, _, _, -, cycle, -⟩ := AnchorTable.dates_of_builtin held built
  intro entry listed
  obtain ⟨date, found, -⟩ := cycle entry listed
  exact ⟨date, found⟩

theorem resolve_loaded_near_far :
    NovenaIndex.load ("[" ++ nearText ++ "]") = .ok [near] ∧
      NovenaIndex.load ("[" ++ nearText ++ ", " ++ farText ++ "]") = .ok [near, far] ∧
      ∃ table, AnchorTable.builtin (.int 2025) = .ok table ∧
        (∃ batch, resolve [near] (.int 2025) table = .ok batch) ∧
        resolve [near, far] (.int 2025) table = .error (.date .beyondRange) := by
  have held : 1 ≤ (2025 : Int) ∧ (2025 : Int) ≤ 9999 := by decide
  obtain ⟨table, built, records, -⟩ := resolve_loaded load_near held
  obtain ⟨other, otherBuilt, -, escapes⟩ := resolve_loaded load_near_far held
  cases built.symm.trans otherBuilt
  obtain ⟨easter, dated⟩ := exists_cycleDate held built ("easter", 0) (by decide)
  obtain ⟨batch, resolved, -⟩ := records (by simpa using near_stays _ _)
  exact ⟨load_near, load_near_far, table, built, ⟨batch, resolved⟩,
    escapes ⟨far, by simp, far_strays dated _⟩⟩

/-- One entry that leaves the calendar takes with it the window of an entry that does not. -/
theorem near_lost_with_far :
    ∃ novenas table, NovenaIndex.load ("[" ++ nearText ++ ", " ++ farText ++ "]") = .ok novenas ∧
      AnchorTable.builtin (.int 2025) = .ok table ∧
      (∃ novena ∈ novenas, ∃ window, novena.resolve (.int 2025) table = .ok window) ∧
      ∀ batch, resolve novenas (.int 2025) table ≠ .ok batch := by
  have held : 1 ≤ (2025 : Int) ∧ (2025 : Int) ≤ 9999 := by decide
  obtain ⟨table, built⟩ := AnchorTable.exists_builtin held
  obtain ⟨easter, dated⟩ := exists_cycleDate held built ("easter", 0) (by decide)
  obtain ⟨feast, found⟩ := exists_cycleDate held built ("pentecost", 49) (by decide)
  have nearResolved : ∃ window, near.resolve (.int 2025) table = .ok window := by
    have checked : near.checkedDuration (.int 2025) = .ok 1 := rfl
    have placed : near.feast.resolve (.int 2025) table none = .ok feast := by
      have named : Anchors.getForRule table "pentecost" (.int 2025) = .ok feast :=
        Anchors.getForRule_eq_ok.mpr found
      exact Attempt.mapError_eq_ok.mpr named
    have moved : feast.add? (-(1 - 1)) = some feast := Date.add?_eq_some_iff.mpr (by omega)
    exact ⟨_, Novena.resolve_eq_ok.mpr ⟨1, feast, feast, none, checked,
      Novena.dates_eq_ok.mpr ⟨placed, moved, rfl⟩, rfl⟩⟩
  have farEscapes : far.resolve (.int 2025) table = .error (.date .beyondRange) :=
    (Novena.resolve_leavesUnless (NovenaIndex.legible_of_load load_near_far far (by simp)) held
      table).leave (far_strays dated _)
  have escapes : resolve [near, far] (.int 2025) table = .error (.date .beyondRange) := by
    obtain ⟨window, resolved⟩ := nearResolved
    have isolated : ∀ other ∈ [near], Isolated (.int 2025) table other := by
      simpa using isolated_of_ok resolved
    exact resolve_eq_error isolated farEscapes Failure.not_isFault_beyondRange
  refine ⟨[near, far], table, load_near_far, built, ⟨near, by simp, nearResolved⟩, ?_⟩
  intro batch batched
  cases escapes.symm.trans batched

end NovenaBatch

end FeastCalendar
