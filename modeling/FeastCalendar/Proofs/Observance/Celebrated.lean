import FeastCalendar.Proofs.Anchor.Liturgical
import FeastCalendar.Proofs.Observance.Sunday

/-!
The celebrations in the table of a year. All that is emitted in a year falls in it, and no id of the
catalogue is emitted twice, since markers and numbered Sundays have ids of their own; so each
celebration stands in the table once.
-/

namespace FeastCalendar
open Civil (Date dayNumber)

namespace SundayId

def numberedHeads : List String :=
  ["ordinary_sunday_", "lent_sunday_", "easter_sunday_", "advent_sunday_"]

def IsNumbered (id : String) : Prop :=
  ∃ head ∈ numberedHeads, head.toList.isPrefixOf id.toList = true

theorem isNumbered_append {head : String} (listed : head ∈ numberedHeads) (tail : String) :
    IsNumbered (head ++ tail) :=
  ⟨head, listed, isPrefixOf_append_self head tail⟩

theorem not_isNumbered_builtin : ∀ celebration ∈ Catalogue.builtin, ¬IsNumbered celebration.id := by
  have unlike : ∀ celebration ∈ Catalogue.builtin, ∀ head ∈ numberedHeads,
      head.toList.isPrefixOf celebration.id.toList = false := by
    decide +kernel
  rintro celebration listed ⟨head, known, begins⟩
  rw [unlike celebration listed head known] at begins
  cases begins

end SundayId

namespace RomanYear

variable {anchors : Anchors} {year : RomanYear anchors} {day : Int}

theorem isNumbered_ordinaryDays (member : day ∈ year.ordinaryDays) :
    SundayId.IsNumbered (year.sundayName day) := by
  obtain ⟨index, fits, found⟩ := List.getElem_of_mem member
  rw [sundayName_ordinaryDays (List.getElem?_eq_some_iff.mpr ⟨fits, found⟩)]
  exact SundayId.isNumbered_append (by decide) _

theorem isNumbered_seasonalDays (member : day ∈ year.seasonalDays) :
    SundayId.IsNumbered (year.sundayName day) := by
  rw [seasonalDays, List.mem_append, List.mem_append, List.mem_map, List.mem_map,
    List.mem_map] at member
  rcases member with (⟨n, listed, rfl⟩ | ⟨n, listed, rfl⟩) | ⟨n, listed, rfl⟩
  · rw [sundayName_advent (by simp at listed; omega)]
    exact SundayId.isNumbered_append (by decide) _
  · rw [sundayName_lent (by simp at listed; omega)]
    exact SundayId.isNumbered_append (by decide) _
  · rw [sundayName_afterEaster (by simp at listed; omega)]
    exact SundayId.isNumbered_append (by decide) _

theorem ne_begins (turns : SeasonTurns anchors) {celebration : Celebration}
    (listed : celebration ∈ Catalogue.builtin) : celebration.id ∉ turns.begins.map Prod.snd := by
  have unlike : ∀ celebration ∈ Catalogue.builtin, celebration.id ∉ ["season_advent",
      "season_christmas", "season_ordinary_time_1", "season_lent", "season_easter",
      "season_ordinary_time_2"] := by
    decide +kernel
  exact unlike celebration listed

end RomanYear

namespace Catalogue

theorem nodup_ids_builtin : (builtin.map Celebration.id).Nodup := by decide +kernel

end Catalogue

theorem Emission.Celebrates.unique {given : Json} {anchors : Anchors} {celebration : Celebration}
    {emission other : Emission} (celebrates : Celebrates given anchors celebration emission)
    (otherCelebrates : Celebrates given anchors celebration other) : emission = other := by
  have sameDate : emission.1 = other.1 :=
    Except.ok.inj (celebrates.date.symm.trans otherCelebrates.date)
  have made := celebrates.made
  rw [sameDate, otherCelebrates.made] at made
  exact (Except.ok.inj made).symm

namespace RomanYear

theorem Source.year_eq {year : Int} {anchors : AnchorTable} {roman : RomanYear anchors}
    (held : 1 ≤ year ∧ year ≤ 9999) (built : AnchorTable.builtin (.int year) = .ok anchors)
    {emission : Emission} (source : roman.Source (.int year) emission) :
    emission.1.year = year := by
  cases source with
  | marker begins =>
    have order := roman.order
    have begun := roman.mem_begins.mp (List.mem_map_of_mem begins)
    simp only [SeasonTurns.spans, List.map_cons, List.map_nil, List.mem_cons, List.not_mem_nil,
      or_false] at begun
    exact roman.year_eq_of_between held built (by omega) (by omega)
  | numbered day spot =>
    have sunday : roman.IsSunday emission.1.number :=
      day.elim isSunday_of_ordinaryDays isSunday_of_seasonalDays
    exact roman.year_eq_of_between held built (Int.le_of_lt sunday.after)
      (Int.le_of_lt sunday.before)
  | celebration listed celebrates =>
    obtain ⟨date, dated, own⟩ :=
      Catalogue.exists_resolve held built (Catalogue.placed_builtin _ listed)
    rw [← Except.ok.inj (dated.symm.trans celebrates.date)]
    exact own

/-- What has the id of a celebration celebrates it. -/
theorem Source.celebrates {anchors : Anchors} {year : RomanYear anchors} {given : Json}
    {emission : Emission} (source : year.Source given emission) {celebration : Celebration}
    (listed : celebration ∈ Catalogue.builtin) (named : emission.2.id = celebration.id) :
    Emission.Celebrates given anchors celebration emission := by
  cases source with
  | marker begins =>
    have marker : emission.2.id ∈ year.begins.map Prod.snd := List.mem_map_of_mem begins
    exact absurd (named ▸ marker) (ne_begins year.toSeasonTurns listed)
  | numbered day spot =>
    have name : emission.2.id = year.sundayName emission.1.number := congrArg Prod.snd spot
    have isNumbered : SundayId.IsNumbered celebration.id := by
      rw [← named, name]
      exact day.elim isNumbered_ordinaryDays isNumbered_seasonalDays
    exact absurd isNumbered (SundayId.not_isNumbered_builtin celebration listed)
  | @celebration other otherListed celebrates =>
    have same : other = celebration := List.inj_on_of_nodup_map Catalogue.nodup_ids_builtin
      otherListed listed (celebrates.id_eq.symm.trans named)
    exact same ▸ celebrates

end RomanYear

namespace ObservanceTable

def withId (table : ObservanceTable) (id : String) : List Emission :=
  table.entries.filter fun entry => entry.2.id = id

theorem withId_of_emits {anchors : Anchors} {year : RomanYear anchors} {given : Json}
    {emissions : List Emission} (emits : year.Emits given emissions) {celebration : Celebration}
    (listed : celebration ∈ Catalogue.builtin) :
    ∃ entry, Emission.Celebrates given anchors celebration entry ∧
      (ofEmissions emissions).withId celebration.id = [entry] := by
  obtain ⟨emission, member, celebrates⟩ := emits.celebrated celebration listed
  have only : ∀ other ∈ emissions, other.2.id = celebration.id → other = emission :=
    fun other otherMember named =>
      ((emits.source other otherMember).celebrates listed named).unique celebrates
  refine ⟨emission, celebrates, ?_⟩
  rw [withId, ← List.perm_singleton, List.perm_ext_iff_of_nodup ((nodup_entries emissions).filter _)
    (List.nodup_singleton emission)]
  intro entry
  rw [List.mem_filter, List.mem_singleton, decide_eq_true_eq, mem_entries]
  constructor
  · rintro ⟨stands, named⟩
    exact only entry (emitted_of_mem_on stands) named
  · rintro rfl
    obtain ⟨other, stands, same⟩ := exists_on_of_mem member
    have named := same.trans celebrates.id_eq
    have own := only _ (emitted_of_mem_on stands) named
    exact ⟨own ▸ stands, celebrates.id_eq⟩

theorem year_of_emits {year : Int} {anchors : AnchorTable} {roman : RomanYear anchors}
    (held : 1 ≤ year ∧ year ≤ 9999) (built : AnchorTable.builtin (.int year) = .ok anchors)
    {emissions : List Emission} (emits : roman.Emits (.int year) emissions) :
    ∀ entry ∈ ofEmissions emissions, entry.1.year = year := by
  intro entry member
  obtain ⟨date, listed, rfl⟩ := List.mem_map.mp member
  obtain ⟨observance, emitted⟩ := mem_dates.mp listed
  exact (emits.source _ emitted).year_eq held built

/-- In every year that the calendar holds the built-in anchors have dates, in the order of the
liturgical year, and the table of observances exists. It holds no date of another year, and each
celebration of the catalogue once, on the date of its rule and with its title, rank and colour. -/
theorem liturgical_year {year : Int} (held : 1 ≤ year ∧ year ≤ 9999) :
    ∃ anchors table, AnchorTable.builtin (.int year) = .ok anchors ∧
      AnchorTable.Liturgical year anchors ∧
      build (.int year) anchors Catalogue.builtin = .ok table ∧
      (∀ entry ∈ table, entry.1.year = year) ∧
      ∀ celebration ∈ Catalogue.builtin, ∃ entry,
        Emission.Celebrates (.int year) anchors celebration entry ∧
        table.withId celebration.id = [entry] := by
  obtain ⟨anchors, built⟩ := AnchorTable.exists_builtin held
  obtain ⟨roman⟩ := exists_romanYear held built
  obtain ⟨emissions, emitted, emits⟩ := roman.exists_emits held built
  exact ⟨anchors, _, built, AnchorTable.liturgical_of_builtin held built,
    build_eq_ok.mpr ⟨emissions, emitted, rfl⟩, year_of_emits held built emits,
    fun _ listed => withId_of_emits emits listed⟩

/-- In 2022 Christmas is a Sunday, and the Holy Family is kept on 30 December. -/
theorem liturgical_year_2022 :
    (1 ≤ (2022 : Int) ∧ (2022 : Int) ≤ 9999) ∧
      ∃ anchors table family entry, AnchorTable.builtin (.int 2022) = .ok anchors ∧
        build (.int 2022) anchors Catalogue.builtin = .ok table ∧
        Date.ofYmd 2022 12 30 = .ok family ∧ anchors.find? "holy_family" = some family ∧
        entry.1 = family ∧ table.withId "holy_family" = [entry] := by
  have held : 1 ≤ (2022 : Int) ∧ (2022 : Int) ≤ 9999 := by decide
  obtain ⟨anchors, table, anchored, liturgical, built, -, each⟩ := liturgical_year held
  obtain ⟨family, christmas, found, named, -, -, thirtieth⟩ := liturgical.family
  have sunday : christmas.weekday = 0 := by
    rw [Date.weekday, (Date.number_of_ofYmd named).1]
    decide
  obtain ⟨entry, celebrates, alone⟩ := each
    (Catalogue.onAnchor "holy_family" "Holy Family of Jesus, Mary and Joseph" .feast
      (.named "holy_family") "white")
    (by decide +kernel)
  exact ⟨held, anchors, table, family, entry, anchored, built, thirtieth sunday, found,
    celebrates.fst_eq rfl found, alone⟩

end ObservanceTable

end FeastCalendar
