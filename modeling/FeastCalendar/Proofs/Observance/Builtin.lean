import FeastCalendar.Proofs.Anchor.Liturgical
import FeastCalendar.Proofs.Observance.Table
import FeastCalendar.Proofs.Observance.Turns

/-!
The built-in catalogue against the built-in anchors: every celebration has a date in every year.
-/

namespace FeastCalendar
open Civil (Date monthLength)

theorem RomanYear.year_eq_of_between {year : Int} {anchors : AnchorTable}
    (held : 1 ≤ year ∧ year ≤ 9999) (built : AnchorTable.builtin (.int year) = .ok anchors)
    (roman : RomanYear anchors) {date : Date} (after : roman.baptism.number ≤ date.number)
    (before : date.number ≤ roman.christmas.number) : date.year = year := by
  have baptism := Date.year_eq_iff.mp (AnchorTable.year_of_builtin held built roman.baptism_found)
  have christmas :=
    Date.year_eq_iff.mp (AnchorTable.year_of_builtin held built roman.christmas_found)
  exact Date.year_eq_iff.mpr ⟨by omega, by omega⟩

namespace Catalogue

/-- Rules that have a date in every year: days that common years have, built-in anchors, and the day
after Pentecost. -/
def placed : RuleSlot → Bool
  | .rule (.fixed month day) => decide (day.val ≤ monthLength 1 month.val)
  | .rule (.anchor key) => (Keyed.keys Definitions.builtin).contains key.val
  | .rule (.relative key offset none _) => decide (key = .named "pentecost" ∧ offset = 1)
  | _ => false

theorem placed_builtin : ∀ celebration ∈ builtin, placed celebration.rule = true := by
  decide +kernel

variable {year : Int} {table : AnchorTable}

theorem exists_resolve (held : 1 ≤ year ∧ year ≤ 9999)
    (built : AnchorTable.builtin (.int year) = .ok table) {rule : RuleSlot}
    (isPlaced : placed rule = true) :
    ∃ date, rule.resolve (.int year) table none = .ok date ∧ date.year = year := by
  obtain ⟨roman⟩ := exists_romanYear held built
  have reckoning := roman.reckoning
  have low := roman.pentecost.one_le
  have high := roman.christmas.le_last
  suffices dated : ∃ date, rule.dateIn (.int year) table none = .ok date ∧ date.year = year by
    obtain ⟨date, found, own⟩ := dated
    exact ⟨date, Attempt.mapError_eq_ok.mpr found, own⟩
  match rule with
  | .rule (.fixed month day) =>
    have common := Civil.monthLength_common_le year month.val
    have fits : day.val ≤ monthLength 1 month.val := of_decide_eq_true isPlaced
    obtain ⟨date, named, -⟩ := Date.exists_ofYmd held month.property ⟨day.property.1, by omega⟩
    refine ⟨date, ?_, (Date.parts_of_ofYmd named).1⟩
    simp only [RuleSlot.dateIn, Rule.dateIn, Rule.fixedDate, Json.whole?, named]
  | .rule (.anchor key) =>
    obtain ⟨easter, -, resolved⟩ := AnchorTable.resolved_of_builtin built
    have known : key.val ∈ Keyed.keys Definitions.builtin := List.contains_iff_mem.mp isPlaced
    obtain ⟨entry, member, same⟩ := List.mem_map.mp known
    obtain ⟨date, found, -⟩ := resolved entry member
    have named : Anchors.find? table key.val = some date := same ▸ found
    have reached : Anchors.getForRule table key.val (.int year) = .ok date :=
      Anchors.getForRule_eq_ok.mpr named
    exact ⟨date, reached, AnchorTable.year_of_builtin held built named⟩
  | .rule (.relative key offset none policy) =>
    obtain ⟨rfl, rfl⟩ : key = .named "pentecost" ∧ offset = 1 := of_decide_eq_true isPlaced
    obtain ⟨date, moved, number⟩ := roman.pentecost.exists_add? 1 ⟨by omega, by omega⟩
    refine ⟨date, Attempt.bind_eq_ok.mpr ⟨roman.pentecost, ?_, ?_⟩,
      roman.year_eq_of_between held built (by omega) (by omega)⟩
    · exact Anchors.getForRule_eq_ok.mpr roman.pentecost_found
    · exact Attempt.bind_eq_ok.mpr ⟨date, inRange_eq_ok.mpr moved, rfl⟩

theorem exists_celebrations (held : 1 ≤ year ∧ year ≤ 9999)
    (built : AnchorTable.builtin (.int year) = .ok table) :
    ∃ named, Emission.celebrations (.int year) table builtin = .ok named := by
  obtain ⟨roman⟩ := exists_romanYear held built
  apply Attempt.exists_mapM
  intro celebration member
  obtain ⟨date, dated, -⟩ := exists_resolve held built (placed_builtin celebration member)
  obtain ⟨emission, made⟩ : ∃ emission, Emission.make table date celebration.id celebration.title
      celebration.rank celebration.color false = .ok emission :=
    ⟨_, Emission.make_eq_ok.mpr ⟨_, roman.ofDate_eq date, rfl⟩⟩
  exact ⟨emission, Attempt.bind_eq_ok.mpr ⟨date, dated, made⟩⟩

end Catalogue

end FeastCalendar
