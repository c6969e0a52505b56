/-!
Entries under keys, kept in the order in which their keys were first given. A key stands once;
giving it again replaces its value in place.
-/

namespace FeastCalendar

abbrev Keyed (κ α : Type) := List (κ × α)

namespace Keyed

variable {κ α : Type}

def keys (entries : Keyed κ α) : List κ := entries.map Prod.fst

variable [DecidableEq κ]

def find? : Keyed κ α → κ → Option α
  | [], _ => none
  | (name, value) :: rest, key => if name = key then some value else find? rest key

def contains (entries : Keyed κ α) (key : κ) : Bool := (find? entries key).isSome

def put : Keyed κ α → κ → α → Keyed κ α
  | [], key, value => [(key, value)]
  | (name, old) :: rest, key, value =>
    if name = key then (name, value) :: rest else (name, old) :: put rest key value

def putAll (entries more : Keyed κ α) : Keyed κ α :=
  more.foldl (fun acc entry => put acc entry.1 entry.2) entries

/-- Of entries under one key the last value stands, at the place of the first. -/
def ofEntries (entries : List (κ × α)) : Keyed κ α := putAll [] entries

theorem find?_put_self (entries : Keyed κ α) (key : κ) (value : α) :
    find? (put entries key value) key = some value := by
  induction entries with
  | nil => simp [put, find?]
  | cons entry rest ih => by_cases h : entry.1 = key <;> simp [put, find?, h, ih]

theorem find?_put_of_ne (entries : Keyed κ α) {key other : κ} (value : α)
    (different : other ≠ key) : find? (put entries key value) other = find? entries other := by
  induction entries with
  | nil => simp [put, find?, different.symm]
  | cons entry rest ih =>
    by_cases h : entry.1 = key
    · simp [put, find?, h, different.symm]
    · by_cases same : entry.1 = other <;> simp [put, find?, h, same, different, ih]

theorem keys_put (entries : Keyed κ α) (key : κ) (value : α) :
    keys (put entries key value) =
      if key ∈ keys entries then keys entries else keys entries ++ [key] := by
  induction entries with
  | nil => simp [put, keys]
  | cons entry rest ih =>
    by_cases h : entry.1 = key
    · simp [put, keys, h]
    · have other : key ≠ entry.1 := fun same => h same.symm
      simp only [keys] at ih
      by_cases member : key ∈ rest.map Prod.fst <;>
        simp [put, keys, h, other, member] <;> simpa [member] using ih

theorem contains_iff (entries : Keyed κ α) (key : κ) :
    contains entries key = true ↔ key ∈ keys entries := by
  induction entries with
  | nil => simp [contains, find?, keys]
  | cons entry rest ih =>
    simp only [contains, keys] at ih
    by_cases h : entry.1 = key
    · simp [contains, find?, keys, h]
    · have other : key ≠ entry.1 := fun same => h same.symm
      simp [contains, find?, keys, h, other, ih]

theorem mem_keys_iff {entries : Keyed κ α} {key : κ} :
    key ∈ keys entries ↔ ∃ value, find? entries key = some value := by
  rw [← contains_iff, contains, Option.isSome_iff_exists]

theorem mem_keys_of_find? {entries : Keyed κ α} {key : κ} {value : α}
    (found : find? entries key = some value) : key ∈ keys entries :=
  mem_keys_iff.mpr ⟨value, found⟩

theorem find?_eq_none_iff {entries : Keyed κ α} {key : κ} :
    find? entries key = none ↔ key ∉ keys entries := by
  rw [mem_keys_iff, Option.eq_none_iff_forall_ne_some, not_exists]

theorem find?_eq_some_iff {entries : Keyed κ α} (distinct : (keys entries).Nodup) {key : κ}
    {value : α} : find? entries key = some value ↔ (key, value) ∈ entries := by
  induction entries with
  | nil => simp [find?]
  | cons entry rest ih =>
    rw [keys, List.map_cons, List.nodup_cons] at distinct
    by_cases same : entry.1 = key
    · subst same
      constructor
      · intro found
        simp only [find?, if_true, Option.some.injEq] at found
        exact List.mem_cons.mpr (Or.inl (Prod.ext rfl found.symm))
      · intro member
        rcases List.mem_cons.mp member with here | later
        · simp [find?, (congrArg Prod.snd here).symm]
        · exact absurd (List.mem_map_of_mem later) distinct.1
    · simp only [find?, if_neg same, ih distinct.2, List.mem_cons]
      constructor
      · exact Or.inr
      · rintro (here | later)
        · exact absurd (congrArg Prod.fst here).symm same
        · exact later

theorem lookup_eq_find? [BEq κ] [LawfulBEq κ] (entries : Keyed κ α) (key : κ) :
    entries.lookup key = find? entries key := by
  induction entries with
  | nil => rfl
  | cons entry rest ih =>
    obtain ⟨name, value⟩ := entry
    rw [List.lookup_cons, find?]
    by_cases same : name = key
    · rw [if_pos same, same, beq_self_eq_true]
    · rw [if_neg same, beq_false_of_ne (Ne.symm same), ih]

theorem find?_eq_of_perm {entries other : Keyed κ α} (perm : entries.Perm other)
    (distinct : (keys entries).Nodup) (key : κ) : find? entries key = find? other key := by
  have otherDistinct : (keys other).Nodup := (perm.map Prod.fst).nodup_iff.mp distinct
  apply Option.ext
  intro value
  rw [find?_eq_some_iff distinct, find?_eq_some_iff otherDistinct]
  exact perm.mem_iff

theorem nodup_keys_put {entries : Keyed κ α} (distinct : (keys entries).Nodup) (key : κ)
    (value : α) : (keys (put entries key value)).Nodup := by
  rw [keys_put]
  split
  · exact distinct
  · rename_i absent
    refine List.nodup_append.mpr ⟨distinct, by simp, ?_⟩
    intro name member last found same
    rw [List.mem_singleton.mp found] at same
    exact absent (same ▸ member)

theorem nodup_keys_putAll {entries : Keyed κ α} (distinct : (keys entries).Nodup) (more : Keyed κ α) :
    (keys (putAll entries more)).Nodup := by
  induction more generalizing entries with
  | nil => exact distinct
  | cons entry rest ih => exact ih (nodup_keys_put distinct entry.1 entry.2)

theorem put_of_not_mem {entries : Keyed κ α} {key : κ} (absent : key ∉ keys entries) (value : α) :
    put entries key value = entries ++ [(key, value)] := by
  induction entries with
  | nil => rfl
  | cons entry rest ih =>
    simp only [keys, List.map_cons, List.mem_cons, not_or] at absent
    rw [put, if_neg fun same => absent.1 same.symm, ih absent.2, List.cons_append]

theorem putAll_eq_append {entries more : Keyed κ α} (distinct : (keys (entries ++ more)).Nodup) :
    putAll entries more = entries ++ more := by
  induction more generalizing entries with
  | nil => exact (List.append_nil entries).symm
  | cons entry rest ih =>
    have absent : entry.1 ∉ keys entries := by
      intro member
      rw [keys, List.map_append, List.nodup_append] at distinct
      exact distinct.2.2 _ member _ (List.mem_cons_self ..) rfl
    have step : putAll entries (entry :: rest) = putAll (entries ++ [entry]) rest := by
      rw [putAll, List.foldl_cons, put_of_not_mem absent]
      rfl
    rw [step, ih (by simpa using distinct), List.append_assoc, List.singleton_append]

theorem ofEntries_eq_self {entries : Keyed κ α} (distinct : (keys entries).Nodup) :
    ofEntries entries = entries :=
  putAll_eq_append distinct

theorem mem_put {entries : Keyed κ α} {key : κ} {value : α} {entry : κ × α}
    (member : entry ∈ put entries key value) : entry ∈ entries ∨ entry = (key, value) := by
  induction entries with
  | nil => exact Or.inr (List.mem_singleton.mp member)
  | cons first rest ih =>
    rw [put] at member
    split at member
    next same =>
      rcases List.mem_cons.mp member with rfl | later
      · exact Or.inr (by rw [same])
      · exact Or.inl (List.mem_cons_of_mem _ later)
    next =>
      rcases List.mem_cons.mp member with rfl | later
      · exact Or.inl (List.mem_cons_self ..)
      · exact (ih later).imp_left (List.mem_cons_of_mem _)

theorem mem_putAll {entries more : Keyed κ α} {entry : κ × α}
    (member : entry ∈ putAll entries more) : entry ∈ entries ∨ entry ∈ more := by
  induction more generalizing entries with
  | nil => exact Or.inl member
  | cons first rest ih =>
    rcases ih member with early | late
    · rcases mem_put early with before | rfl
      · exact Or.inl before
      · exact Or.inr (List.mem_cons_self ..)
    · exact Or.inr (List.mem_cons_of_mem _ late)

theorem mem_ofEntries {entries : List (κ × α)} {entry : κ × α}
    (member : entry ∈ ofEntries entries) : entry ∈ entries :=
  (mem_putAll member).resolve_left (List.not_mem_nil)

theorem find?_append (entries more : Keyed κ α) (key : κ) :
    find? (entries ++ more) key = (find? entries key).or (find? more key) := by
  induction entries with
  | nil => rfl
  | cons entry rest ih => by_cases same : entry.1 = key <;> simp [find?, same, ih]

theorem mem_of_find? {entries : Keyed κ α} {key : κ} {value : α}
    (found : find? entries key = some value) : (key, value) ∈ entries := by
  induction entries with
  | nil => cases found
  | cons entry rest ih =>
    rw [find?] at found
    split at found
    next same =>
      cases found
      exact List.mem_cons.mpr (Or.inl (by rw [← same]))
    next => exact List.mem_cons_of_mem _ (ih found)

theorem nodup_keys_ofEntries (entries : List (κ × α)) : (keys (ofEntries entries)).Nodup :=
  nodup_keys_putAll (by simp [keys]) entries

end Keyed

end FeastCalendar
