import Joinery.Dictionary

/-!
# Lookup in dictionaries

A dictionary gives exactly the values of its entries, and a new name comes last. Of
several values for a name, the last one counts.
-/

namespace Joinery
namespace Dictionary

variable {α : Type} {name : Text} {value : α}

theorem get?_eq_none_iff (dictionary : Dictionary α) :
    dictionary.get? name = none ↔ name ∉ dictionary.names := by
  simp only [get?, Option.map_eq_none_iff, List.find?_eq_none, decide_eq_true_eq, names,
    List.mem_map, not_exists, not_and]

theorem mem_entries_of_get?
    {dictionary : Dictionary α}
    (found : dictionary.get? name = some value) :
    (name, value) ∈ dictionary.entries := by
  obtain ⟨⟨other, _⟩, entry, rfl⟩ := Option.map_eq_some_iff.mp found
  have same := List.find?_some entry
  have member := List.mem_of_find?_eq_some entry
  rw [decide_eq_true_eq] at same
  rw [← same]
  exact member

/-- An entry of a dictionary is found by its name. -/
theorem get?_of_mem_entries
    {dictionary : Dictionary α}
    (member : (name, value) ∈ dictionary.entries) :
    dictionary.get? name = some value := by
  obtain ⟨entries, nodup⟩ := dictionary
  change (entries.find? (·.1 = name)).map (·.2) = some value
  change (name, value) ∈ entries at member
  induction entries with
  | nil => cases member
  | cons entry rest inductionHypothesis =>
      rw [List.map_cons, List.nodup_cons] at nodup
      rcases List.mem_cons.mp member with rfl | later
      · rw [List.find?_cons_of_pos (by simp)]
        rfl
      · have different : entry.1 ≠ name := by
          rintro rfl
          exact nodup.1 (List.mem_map_of_mem (f := (·.1)) later)
        rw [List.find?_cons_of_neg (by simpa using different)]
        exact inductionHypothesis nodup.2 later

theorem insertEntry_of_notMem
    {entries : List (Text × α)}
    (absent : name ∉ entries.map (·.1)) :
    insertEntry name value entries = entries ++ [(name, value)] := by
  induction entries with
  | nil => rfl
  | cons entry rest inductionHypothesis =>
      rw [List.map_cons, List.mem_cons, not_or] at absent
      rw [insertEntry, if_neg (fun same => absent.1 same.symm), inductionHypothesis absent.2]
      rfl

/-- A new name comes behind all the others. -/
theorem entries_insert_of_get?_eq_none
    {dictionary : Dictionary α}
    (absent : dictionary.get? name = none) :
    (dictionary.insert name value).entries = dictionary.entries ++ [(name, value)] :=
  insertEntry_of_notMem ((get?_eq_none_iff dictionary).mp absent)

/-- A value for a name changes what is found by this name, and nothing else. -/
theorem get?_insert (dictionary : Dictionary α) (other : Text) :
    (dictionary.insert name value).get? other =
      if other = name then some value else dictionary.get? other := by
  obtain ⟨entries, nodup⟩ := dictionary
  change ((insertEntry name value entries).find? (·.1 = other)).map (·.2) =
    if other = name then some value else (entries.find? (·.1 = other)).map (·.2)
  clear nodup
  induction entries with
  | nil =>
      rw [insertEntry, List.find?_cons]
      by_cases same : other = name
      · simp [same]
      · simp [same, Ne.symm same]
  | cons entry rest inductionHypothesis =>
      rw [insertEntry]
      split
      next known =>
        by_cases same : other = name
        · simp [same]
        · simp [same, known, Ne.symm same]
      next different =>
        by_cases here : entry.1 = other
        · have apart : other ≠ name := fun same => different (here.trans same)
          simp [here, apart]
        · simp only [List.find?_cons, here, decide_false, inductionHypothesis]

/-! ## Rows of values -/

/-- The last value that a list has for a name. -/
def lastValue? (name : Text) (entries : List (Text × α)) : Option α :=
  (entries.reverse.find? (·.1 = name)).map (·.2)

/-- The dictionary with further values, one after the other. -/
def insertAll (dictionary : Dictionary α) : List (Text × α) → Dictionary α
  | [] => dictionary
  | (name, value) :: rest => (dictionary.insert name value).insertAll rest

theorem insertAll_append (dictionary : Dictionary α) (first second : List (Text × α)) :
    dictionary.insertAll (first ++ second) = (dictionary.insertAll first).insertAll second := by
  induction first generalizing dictionary with
  | nil => rfl
  | cons entry rest inductionHypothesis => exact inductionHypothesis _

theorem lastValue?_cons (name : Text) (entry : Text × α) (rest : List (Text × α)) :
    lastValue? name (entry :: rest) =
      (lastValue? name rest).or (if entry.1 = name then some entry.2 else none) := by
  rw [lastValue?, List.reverse_cons, List.find?_append, lastValue?]
  by_cases same : entry.1 = name
  · cases rest.reverse.find? (·.1 = name) <;> simp [same]
  · cases rest.reverse.find? (·.1 = name) <;> simp [same]

/-- The last value for a name counts, before the value that it had. -/
theorem get?_insertAll (dictionary : Dictionary α) (entries : List (Text × α)) (name : Text) :
    (dictionary.insertAll entries).get? name =
      (lastValue? name entries).or (dictionary.get? name) := by
  induction entries generalizing dictionary with
  | nil => rfl
  | cons entry rest inductionHypothesis =>
      obtain ⟨other, value⟩ := entry
      rw [insertAll, inductionHypothesis, lastValue?_cons, Option.or_assoc, get?_insert]
      by_cases same : other = name
      · simp [same]
      · simp [same, Ne.symm same]

theorem mem_of_lastValue?
    {entries : List (Text × α)}
    (found : lastValue? name entries = some value) :
    (name, value) ∈ entries := by
  obtain ⟨⟨other, _⟩, entry, rfl⟩ := Option.map_eq_some_iff.mp found
  have same := List.find?_some entry
  rw [decide_eq_true_eq] at same
  rw [← same]
  exact List.mem_reverse.mp (List.mem_of_find?_eq_some entry)

/-- A name that a list does not have keeps its value. -/
theorem lastValue?_eq_none
    {name : Text}
    {entries : List (Text × α)}
    (absent : name ∉ entries.map (·.1)) :
    lastValue? name entries = none := by
  rw [lastValue?, Option.map_eq_none_iff, List.find?_eq_none]
  intro entry member
  rw [decide_eq_true_eq]
  rintro rfl
  exact absent (List.mem_map_of_mem (List.mem_reverse.mp member))

theorem names_insert (dictionary : Dictionary α) (name : Text) (value : α) :
    (dictionary.insert name value).names =
      if name ∈ dictionary.names then dictionary.names else dictionary.names ++ [name] :=
  map_fst_insertEntry name value dictionary.entries

theorem length_names_insertAll_le (dictionary : Dictionary α) (entries : List (Text × α)) :
    (dictionary.insertAll entries).names.length ≤ dictionary.names.length + entries.length := by
  induction entries generalizing dictionary with
  | nil => exact Nat.le_refl _
  | cons entry rest inductionHypothesis =>
      obtain ⟨name, value⟩ := entry
      have later := inductionHypothesis (dictionary.insert name value)
      have inserted : (dictionary.insert name value).names.length ≤
          dictionary.names.length + 1 := by
        rw [names_insert]
        split <;> simp
      rw [insertAll, List.length_cons]
      omega

/-- Every value gets a name of its own exactly if all names are different and new. -/
theorem length_names_insertAll_eq_iff
    (dictionary : Dictionary α)
    (entries : List (Text × α)) :
    (dictionary.insertAll entries).names.length = dictionary.names.length + entries.length ↔
      (dictionary.names ++ entries.map (·.1)).Nodup := by
  induction entries generalizing dictionary with
  | nil => simpa [insertAll, names] using dictionary.nodup
  | cons entry rest inductionHypothesis =>
      obtain ⟨name, value⟩ := entry
      have later := inductionHypothesis (dictionary.insert name value)
      have bound := (dictionary.insert name value).length_names_insertAll_le rest
      rw [names_insert] at later bound
      rw [insertAll, List.length_cons, List.map_cons]
      by_cases known : name ∈ dictionary.names
      · rw [if_pos known] at bound
        refine ⟨fun same => by omega, fun nodup => ?_⟩
        exact absurd rfl ((List.nodup_append.mp nodup).2.2 name known name List.mem_cons_self)
      · rw [if_neg known, List.length_append, List.length_singleton, List.append_assoc] at later
        rw [← Nat.add_assoc, Nat.add_right_comm]
        exact later

end Dictionary
end Joinery
