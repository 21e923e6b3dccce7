import Joinery.Text.Basic

/-!
# Dictionaries

A dictionary has one value for each of its names. Names stay in the order in which
they got their first value; a further value takes the place of the one before.
-/

namespace Joinery

/-- Values of names that are all different. -/
structure Dictionary (α : Type) where
  entries : List (Text × α)
  nodup : (entries.map (·.1)).Nodup
  deriving DecidableEq

namespace Dictionary

/-- Entries with a value for a name, which keeps its place if it has one. -/
def insertEntry (name : Text) (value : α) : List (Text × α) → List (Text × α)
  | [] => [(name, value)]
  | entry :: rest =>
      if entry.1 = name then (name, value) :: rest
      else entry :: insertEntry name value rest

/-- A known name keeps its place, and a new one comes last. -/
theorem map_fst_insertEntry (name : Text) (value : α) (entries : List (Text × α)) :
    (insertEntry name value entries).map (·.1) =
      if name ∈ entries.map (·.1) then entries.map (·.1)
      else entries.map (·.1) ++ [name] := by
  induction entries with
  | nil => rfl
  | cons entry rest inductionHypothesis =>
      by_cases same : entry.1 = name
      · simp [insertEntry, same]
      · have different : name ≠ entry.1 := fun equal => same equal.symm
        simp only [insertEntry, same, if_false, List.map_cons, inductionHypothesis,
          List.mem_cons, different, false_or]
        split <;> rfl

theorem nodup_insertEntry (name : Text) (value : α) {entries : List (Text × α)}
    (nodup : (entries.map (·.1)).Nodup) :
    ((insertEntry name value entries).map (·.1)).Nodup := by
  rw [map_fst_insertEntry]
  split
  · exact nodup
  · rename_i absent
    refine List.nodup_append.2 ⟨nodup, by simp, ?_⟩
    intro other present added membership same
    rw [same, List.mem_singleton.1 membership] at present
    exact absent present

/-- The dictionary without names. -/
def empty : Dictionary α := ⟨[], List.nodup_nil⟩

/-- The names in their order. -/
def names (dictionary : Dictionary α) : List Text := dictionary.entries.map (·.1)

/-- The value of a name. -/
def get? (dictionary : Dictionary α) (name : Text) : Option α :=
  (dictionary.entries.find? (·.1 = name)).map (·.2)

/-- The dictionary with a value for a name. -/
def insert (dictionary : Dictionary α) (name : Text) (value : α) : Dictionary α :=
  ⟨insertEntry name value dictionary.entries, nodup_insertEntry name value dictionary.nodup⟩

end Dictionary
end Joinery
