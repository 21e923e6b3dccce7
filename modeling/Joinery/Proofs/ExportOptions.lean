import Joinery.ExportOptions
import Joinery.Proofs.Yaml.Keys

/-!
# Reading options of exports

A library for YAML is faithful if it finds nothing in an empty text, and gives no mapping a
key twice. Then it does not matter in which order options are given: each of them is what is
read under its key, or has its usual value if no key is its own.
-/

namespace Joinery

namespace Yaml

/-- What the documentation of a library for YAML promises. -/
structure Library.IsFaithful (library : Library) : Prop where
  /-- An empty text stands for nothing. -/
  load_nil : ∃ document, library.load [] = .ok document ∧
    (document.value document.root).isEmpty = true
  /-- No mapping has a key twice. -/
  haveDistinctKeys : ∀ text document number entries, library.load text = .ok document →
    document.value number = .mapping entries → HaveDistinctKeys document.value entries

/-- The library that the program runs with is faithful. -/
theorem isFaithful_library : library.IsFaithful where
  load_nil := by
    have known : (read []).toOption.any
        (fun document => (document.value document.root).isEmpty) = true := by
      decide +kernel
    cases found : read [] with
    | ok document =>
        rw [found] at known
        exact ⟨document, found, known⟩
    | error fault =>
        rw [found] at known
        cases known
  haveDistinctKeys text document number entries loaded mapping := by
    obtain ⟨graph, -, found⟩ := bind_eq_ok.mp loaded
    exact Construction.haveDistinctKeys_of_document found mapping

/-- A value is the same key as a text if it is this text. -/
theorem Value.isSameKey_text_iff {value : Value} {key : Text} :
    value.isSameKey (.text key) = true ↔ value = .text key := by
  cases value <;> simp [Value.isSameKey, Value.integer?]

/-- The entries of a mapping have a number under a key. -/
def Document.Has
    (document : Document)
    (entries : List (Nat × Nat))
    (key : Text)
    (number : Nat) : Prop :=
  ∃ name, (name, number) ∈ entries ∧ document.value name = .text key

namespace Document

variable {document : Document} {entries : List (Nat × Nat)} {key : Text} {number : Nat}

theorem entry?_eq_none_iff :
    document.entry? entries key = none ↔ ∀ number, ¬ document.Has entries key number := by
  unfold entry?
  rw [Option.map_eq_none_iff, List.find?_eq_none]
  simp only [Value.isSameKey_text_iff, Has]
  constructor
  · rintro none number ⟨name, member, isKey⟩
    exact none _ member isKey
  · rintro none ⟨name, number⟩ member isKey
    exact none number ⟨name, member, isKey⟩

theorem entry?_cons (first : Nat × Nat) (rest : List (Nat × Nat)) (key : Text) :
    document.entry? (first :: rest) key =
      if (document.value first.1).isSameKey (.text key) = true then some first.2
      else document.entry? rest key := by
  unfold entry?
  rw [List.find?_cons]
  cases (document.value first.1).isSameKey (.text key) <;> rfl

theorem has_cons_iff {first : Nat × Nat} {rest : List (Nat × Nat)} :
    document.Has (first :: rest) key number ↔
      document.value first.1 = .text key ∧ first.2 = number ∨ document.Has rest key number := by
  constructor
  · rintro ⟨name, member, isKey⟩
    rcases List.mem_cons.mp member with rfl | later
    · exact Or.inl ⟨isKey, rfl⟩
    · exact Or.inr ⟨name, later, isKey⟩
  · rintro (⟨isKey, rfl⟩ | ⟨name, later, isKey⟩)
    · exact ⟨first.1, List.mem_cons_self, isKey⟩
    · exact ⟨name, List.mem_cons_of_mem _ later, isKey⟩

/-- If keys are distinct, what is found under a key is what the entries have under it. -/
theorem entry?_eq_some_iff (distinct : HaveDistinctKeys document.value entries) :
    document.entry? entries key = some number ↔ document.Has entries key number := by
  induction entries with
  | nil =>
      unfold entry?
      simp [Has]
  | cons first rest inductionHypothesis =>
      obtain ⟨differs, distinctRest⟩ := List.pairwise_cons.mp distinct
      rw [entry?_cons, has_cons_iff]
      split
      next found =>
        have isKey := Value.isSameKey_text_iff.mp found
        -- The key would stand in the entries twice.
        have absent : ¬ document.Has rest key number := by
          rintro ⟨name, later, isAlso⟩
          have differ := differs _ later
          rw [isKey, isAlso, Value.isSameKey_text_iff.mpr rfl] at differ
          cases differ
        simp [isKey, absent]
      next isOther =>
        rw [Value.isSameKey_text_iff] at isOther
        simp [isOther, inductionHypothesis distinctRest]

end Document
end Yaml

namespace ExportOptions

/-- An option has a value: the one that is read under its key, or the usual one if there is
no such key. -/
def IsGiven
    {α : Type}
    (document : Yaml.Document)
    (entries : List (Nat × Nat))
    (key : String)
    (read : Yaml.Document → Nat → Except Fault α)
    (usual value : α) : Prop :=
  (∃ number, document.Has entries key.toList number ∧ read document number = .ok value) ∨
    (∀ number, ¬ document.Has entries key.toList number) ∧ value = usual

/-- Options have the values that the entries of a mapping give. -/
structure AreGiven
    (document : Yaml.Document)
    (entries : List (Nat × Nat))
    (options : ExportOptions) : Prop where
  units : IsGiven document entries "units" readUnits .millimetres options.units
  spacing : IsGiven document entries "spacing" readNumber 50 options.spacing
  labelHeight : IsGiven document entries "label_height" readNumber 20 options.labelHeight
  renames : IsGiven document entries "layers" readRenames [] options.renames

section Entries

variable
  {document : Yaml.Document}
  {entries : List (Nat × Nat)}
  (distinct : Yaml.HaveDistinctKeys document.value entries)
include distinct

theorem orElse_eq_ok_iff
    {α : Type}
    {key : String}
    {read : Yaml.Document → Nat → Except Fault α}
    {usual value : α} :
    orElse document entries key read usual = .ok value ↔
      IsGiven document entries key read usual value := by
  unfold orElse IsGiven
  cases found : document.entry? entries key.toList with
  | some number =>
      have has := (Yaml.Document.entry?_eq_some_iff distinct).mp found
      constructor
      · exact fun isRead => Or.inl ⟨number, has, isRead⟩
      · rintro (⟨other, hasOther, isRead⟩ | ⟨none, -⟩)
        · rw [(Yaml.Document.entry?_eq_some_iff distinct).mpr hasOther] at found
          cases found
          exact isRead
        · exact absurd has (none number)
  | none =>
      have none := Yaml.Document.entry?_eq_none_iff.mp found
      constructor
      · exact fun isUsual => Or.inr ⟨none, (Except.ok.inj isUsual).symm⟩
      · rintro (⟨number, has, -⟩ | ⟨-, rfl⟩)
        · exact absurd has (none number)
        · rfl

theorem ofEntries_eq_ok_iff {options : ExportOptions} :
    ofEntries document entries = .ok options ↔ options.AreGiven document entries := by
  unfold ofEntries
  simp only [bind_eq_ok, orElse_eq_ok_iff distinct]
  constructor
  · rintro ⟨units, isUnits, spacing, isSpacing, labelHeight, isLabelHeight, renames, isRenames,
      same⟩
    cases same
    exact ⟨isUnits, isSpacing, isLabelHeight, isRenames⟩
  · rintro ⟨isUnits, isSpacing, isLabelHeight, isRenames⟩
    exact ⟨_, isUnits, _, isSpacing, _, isLabelHeight, _, isRenames, rfl⟩

end Entries

section Library

variable {library : Yaml.Library} (faithful : library.IsFaithful)
include faithful

/-- Options are read from a text if its document stands for nothing, and then all have their
usual values, or if it is a mapping that gives them. -/
theorem readBy_eq_ok_iff {text : Text} {options : ExportOptions} :
    readBy library text = .ok options ↔
      ∃ document, library.load text = .ok document ∧
        ((document.value document.root).isEmpty = true ∧
            options = ⟨.millimetres, 50, 20, []⟩ ∨
          ∃ entries, entries ≠ [] ∧ document.value document.root = .mapping entries ∧
            options.AreGiven document entries) := by
  unfold readBy
  cases loaded : library.load text with
  | error fault => simp
  | ok document =>
      simp only [Except.ok.injEq, exists_eq_left']
      unfold ofDocument
      split
      next isEmpty =>
        constructor
        · exact fun same => Or.inl ⟨isEmpty, (Except.ok.inj same).symm⟩
        · rintro (⟨-, rfl⟩ | ⟨entries, isFull, isMapping, -⟩)
          · rfl
          · rw [isMapping] at isEmpty
            exact absurd (List.isEmpty_iff.mp isEmpty) isFull
      next isFull =>
        split
        next entries isMapping =>
          have distinct := faithful.haveDistinctKeys text document _ entries loaded isMapping
          rw [ofEntries_eq_ok_iff distinct]
          constructor
          · refine fun areGiven => Or.inr ⟨entries, ?_, isMapping, areGiven⟩
            rintro rfl
            rw [isMapping] at isFull
            exact isFull rfl
          · rintro (⟨isEmpty, -⟩ | ⟨others, -, isAlso, areGiven⟩)
            · exact absurd isEmpty isFull
            · cases isMapping.symm.trans isAlso
              exact areGiven
        next isOther =>
          constructor
          · intro same
            cases same
          · rintro (⟨isEmpty, -⟩ | ⟨entries, -, isMapping, -⟩)
            · exact absurd isEmpty isFull
            · exact absurd isMapping (isOther entries)

/-- An empty text gives all options their usual values. -/
theorem readBy_nil : readBy library [] = .ok ⟨.millimetres, 50, 20, []⟩ := by
  obtain ⟨document, loaded, isEmpty⟩ := faithful.load_nil
  exact (readBy_eq_ok_iff faithful).mpr ⟨document, loaded, Or.inl ⟨isEmpty, rfl⟩⟩

end Library

end ExportOptions
end Joinery
