import Mathlib.Order.Bounds.Basic
import Mathlib.Order.Nat
import Joinery.Proofs.Recovery
import Joinery.Proofs.Text.Piece

/-!
# Places of pieces

A reader whose pieces do not overlap recognises them wherever they stand in a text. Replacing
them succeeds if every one of them can be written, and otherwise it fails at the least place of
one that cannot.
-/

namespace Joinery
namespace Text

variable {α : Type} {read : Reader α}

/-- A reader recognises a piece at an offset of a text. -/
def IsReadAt (read : Reader α) (text : Text) (offset : Nat) (value : α) : Prop :=
  ∃ before first rest count, text = before ++ first :: rest ∧ before.length = offset ∧
    read first rest = some (value, count)

/-- Offsets of the pieces of a text that cannot be written. -/
def refusedAt {ε : Type} (read : Reader α) (write : α → Except ε Text) (text : Text) : Set Nat :=
  {offset | ∃ value cause, IsReadAt read text offset value ∧ write value = .error cause}

/-- No piece starts inside of another one. -/
def ReadsApart (read : Reader α) : Prop :=
  ∀ first rest value count, read first rest = some (value, count) →
    ∀ character ∈ rest.take count, ∀ further, read character further = none

/-! ## Parts of a text -/

theorem not_isReadAt_nil {offset : Nat} {value : α} : ¬IsReadAt read [] offset value := by
  rintro ⟨before, first, rest, count, whole, -⟩
  cases before <;> cases whole

/-- A piece starts with the first character of a text or behind it. -/
theorem isReadAt_cons_iff {character : Char} {rest : Text} {offset : Nat} {value : α} :
    IsReadAt read (character :: rest) offset value ↔
      (offset = 0 ∧ ∃ count, read character rest = some (value, count)) ∨
        ∃ further, offset = further + 1 ∧ IsReadAt read rest further value := by
  constructor
  · rintro ⟨before, first, others, count, whole, rfl, found⟩
    cases before with
    | nil =>
        cases whole
        exact Or.inl ⟨rfl, count, found⟩
    | cons front before =>
        cases whole
        exact Or.inr ⟨before.length, rfl, before, first, others, count, rfl, rfl, found⟩
  · rintro (⟨rfl, count, found⟩ | ⟨_, rfl, before, first, others, count, rfl, rfl, found⟩)
    · exact ⟨[], character, rest, count, rfl, rfl, found⟩
    · exact ⟨character :: before, first, others, count, rfl, rfl, found⟩

/-- Behind a part in which nothing is read, pieces are where they are in the rest. -/
theorem isReadAt_append_iff
    {part rest : Text}
    {offset : Nat}
    {value : α}
    (unread : ∀ character ∈ part, ∀ further, read character further = none) :
    IsReadAt read (part ++ rest) offset value ↔
      ∃ further, offset = further + part.length ∧ IsReadAt read rest further value := by
  induction part generalizing offset with
  | nil => simp
  | cons character others inductionHypothesis =>
      obtain ⟨first, later⟩ := List.forall_mem_cons.mp unread
      rw [List.cons_append, isReadAt_cons_iff, first]
      simp only [inductionHypothesis later, reduceCtorEq, exists_false, and_false, false_or]
      constructor
      · rintro ⟨_, rfl, further, rfl, found⟩
        exact ⟨further, rfl, found⟩
      · rintro ⟨further, rfl, found⟩
        exact ⟨_, rfl, further, rfl, found⟩

/-- Pieces stand at the start of a text that was read, or behind that piece. -/
theorem isReadAt_of_read
    {character : Char}
    {rest : Text}
    {offset count : Nat}
    {value other : α}
    (apart : ReadsApart read)
    (found : read character rest = some (value, count)) :
    IsReadAt read (character :: rest) offset other ↔
      (offset = 0 ∧ other = value) ∨
        ∃ further, offset = further + (rest.take count).length + 1 ∧
          IsReadAt read (rest.drop count) further other := by
  have behind {offset : Nat} : IsReadAt read rest offset other ↔
      ∃ further, offset = further + (rest.take count).length ∧
        IsReadAt read (rest.drop count) further other := by
    conv_lhs => rw [← List.take_append_drop count rest]
    exact isReadAt_append_iff (apart _ _ _ _ found)
  rw [isReadAt_cons_iff, found]
  simp only [behind, Option.some.injEq, Prod.mk.injEq]
  constructor
  · rintro (⟨rfl, _, rfl, rfl⟩ | ⟨_, rfl, further, rfl, later⟩)
    · exact Or.inl ⟨rfl, rfl⟩
    · exact Or.inr ⟨further, rfl, later⟩
  · rintro (⟨rfl, rfl⟩ | ⟨further, rfl, later⟩)
    · exact Or.inl ⟨rfl, count, rfl, rfl⟩
    · exact Or.inr ⟨_, rfl, further, rfl, later⟩

/-- At an offset there is one piece at most. -/
theorem IsReadAt.unique
    {text : Text}
    {offset : Nat}
    {value other : α}
    (place : IsReadAt read text offset value)
    (same : IsReadAt read text offset other) :
    value = other := by
  obtain ⟨before, first, rest, count, whole, rfl, found⟩ := place
  obtain ⟨front, _, _, further, again, length, read⟩ := same
  obtain ⟨-, behind⟩ := List.append_inj (whole.symm.trans again) length.symm
  cases behind
  rw [found] at read
  cases read
  rfl

/-! ## Replacing pieces -/

section Replace

variable {ε : Type} {write : α → Except ε Text} {text : Text} (apart : ReadsApart read)
include apart

/-- Replacing succeeds exactly if every piece can be written. -/
theorem replace_isOk_iff :
    (∃ result, replace write (pieces read text) = .ok result) ↔
      ∀ offset value, IsReadAt read text offset value → ∃ written, write value = .ok written := by
  induction text using pieces_induction read with
  | nil => exact ⟨fun _ _ _ place => absurd place not_isReadAt_nil, fun _ => ⟨[], rfl⟩⟩
  | other character rest unread inductionHypothesis =>
      rw [pieces_of_read_eq_none unread, replace]
      constructor
      · rintro ⟨result, replaced⟩ offset value place
        obtain ⟨others, known, -⟩ := bind_eq_ok.mp replaced
        rcases isReadAt_cons_iff.mp place with ⟨-, count, found⟩ | ⟨further, -, later⟩
        · rw [unread] at found
          cases found
        · exact inductionHypothesis.mp ⟨others, known⟩ further value later
      · intro every
        obtain ⟨others, known⟩ := inductionHypothesis.mpr fun further value later =>
          every _ value (isReadAt_cons_iff.mpr (Or.inr ⟨further, rfl, later⟩))
        exact ⟨character :: others, bind_eq_ok.mpr ⟨others, known, rfl⟩⟩
  | found character rest value count found inductionHypothesis =>
      rw [pieces_of_read_eq_some found, replace]
      constructor
      · rintro ⟨result, replaced⟩ offset other place
        obtain ⟨written, here, replaced⟩ := bind_eq_ok.mp replaced
        obtain ⟨others, known, -⟩ := bind_eq_ok.mp replaced
        rcases (isReadAt_of_read apart found).mp place with ⟨-, rfl⟩ | ⟨further, -, later⟩
        · exact ⟨written, here⟩
        · exact inductionHypothesis.mp ⟨others, known⟩ further other later
      · intro every
        obtain ⟨written, here⟩ :=
          every 0 value ((isReadAt_of_read apart found).mpr (Or.inl ⟨rfl, rfl⟩))
        obtain ⟨others, known⟩ := inductionHypothesis.mpr fun further other later =>
          every _ other ((isReadAt_of_read apart found).mpr (Or.inr ⟨further, rfl, later⟩))
        exact ⟨written ++ others,
          bind_eq_ok.mpr ⟨written, here, bind_eq_ok.mpr ⟨others, known, rfl⟩⟩⟩

/-- Replacing fails at a piece that cannot be written, if every piece in front of it can. -/
theorem replace_eq_error
    {offset : Nat}
    {value : α}
    {cause : ε}
    (place : IsReadAt read text offset value)
    (failed : write value = .error cause)
    (earlier : ∀ front other, IsReadAt read text front other → front < offset →
      ∃ written, write other = .ok written) :
    replace write (pieces read text) = .error cause := by
  induction text using pieces_induction read generalizing offset with
  | nil => exact absurd place not_isReadAt_nil
  | other character rest unread inductionHypothesis =>
      rw [pieces_of_read_eq_none unread, replace]
      rcases isReadAt_cons_iff.mp place with ⟨-, count, found⟩ | ⟨further, rfl, later⟩
      · rw [unread] at found
        cases found
      · refine bind_eq_error.mpr (Or.inl (inductionHypothesis later fun front other inFront less => ?_))
        exact earlier _ other (isReadAt_cons_iff.mpr (Or.inr ⟨front, rfl, inFront⟩)) (by omega)
  | found character rest first count found inductionHypothesis =>
      rw [pieces_of_read_eq_some found, replace]
      rcases (isReadAt_of_read apart found).mp place with ⟨-, rfl⟩ | ⟨further, rfl, later⟩
      · exact bind_eq_error.mpr (Or.inl failed)
      · obtain ⟨written, here⟩ :=
          earlier 0 first ((isReadAt_of_read apart found).mpr (Or.inl ⟨rfl, rfl⟩)) (by omega)
        refine bind_eq_error.mpr (Or.inr ⟨written, here, bind_eq_error.mpr (Or.inl ?_)⟩)
        refine inductionHypothesis later fun front other inFront less => ?_
        exact earlier _ other ((isReadAt_of_read apart found).mpr (Or.inr ⟨front, rfl, inFront⟩))
          (by omega)

theorem replace_isOk_iff_refusedAt_eq_empty :
    (∃ result, replace write (pieces read text) = .ok result) ↔ refusedAt read write text = ∅ := by
  rw [replace_isOk_iff apart, Set.eq_empty_iff_forall_notMem]
  constructor
  · rintro every offset ⟨value, cause, place, failed⟩
    obtain ⟨written, known⟩ := every offset value place
    rw [known] at failed
    cases failed
  · intro none offset value place
    cases known : write value with
    | ok written => exact ⟨written, rfl⟩
    | error cause => exact absurd ⟨value, cause, place, known⟩ (none offset)

/-- Replacing fails at the first piece that cannot be written. -/
theorem replace_eq_error_of_isLeast
    {offset : Nat}
    {value : α}
    (least : IsLeast (refusedAt read write text) offset)
    (place : IsReadAt read text offset value) :
    ∃ cause, write value = .error cause ∧ replace write (pieces read text) = .error cause := by
  obtain ⟨⟨other, cause, found, failed⟩, lower⟩ := least
  obtain rfl := place.unique found
  refine ⟨cause, failed, replace_eq_error apart place failed fun front other inFront less => ?_⟩
  cases known : write other with
  | ok written => exact ⟨written, rfl⟩
  | error reason => exact absurd (lower ⟨other, reason, inFront, known⟩) (by omega)

end Replace
end Text
end Joinery
