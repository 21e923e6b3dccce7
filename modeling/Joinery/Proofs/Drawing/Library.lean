import Joinery.Drawing.Library
import Mathlib.Data.List.Forall2

/-!
# Faithful libraries of drawings

A library is faithful if it compares names of layers without regard to capitals, starts
every drawing with the same two layers, and keeps the entities in their order. It need
not keep all texts as they are, only those that a predicate describes. The library that
the program runs with is faithful for texts of one line in characters of its code page.
-/

namespace Joinery

namespace Layer

/-- Whether a layer has a name, without regard to capitals. -/
def hasName (name : Text) (layer : Layer) : Bool := Text.lower layer.name == Text.lower name

/-- No two layers have names that differ in capitals only. -/
def AreDistinct (layers : List Layer) : Prop :=
  layers.Pairwise fun first second => Text.lower first.name ≠ Text.lower second.name

theorem hasName_iff {layer : Layer} {name : Text} :
    layer.hasName name = true ↔ Text.lower layer.name = Text.lower name :=
  beq_iff_eq

theorem hasName_self (layer : Layer) : layer.hasName layer.name = true := hasName_iff.mpr rfl

end Layer

/-- What may become of an entity in a file, if texts are kept that a predicate describes.
Heights that are not positive need not be kept. -/
inductive Entity.IsStoredAs (keeps : Text → Prop) : Entity → Entity → Prop
  | polyline {layer stored : Text} {isClosed : Bool} {points : List (Point Binary64)} :
      (keeps layer → stored = layer) →
      IsStoredAs keeps (.polyline layer isClosed points) (.polyline stored isClosed points)
  | label
      {layer storedLayer text storedText : Text}
      {height storedHeight : Binary64}
      {position : Point Binary64} :
      (keeps layer → storedLayer = layer) →
      (keeps text → storedText = text) →
      (0 < height → storedHeight = height) →
      IsStoredAs keeps (.label layer text height position)
        (.label storedLayer storedText storedHeight position)

namespace Drawing

/-- What the documentation of a library of drawings promises, with the texts that the
library keeps as they are. -/
structure Library.IsFaithful (library : Library) (keeps : Text → Prop) : Prop where
  /-- Names of layers are compared without regard to capitals. -/
  isSameName_iff : ∀ first second,
    library.isSameName first second = true ↔ Text.lower first = Text.lower second
  /-- The layers of a new drawing have different names. -/
  areDistinct_layers : Layer.AreDistinct library.layers
  /-- A new drawing has the layer of everything that is given no layer. -/
  zero_mem : ⟨"0".toList, 7⟩ ∈ library.layers
  /-- A new drawing has the layer of the points that dimensions refer to. -/
  defpoints_mem : ⟨"Defpoints".toList, 7⟩ ∈ library.layers
  /-- The names of the layers of a new drawing are kept. -/
  keeps_layers : ∀ layer ∈ library.layers, keeps layer.name
  /-- A drawing is stored with its entities in their order, and can be read again. -/
  stores : ∀ drawing : Drawing, (∀ layer ∈ drawing.layers, keeps layer.name) →
    ∃ stored, library.stored? drawing = some stored ∧ stored.units = drawing.units ∧
      stored.layers = drawing.layers ∧
      List.Forall₂ (Entity.IsStoredAs keeps) drawing.entities stored.entities

end Drawing

/-! ## The library that the program runs with -/

namespace Text

/-- A text of one line in characters of the code page, without a circumflex at its end. -/
structure IsPlain (text : Text) : Prop where
  inCodePage : text.all Text.inCodePage = true
  oneLine : text.all (· ∉ ['\n', '\r']) = true
  noMark : text.getLast? ≠ some '^'

/-- A text of characters of the code page is stored as it is. -/
theorem escapeOutsideCodePage_of_all
    {text : Text}
    (inside : text.all inCodePage = true) :
    escapeOutsideCodePage text = text := by
  unfold escapeOutsideCodePage
  induction text with
  | nil => rfl
  | cons character rest inductionHypothesis =>
      obtain ⟨here, others⟩ := Bool.and_eq_true_iff.mp (List.all_cons ▸ inside)
      rw [List.flatMap_cons, if_pos here, inductionHypothesis others, List.singleton_append]

end Text

namespace Drawing

/-- A name of one line without a circumflex at its end is its own label. -/
theorem labelText_eq_self
    {name : Text}
    (oneLine : name.all (· ∉ ['\n', '\r']) = true)
    (noMark : name.getLast? ≠ some '^') :
    labelText name = name := by
  have kept : name.filter (fun character => character != '\n' && character != '\r') = name := by
    apply List.filter_eq_self.mpr
    intro character member
    simpa using List.all_eq_true.mp oneLine character member
  unfold labelText Text.dropEndWhile
  rw [kept]
  apply List.reverse_eq_iff.mpr
  cases reversed : name.reverse with
  | nil => rfl
  | cons last rest =>
      have isLast : name.getLast? = some last := by
        rw [List.getLast?_eq_head?_reverse, reversed]
        rfl
      apply List.dropWhile_cons_of_neg
      intro mark
      rw [eq_of_beq mark] at isLast
      exact noMark isLast

theorem isStoredAs_storedEntity (entity : Entity) :
    entity.IsStoredAs Text.IsPlain (storedEntity entity) := by
  have asItIs (layer : Text) (plain : layer.IsPlain) : Text.escapeOutsideCodePage layer = layer :=
    Text.escapeOutsideCodePage_of_all plain.inCodePage
  cases entity with
  | polyline layer isClosed points => exact .polyline (asItIs layer)
  | label layer text height position =>
      refine .label (asItIs layer) (fun plain => ?_) fun positive => if_pos positive
      rw [labelText_eq_self plain.oneLine plain.noMark, asItIs text plain]

/-- The library that the program runs with keeps plain texts. -/
theorem isFaithful_library : library.IsFaithful Text.IsPlain where
  isSameName_iff first second := beq_iff_eq
  areDistinct_layers := by
    unfold Layer.AreDistinct
    decide
  zero_mem := by decide
  defpoints_mem := by decide
  keeps_layers layer member := by
    rcases List.mem_pair.mp member with rfl | rfl
    · exact ⟨by decide, by decide, by decide⟩
    · exact ⟨by decide, by decide, by decide⟩
  stores drawing plain := by
    have readable : drawing.isReadable = true := by
      apply List.all_eq_true.mpr
      intro layer member
      exact (plain layer member).oneLine
    have sameLayers : drawing.stored.layers = drawing.layers := by
      apply (List.map_congr_left ?_).trans (List.map_id _)
      intro layer member
      rw [Text.escapeOutsideCodePage_of_all (plain layer member).inCodePage]
      rfl
    refine ⟨drawing.stored, if_pos readable, rfl, sameLayers, ?_⟩
    apply List.forall₂_map_right_iff.mpr
    exact List.forall₂_same.mpr fun entity _ => isStoredAs_storedEntity entity

end Drawing
end Joinery
