import Joinery.Proofs.Drawing.Library

/-!
# Layers and entities of drawings

Layers are declared one after the other, and the first one with a name stays. So the table of
a drawing answers like the whole list of the layers that were asked for: it has the layer of
every entity, and no two of its names differ in capitals only. Every board has two entities at
the places that its own place gives. A faithful library keeps both in the file of a drawing.
-/

namespace Joinery

/-! ## Tables -/

namespace Drawing.Library

open Layer

variable {library : Library} {layers : List Layer}

theorem subset_declare (library : Library) (layers : List Layer) (layer : Layer) :
    layers ⊆ library.declare layers layer := by
  unfold declare
  split
  next => exact List.Subset.refl layers
  next => exact List.subset_append_left layers [layer]

theorem declare_subset (library : Library) (layers : List Layer) (layer : Layer) :
    library.declare layers layer ⊆ layers ++ [layer] := by
  unfold declare
  split
  next => exact List.subset_append_left layers [layer]
  next => exact List.Subset.refl _

/-- The layers that were there stay. -/
theorem subset_foldl_declare (library : Library) (layers added : List Layer) :
    layers ⊆ added.foldl library.declare layers := by
  induction added generalizing layers with
  | nil => exact List.Subset.refl layers
  | cons layer rest inductionHypothesis =>
      exact List.Subset.trans (library.subset_declare layers layer) (inductionHypothesis _)

/-- No layer is in the table that was not asked for. -/
theorem foldl_declare_subset (library : Library) (layers added : List Layer) :
    added.foldl library.declare layers ⊆ layers ++ added := by
  induction added generalizing layers with
  | nil => exact List.subset_append_left layers []
  | cons layer rest inductionHypothesis =>
      intro member known
      rcases List.mem_append.mp (inductionHypothesis _ known) with declared | later
      · rw [← List.singleton_append, ← List.append_assoc]
        exact List.mem_append_left _ (library.declare_subset layers layer declared)
      · exact List.mem_append_right _ (List.mem_cons_of_mem _ later)

namespace IsFaithful

variable {keeps : Text → Prop} (faithful : library.IsFaithful keeps)
include faithful

/-- Whether the name of a layer is taken is whether a layer has it. -/
theorem any_isSameName (layers : List Layer) (name : Text) :
    layers.any (library.isSameName ·.name name) = layers.any (hasName name) := by
  congr 1
  funext layer
  exact Bool.eq_iff_iff.mpr ((faithful.isSameName_iff layer.name name).trans hasName_iff.symm)

theorem declare_of_any
    {layer : Layer}
    (taken : layers.any (hasName layer.name) = true) :
    library.declare layers layer = layers :=
  if_pos ((faithful.any_isSameName layers layer.name).trans taken)

theorem declare_of_not_any
    {layer : Layer}
    (free : ¬ layers.any (hasName layer.name) = true) :
    library.declare layers layer = layers ++ [layer] := by
  rw [← faithful.any_isSameName] at free
  exact if_neg free

/-- Declaring a layer keeps the names distinct. -/
theorem areDistinct_declare (distinct : AreDistinct layers) (layer : Layer) :
    AreDistinct (library.declare layers layer) := by
  by_cases taken : layers.any (hasName layer.name) = true
  · rw [faithful.declare_of_any taken]
    exact distinct
  · rw [faithful.declare_of_not_any taken]
    refine List.pairwise_append.mpr ⟨distinct, List.pairwise_singleton _ _, ?_⟩
    intro earlier member last isLast same
    rw [List.mem_singleton.mp isLast] at same
    exact taken (List.any_eq_true.mpr ⟨earlier, member, hasName_iff.mpr same⟩)

/-- A table answers as if it had kept the layer that was declared, behind all others. -/
theorem find?_declare (layers : List Layer) (layer : Layer) (name : Text) :
    (library.declare layers layer).find? (hasName name) =
      (layers ++ [layer]).find? (hasName name) := by
  by_cases taken : layers.any (hasName layer.name) = true
  · rw [faithful.declare_of_any taken, List.find?_append]
    cases found : layers.find? (hasName name) with
    | some first => rfl
    | none =>
        -- A layer with the name would have the name of an earlier one.
        obtain ⟨earlier, member, same⟩ := List.any_eq_true.mp taken
        have other := List.find?_eq_none.mp found earlier member
        have absent : layer.hasName name = false := by
          rw [← Bool.not_eq_true, hasName_iff, ← hasName_iff.mp same, ← hasName_iff]
          exact other
        simp [absent]
  · rw [faithful.declare_of_not_any taken]

theorem areDistinct_foldl_declare (distinct : AreDistinct layers) (added : List Layer) :
    AreDistinct (added.foldl library.declare layers) := by
  induction added generalizing layers with
  | nil => exact distinct
  | cons layer rest inductionHypothesis =>
      exact inductionHypothesis (faithful.areDistinct_declare distinct layer)

/-- A table answers like the list of all layers that were declared. -/
theorem find?_foldl_declare (layers added : List Layer) (name : Text) :
    (added.foldl library.declare layers).find? (hasName name) =
      (layers ++ added).find? (hasName name) := by
  induction added generalizing layers with
  | nil => rw [List.append_nil, List.foldl_nil]
  | cons layer rest inductionHypothesis =>
      rw [List.foldl_cons, inductionHypothesis, List.find?_append, faithful.find?_declare,
        ← List.find?_append, List.append_assoc, List.singleton_append]

end IsFaithful
end Drawing.Library

/-! ## Outlines -/

namespace Outline

variable {α : Type} [OfNat α 0] [Add α] [LT α] [DecidableLT α]

/-- Every board has a place in the layout, in the same order. -/
theorem map_fst_layoutFrom (spacing offset : α) (boards : List (Board α)) :
    (layoutFrom spacing offset boards).map (·.1) = boards := by
  induction boards generalizing offset with
  | nil => rfl
  | cons board rest inductionHypothesis =>
      rw [layoutFrom, List.map_cons, inductionHypothesis]

theorem ne_nil_of_mem_layoutFrom
    {spacing offset : α}
    {boards : List (Board α)}
    {entry : Board α × List (Point α)}
    (member : entry ∈ layoutFrom spacing offset boards) :
    entry.2 ≠ [] := by
  induction boards generalizing offset with
  | nil => cases member
  | cons board rest inductionHypothesis =>
      rcases List.mem_cons.mp member with rfl | later
      · exact List.cons_ne_nil _ _
      · exact inductionHypothesis later

/-- A board has its outline, with a first corner, at its own place in the layout. -/
theorem exists_getElem?_layout
    {boards : List (Board α)}
    {index : Nat}
    {board : Board α}
    (spacing : α)
    (known : boards[index]? = some board) :
    ∃ first others, (layout spacing boards)[index]? = some (board, first :: others) := by
  rw [← map_fst_layoutFrom spacing 0 boards, List.getElem?_map] at known
  obtain ⟨⟨owner, points⟩, placed, rfl⟩ := Option.map_eq_some_iff.mp known
  obtain ⟨first, others, rfl⟩ :=
    List.exists_cons_of_ne_nil (ne_nil_of_mem_layoutFrom (List.mem_of_getElem? placed))
  exact ⟨first, others, placed⟩

end Outline

namespace Drawing

variable {options : ExportOptions} {boards : List (Board Binary64)}

/-! ## Entities -/

/-- A drawing has two entities for each board, in the order of the boards: its outline as a
closed polyline where the layout has it, and its name below the first corner of the outline.
Names are those of the boards if texts like them are kept. -/
structure Shows
    (drawing : Drawing)
    (keeps : Text → Prop)
    (options : ExportOptions)
    (boards : List (Board Binary64)) : Prop where
  length_eq : drawing.entities.length = 2 * boards.length
  entities : ∀ index board, boards[index]? = some board → ∃ first others text height,
    (Outline.layout options.spacing boards)[index]? = some (board, first :: others) ∧
    drawing.entities[2 * index]? =
      some (.polyline (options.layer "CUT".toList) true (first :: others)) ∧
    drawing.entities[2 * index + 1]? =
      some (.label (options.layer "TEXT".toList) text height
        ⟨first.x, -2 * options.labelHeight⟩) ∧
    (keeps board.name → text = board.name) ∧
    (0 < options.labelHeight → height = options.labelHeight)

/-- Two entries for each member of a list stand at twice its place and right behind. -/
theorem getElem?_flatMap_pair
    {α β : Type}
    (first second : α → β)
    (list : List α)
    (index : Nat) :
    (list.flatMap fun member => [first member, second member])[2 * index]? =
        list[index]?.map first ∧
      (list.flatMap fun member => [first member, second member])[2 * index + 1]? =
        list[index]?.map second := by
  induction list generalizing index with
  | nil => exact ⟨rfl, rfl⟩
  | cons member rest inductionHypothesis =>
      cases index with
      | zero => exact ⟨rfl, rfl⟩
      | succ index => exact inductionHypothesis index

theorem length_entities_ofBoards
    (library : Library)
    (options : ExportOptions)
    (boards : List (Board Binary64)) :
    (ofBoards library options boards).entities.length = 2 * boards.length := by
  have two (entry : Board Binary64 × List (Point Binary64)) :
      (entitiesOf options entry.1 entry.2).length = 2 := rfl
  have count : (Outline.layout options.spacing boards).length = boards.length := by
    rw [← List.length_map (·.1), Outline.layout, Outline.map_fst_layoutFrom]
  simp only [ofBoards, List.length_flatMap, two, List.map_const', List.sum_replicate_nat, count]
  omega

/-- The drawing of some boards shows them, with all of their names. -/
theorem shows_ofBoards
    (library : Library)
    (options : ExportOptions)
    (boards : List (Board Binary64)) :
    (ofBoards library options boards).Shows (fun _ => True) options boards where
  length_eq := length_entities_ofBoards library options boards
  entities index board known := by
    obtain ⟨first, others, placed⟩ := Outline.exists_getElem?_layout options.spacing known
    obtain ⟨polyline, label⟩ := getElem?_flatMap_pair
      (fun entry : Board Binary64 × List (Point Binary64) =>
        Entity.polyline (options.layer outlineLayer) true entry.2)
      (fun entry => .label (options.layer labelLayer) entry.1.name options.labelHeight
        ⟨startX entry.2, -2 * options.labelHeight⟩)
      (Outline.layout options.spacing boards) index
    rw [placed] at polyline label
    exact ⟨first, others, board.name, options.labelHeight, placed, polyline, label,
      fun _ => rfl, fun _ => rfl⟩

/-- Related lists have related members at the same places. -/
theorem exists_getElem?_of_forall₂
    {α β : Type}
    {related : α → β → Prop}
    {list : List α}
    {others : List β}
    {index : Nat}
    {member : α}
    (all : List.Forall₂ related list others)
    (known : list[index]? = some member) :
    ∃ other, others[index]? = some other ∧ related member other := by
  obtain ⟨bound, rfl⟩ := List.getElem?_eq_some_iff.mp known
  have otherBound : index < others.length := all.length_eq ▸ bound
  exact ⟨others[index], List.getElem?_eq_getElem otherBound, all.get bound otherBound⟩

/-- A file shows the boards that its drawing shows, with the names that are kept, if the
names of the layers are. -/
theorem Shows.of_isStoredAs
    {drawing stored : Drawing}
    {keeps : Text → Prop}
    (shows : drawing.Shows (fun _ => True) options boards)
    (same : List.Forall₂ (Entity.IsStoredAs keeps) drawing.entities stored.entities)
    (outlines : keeps (options.layer "CUT".toList))
    (labels : keeps (options.layer "TEXT".toList)) :
    stored.Shows keeps options boards where
  length_eq := same.length_eq.symm.trans shows.length_eq
  entities index board known := by
    obtain ⟨first, others, text, height, placed, polyline, label, name, positive⟩ :=
      shows.entities index board known
    obtain ⟨outline, isOutline, kept⟩ := exists_getElem?_of_forall₂ same polyline
    obtain ⟨note, isNote, keptNote⟩ := exists_getElem?_of_forall₂ same label
    cases kept with
    | polyline sameLayer =>
        cases keptNote with
        | @label _ _ _ storedText _ storedHeight _ sameNoteLayer sameText sameHeight =>
            rw [sameLayer outlines] at isOutline
            rw [sameNoteLayer labels] at isNote
            rw [name trivial] at sameText
            refine ⟨first, others, storedText, storedHeight, placed, isOutline, isNote, sameText,
              fun isPositive => ?_⟩
            rw [positive isPositive] at sameHeight
            exact sameHeight isPositive

/-- The entities are on the layers for outlines and for labels. -/
theorem Shows.layer_of_mem
    {drawing : Drawing}
    {keeps : Text → Prop}
    (shows : drawing.Shows keeps options boards)
    {entity : Entity}
    (member : entity ∈ drawing.entities) :
    entity.layer = options.layer "CUT".toList ∨ entity.layer = options.layer "TEXT".toList := by
  obtain ⟨place, found⟩ := List.mem_iff_getElem?.mp member
  have inside : place < 2 * boards.length := by
    rw [← shows.length_eq]
    exact (List.getElem?_eq_some_iff.mp found).1
  have bound : place / 2 < boards.length := by omega
  obtain ⟨first, others, text, height, -, polyline, label, -, -⟩ :=
    shows.entities (place / 2) _ (List.getElem?_eq_getElem bound)
  rcases Nat.mod_two_eq_zero_or_one place with even | odd
  · have isTwice : 2 * (place / 2) = place := by omega
    rw [isTwice, found] at polyline
    rw [Option.some.inj polyline]
    exact Or.inl rfl
  · have isNext : 2 * (place / 2) + 1 = place := by omega
    rw [isNext, found] at label
    rw [Option.some.inj label]
    exact Or.inr rfl

/-! ## Declared layers -/

/-- The table of a drawing has the layer of every entity, its names differ in more than
capitals, it has the two layers of every new drawing, and of several layers with a name it
has the first one that was asked for. -/
structure HasTable (drawing : Drawing) (requested : List Layer) : Prop where
  declares : ∀ entity ∈ drawing.entities,
    ∃ layer ∈ drawing.layers, layer.hasName entity.layer = true
  areDistinct : Layer.AreDistinct drawing.layers
  zero_mem : ⟨"0".toList, 7⟩ ∈ drawing.layers
  defpoints_mem : ⟨"Defpoints".toList, 7⟩ ∈ drawing.layers
  find?_eq : ∀ name,
    drawing.layers.find? (Layer.hasName name) = requested.find? (Layer.hasName name)

/-- The layers that a drawing asks for, in their order. -/
def requestedLayers (library : Library) (options : ExportOptions) : List Layer :=
  library.layers ++ [⟨options.layer "CUT".toList, 7⟩, ⟨options.layer "TEXT".toList, 8⟩]

section Faithful

variable {library : Library} {keeps : Text → Prop} (faithful : library.IsFaithful keeps)
include faithful

theorem exists_mem_layersFor
    {layer : Layer}
    (requested : layer ∈ requestedLayers library options) :
    ∃ declared ∈ layersFor library options, declared.hasName layer.name = true := by
  have found : ((layersFor library options).find? (Layer.hasName layer.name)).isSome = true := by
    rw [layersFor, faithful.find?_foldl_declare, List.find?_isSome]
    exact ⟨layer, requested, layer.hasName_self⟩
  obtain ⟨declared, known⟩ := Option.isSome_iff_exists.mp found
  exact ⟨declared, List.mem_of_find?_eq_some known, List.find?_some known⟩

/-- Whatever shows boards has a proper table, if it has the layers for its options. -/
theorem hasTable_of_shows
    {drawing : Drawing}
    {keptNames : Text → Prop}
    (shows : drawing.Shows keptNames options boards)
    (layers : drawing.layers = layersFor library options) :
    drawing.HasTable (requestedLayers library options) where
  declares entity member := by
    have outlines : ⟨options.layer "CUT".toList, 7⟩ ∈ requestedLayers library options := by
      simp [requestedLayers]
    have labels : ⟨options.layer "TEXT".toList, 8⟩ ∈ requestedLayers library options := by
      simp [requestedLayers]
    rw [layers]
    rcases shows.layer_of_mem member with same | same
    · rw [same]
      exact exists_mem_layersFor faithful outlines
    · rw [same]
      exact exists_mem_layersFor faithful labels
  areDistinct := by
    rw [layers]
    exact faithful.areDistinct_foldl_declare faithful.areDistinct_layers _
  zero_mem := by
    rw [layers]
    exact library.subset_foldl_declare library.layers _ faithful.zero_mem
  defpoints_mem := by
    rw [layers]
    exact library.subset_foldl_declare library.layers _ faithful.defpoints_mem
  find?_eq name := by
    rw [layers]
    exact faithful.find?_foldl_declare _ _ name

/-- All names of layers are kept if the names of the layers for outlines and labels are. -/
theorem keeps_layersFor
    (outlines : keeps (options.layer "CUT".toList))
    (labels : keeps (options.layer "TEXT".toList)) :
    ∀ layer ∈ layersFor library options, keeps layer.name := by
  intro layer member
  rcases List.mem_append.mp (library.foldl_declare_subset _ _ member) with first | requested
  · exact faithful.keeps_layers layer first
  · rcases List.mem_pair.mp requested with rfl | rfl
    · exact outlines
    · exact labels

end Faithful

/-- Boards can be drawn on layers with names that a faithful library allows. The drawing shows
every board, and its table has the layers that the boards need. The same holds of what is read
from its file, if the library keeps the names of both layers. There a board has its own name if
the library keeps it, so a library that keeps all texts stores the names of all boards. -/
theorem drawing_keeps_boards
    {library : Library}
    {keeps : Text → Prop}
    (faithful : library.IsFaithful keeps)
    (outlines : library.isName (options.layer "CUT".toList) = true)
    (labels : library.isName (options.layer "TEXT".toList) = true)
    (boards : List (Board Binary64)) :
    ∃ drawing, drawBy library options boards = .ok drawing ∧
      drawing.Shows (fun _ => True) options boards ∧
      drawing.HasTable (library.layers ++
        [⟨options.layer "CUT".toList, 7⟩, ⟨options.layer "TEXT".toList, 8⟩]) ∧
      (keeps (options.layer "CUT".toList) → keeps (options.layer "TEXT".toList) →
        ∃ stored, library.stored? drawing = some stored ∧ stored.units = options.units ∧
          stored.Shows keeps options boards ∧
          stored.HasTable (library.layers ++
            [⟨options.layer "CUT".toList, 7⟩, ⟨options.layer "TEXT".toList, 8⟩])) := by
  have drawn : drawBy library options boards = .ok (ofBoards library options boards) := by
    simp only [drawBy, outlineLayer, labelLayer, List.find?, outlines, labels, Bool.not_true]
  have shows := shows_ofBoards library options boards
  refine ⟨_, drawn, shows, hasTable_of_shows faithful shows rfl, ?_⟩
  intro keepsOutlines keepsLabels
  obtain ⟨stored, isStored, sameUnits, sameLayers, same⟩ :=
    faithful.stores (ofBoards library options boards)
      (keeps_layersFor faithful keepsOutlines keepsLabels)
  have storedShows := shows.of_isStoredAs same keepsOutlines keepsLabels
  exact ⟨stored, isStored, sameUnits, storedShows,
    hasTable_of_shows faithful storedShows sameLayers⟩

/-- Both layers get names that differ in capitals only, so one of them is declared. The boards
are stored with their names. -/
theorem exists_drawing_of_boards :
    ∃ options boards drawing stored, library.IsFaithful Text.IsPlain ∧
      library.isName (options.layer "CUT".toList) = true ∧
      library.isName (options.layer "TEXT".toList) = true ∧
      draw options boards = .ok drawing ∧
      drawing.layers.map (·.name) = ["0".toList, "Defpoints".toList, "Oak".toList] ∧
      library.stored? drawing = some stored ∧
      stored.entities.map (·.layer) =
        ["Oak".toList, "OAK".toList, "Oak".toList, "OAK".toList] ∧
      stored.Shows Text.IsPlain options boards ∧ ∀ board ∈ boards, board.name.IsPlain := by
  let options : ExportOptions :=
    { ExportOptions.default with
      renames := [("CUT".toList, "Oak".toList), ("TEXT".toList, "OAK".toList)] }
  let board (name : Char) : Board Binary64 :=
    ⟨['a'], [name], 1, 1, 1, none, none, none, false, 0, none, none, none, [], true⟩
  have outlines : library.isName (options.layer "CUT".toList) = true := by decide
  have labels : library.isName (options.layer "TEXT".toList) = true := by decide
  have plainOutlines : Text.IsPlain (options.layer "CUT".toList) :=
    ⟨by decide, by decide, by decide⟩
  have plainLabels : Text.IsPlain (options.layer "TEXT".toList) :=
    ⟨by decide, by decide, by decide⟩
  obtain ⟨drawing, drawn, -, -, file⟩ :=
    drawing_keeps_boards isFaithful_library outlines labels [board 'A', board 'B']
  obtain ⟨stored, isStored, -, shows, -⟩ := file plainOutlines plainLabels
  obtain rfl : ofBoards library options [board 'A', board 'B'] = drawing := Except.ok.inj drawn
  obtain rfl : (ofBoards library options [board 'A', board 'B']).stored = stored :=
    Option.some.inj isStored
  refine ⟨options, [board 'A', board 'B'], _, _, isFaithful_library, outlines, labels, drawn,
    by decide, isStored, by decide +kernel, shows, ?_⟩
  intro owner member
  rcases List.mem_pair.mp member with rfl | rfl
  · exact ⟨by decide, by decide, by decide⟩
  · exact ⟨by decide, by decide, by decide⟩

end Drawing
end Joinery
