import Joinery.Issue
import Joinery.Proofs.Binary64.Sign
import Joinery.Proofs.Ring.Corners

/-!
# Issues and positive lengths

A board has an issue exactly if one of its lengths is not positive. An outline with
positive lengths does not cross itself and has an area, so what the tests say of other
outlines does not matter.
-/

namespace Joinery

open Binary64

/-- All the lengths of a board have a property: its dimensions, and the lengths of the cuts
that it has. -/
structure Board.EveryLength (holds : Binary64 → Prop) (board : Board Binary64) : Prop where
  width : holds board.width
  height : holds board.height
  depth : holds board.depth
  cuts : ∀ cuts side length, board.cuts = some cuts → cuts.get side = some length → holds length

namespace Board

variable {holds other : Binary64 → Prop} {board : Board Binary64}

theorem EveryLength.imp
    (every : board.EveryLength holds)
    (implies : ∀ length, holds length → other length) :
    board.EveryLength other where
  width := implies _ every.width
  height := implies _ every.height
  depth := implies _ every.depth
  cuts cuts side length known found := implies _ (every.cuts cuts side length known found)

theorem EveryLength.and
    (every : board.EveryLength holds)
    (everyOther : board.EveryLength other) :
    board.EveryLength fun length => holds length ∧ other length where
  width := ⟨every.width, everyOther.width⟩
  height := ⟨every.height, everyOther.height⟩
  depth := ⟨every.depth, everyOther.depth⟩
  cuts cuts side length known found :=
    ⟨every.cuts cuts side length known found, everyOther.cuts cuts side length known found⟩

/-- The edges of the outline have lengths of the board. -/
theorem EveryLength.edge (every : board.EveryLength holds) (side : Side) :
    holds (board.edge side) := by
  unfold Board.edge
  cases cut : board.cuts.bind (·.get side) with
  | some length =>
      obtain ⟨cuts, known, found⟩ := Option.bind_eq_some_iff.mp cut
      exact every.cuts cuts side length known found
  | none =>
      cases side with
      | left => exact every.height
      | right => exact every.height
      | top => exact every.width
      | bottom => exact every.width

end Board

/-! ## Exact tests -/

namespace Outline

/-- The area inside an outline without rounding, in squares of units, if its corners are
finite. -/
def exactArea? (outline : List (Point Binary64)) : Option ℚ :=
  (outline.mapM exactPoint?).map fun points =>
    |signedArea (points.map fun point => (⟨point.x, point.y⟩ : Point ℚ))|

/-- A test for lines that is not wrong about closed lines through finite points: it tells
whether two of their edges have no point in common but the corner between them. -/
def IsExactLineTest (isSimple? : List (Point Binary64) → Option Bool) : Prop :=
  ∀ line points, line.mapM exactPoint? = some points → points.head? = points.getLast? →
    1 < points.length →
      ∃ isSimple, isSimple? line = some isSimple ∧
        (isSimple = true ↔ Ring.IsSimple (Ring.edges points))

/-- A test for outlines without area that is not wrong about finite outlines. -/
def IsExactAreaTest (hasNoArea : List (Point Binary64) → Bool) : Prop :=
  ∀ outline area, exactArea? outline = some area → (hasNoArea outline = true ↔ area ≤ 0)

/-- Tests that are not wrong about finite points. -/
structure Tests.IsExact (tests : Tests) : Prop where
  lines : IsExactLineTest tests.isSimple?
  areas : IsExactAreaTest tests.hasNoArea

/-! ## Rings through points -/

/-- Every member of a list has an image, and the list of these images is given. -/
theorem mapM_eq_some_iff
    {α β : Type}
    {image : α → Option β}
    {list : List α}
    {images : List β} :
    list.mapM image = some images ↔ list.map image = images.map some := by
  induction list generalizing images with
  | nil =>
      cases images with
      | nil => simp
      | cons first others => simp
  | cons member rest inductionHypothesis =>
      cases images with
      | nil => simp [List.mapM_cons, Option.bind_eq_some_iff]
      | cons first others =>
          simp [List.mapM_cons, Option.bind_eq_some_iff, inductionHypothesis]

/-- Exact points are the same if their points are at the same place. -/
theorem isSamePlace_iff
    {first second : Point Binary64}
    {one two : Point Int}
    (exact : exactPoint? first = some one)
    (otherExact : exactPoint? second = some two) :
    isSamePlace first second = true ↔ one = two := by
  obtain ⟨x, y⟩ := first
  obtain ⟨otherX, otherY⟩ := second
  unfold exactPoint? at exact otherExact
  dsimp only at exact otherExact
  split at exact
  next left units fits down height heightFits =>
    split at otherExact
    next otherLeft otherUnits otherFits otherDown otherHeight otherHeightFits =>
      cases exact
      cases otherExact
      simp only [isSamePlace, Bool.or_eq_true, Bool.and_eq_true, decide_eq_true_eq, Point.mk.injEq]
      constructor
      · rintro (⟨same, alsoSame⟩ | ⟨same, alsoSame⟩)
        · cases same
          cases alsoSame
          exact ⟨rfl, rfl⟩
        · exact ⟨eq_of_beq same, eq_of_beq alsoSame⟩
      · rintro ⟨same, alsoSame⟩
        have sameX : (signedUnits left units == signedUnits otherLeft otherUnits) = true :=
          beq_iff_eq.mpr same
        have sameY : (signedUnits down height == signedUnits otherDown otherHeight) = true :=
          beq_iff_eq.mpr alsoSame
        exact Or.inr ⟨sameX, sameY⟩
    next => cases otherExact
  next => cases exact

/-- A ring through finite points has the exact points of a ring. -/
theorem mapM_exactPoint?_close
    {points : List (Point Binary64)}
    {places : List (Point Int)}
    (exact : points.mapM exactPoint? = some places) :
    (close points).mapM exactPoint? = some (Ring.close places) := by
  have known := mapM_eq_some_iff.mp exact
  have starts : points.head?.map exactPoint? = places.head?.map some := by
    rw [← List.head?_map, known, List.head?_map]
  have stops : points.getLast?.map exactPoint? = places.getLast?.map some := by
    rw [← List.getLast?_map, known, List.getLast?_map]
  unfold close Ring.close
  cases first : points.head? with
  | none =>
      rw [first] at starts
      rw [Option.map_eq_none_iff.mp starts.symm]
      exact exact
  | some point =>
      cases last : points.getLast? with
      | none =>
          rw [List.getLast?_eq_none_iff.mp last] at first
          cases first
      | some other =>
          rw [first, Option.map_some] at starts
          rw [last, Option.map_some] at stops
          obtain ⟨one, firstPlace, exactFirst⟩ := Option.map_eq_some_iff.mp starts.symm
          obtain ⟨two, lastPlace, exactLast⟩ := Option.map_eq_some_iff.mp stops.symm
          rw [firstPlace, lastPlace]
          have same := isSamePlace_iff exactFirst.symm exactLast.symm
          dsimp only
          by_cases equal : one = two
          · rw [if_pos equal, if_pos (same.mpr equal)]
            exact exact
          · rw [if_neg equal, if_neg (fun place => equal (same.mp place))]
            rw [mapM_eq_some_iff, List.map_append, List.map_append, known, List.map_singleton,
              ← exactFirst]
            rfl

/-- The test for lines that the program runs with is exact. -/
theorem isExactLineTest_isSimple? : IsExactLineTest isSimple? := by
  intro line points exact closed many
  refine ⟨!Ring.crosses (Ring.edges points), ?_, ?_⟩
  · rw [isSimple?, exact]
    dsimp only
    unfold Ring.isSimple?
    split
    next => exact absurd many (Nat.lt_irrefl 1)
    next => rfl
  · rw [Bool.not_eq_true']
    exact Ring.crosses_eq_false_iff (Ring.isRow_edges points) (Ring.isClosed_edges closed)

/-! ## Outlines with positive lengths -/

/-- A positive number has a positive number of units. -/
theorem exists_units
    {length : Binary64}
    (finite : length.isFinite = true)
    (positive : 0 < length) :
    ∃ sign units fits, length = .finite sign units fits ∧ 0 < signedUnits sign units := by
  cases length with
  | nan => cases finite
  | infinite sign => cases finite
  | finite sign units fits => exact ⟨sign, units, fits, rfl, zero_lt_finite_iff.mp positive⟩

/-- The area between four corners with positive lengths between them. -/
theorem signedArea_corners_neg
    {bottom top right left : Int}
    (bottomPositive : 0 < bottom)
    (topPositive : 0 < top)
    (rightPositive : 0 < right)
    (leftPositive : 0 < left) :
    signedArea ((Ring.corners bottom top right left).map fun point =>
      (⟨point.x, point.y⟩ : Point ℚ)) < 0 := by
  have lower : (0 : ℚ) < bottom * right := by exact_mod_cast mul_pos bottomPositive rightPositive
  have upper : (0 : ℚ) < top * left := by exact_mod_cast mul_pos topPositive leftPositive
  have halves : signedArea ((Ring.corners bottom top right left).map fun point =>
      (⟨point.x, point.y⟩ : Point ℚ)) = -(bottom * right + top * left) / 2 := by
    simp only [Ring.corners, List.map_cons, List.map_nil, List.cons_append, List.nil_append,
      signedArea, areaSum, Int.cast_zero]
    ring
  rw [halves]
  linarith

end Outline

namespace Board

variable {board : Board Binary64}

/-- The outline of a board with positive lengths has four exact corners. -/
theorem exists_corners
    (finite : board.EveryLength (·.isFinite = true))
    (positive : board.EveryLength (0 < ·)) :
    ∃ bottom top right left : Int, 0 < bottom ∧ 0 < top ∧ 0 < right ∧ 0 < left ∧
      board.outline.mapM Outline.exactPoint? = some (Ring.corners bottom top right left) := by
  obtain ⟨bottomSign, bottom, bottomFits, bottomEdge, bottomPositive⟩ :=
    Outline.exists_units (finite.edge .bottom) (positive.edge .bottom)
  obtain ⟨topSign, top, topFits, topEdge, topPositive⟩ :=
    Outline.exists_units (finite.edge .top) (positive.edge .top)
  obtain ⟨rightSign, right, rightFits, rightEdge, rightPositive⟩ :=
    Outline.exists_units (finite.edge .right) (positive.edge .right)
  obtain ⟨leftSign, left, leftFits, leftEdge, leftPositive⟩ :=
    Outline.exists_units (finite.edge .left) (positive.edge .left)
  refine ⟨_, _, _, _, bottomPositive, topPositive, rightPositive, leftPositive, ?_⟩
  rw [outline, bottomEdge, topEdge, rightEdge, leftEdge, zero_eq]
  simp [Outline.exactPoint?, signedUnits_zero, Ring.corners]

/-- The outline of a board with positive lengths is simple and has an area. -/
theorem outline_isSimple
    (finite : board.EveryLength (·.isFinite = true))
    (positive : board.EveryLength (0 < ·)) :
    (∃ points, board.outline.mapM Outline.exactPoint? = some points ∧
        Ring.IsSimple (Ring.edges (Ring.close points))) ∧
      ∃ area, Outline.exactArea? board.outline = some area ∧ 0 < area := by
  obtain ⟨bottom, top, right, left, bottomPositive, topPositive, rightPositive, leftPositive,
    corners⟩ := exists_corners finite positive
  refine ⟨⟨_, corners, Ring.isSimple_corners bottomPositive topPositive rightPositive
    leftPositive⟩, ?_⟩
  have below :=
    Outline.signedArea_corners_neg bottomPositive topPositive rightPositive leftPositive
  refine ⟨_, ?_, abs_pos.mpr below.ne⟩
  rw [Outline.exactArea?, corners]
  rfl

/-- An exact test for lines finds no crossing in an outline with positive lengths. -/
theorem crossesItselfBy?_outline
    {tests : Outline.Tests}
    (exact : Outline.IsExactLineTest tests.isSimple?)
    (finite : board.EveryLength (·.isFinite = true))
    (positive : board.EveryLength (0 < ·)) :
    Outline.crossesItselfBy? tests board.outline = some false := by
  obtain ⟨bottom, top, right, left, bottomPositive, topPositive, rightPositive, leftPositive,
    corners⟩ := exists_corners finite positive
  have many := Ring.length_le_length_close (Ring.corners bottom top right left)
  obtain ⟨isSimple, known, iff⟩ := exact _ _ (Outline.mapM_exactPoint?_close corners)
    (Ring.head?_close _) (Nat.lt_of_lt_of_le (by simp [Ring.corners]) many)
  have simple := Ring.isSimple_corners bottomPositive topPositive rightPositive leftPositive
  rw [Outline.crossesItselfBy?, known, iff.mpr simple]
  rfl

end Board

/-- An exact test for areas does not report an outline with positive lengths. -/
theorem Outline.Tests.IsExact.hasNoArea_outline
    {tests : Outline.Tests}
    {board : Board Binary64}
    (exact : tests.IsExact)
    (finite : board.EveryLength (·.isFinite = true))
    (positive : board.EveryLength (0 < ·)) :
    tests.hasNoArea board.outline = false := by
  obtain ⟨-, area, measured, large⟩ := Board.outline_isSimple finite positive
  rw [← Bool.not_eq_true, exact.areas _ _ measured]
  exact large.not_ge

/-! ## Issues -/

namespace Board

variable {board : Board Binary64}

theorem mem_lengthIssue_iff {issue : Issue} {name : Issue.Length} {length : Binary64} :
    issue ∈ lengthIssue name length ↔ length ≤ 0 ∧ issue = .notPositive name length := by
  unfold lengthIssue
  split
  next notPositive => simp [notPositive]
  next positive => simp [positive]

theorem mem_cutIssues_iff {issue : Issue} {cuts : Cuts Binary64} :
    issue ∈ cutIssues cuts ↔
      ∃ side length, cuts.get side = some length ∧ length ≤ 0 ∧
        issue = .notPositive (.cut side) length := by
  have known (side : Side) : side ∈ Side.all := by cases side <;> decide
  simp only [cutIssues, List.mem_flatMap, known, true_and]
  constructor
  · rintro ⟨side, member⟩
    split at member
    next length found => exact ⟨side, length, found, mem_lengthIssue_iff.mp member⟩
    next => cases member
  · rintro ⟨side, length, found, notPositive⟩
    refine ⟨side, ?_⟩
    rw [found]
    exact mem_lengthIssue_iff.mpr notPositive

variable {tests : Outline.Tests}

/-- A board has cuts if there is a length for one of its sides. -/
theorem hasCuts_of_get
    {cuts : Cuts Binary64}
    {side : Side}
    {length : Binary64}
    (known : board.cuts = some cuts)
    (found : cuts.get side = some length) :
    board.hasCuts = true := by
  have member : side ∈ Side.all := by cases side <;> decide
  rw [hasCuts, known]
  exact List.any_eq_true.mpr ⟨side, member, by rw [found]; rfl⟩

/-- Without a length that is not positive, only the outline as a whole is left to be
reported. -/
theorem issuesBy_of_everyLength (every : board.EveryLength (¬ · ≤ 0)) :
    board.issuesBy tests =
      if board.hasCuts then board.outlineIssuesBy tests else [] := by
  have noIssue {name : Issue.Length} {length : Binary64} (positive : ¬ length ≤ 0) :
      lengthIssue name length = [] :=
    if_neg positive
  unfold issuesBy
  rw [noIssue every.width, noIssue every.height, noIssue every.depth]
  cases known : board.cuts with
  | none => simp [hasCuts, known]
  | some cuts =>
      have noCutIssue : cutIssues cuts = [] := by
        rw [List.eq_nil_iff_forall_not_mem]
        intro issue member
        obtain ⟨side, length, found, notPositive, -⟩ := mem_cutIssues_iff.mp member
        exact every.cuts cuts side length known found notPositive
      simp [noCutIssue]

/-- A length that is not positive is reported. -/
theorem everyLength_of_notMem_issuesBy
    (unreported : ∀ name length, .notPositive name length ∉ board.issuesBy tests) :
    board.EveryLength (¬ · ≤ 0) := by
  have reported {name : Issue.Length} {length : Binary64} (notPositive : length ≤ 0) :
      .notPositive name length ∈ lengthIssue name length :=
    mem_lengthIssue_iff.mpr ⟨notPositive, rfl⟩
  refine ⟨fun notPositive => ?_, fun notPositive => ?_, fun notPositive => ?_, ?_⟩
  · exact unreported .width board.width (by simp [issuesBy, reported notPositive])
  · exact unreported .height board.height (by simp [issuesBy, reported notPositive])
  · exact unreported .depth board.depth (by simp [issuesBy, reported notPositive])
  · intro cuts side length known found notPositive
    have member := mem_cutIssues_iff.mpr ⟨side, length, found, notPositive, rfl⟩
    refine unreported (.cut side) length ?_
    simp [issuesBy, known, hasCuts_of_get known found, member]

section Tested

variable (finite : board.EveryLength (·.isFinite = true))

include finite

/-- Lengths that are not reported are positive. -/
theorem positive_of_unreported
    (unreported : ∀ name length, .notPositive name length ∉ board.issuesBy tests) :
    board.EveryLength (0 < ·) :=
  (finite.and (everyLength_of_notMem_issuesBy unreported)).imp fun _ known =>
    (zero_lt_iff_not_le_zero known.1).mpr known.2

variable (exact : Outline.IsExactLineTest tests.isSimple?)
  (tested : board.EveryLength (0 < ·) → tests.hasNoArea board.outline = false)

include exact tested

theorem issuesBy_of_positive (positive : board.EveryLength (0 < ·)) :
    board.issuesBy tests = [] := by
  have uncrossed := crossesItselfBy?_outline exact finite positive
  have every := (finite.and positive).imp fun _ known =>
    (zero_lt_iff_not_le_zero known.1).mp known.2
  rw [issuesBy_of_everyLength every]
  simp [outlineIssuesBy, uncrossed, tested positive]

/-- A board that has an issue has a length that is reported as not positive. -/
theorem exists_notPositive_of_mem_issuesBy
    {issue : Issue}
    (member : issue ∈ board.issuesBy tests) :
    ∃ name length, .notPositive name length ∈ board.issuesBy tests := by
  by_contra unreported
  push Not at unreported
  rw [issuesBy_of_positive finite exact tested (positive_of_unreported finite unreported)] at member
  cases member

/-- A board with finite lengths has no issue exactly if its lengths are positive, when the
test for lines is exact and the test for areas does not report outlines with positive
lengths. -/
theorem issuesBy_eq_nil_iff :
    board.issuesBy tests = [] ↔ board.EveryLength (0 < ·) := by
  constructor
  · intro none
    have unreported (name : Issue.Length) (length : Binary64) :
        .notPositive name length ∉ board.issuesBy tests := by
      simp [none]
    exact positive_of_unreported finite unreported
  · exact issuesBy_of_positive finite exact tested

end Tested

end Board

/-! ## The rounded area -/

namespace Outline

/-- One of the products that the area is computed from. -/
theorem isFrom_term
    {width height : Binary64}
    (widthRounded : IsRounded width)
    (widthPositive : 0 < width)
    (heightRounded : IsRounded height)
    (heightPositive : 0 < height) :
    IsFrom true 40 ((width - 0) * (0 - height)) := by
  have right : IsFrom false grain (width - 0) :=
    (widthRounded.isFrom widthPositive).sub (isFrom_zero true) (by omega)
  have down : IsFrom true grain (0 - height) :=
    (isFrom_zero true).sub (heightRounded.isFrom heightPositive) (by omega)
  have enough : 2 * 40 * one ≤ grain * grain := by
    have large := two_pow_sixty_four_le_grain
    calc
      2 * 40 * one = 655360 * grain := by
        rw [one_eq]
        ring
      _ ≤ grain * grain := Nat.mul_le_mul_right grain (by omega)
  exact right.mul down (isFinite_sub (within_zero _) heightRounded.within)
    (Or.inl (isFinite_sub widthRounded.within (within_zero _))) enough

/-- The product that belongs to the edge along the second axis. -/
theorem isFrom_lastTerm
    {height : Binary64}
    (rounded : IsRounded height)
    (positive : 0 < height) :
    IsFrom true 0 ((0 - 0) * (height - 0)) := by
  have none : IsFrom true 0 (0 - 0 : Binary64) :=
    (isFrom_zero true).sub (isFrom_zero false) (by omega)
  have up : IsFrom false grain (height - 0) :=
    (rounded.isFrom positive).sub (isFrom_zero true) (by omega)
  exact none.mul up (isFinite_sub rounded.within (within_zero _))
    (Or.inl (isFinite_sub (within_zero _) (within_zero _))) (by simp)

/-- The rounded area of an outline with positive thousandths as its lengths does not
vanish. -/
theorem hasNoArea_outline
    {board : Board Binary64}
    (rounded : board.EveryLength IsRounded)
    (positive : board.EveryLength (0 < ·)) :
    hasNoArea board.outline = false := by
  have lower : IsFrom true 40 ((board.edge .bottom - 0) * (0 - board.edge .right)) :=
    isFrom_term (rounded.edge .bottom) (positive.edge .bottom) (rounded.edge .right)
      (positive.edge .right)
  have upper : IsFrom true 40 ((board.edge .top - 0) * (0 - board.edge .left)) :=
    isFrom_term (rounded.edge .top) (positive.edge .top) (rounded.edge .left)
      (positive.edge .left)
  have last := isFrom_lastTerm (rounded.edge .right) (positive.edge .right)
  -- Each of the three sums rounds to one half of itself at the least.
  have first : IsFrom true 20
      (0 + (board.edge .bottom - 0) * (0 - board.edge .right)) :=
    (isFrom_zero true).add lower (by omega)
  have second : IsFrom true 20
      (0 + (board.edge .bottom - 0) * (0 - board.edge .right) +
        (board.edge .top - 0) * (0 - board.edge .left)) :=
    first.add upper (by omega)
  have third : IsFrom true 10
      (0 + (board.edge .bottom - 0) * (0 - board.edge .right) +
        (board.edge .top - 0) * (0 - board.edge .left) +
          (0 - 0) * (board.edge .right - 0)) :=
    second.add last (by omega)
  have two : Within 5 (2 : Binary64) :=
    within_ofNat 2 (by
      have room := two_pow_sixty_four_le_scale
      rw [two_pow_wholePlaces]
      omega)
  have area : IsFrom true 1 (signedArea board.outline) :=
    third.div (isFrom_ofNat (by decide)) two (by omega)
  exact decide_eq_false area.abs.not_le_zero

end Outline
end Joinery
