import Mathlib.Algebra.Order.Field.Basic
import Mathlib.Data.List.Basic
import Mathlib.Data.Rat.Lemmas
import Mathlib.Order.Bounds.Basic
import Mathlib.Tactic.Linarith
import Mathlib.Tactic.Ring
import Joinery.Face

/-!
# Dominant faces

Faces are ranked by their areas, and faces of one area stay in their own order. The area of a
face times the length across it is the volume, so the ranking is also one by the lengths
across, from the shortest to the longest. That is why the two faces in front show the longest
edge of the board. Numbers are exact here.
-/

namespace Joinery

namespace Face

/-- The faces in their own order. -/
def all : List Face := [.front, .side, .top]

/-- Place of a face in the order of the faces. -/
def place : Face → Nat
  | .front => 0
  | .side => 1
  | .top => 2

theorem letter_injective : Function.Injective letter := by
  intro first second same
  apply Option.some.inj
  rw [← ofLetter?_letter first, ← ofLetter?_letter second, same]

end Face

namespace Board

/-- The length of a board across a face. -/
def across (board : Board ℚ) : Face → ℚ
  | .front => board.depth
  | .side => board.width
  | .top => board.height

/-- One of the edges of a face has some length. -/
def HasEdge (board : Board ℚ) (face : Face) (length : ℚ) : Prop :=
  length = (board.faceSize face).width ∨ length = (board.faceSize face).height

/-- A face has a larger area than another one, or the same area and an earlier place. -/
def RanksBefore (board : Board ℚ) (earlier later : Face) : Prop :=
  board.faceArea later < board.faceArea earlier ∨
    board.faceArea later = board.faceArea earlier ∧ earlier.place < later.place

/-- The dimensions of a board are positive. -/
structure IsSolid (board : Board ℚ) : Prop where
  width : 0 < board.width
  height : 0 < board.height
  depth : 0 < board.depth

variable {board : Board ℚ} {first second third : Face}

/-! ## The ranking -/

theorem RanksBefore.of_lt
    (larger : board.faceArea second < board.faceArea first) :
    board.RanksBefore first second :=
  Or.inl larger

/-- A face that is not smaller ranks before the faces at later places. -/
theorem RanksBefore.of_not_lt
    (notSmaller : ¬ board.faceArea first < board.faceArea second)
    (earlier : first.place < second.place) :
    board.RanksBefore first second := by
  apply (not_lt.mp notSmaller).lt_or_eq.imp_right
  intro same
  exact ⟨same, earlier⟩

theorem RanksBefore.le (ranks : board.RanksBefore first second) :
    board.faceArea second ≤ board.faceArea first := by
  rcases ranks with larger | ⟨same, -⟩
  · exact larger.le
  · exact same.le

theorem RanksBefore.trans
    (before : board.RanksBefore first second)
    (behind : board.RanksBefore second third) :
    board.RanksBefore first third := by
  rcases before with larger | ⟨same, earlier⟩
  · exact .of_lt (behind.le.trans_lt larger)
  · rcases behind with larger | ⟨equal, later⟩
    · exact .of_lt (larger.trans_eq same)
    · exact Or.inr ⟨equal.trans same, earlier.trans later⟩

theorem pairwise_ranksBefore
    (before : board.RanksBefore first second)
    (behind : board.RanksBefore second third) :
    [first, second, third].Pairwise board.RanksBefore := by
  simp [before, behind, before.trans behind]

/-- Every face is ranked once. -/
theorem rankedFaces_perm (board : Board ℚ) : board.rankedFaces.Perm Face.all := by
  unfold rankedFaces
  split_ifs <;> decide

/-- The ranking is by area, and by place among equal areas. -/
theorem pairwise_rankedFaces (board : Board ℚ) :
    board.rankedFaces.Pairwise board.RanksBefore := by
  unfold rankedFaces
  split_ifs with topOverSide sideOverFront topOverFront sideOverFront topOverFront
  · exact pairwise_ranksBefore (.of_lt topOverSide) (.of_lt sideOverFront)
  · exact pairwise_ranksBefore (.of_lt topOverFront) (.of_not_lt sideOverFront (by decide))
  · exact pairwise_ranksBefore (.of_not_lt topOverFront (by decide)) (.of_lt topOverSide)
  · exact pairwise_ranksBefore (.of_not_lt topOverSide (by decide)) (.of_lt topOverFront)
  · exact pairwise_ranksBefore (.of_lt sideOverFront) (.of_not_lt topOverFront (by decide))
  · exact pairwise_ranksBefore (.of_not_lt sideOverFront (by decide))
      (.of_not_lt topOverSide (by decide))

theorem exists_rankedFaces (board : Board ℚ) :
    ∃ first second third, board.rankedFaces = [first, second, third] := by
  apply List.length_eq_three.mp
  exact board.rankedFaces_perm.length_eq

/-! ## Lengths across the faces -/

/-- The edges of a face are the lengths across the other two. -/
theorem hasEdge_iff {face : Face} {length : ℚ} :
    board.HasEdge face length ↔ ∃ other, face ≠ other ∧ length = board.across other := by
  constructor
  · rintro (rfl | rfl)
    · cases face with
      | front => exact ⟨.side, by decide, rfl⟩
      | side => exact ⟨.front, by decide, rfl⟩
      | top => exact ⟨.side, by decide, rfl⟩
    · cases face with
      | front => exact ⟨.top, by decide, rfl⟩
      | side => exact ⟨.top, by decide, rfl⟩
      | top => exact ⟨.front, by decide, rfl⟩
  · rintro ⟨other, different, rfl⟩
    cases face <;> cases other <;> simp_all [HasEdge, faceSize, across]

theorem faceArea_mul_across (board : Board ℚ) (face : Face) :
    board.faceArea face * board.across face = board.width * board.height * board.depth := by
  cases face <;> simp only [faceArea, faceSize, across] <;> ring

theorem IsSolid.across_pos (solid : board.IsSolid) (face : Face) : 0 < board.across face := by
  cases face with
  | front => exact solid.depth
  | side => exact solid.width
  | top => exact solid.height

theorem IsSolid.faceArea_pos (solid : board.IsSolid) (face : Face) :
    0 < board.faceArea face := by
  cases face with
  | front => exact mul_pos solid.width solid.height
  | side => exact mul_pos solid.depth solid.height
  | top => exact mul_pos solid.width solid.depth

/-- A board is thinner across its larger faces. -/
theorem IsSolid.across_le (solid : board.IsSolid) (ranks : board.RanksBefore first second) :
    board.across first ≤ board.across second := by
  by_contra thicker
  have larger : board.faceArea second * board.across second <
      board.faceArea first * board.across first :=
    mul_lt_mul' ranks.le (not_le.mp thicker) (solid.across_pos second).le
      (solid.faceArea_pos first)
  rw [faceArea_mul_across, faceArea_mul_across] at larger
  exact lt_irrefl _ larger

/-- The length across the last face is the largest dimension. -/
theorem IsSolid.isGreatest_across
    (solid : board.IsSolid)
    (ranked : board.rankedFaces = [first, second, third]) :
    IsGreatest {board.width, board.height, board.depth} (board.across third) := by
  have order := board.pairwise_rankedFaces
  have every := board.rankedFaces_perm
  rw [ranked] at order every
  simp only [List.pairwise_cons, List.mem_cons, List.not_mem_nil] at order
  have bound (face : Face) : board.across face ≤ board.across third := by
    have member : face ∈ [first, second, third] :=
      every.mem_iff.mpr (by cases face <;> decide)
    simp only [List.mem_cons, List.not_mem_nil, or_false] at member
    rcases member with rfl | rfl | rfl
    · exact solid.across_le (order.1 third (by simp))
    · exact solid.across_le (order.2.1 third (by simp))
    · exact le_rfl
  constructor
  · cases third <;> simp [across]
  · rintro length (rfl | rfl | rfl)
    · exact bound .side
    · exact bound .top
    · exact bound .front

/-! ## The two faces in front -/

theorem shownLetters_of_view_eq
    (viewless : board.view.getD [] = []) :
    board.shownLetters = board.dominantFaces.map Face.letter := by
  unfold shownLetters
  split
  next viewed => simp [viewed] at viewless
  next => rfl

theorem mapM_ofLetter?_map_letter (faces : List Face) :
    (faces.map Face.letter).mapM Face.ofLetter? = some faces := by
  induction faces with
  | nil => rfl
  | cons face rest inductionHypothesis =>
      rw [List.map_cons, List.mapM_cons, Face.ofLetter?_letter, inductionHypothesis]
      rfl

/-- A solid board without a view shows the two faces at the front of a ranking of all faces by
their areas, in which faces of one area keep their own order. Both of them show the longest
edge of the board. The first one is spanned by the two longest: the length across it is at most
as long as its own edges. -/
theorem dominantFaces_show_longest_edge (solid : board.IsSolid) :
    ∃ first second third, [first, second, third].Perm Face.all ∧
      ([first, second, third].Pairwise fun earlier later =>
        board.faceArea later < board.faceArea earlier ∨
          board.faceArea later = board.faceArea earlier ∧ earlier.place < later.place) ∧
      board.dominantFaces = [first, second] ∧ first.letter ≠ second.letter ∧
      (∀ longest, IsGreatest {board.width, board.height, board.depth} longest →
        board.HasEdge first longest ∧ board.HasEdge second longest) ∧
      (∀ length, board.HasEdge first length → board.across first ≤ length) ∧
      (board.view.getD [] = [] →
        board.shownLetters = [first.letter, second.letter] ∧
        board.shownFaces? = some [first, second] ∧
        ∀ face ∈ [first, second], (face, board.faceSize face) ∈
          [(Face.front, ⟨board.width, board.height⟩), (Face.side, ⟨board.depth, board.height⟩),
            (Face.top, ⟨board.width, board.depth⟩)]) := by
  obtain ⟨first, second, third, ranked⟩ := board.exists_rankedFaces
  have every := board.rankedFaces_perm
  have order := board.pairwise_rankedFaces
  have greatest := solid.isGreatest_across ranked
  have dominant : board.dominantFaces = [first, second] := by
    rw [dominantFaces, ranked]
    rfl
  rw [ranked] at every order
  have different : first ≠ second ∧ first ≠ third ∧ second ≠ third := by
    have once : [first, second, third].Nodup := every.nodup_iff.mpr (by decide)
    simpa [and_assoc] using once
  refine ⟨first, second, third, every, order, dominant, ?_, ?_, ?_, ?_⟩
  · intro same
    exact different.1 (Face.letter_injective same)
  · intro longest isLongest
    rw [isLongest.unique greatest]
    exact ⟨hasEdge_iff.mpr ⟨third, different.2.1, rfl⟩, hasEdge_iff.mpr ⟨third, different.2.2, rfl⟩⟩
  · intro length isEdge
    obtain ⟨other, isOther, rfl⟩ := hasEdge_iff.mp isEdge
    apply solid.across_le
    apply List.rel_of_pairwise_cons order
    have member : other ∈ [first, second, third] :=
      every.mem_iff.mpr (by cases other <;> decide)
    exact (List.mem_cons.mp member).resolve_left isOther.symm
  · intro viewless
    have letters := shownLetters_of_view_eq viewless
    refine ⟨?_, ?_, ?_⟩
    · rw [letters, dominant]
      rfl
    · rw [shownFaces?, letters, dominant, mapM_ofLetter?_map_letter]
    · intro face _
      cases face <;> simp [faceSize]

/-- Of the two smallest faces of this board, which have one area, the side stays. -/
theorem exists_dominantFaces :
    ∃ board : Board ℚ, board.IsSolid ∧ board.faceArea .side = board.faceArea .top ∧
      board.dominantFaces = [.front, .side] ∧
      IsGreatest {board.width, board.height, board.depth} 2 ∧
      board.HasEdge .front 2 ∧ board.HasEdge .side 2 := by
  let board : Board ℚ :=
    ⟨[], [], 2, 2, 1, none, none, none, false, 0, none, none, none, [], true⟩
  have solid : board.IsSolid := ⟨by norm_num [board], by norm_num [board], by norm_num [board]⟩
  have greatest : IsGreatest {board.width, board.height, board.depth} 2 := by
    constructor
    · simp [board]
    · rintro length (rfl | rfl | rfl) <;> norm_num [board]
  have dominant : board.dominantFaces = [.front, .side] := by decide +kernel
  obtain ⟨first, second, third, -, -, shown, -, longest, -, -⟩ :=
    dominantFaces_show_longest_edge solid
  rw [dominant] at shown
  cases shown
  exact ⟨board, solid, by norm_num [board, faceArea, faceSize], dominant, greatest,
    longest 2 greatest⟩

end Board
end Joinery
