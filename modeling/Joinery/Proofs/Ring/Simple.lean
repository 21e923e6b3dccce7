import Joinery.Proofs.Ring.Edge
import Mathlib.Data.List.Chain

/-!
# Simple rings

A ring is simple if two of its edges have no point in common but the corner between them.
Two edges of a simple ring never stop at the same point, so none but neighbours have a
corner between them. So the test, which compares neighbours in another way than edges that
are further apart, finds a crossing exactly in the rings that are not simple.
-/

namespace Joinery
namespace Ring

namespace Edge

/-- Two edges have no point in common but the corner between them. -/
def IsClear (first second : Edge) : Prop :=
  first.IsApart second ∨ second.Continues first ∨ first.Continues second

variable {first second : Edge}

theorem IsApart.symm (apart : first.IsApart second) : second.IsApart first :=
  fun point onSecond onFirst => apart point onFirst onSecond

theorem IsClear.symm (clear : first.IsClear second) : second.IsClear first :=
  clear.imp IsApart.symm Or.symm

theorem isApart_of_meets (separate : first.meets second = false) : first.IsApart second := by
  intro point onFirst onSecond
  rw [meets_iff.mpr ⟨point, onFirst, onSecond⟩] at separate
  cases separate

theorem continues_of_foldsInto
    (corner : first.stop = second.start)
    (straight : first.foldsInto second = false) :
    second.Continues first := by
  refine ⟨corner, fun point onFirst onSecond => ?_⟩
  by_contra different
  rw [(foldsInto_iff corner).mpr ⟨point, onFirst, onSecond, different⟩] at straight
  cases straight

section Clear

variable (clear : first.IsClear second) (solid : first.start ≠ first.stop)
  (otherSolid : second.start ≠ second.stop)

include clear solid otherSolid

theorem stop_ne_stop : first.stop ≠ second.stop := by
  intro same
  rcases clear with apart | continues | continues
  · exact apart _ first.contains_stop (same ▸ second.contains_stop)
  · exact otherSolid (continues.1.symm.trans same)
  · exact solid (same.trans continues.1).symm

/-- Of two edges with a corner between them, the second one continues the first one. -/
theorem continues_of_isClear (corner : first.stop = second.start) : second.Continues first := by
  have different := stop_ne_stop clear solid otherSolid
  rcases clear with apart | continues | continues
  · exact absurd (corner ▸ second.contains_start) (apart _ first.contains_stop)
  · exact continues
  · -- The edges would have their ends in common as well.
    have same := continues.2 _ (corner ▸ second.contains_start) first.contains_stop
    rw [Point.mk.injEq, Int.cast_inj, Int.cast_inj] at same
    exact absurd (congrArg₂ Point.mk same.1 same.2) different

end Clear

theorem isApart_of_isClear
    (clear : first.IsClear second)
    (starts : first.stop ≠ second.start)
    (stops : second.stop ≠ first.start) :
    first.IsApart second := by
  rcases clear with apart | continues | continues
  · exact apart
  · exact absurd continues.1 starts
  · exact absurd continues.1 stops

end Edge

/-- A ring is simple if two of its edges have no point in common but the corner between
them. -/
def IsSimple (edges : List Edge) : Prop := edges.Pairwise Edge.IsClear

/-- Edges of some length that start where the ones before them stop. -/
structure IsRow (row : List Edge) : Prop where
  solid : ∀ edge ∈ row, edge.start ≠ edge.stop
  joined : row.IsChain fun before edge => before.stop = edge.start

/-- The last edge of a row stops where the first one starts. -/
def IsClosed (row : List Edge) : Prop :=
  ∀ first last, row.head? = some first → row.getLast? = some last → last.stop = first.start

section Rows

variable {edge before : Edge} {row rest : List Edge}

theorem IsRow.tail (isRow : IsRow (edge :: rest)) : IsRow rest :=
  ⟨fun other member => isRow.solid other (List.mem_cons_of_mem _ member), isRow.joined.tail⟩

theorem IsRow.dropLast (isRow : IsRow (rest ++ [edge])) : IsRow rest :=
  ⟨fun other member => isRow.solid other (List.mem_append_left _ member),
    isRow.joined.left_of_append⟩

/-- An edge behind the first one of a row starts where some edge of the row stops. -/
theorem IsRow.exists_before
    (isRow : IsRow (edge :: rest))
    {other : Edge}
    (member : other ∈ rest) :
    ∃ before ∈ edge :: rest, before.stop = other.start := by
  induction rest generalizing edge with
  | nil => cases member
  | cons next further inductionHypothesis =>
      rcases List.mem_cons.mp member with rfl | later
      · exact ⟨edge, List.mem_cons_self, (List.isChain_cons_cons.mp isRow.joined).1⟩
      · obtain ⟨before, known, stops⟩ := inductionHypothesis isRow.tail later
        exact ⟨before, List.mem_cons_of_mem _ known, stops⟩

/-! ## What the test finds -/

/-- An edge of a simple row to which none comes back does not collide. -/
theorem collides_eq_false
    (isRow : IsRow (edge :: rest))
    (simple : IsSimple (edge :: rest))
    (noReturn : ∀ other ∈ rest, other.stop ≠ edge.start) :
    collides edge rest = false := by
  cases rest with
  | nil => rfl
  | cons next others =>
      obtain ⟨clear, -⟩ := List.pairwise_cons.mp simple
      obtain ⟨solid, othersSolid⟩ := List.forall_mem_cons.mp isRow.solid
      have nextContinues := Edge.continues_of_isClear (clear next List.mem_cons_self) solid
        (othersSolid next List.mem_cons_self) (List.isChain_cons_cons.mp isRow.joined).1
      rw [collides, nextContinues.foldsInto, Bool.false_or, List.any_eq_false]
      intro other member
      obtain ⟨before, known, stops⟩ := isRow.tail.exists_before member
      have later := List.mem_cons_of_mem next member
      have starts : edge.stop ≠ other.start :=
        stops ▸ Edge.stop_ne_stop (clear before known) solid (othersSolid before known)
      rw [(Edge.isApart_of_isClear (clear other later) starts (noReturn other later)).meets]
      exact Bool.false_ne_true

/-- Behind an edge of a simple row, no edges collide. -/
theorem crossesOpen_eq_false
    (isRow : IsRow (before :: row))
    (simple : IsSimple (before :: row)) :
    crossesOpen row = false := by
  induction row generalizing before with
  | nil => rfl
  | cons edge rest inductionHypothesis =>
      obtain ⟨clear, further⟩ := List.pairwise_cons.mp simple
      obtain ⟨solid, othersSolid⟩ := List.forall_mem_cons.mp isRow.solid
      have noReturn : ∀ other ∈ rest, other.stop ≠ edge.start := by
        intro other member
        have later := List.mem_cons_of_mem edge member
        rw [← (List.isChain_cons_cons.mp isRow.joined).1]
        exact (Edge.stop_ne_stop (clear other later) solid (othersSolid other later)).symm
      rw [crossesOpen, collides_eq_false isRow.tail further noReturn,
        inductionHypothesis isRow.tail further]
      rfl

/-! ## What the test leaves -/

/-- An edge that does not collide is clear of the edges behind it. -/
theorem isClear_of_collides
    (isRow : IsRow (edge :: rest))
    (free : collides edge rest = false) :
    ∀ other ∈ rest, edge.IsClear other := by
  cases rest with
  | nil => exact fun _ member => absurd member List.not_mem_nil
  | cons next others =>
      rw [collides, Bool.or_eq_false_iff, List.any_eq_false] at free
      have corner := (List.isChain_cons_cons.mp isRow.joined).1
      refine List.forall_mem_cons.mpr
        ⟨Or.inr (Or.inl (Edge.continues_of_foldsInto corner free.1)), fun other member => ?_⟩
      exact Or.inl (Edge.isApart_of_meets (Bool.eq_false_of_not_eq_true (free.2 other member)))

theorem isSimple_of_crossesOpen
    (isRow : IsRow row)
    (free : crossesOpen row = false) :
    IsSimple row := by
  induction row with
  | nil => exact List.Pairwise.nil
  | cons edge rest inductionHypothesis =>
      rw [crossesOpen, Bool.or_eq_false_iff] at free
      exact List.pairwise_cons.mpr ⟨isClear_of_collides isRow free.1,
        inductionHypothesis isRow.tail free.2⟩

/-! ## Closed rows -/

theorem crosses_append_singleton (first last : Edge) (inner : List Edge) :
    crosses (first :: (inner ++ [last])) =
      (collides first inner || last.foldsInto first || crossesOpen (inner ++ [last])) := by
  simp [crosses]

/-- The test finds no crossing exactly in closed rows that are simple. -/
theorem crosses_eq_false_iff
    (isRow : IsRow row)
    (isClosed : IsClosed row) :
    crosses row = false ↔ IsSimple row := by
  cases row with
  | nil => exact iff_of_true rfl List.Pairwise.nil
  | cons first rest =>
      rcases List.eq_nil_or_concat' rest with rfl | ⟨inner, last, rfl⟩
      · exact iff_of_true rfl (List.pairwise_singleton _ _)
      · have corner : last.stop = first.start :=
          isClosed first last rfl (List.getLast?_concat (l := first :: inner))
        have isInner : IsRow (first :: inner) :=
          IsRow.dropLast (show IsRow ((first :: inner) ++ [last]) from isRow)
        have inside : last ∈ inner ++ [last] := by simp
        rw [crosses_append_singleton, Bool.or_eq_false_iff, Bool.or_eq_false_iff]
        constructor
        · rintro ⟨⟨free, straight⟩, rest⟩
          refine List.pairwise_cons.mpr ⟨fun other member => ?_,
            isSimple_of_crossesOpen isRow.tail rest⟩
          rcases List.mem_append.mp member with known | isLast
          · exact isClear_of_collides isInner free other known
          · rw [List.mem_singleton.mp isLast]
            exact Or.inr (Or.inr (Edge.continues_of_foldsInto corner straight))
        · intro simple
          obtain ⟨clear, further⟩ := List.pairwise_cons.mp simple
          obtain ⟨-, -, beforeLast⟩ := List.pairwise_append.mp further
          obtain ⟨solid, othersSolid⟩ := List.forall_mem_cons.mp isRow.solid
          have lastSolid := othersSolid last inside
          have noReturn : ∀ other ∈ inner, other.stop ≠ first.start := by
            intro other member
            rw [← corner]
            exact Edge.stop_ne_stop (beforeLast other member last (List.mem_singleton_self _))
              (othersSolid other (List.mem_append_left _ member)) lastSolid
          have innerSimple : IsSimple (first :: inner) :=
            simple.sublist (List.cons_sublist_cons.mpr (List.sublist_append_left _ _))
          have continues := Edge.continues_of_isClear (clear last inside).symm lastSolid solid corner
          exact ⟨⟨collides_eq_false isInner innerSimple noReturn, continues.foldsInto⟩,
            crossesOpen_eq_false isRow simple⟩

end Rows

/-! ## Edges through points -/

section Points

variable {points : List (Point Int)} {edge : Edge}

theorem start_of_head?_edges (known : (edges points).head? = some edge) :
    points.head? = some edge.start := by
  induction points with
  | nil => cases known
  | cons point rest inductionHypothesis =>
      cases rest with
      | nil => cases known
      | cons next further =>
          rw [edges] at known
          split at known
          next same =>
            rw [same]
            exact inductionHypothesis known
          next different =>
            cases known
            rfl

/-- The last point is where the last edge stops, or the first point if there is no edge. -/
theorem getLast?_cons_eq (point : Point Int) (rest : List (Point Int)) :
    (point :: rest).getLast? =
      some (((edges (point :: rest)).getLast?.map Edge.stop).getD point) := by
  induction rest generalizing point with
  | nil => rfl
  | cons next further inductionHypothesis =>
      rw [List.getLast?_cons_cons, inductionHypothesis, edges]
      split
      next same => rw [same]
      next different =>
        rw [List.getLast?_cons]
        cases (edges (next :: further)).getLast? with
        | none => rfl
        | some last => rfl

theorem stop_of_getLast?_edges (known : (edges points).getLast? = some edge) :
    points.getLast? = some edge.stop := by
  cases points with
  | nil => cases known
  | cons point rest =>
      rw [getLast?_cons_eq, known]
      rfl

/-- The edges through some points are a row. -/
theorem isRow_edges (points : List (Point Int)) : IsRow (edges points) := by
  induction points with
  | nil => exact ⟨by simp [edges], by simp [edges]⟩
  | cons point rest inductionHypothesis =>
      cases rest with
      | nil => exact ⟨by simp [edges], by simp [edges]⟩
      | cons next further =>
          rw [edges]
          split
          next same => exact inductionHypothesis
          next different =>
            refine ⟨List.forall_mem_cons.mpr ⟨different, inductionHypothesis.solid⟩,
              List.isChain_cons.mpr ⟨fun other first => ?_, inductionHypothesis.joined⟩⟩
            exact Option.some.inj (start_of_head?_edges first)

/-- If the first point comes again at the end, the row is closed. -/
theorem isClosed_edges (closed : points.head? = points.getLast?) : IsClosed (edges points) := by
  intro first last isFirst isLast
  rw [start_of_head?_edges isFirst, stop_of_getLast?_edges isLast] at closed
  exact (Option.some.inj closed).symm

end Points

end Ring
end Joinery
