import Joinery.Arithmetic.Lexeme

/-!
# Evaluation of arithmetic

Lexemes are evaluated from left to right by a machine with a stack. Products bind
tighter than sums, both group to the left, and signs bind tightest. A frame holds
what is pending inside one pair of parentheses: a sum, a product and signs. The
machine stops at the first fault that it meets.
-/

namespace Joinery
namespace Arithmetic

/-- What is wrong with an expression. -/
inductive Fault
  | malformed
  | dividesByZero
  | nestedTooDeeply
  deriving DecidableEq

/-- The number of parentheses and signs that may be open at a time. -/
def nestingLimit : Nat := 100

/-- Apply a sign. -/
def Sign.apply : Sign → Binary64 → Binary64
  | .plus, value => value
  | .minus, value => -value

/-- Add a term with its sign. -/
def Sign.combine : Sign → Binary64 → Binary64 → Binary64
  | .plus, left, right => left + right
  | .minus, left, right => left - right

/-- Multiply or divide. -/
def Scaling.combine : Scaling → Binary64 → Binary64 → Except Fault Binary64
  | .times, left, right => .ok (left * right)
  | .over, left, right =>
      if right == 0 then .error .dividesByZero else .ok (left / right)

/-- What is pending inside one pair of parentheses. -/
structure Frame where
  /-- The sum so far and the sign of its next term. -/
  sum : Option (Binary64 × Sign)
  /-- The product so far and the operator before its next factor. -/
  product : Option (Binary64 × Scaling)
  /-- Signs of the next factor, the innermost first. -/
  signs : List Sign

namespace Frame

/-- Nothing is pending. -/
def empty : Frame := ⟨none, none, []⟩

/-- The sum with its last term. -/
def total (frame : Frame) (term : Binary64) : Binary64 :=
  match frame.sum with
  | none => term
  | some (before, sign) => sign.combine before term

/-- The product with its next factor, to which the pending signs apply. -/
def factor (frame : Frame) (value : Binary64) : Except Fault Binary64 :=
  let signed := frame.signs.foldl (fun inner sign => sign.apply inner) value
  match frame.product with
  | none => .ok signed
  | some (before, scaling) => scaling.combine before signed

end Frame

/-- What the machine is waiting for. -/
inductive State
  /-- A factor must follow. -/
  | expecting (frame : Frame) (outer : List Frame)
  /-- A product is complete so far. -/
  | holding (product : Binary64) (frame : Frame) (outer : List Frame)

namespace State

/-- The state before the first lexeme. -/
def start : State := .expecting .empty []

/-- Number of parentheses and signs that are open around the innermost
parentheses. -/
def outerDepth : List Frame → Nat
  | [] => 0
  | frame :: outer => frame.signs.length + 1 + outerDepth outer

/-- Number of parentheses and signs that are open. -/
def depth (frame : Frame) (outer : List Frame) : Nat :=
  frame.signs.length + outerDepth outer

/-- The state behind a complete factor. -/
def complete (value : Binary64) (frame : Frame) (outer : List Frame) :
    Except Fault State := do
  let product ← frame.factor value
  return .holding product { frame with product := none, signs := [] } outer

/-- The state in which one more parenthesis or sign is open, if that is not too
deep. -/
def enter (frame : Frame) (outer : List Frame) (inner : State) : Except Fault State :=
  if depth frame outer < nestingLimit then .ok inner else .error .nestedTooDeeply

/-- The state behind one lexeme. -/
def step : State → Lexeme → Except Fault State
  | .expecting frame outer, .number value => complete value frame outer
  | .expecting frame outer, .sign sign =>
      enter frame outer (.expecting { frame with signs := sign :: frame.signs } outer)
  | .expecting frame outer, .opening =>
      enter frame outer (.expecting .empty (frame :: outer))
  | .expecting _ _, _ => .error .malformed
  | .holding product frame outer, .scaling scaling =>
      .ok (.expecting { frame with product := some (product, scaling) } outer)
  | .holding product frame outer, .sign sign =>
      .ok (.expecting { frame with sum := some (frame.total product, sign) } outer)
  | .holding product frame (next :: outer), .closing =>
      complete (frame.total product) next outer
  | .holding _ _ _, _ => .error .malformed

/-- The state behind a row of lexemes. -/
def run : State → List Lexeme → Except Fault State
  | state, [] => .ok state
  | state, lexeme :: rest => do (← state.step lexeme).run rest

/-- The value, if nothing is open. -/
def finish : State → Except Fault Binary64
  | .holding product frame [] => .ok (frame.total product)
  | _ => .error .malformed

end State

/-- The value of a row of lexemes. -/
def value (lexemes : List Lexeme) : Except Fault Binary64 := do
  (← State.start.run lexemes).finish

end Arithmetic
end Joinery
