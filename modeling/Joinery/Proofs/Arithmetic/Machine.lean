import Joinery.Proofs.Arithmetic.Tree

/-!
# The machine and syntax trees

The machine accepts a row of symbols exactly if it is the row of a tree, and its value
is that of the tree. In one direction every tree drives the machine as its evaluation
says. In the other direction what the machine has read is always the beginning of a
tree, no matter which values it has computed.
-/

namespace Joinery
namespace Arithmetic

variable {α : Type}

/-! ## Trees drive the machine -/

namespace Tree

/-- The lexemes of a tree from left to right. -/
def lexemes (valueOf : α → Binary64) {level : Level} (tree : Tree α level) : List Lexeme :=
  tree.symbols.map (Symbol.lexeme valueOf)

/-- The machine does with the lexemes of a tree what evaluation of the tree does, and
then goes on behind them. A sum leaves a product that completes it. -/
def Drives (valueOf : α → Binary64) : {level : Level} → Tree α level → Prop
  | .factor, tree => ∀ frame outer rest,
      (State.expecting frame outer).run (tree.lexemes valueOf ++ rest) = do
        let value ← tree.evaluate valueOf (State.depth frame outer)
        (← State.complete value frame outer).run rest
  | .product, tree => ∀ sum outer rest,
      (State.expecting ⟨sum, none, []⟩ outer).run (tree.lexemes valueOf ++ rest) = do
        let value ← tree.evaluate valueOf (State.outerDepth outer)
        (State.holding value ⟨sum, none, []⟩ outer).run rest
  | .sum, tree => ∀ outer rest,
      match tree.evaluate valueOf (State.outerDepth outer) with
      | .error fault =>
          (State.expecting .empty outer).run (tree.lexemes valueOf ++ rest) = .error fault
      | .ok value => ∃ sum product, Frame.total ⟨sum, none, []⟩ product = value ∧
          (State.expecting .empty outer).run (tree.lexemes valueOf ++ rest) =
            (State.holding product ⟨sum, none, []⟩ outer).run rest

theorem run_cons (state : State) (lexeme : Lexeme) (rest : List Lexeme) :
    state.run (lexeme :: rest) = state.step lexeme >>= fun next => next.run rest := rfl

theorem enter_eq (frame : Frame) (outer : List Frame) (inner : State) :
    State.enter frame outer inner =
      if State.depth frame outer < nestingLimit then .ok inner
      else .error .nestedTooDeeply := rfl

theorem drives (valueOf : α → Binary64) {level : Level} (tree : Tree α level) :
    tree.Drives valueOf := by
  induction tree with
  | operand argument =>
      intro frame outer rest
      rfl
  | signed sign inner inductionHypothesis =>
      intro frame outer rest
      have step : (State.expecting frame outer).step (.sign sign) =
          State.enter frame outer
            (.expecting { frame with signs := sign :: frame.signs } outer) := rfl
      have deeper : State.depth { frame with signs := sign :: frame.signs } outer =
          State.depth frame outer + 1 := by
        simp only [State.depth, List.length_cons]
        omega
      simp only [lexemes, symbols, List.map_cons, List.cons_append, Symbol.lexeme, run_cons,
        step, enter_eq, evaluate]
      by_cases room : State.depth frame outer < nestingLimit
      · have inside := inductionHypothesis { frame with signs := sign :: frame.signs } outer rest
        rw [deeper] at inside
        simp only [room, if_true]
        refine inside.trans ?_
        cases inner.evaluate valueOf (State.depth frame outer + 1) with
        | error fault => rfl
        | ok value => rfl
      · simp only [room, if_false]
        rfl
  | enclosed inner inductionHypothesis =>
      intro frame outer rest
      have step : (State.expecting frame outer).step .opening =
          State.enter frame outer (.expecting .empty (frame :: outer)) := rfl
      have deeper : State.outerDepth (frame :: outer) = State.depth frame outer + 1 := by
        simp only [State.outerDepth, State.depth]
        omega
      simp only [lexemes, symbols, List.map_cons, List.map_append, List.map_nil,
        List.cons_append, List.append_assoc, List.nil_append, Symbol.lexeme, run_cons, step,
        enter_eq, evaluate]
      by_cases room : State.depth frame outer < nestingLimit
      · have inside := inductionHypothesis (frame :: outer) (.closing :: rest)
        rw [deeper] at inside
        simp only [room, if_true]
        cases outcome : inner.evaluate valueOf (State.depth frame outer + 1) with
        | error fault =>
            simp only [outcome] at inside
            exact inside
        | ok value =>
            simp only [outcome] at inside
            obtain ⟨sum, product, total, inside⟩ := inside
            refine inside.trans ?_
            rw [← total]
            rfl
      · simp only [room, if_false]
        rfl
  | single factor inductionHypothesis =>
      intro sum outer rest
      have inside := inductionHypothesis ⟨sum, none, []⟩ outer rest
      simp only [State.depth, List.length_nil, Nat.zero_add] at inside
      exact inside
  | scaled before scaling factor beforeHypothesis factorHypothesis =>
      intro sum outer rest
      simp only [lexemes, symbols, List.map_append, List.map_cons, List.append_assoc,
        List.cons_append]
      refine (beforeHypothesis sum outer _).trans ?_
      simp only [evaluate]
      cases before.evaluate valueOf (State.outerDepth outer) with
      | error fault => rfl
      | ok left =>
          have inside := factorHypothesis ⟨sum, some (left, scaling), []⟩ outer rest
          simp only [State.depth, List.length_nil, Nat.zero_add] at inside
          refine inside.trans ?_
          cases factor.evaluate valueOf (State.outerDepth outer) with
          | error fault => rfl
          | ok right =>
              have completed : State.complete right ⟨sum, some (left, scaling), []⟩ outer =
                  scaling.combine left right >>= fun product =>
                    .ok (.holding product ⟨sum, none, []⟩ outer) := rfl
              change State.complete right ⟨sum, some (left, scaling), []⟩ outer >>= _ =
                scaling.combine left right >>= _
              rw [completed]
              cases scaling.combine left right with
              | error fault => rfl
              | ok product => rfl
  | lone term inductionHypothesis =>
      intro outer rest
      have inside := inductionHypothesis none outer rest
      simp only [evaluate]
      cases outcome : term.evaluate valueOf (State.outerDepth outer) with
      | error fault =>
          rw [outcome] at inside
          exact inside
      | ok value =>
          rw [outcome] at inside
          exact ⟨none, value, rfl, inside⟩
  | extended before sign term beforeHypothesis termHypothesis =>
      intro outer rest
      have first := beforeHypothesis outer (.sign sign :: (term.lexemes valueOf ++ rest))
      simp only [lexemes, symbols, evaluate, List.map_append, List.map_cons,
        List.append_assoc, List.cons_append] at first ⊢
      cases outcome : before.evaluate valueOf (State.outerDepth outer) with
      | error fault =>
          simp only [outcome] at first
          exact first
      | ok left =>
          simp only [outcome] at first
          obtain ⟨sum, product, rfl, first⟩ := first
          have second := termHypothesis
            (some (Frame.total ⟨sum, none, []⟩ product, sign)) outer rest
          cases outcome : term.evaluate valueOf (State.outerDepth outer) with
          | error fault =>
              rw [outcome] at second
              exact first.trans second
          | ok right =>
              rw [outcome] at second
              exact ⟨_, right, rfl, first.trans second⟩

end Tree

/-! ## What has been read -/

/-- What has been read inside of one pair of parentheses, in front of a factor. -/
structure Unfinished (α : Type) where
  /-- The terms so far and the sign of the next one. -/
  sum : Option (Tree α .sum × Sign)
  /-- The factors of the last term so far and the operator before the next one. -/
  product : Option (Tree α .product × Scaling)
  /-- Signs of the next factor, the innermost first. -/
  signs : List Sign

namespace Unfinished

/-- Symbols of the terms that have been read. -/
def sumSymbols : Option (Tree α .sum × Sign) → List (Symbol α)
  | none => []
  | some (before, sign) => before.symbols ++ [.sign sign]

/-- Symbols of the factors that have been read. -/
def productSymbols : Option (Tree α .product × Scaling) → List (Symbol α)
  | none => []
  | some (before, scaling) => before.symbols ++ [.scaling scaling]

/-- Symbols that have been read inside of the parentheses. -/
def symbols (unfinished : Unfinished α) : List (Symbol α) :=
  sumSymbols unfinished.sum ++ productSymbols unfinished.product ++
    unfinished.signs.reverse.map .sign

/-- Symbols that have been read outside of the parentheses, the innermost first. -/
def outerSymbols : List (Unfinished α) → List (Symbol α)
  | [] => []
  | unfinished :: outer => outerSymbols outer ++ unfinished.symbols ++ [.opening]

/-- The sum that ends with a term. -/
def close (sum : Option (Tree α .sum × Sign)) (term : Tree α .product) : Tree α .sum :=
  match sum with
  | none => .lone term
  | some (before, sign) => .extended before sign term

theorem symbols_close (sum : Option (Tree α .sum × Sign)) (term : Tree α .product) :
    (close sum term).symbols = sumSymbols sum ++ term.symbols := by
  cases sum with
  | none => rfl
  | some pending => simp [close, sumSymbols, Tree.symbols]

/-- A factor with signs, the innermost first. -/
def sign (signs : List Sign) (factor : Tree α .factor) : Tree α .factor :=
  signs.foldl (fun inner sign => .signed sign inner) factor

theorem symbols_sign (signs : List Sign) (factor : Tree α .factor) :
    (sign signs factor).symbols = signs.reverse.map .sign ++ factor.symbols := by
  induction signs generalizing factor with
  | nil => rfl
  | cons first rest inductionHypothesis =>
      rw [sign, List.foldl_cons, ← sign, inductionHypothesis]
      simp [Tree.symbols]

/-- The term that ends with a factor. -/
def extend (unfinished : Unfinished α) (factor : Tree α .factor) : Tree α .product :=
  match unfinished.product with
  | none => .single (sign unfinished.signs factor)
  | some (before, scaling) => .scaled before scaling (sign unfinished.signs factor)

theorem symbols_extend (unfinished : Unfinished α) (factor : Tree α .factor) :
    sumSymbols unfinished.sum ++ (unfinished.extend factor).symbols =
      unfinished.symbols ++ factor.symbols := by
  obtain ⟨sum, product, signs⟩ := unfinished
  cases product with
  | none => simp [extend, symbols, productSymbols, Tree.symbols, symbols_sign]
  | some pending => simp [extend, symbols, productSymbols, Tree.symbols, symbols_sign]

end Unfinished

open Unfinished in
/-- Symbols that bring the machine to a state are the beginning of a tree, with as many
open parentheses as the state has frames around its own. -/
def IsBeginning (symbols : List (Symbol α)) : State → Prop
  | .expecting _ frames => ∃ (inner : Unfinished α) (outer : List (Unfinished α)),
      outer.length = frames.length ∧ symbols = outerSymbols outer ++ inner.symbols
  | .holding _ _ frames => ∃ sum, ∃ product : Tree α .product, ∃ outer,
      outer.length = frames.length ∧
        symbols = outerSymbols outer ++ (sumSymbols sum ++ product.symbols)

/-- A factor behind a beginning leaves one more beginning. -/
theorem isBeginning_of_complete
    {valueOf : Binary64}
    {frame : Frame}
    {frames : List Frame}
    {next : State}
    {inner : Unfinished α}
    {outer : List (Unfinished α)}
    (same : outer.length = frames.length)
    (factor : Tree α .factor)
    (completed : State.complete valueOf frame frames = .ok next) :
    IsBeginning (Unfinished.outerSymbols outer ++ (inner.symbols ++ factor.symbols)) next := by
  obtain ⟨product, -, reached⟩ := bind_eq_ok.mp completed
  cases reached
  refine ⟨inner.sum, inner.extend factor, outer, same, ?_⟩
  rw [Unfinished.symbols_extend]

/-- Every symbol that the machine accepts extends the beginning. -/
theorem isBeginning_of_step
    {valueOf : α → Binary64}
    {symbols : List (Symbol α)}
    {symbol : Symbol α}
    {state next : State}
    (beginning : IsBeginning symbols state)
    (stepped : state.step (symbol.lexeme valueOf) = .ok next) :
    IsBeginning (symbols ++ [symbol]) next := by
  cases state with
  | expecting frame frames =>
      obtain ⟨inner, outer, same, rfl⟩ := beginning
      rw [List.append_assoc]
      cases symbol with
      | operand argument => exact isBeginning_of_complete same (.operand argument) stepped
      | sign plusOrMinus =>
          simp only [Symbol.lexeme, State.step, State.enter] at stepped
          split at stepped
          · cases stepped
            refine ⟨{ inner with signs := plusOrMinus :: inner.signs }, outer, same, ?_⟩
            simp [Unfinished.symbols]
          · cases stepped
      | opening =>
          simp only [Symbol.lexeme, State.step, State.enter] at stepped
          split at stepped
          · cases stepped
            refine ⟨⟨none, none, []⟩, inner :: outer, by simp [same], ?_⟩
            simp [Unfinished.outerSymbols, Unfinished.symbols, Unfinished.sumSymbols,
              Unfinished.productSymbols]
          · cases stepped
      | scaling timesOrOver => cases stepped
      | closing => cases stepped
  | holding value frame frames =>
      obtain ⟨sum, product, outer, same, rfl⟩ := beginning
      rw [List.append_assoc]
      cases symbol with
      | operand argument => cases stepped
      | sign plusOrMinus =>
          cases stepped
          refine ⟨⟨some (Unfinished.close sum product, plusOrMinus), none, []⟩, outer, same, ?_⟩
          simp [Unfinished.symbols, Unfinished.sumSymbols, Unfinished.productSymbols,
            Unfinished.symbols_close]
      | scaling timesOrOver =>
          cases stepped
          refine ⟨⟨sum, some (product, timesOrOver), []⟩, outer, same, ?_⟩
          simp [Unfinished.symbols, Unfinished.productSymbols]
      | opening => cases stepped
      | closing =>
          cases frames with
          | nil => cases stepped
          | cons nextFrame frames =>
              cases outer with
              | nil => cases same
              | cons inner outer =>
                  rw [List.length_cons, List.length_cons, Nat.add_right_cancel_iff] at same
                  have extended := @isBeginning_of_complete α _ _ _ _ inner _ same
                    (.enclosed (Unfinished.close sum product)) stepped
                  simpa [Unfinished.outerSymbols, Tree.symbols, Unfinished.symbols_close]
                    using extended

/-- All symbols that the machine accepts in a row extend the beginning. -/
theorem isBeginning_of_run
    {valueOf : α → Binary64}
    {before symbols : List (Symbol α)}
    {state final : State}
    (beginning : IsBeginning before state)
    (ran : state.run (symbols.map (Symbol.lexeme valueOf)) = .ok final) :
    IsBeginning (before ++ symbols) final := by
  induction symbols generalizing before state with
  | nil =>
      cases ran
      rw [List.append_nil]
      exact beginning
  | cons symbol rest inductionHypothesis =>
      obtain ⟨next, stepped, ran⟩ := bind_eq_ok.mp ran
      have further := inductionHypothesis (isBeginning_of_step beginning stepped) ran
      rw [List.append_assoc] at further
      exact further

/-- A row of symbols with a value is the row of a tree. -/
theorem exists_tree_of_value
    {valueOf : α → Binary64}
    {symbols : List (Symbol α)}
    {result : Binary64}
    (found : value (symbols.map (Symbol.lexeme valueOf)) = .ok result) :
    ∃ tree : Tree α .sum, tree.symbols = symbols := by
  obtain ⟨final, ran, finished⟩ := bind_eq_ok.mp found
  have start : IsBeginning ([] : List (Symbol α)) .start :=
    ⟨⟨none, none, []⟩, [], rfl, rfl⟩
  have ending := isBeginning_of_run start ran
  cases final with
  | expecting frame frames => cases finished
  | holding product frame frames =>
      cases frames with
      | cons frame frames => cases finished
      | nil =>
          obtain ⟨sum, product, outer, same, rfl⟩ := ending
          obtain rfl := List.length_eq_zero_iff.mp same
          exact ⟨Unfinished.close sum product, Unfinished.symbols_close sum product⟩

/-- The machine computes the values of trees. -/
theorem value_lexemes (valueOf : α → Binary64) (tree : Tree α .sum) :
    value (tree.lexemes valueOf) = tree.evaluate valueOf 0 := by
  have driven := tree.drives valueOf [] []
  rw [List.append_nil] at driven
  unfold value State.start
  simp only [State.outerDepth] at driven
  cases outcome : tree.evaluate valueOf 0 with
  | error fault =>
      rw [outcome] at driven
      simp only at driven
      rw [driven]
      rfl
  | ok result =>
      rw [outcome] at driven
      obtain ⟨sum, product, rfl, driven⟩ := driven
      rw [driven]
      rfl

/-- A row of symbols has a value exactly if it is the row of a tree that has it and is
not nested too deeply. -/
theorem value_map_lexeme_eq_ok_iff
    (valueOf : α → Binary64)
    (symbols : List (Symbol α))
    (result : Binary64) :
    value (symbols.map (Symbol.lexeme valueOf)) = .ok result ↔
      ∃ tree : Tree α .sum, tree.symbols = symbols ∧
        tree.nesting (fun _ => 0) ≤ nestingLimit ∧ tree.value valueOf = some result := by
  constructor
  · intro found
    obtain ⟨tree, rfl⟩ := exists_tree_of_value found
    refine ⟨tree, rfl, ?_⟩
    have evaluated := (value_lexemes valueOf tree).symm.trans found
    rw [Tree.evaluate_eq_ok_iff valueOf tree (Nat.zero_le _), Nat.zero_add] at evaluated
    exact evaluated
  · rintro ⟨tree, rfl, fits, found⟩
    refine (value_lexemes valueOf tree).trans ?_
    rw [Tree.evaluate_eq_ok_iff valueOf tree (Nat.zero_le _), Nat.zero_add]
    exact ⟨fits, found⟩

end Arithmetic
end Joinery
