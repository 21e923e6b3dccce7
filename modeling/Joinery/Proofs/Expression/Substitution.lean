import Joinery.Proofs.Arithmetic.Graft
import Joinery.Proofs.Binary64.PlainText
import Joinery.Proofs.Expression.Operand
import Joinery.Proofs.Token.Tail

/-!
# Substitution of values

References in the text of an expression are replaced by the texts of their values, and
what results is read as plain arithmetic. That is evaluation of the tree that the text
is written by: the text of a value is a factor with at most one sign, no part of it
belongs to a reference, and nothing around it belongs to it.
-/

namespace Joinery
namespace Expression

open Arithmetic

/-! ## A pass over a text -/

section Pass

variable {α : Type} {read : Text.Reader α} {write : α → Except Cause Text}

/-- Characters at which nothing is read are kept. -/
theorem replace_append
    {part : Text}
    (unread : ∀ character ∈ part, ∀ rest, read character rest = none)
    (rest : Text) :
    Text.replace write (Text.pieces read (part ++ rest)) =
      (Text.replace write (Text.pieces read rest)).map (part ++ ·) := by
  induction part with
  | nil =>
      rw [List.nil_append]
      cases Text.replace write (Text.pieces read rest) <;> rfl
  | cons character others inductionHypothesis =>
      obtain ⟨first, unread⟩ := List.forall_mem_cons.mp unread
      rw [List.cons_append, Text.pieces_of_read_eq_none (first _), Text.replace,
        inductionHypothesis unread]
      cases Text.replace write (Text.pieces read rest) <;> rfl

/-- What is read is replaced. -/
theorem replace_of_read
    {first : Char}
    {others rest written : Text}
    {value : α}
    (found : read first (others ++ rest) = some (value, others.length))
    (known : write value = .ok written) :
    Text.replace write (Text.pieces read (first :: others ++ rest)) =
      (Text.replace write (Text.pieces read rest)).map (written ++ ·) := by
  rw [List.cons_append, Text.pieces_of_read_eq_some found, List.drop_left, Text.replace, known]
  cases Text.replace write (Text.pieces read rest) <;> rfl

variable {before after : Operand → Text}

/-- What a pass does with operands: each one is replaced as a whole. -/
def Replaces
    (read : Text.Reader α)
    (write : α → Except Cause Text)
    (before after : Text) : Prop :=
  ∀ rest, Text.startsWith Text.isAsciiWordCharacter rest = false →
    Text.replace write (Text.pieces read (before ++ rest)) =
      (Text.replace write (Text.pieces read rest)).map (after ++ ·)

/-- A pass keeps symbols that are no operands. -/
theorem replaces_symbol
    (symbolic : ∀ mark ∈ marks, ∀ rest, read mark rest = none)
    {symbol : Symbol Operand}
    (operands : ∀ operand, symbol = .operand operand →
      Replaces read write (before operand) (after operand))
    {rest : Text}
    (stops : symbol.isOperand = true →
      Text.startsWith Text.isAsciiWordCharacter rest = false) :
    Text.replace write (Text.pieces read (symbol.text before ++ rest)) =
      (Text.replace write (Text.pieces read rest)).map (symbol.text after ++ ·) := by
  have keeps (mark : Char) (isMark : mark ∈ marks) :=
    @replace_append _ read write [mark] (by simpa using symbolic mark isMark) rest
  cases symbol with
  | operand argument => exact operands argument rfl rest (stops rfl)
  | sign plusOrMinus => cases plusOrMinus <;> exact keeps _ (by decide)
  | scaling timesOrOver => cases timesOrOver <;> exact keeps _ (by decide)
  | opening => exact keeps _ (by decide)
  | closing => exact keeps _ (by decide)

/-- A pass that replaces every operand leaves an expression of what it wrote. -/
theorem exists_replace
    (blanks : ∀ character, Text.isBlank character = true → ∀ rest, read character rest = none)
    (symbolic : ∀ mark ∈ marks, ∀ rest, read mark rest = none)
    {symbols : List (Symbol Operand)}
    (operands : ∀ operand, .operand operand ∈ symbols →
      Replaces read write (before operand) (after operand))
    (apart : AreApart symbols)
    {text : Text}
    (spaced : Text.IsSpaced (symbols.map (Symbol.text before)) text) :
    ∃ written, Text.replace write (Text.pieces read text) = .ok written ∧
      Text.IsSpaced (symbols.map (Symbol.text after)) written := by
  induction symbols generalizing text with
  | nil => cases spaced
  | cons symbol others inductionHypothesis =>
      obtain ⟨follows, apart⟩ := List.isChain_cons.mp apart
      have replaced := @replaces_symbol α read write before after symbolic symbol fun operand same =>
        operands operand (by rw [same]; exact List.mem_cons_self)
      rw [List.map_cons] at spaced
      generalize words : others.map (Symbol.text before) = following at spaced
      cases spaced with
      | last =>
          obtain rfl := List.map_eq_nil_iff.mp words
          have whole := @replaced [] fun _ => rfl
          rw [List.append_nil] at whole
          refine ⟨symbol.text after ++ [], whole, ?_⟩
          rw [List.append_nil]
          exact .last _
      | next word gap blank spaced =>
          subst words
          obtain ⟨written, known, writtenSpaced⟩ := inductionHypothesis
            (fun operand member => operands operand (List.mem_cons_of_mem _ member)) apart spaced
          rw [replaced, replace_append, known]
          · exact ⟨_, rfl, .next _ gap blank writtenSpaced⟩
          · intro character member
            exact blanks character (List.all_eq_true.mp blank character member)
          · intro isOperand
            exact startsWith_behind (fun _ => Token.isAsciiWordCharacter_of_isBlank) (by decide)
              blank spaced fun symbol member => follows symbol member isOperand

end Pass

/-! ## The three passes -/

/-- The text of an operand when variables are replaced by their values. -/
def Operand.variableText (values : Operand → Binary64) : Operand → Text
  | .named name => (values (.named name)).plainText
  | operand => operand.text

/-- The text of an operand when references are replaced by their values. -/
def Operand.plainText (values : Operand → Binary64) : Operand → Text
  | .literal numeral => numeral.text
  | operand => (values operand).plainText

/-- An operand that refers to a number. -/
def Operand.IsReference : Operand → Prop
  | .literal _ => False
  | _ => True

section Operands

variable {scope : Scope} {values : Operand → Binary64} {operand : Operand}

/-- Operands in which a reader finds nothing are kept. -/
theorem replaces_self
    {α : Type}
    {read : Text.Reader α}
    {write : α → Except Cause Text}
    {part : Text}
    (unread : ∀ character ∈ part, ∀ rest, read character rest = none) :
    Replaces read write part part :=
  fun rest _ => replace_append unread rest

theorem ne_of_mem_numeral
    {numeral : Numeral}
    {mark : Char}
    (stops : Numeral.continues mark = false) :
    ∀ character ∈ numeral.text, character ≠ mark := by
  rintro character member rfl
  rw [numeral.continues_of_mem character member] at stops
  cases stops

theorem replaces_variables
    (known : operand.value? scope = some (values operand)) :
    Replaces readVariable (writeVariable scope) operand.text (operand.variableText values) := by
  cases operand with
  | literal numeral =>
      refine replaces_self fun character member => readVariable_eq_none ?_
      exact ne_of_mem_numeral (by decide) character member
  | named name =>
      intro rest stops
      refine replace_of_read (readVariable_text name stops) ?_
      rw [Operand.value?] at known
      rw [writeVariable, known]
      rfl
  | measured id name =>
      refine replaces_self fun character member => readVariable_eq_none ?_
      rintro rfl
      exact absurd (Operand.mem_text_measured member) (by decide)

/-- A reference to a known property is replaced by its value. -/
theorem replaces_measured
    {id : Identifier}
    {name : PropertyName}
    {value : Binary64}
    (known : (Operand.measured id name).value? scope = some value) :
    Replaces readProperty (writeProperty scope) (Operand.measured id name).text
      value.plainText := by
  intro rest _
  obtain ⟨board, found, measured⟩ := Option.bind_eq_some_iff.mp known
  have read : readProperty '{' (id.text ++ '.' :: (name.text ++ ['}']) ++ rest) =
      some (⟨id.text, name.text⟩, (id.text ++ '.' :: (name.text ++ ['}'])).length) := by
    simpa [Nat.add_assoc] using readProperty_text id name rest
  refine replace_of_read read ?_
  simp only [writeProperty, found]
  cases outcome : Scope.property board name.text id.text with
  | error cause =>
      rw [outcome] at measured
      cases measured
  | ok value =>
      rw [outcome] at measured
      cases measured
      rfl

theorem replaces_properties
    (known : operand.value? scope = some (values operand))
    (legible : operand.IsReference → (values operand).IsLegible) :
    Replaces readProperty (writeProperty scope) (operand.variableText values)
      (operand.plainText values) := by
  cases operand with
  | literal numeral =>
      refine replaces_self fun character member => readProperty_eq_none ?_
      exact ne_of_mem_numeral (by decide) character member
  | named name =>
      obtain ⟨numeral, text, -⟩ := (legible trivial).exists_numeral
      simp only [Operand.variableText, Operand.plainText, text]
      refine replaces_self fun character member => readProperty_eq_none ?_
      rintro rfl
      exact absurd (Binary64.mem_signed member) (by decide)
  | measured id name => exact replaces_measured known

end Operands

/-- Plain arithmetic has no letters. -/
theorem toLower_of_isInSymbol
    {character : Char}
    (inside : IsInSymbol character) :
    character.toLower = character := by
  rcases inside with continues | isMark
  · exact Binary64.toLower_of_continues continues
  · have all : marks.all (fun mark => mark.toLower == mark) = true := by decide
    exact eq_of_beq (List.all_eq_true.mp all character isMark)

/-- Plain arithmetic has no distances. -/
theorem withDistances_eq
    {symbols : List (Symbol Numeral)}
    {text : Text}
    (spaced : Text.IsSpaced (symbols.map (Symbol.text Numeral.text)) text) :
    withDistances text = .ok text := by
  have unread : ∀ character ∈ text, ∀ rest, readDistance character rest = none := by
    refine spaced.forall_mem (fun character blank => readDistance_eq_none ?_) ?_
    · rw [Text.toLower_of_isBlank blank]
      rintro rfl
      exact absurd blank (by decide)
    · intro word member character inside
      obtain ⟨symbol, -, rfl⟩ := List.mem_map.mp member
      have isInSymbol := isInSymbol_of_mem symbol character inside
      refine readDistance_eq_none ?_
      rw [toLower_of_isInSymbol isInSymbol]
      rintro rfl
      rcases isInSymbol with continues | isMark
      · exact absurd continues (by decide)
      · exact absurd isMark (by decide)
  have kept := @replace_append _ readDistance writeDistance text unread []
  rw [List.append_nil] at kept
  rw [withDistances, kept]
  exact congrArg Except.ok (List.append_nil text)

/-! ## Values of expressions -/

/-- A numeral with an optional minus sign as a factor. -/
def signedNumeral (negative : Bool) (numeral : Numeral) : Tree Numeral .factor :=
  if negative then .signed .minus (.operand numeral) else .operand numeral

theorem isSpaced_signedNumeral (negative : Bool) (numeral : Numeral) :
    Text.IsSpaced ((signedNumeral negative numeral).symbols.map (Symbol.text Numeral.text))
      (Binary64.signed negative numeral.text) := by
  cases negative with
  | false => exact .last _
  | true => exact .next ['-'] [] rfl (.last _)

theorem value_signedNumeral (negative : Bool) (numeral : Numeral) :
    (signedNumeral negative numeral).value Numeral.value =
      some (bif negative then -numeral.value else numeral.value) := by
  cases negative <;> rfl

theorem nesting_signedNumeral (negative : Bool) (numeral : Numeral) :
    (signedNumeral negative numeral).nesting (fun _ => 0) = if negative then 1 else 0 := by
  cases negative <;> rfl

/-- A factor that is written as a text and means a value, with at most one sign. -/
structure IsFactorOf (text : Text) (value : Binary64) (factor : Tree Numeral .factor) : Prop where
  spaced : Text.IsSpaced (factor.symbols.map (Symbol.text Numeral.text)) text
  alike : Option.Rel Binary64.Alike (factor.value Numeral.value) (some value)
  nesting : factor.nesting (fun _ => 0) ≤ if value < 0 then 1 else 0

/-- The text of a number that reads back is a factor. -/
theorem exists_isFactorOf {value : Binary64} (legible : value.IsLegible) :
    ∃ factor, IsFactorOf value.plainText value factor := by
  obtain ⟨numeral, written, alike⟩ := legible.exists_numeral
  refine ⟨signedNumeral (decide (value < 0)) numeral, ?_, ?_, ?_⟩
  · rw [written]
    exact isSpaced_signedNumeral _ numeral
  · rw [value_signedNumeral]
    exact .some alike
  · rw [nesting_signedNumeral]
    simp

section Evaluation

variable {scope : Scope} {values : Operand → Binary64}

theorem exists_isFactorOf_plainText
    {operand : Operand}
    (known : operand.value? scope = some (values operand))
    (legible : operand.IsReference → (values operand).IsLegible) :
    ∃ factor, IsFactorOf (operand.plainText values) (values operand) factor := by
  cases operand with
  | literal numeral =>
      have same : numeral.value = values (.literal numeral) := Option.some.inj known
      refine ⟨.operand numeral, .last _, ?_, Nat.zero_le _⟩
      rw [← same]
      exact .some (.same _)
  | named name => exact exists_isFactorOf (legible trivial)
  | measured id name => exact exists_isFactorOf (legible trivial)

/-- The passes leave plain arithmetic that a tree is written as: the tree of the
expression with factors for its operands. -/
theorem exists_plain
    {tree : Tree Operand .sum}
    {text : Text}
    (written : tree.IsWritten Operand.text text)
    (known : ∀ operand, .operand operand ∈ tree.symbols →
      operand.value? scope = some (values operand))
    (legible : ∀ operand, .operand operand ∈ tree.symbols → operand.IsReference →
      (values operand).IsLegible)
    {factorOf : Operand → Tree Numeral .factor}
    (factors : ∀ operand, .operand operand ∈ tree.symbols →
      IsFactorOf (operand.plainText values) (values operand) (factorOf operand)) :
    ∃ plain, evaluate scope text = evaluateArithmetic plain ∧
      (tree.graft factorOf).IsWritten Numeral.text plain := by
  obtain ⟨first, firstPass, firstSpaced⟩ := exists_replace
    (fun character blank => readVariable_eq_none (by rintro rfl; exact absurd blank (by decide)))
    (fun mark isMark => readVariable_eq_none (by rintro rfl; exact absurd isMark (by decide)))
    (fun operand member => replaces_variables (known operand member)) tree.areApart written
  obtain ⟨plain, secondPass, secondSpaced⟩ := exists_replace
    (fun character blank => readProperty_eq_none (by rintro rfl; exact absurd blank (by decide)))
    (fun mark isMark => readProperty_eq_none (by rintro rfl; exact absurd isMark (by decide)))
    (fun operand member => replaces_properties (known operand member) (legible operand member))
    tree.areApart firstSpaced
  have grafted : (tree.graft factorOf).IsWritten Numeral.text plain := by
    unfold Tree.IsWritten
    rw [Tree.symbols_graft, List.map_flatMap]
    refine secondSpaced.flatMap fun symbol member => ?_
    cases symbol with
    | operand argument => exact (factors argument member).spaced
    | sign plusOrMinus => exact .last _
    | scaling timesOrOver => exact .last _
    | opening => exact .last _
    | closing => exact .last _
  refine ⟨plain, ?_, grafted⟩
  have numbered : withVariables scope text = .ok first := firstPass
  have measured : withProperties scope first = .ok plain := secondPass
  rw [evaluate, numbered]
  change withProperties scope first >>= _ = _
  rw [measured]
  change withDistances plain >>= _ = _
  rw [withDistances_eq grafted]
  rfl

/-- Values that differ by the sign of a zero have the same rounding. -/
theorem exists_rounding_iff
    {first second : Option Binary64}
    (alike : Option.Rel Binary64.Alike first second)
    (value : Binary64) :
    (∃ raw, first = some raw ∧ raw.isFinite = true ∧ raw.roundThousandths = .ok value) ↔
      ∃ raw, second = some raw ∧ raw.isFinite = true ∧ raw.roundThousandths = .ok value := by
  cases alike with
  | none => rfl
  | some alike => simp [alike.isFinite_eq, alike.roundThousandths_eq]

/-- The text of an expression means what its tree means for the values that it refers to.
If all references are known and their values read back, and the tree with its negative
values is nested at most a hundred deep, then the text has a value exactly if evaluation
of the tree divides by no zero and ends with a finite number that can be rounded, and
otherwise it is refused as arithmetic. -/
theorem evaluate_substitutes
    {tree : Tree Operand .sum}
    {text : Text}
    (written : tree.IsWritten Operand.text text)
    (known : ∀ operand, .operand operand ∈ tree.symbols →
      operand.value? scope = some (values operand))
    (legible : ∀ operand, .operand operand ∈ tree.symbols → operand.IsReference →
      (values operand).IsLegible)
    (shallow : tree.nesting (fun operand => if values operand < 0 then 1 else 0) ≤ 100) :
    (∀ value, evaluate scope text = .ok value ↔
      ∃ raw, tree.value values = some raw ∧ raw.isFinite = true ∧
        raw.roundThousandths = .ok value) ∧
      ∀ cause, evaluate scope text = .error cause →
        ∃ refusal plain, cause = .arithmetic refusal plain := by
  have exists_factor (operand : Operand) : ∃ factor, .operand operand ∈ tree.symbols →
      IsFactorOf (operand.plainText values) (values operand) factor := by
    by_cases member : .operand operand ∈ tree.symbols
    · obtain ⟨factor, isFactor⟩ :=
        exists_isFactorOf_plainText (known operand member) (legible operand member)
      exact ⟨factor, fun _ => isFactor⟩
    · exact ⟨.operand ⟨['0'], none, by decide, rfl, Or.inl (by decide)⟩,
        fun inside => absurd inside member⟩
  choose factorOf factors using exists_factor
  obtain ⟨plain, same, grafted⟩ := exists_plain written known legible factors
  have alike := tree.alike_value_graft fun operand member => (factors operand member).alike
  have fits : (tree.graft factorOf).nesting (fun _ => 0) ≤ nestingLimit := by
    rw [Tree.nesting_graft]
    exact (tree.nesting_mono fun operand member => (factors operand member).nesting).trans shallow
  rw [same]
  refine ⟨fun value => ?_, fun cause failed => ?_⟩
  · rw [evaluateArithmetic_of_isWritten grafted, and_iff_right fits]
    exact exists_rounding_iff alike value
  · obtain ⟨refusal, rfl⟩ := exists_refusal_of_evaluateArithmetic failed
    exact ⟨refusal, _, rfl⟩

end Evaluation

/-- A negative number behind a minus sign and in front of a factor stays one number. -/
theorem exists_evaluate_substitutes :
    ∃ scope : Scope, scope.number? ['a'] = some (-5 / 2) ∧
      evaluate scope "3 -$a*2".toList = .ok 8 := by
  let three : Numeral := ⟨['3'], none, by decide, rfl, Or.inl (by decide)⟩
  let two : Numeral := ⟨['2'], none, by decide, rfl, Or.inl (by decide)⟩
  let name : Identifier := ⟨['a'], rfl, rfl⟩
  let tree : Tree Operand .sum :=
    .extended (.lone (.single (.operand (.literal three)))) .minus
      (.scaled (.single (.operand (.named name))) .times (.operand (.literal two)))
  let values : Operand → Binary64
    | .literal numeral => numeral.value
    | _ => -5 / 2
  have written : tree.IsWritten Operand.text "3 -$a*2".toList :=
    .next ['3'] [' '] rfl <| .next ['-'] [] rfl <| .next ['$', 'a'] [] rfl <|
      .next ['*'] [] rfl <| .last ['2']
  have operands (operand : Operand) (member : .operand operand ∈ tree.symbols) :
      operand = .literal three ∨ operand = .named name ∨ operand = .literal two := by
    simpa [tree, Tree.symbols] using member
  refine ⟨⟨fun _ => some (-5 / 2), fun _ => none⟩, rfl, ?_⟩
  refine ((@evaluate_substitutes _ values _ _ written ?_ ?_ ?_).1 8).mpr
    ⟨8, ?_, ?_, ?_⟩
  · intro operand member
    rcases operands operand member with rfl | rfl | rfl
    · rfl
    · rfl
    · rfl
  · intro operand member isReference
    rcases operands operand member with rfl | rfl | rfl
    · exact isReference.elim
    · exact ⟨by decide +kernel, -5 / 2, by decide +kernel, by decide +kernel⟩
    · exact isReference.elim
  · decide +kernel
  · decide +kernel
  · decide +kernel
  · decide +kernel

end Expression
end Joinery
