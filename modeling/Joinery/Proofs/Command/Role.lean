import Joinery.Proofs.Command.Row

/-!
# Roles of lines

A line is silent, it goes on with the command above it, or it is the head of a command. Its
role follows from what is on it and from the role of the line above. The commands of a text
are its heads, each with the continuations right below it, so that every line that is not
silent belongs to one command.
-/

namespace Joinery
namespace Command

/-- What a line does. -/
inductive Role
  /-- The line is blank or a comment. -/
  | silent
  /-- The line goes on with the board command above it. -/
  | continuation
  /-- The line starts a command. -/
  | head (kind : Kind)
  deriving DecidableEq

namespace Role

/-- Whether a line below can be a continuation. -/
def isOpen : Role → Bool
  | .continuation => true
  | .head kind => kind = .board
  | .silent => false

/-- The role of a line below a line with a role. -/
def below (above : Role) (line : Text) : Role :=
  let content := Text.strip line
  if content = [] ∨ ['#'] <+: content ∨ ['/', '/'] <+: content then .silent
  else if [' '] <+: line ∨ ['\t'] <+: line then
    if above.isOpen then .continuation else headOf content
  else headOf content
where
  /-- The role of a line that starts a command, without white space around it. -/
  headOf (content : Text) : Role :=
    if ['$'] <+: content then .head .definition
    else if (content.take 5).map Char.toLower = "board".toList then .head .board
    else .head .unknown

end Role

/-- The role of a line of a text by its index. Nothing stands above the first line. -/
def role (rows : List Text) : Nat → Role
  | 0 => Role.below .silent (rows.getD 0 [])
  | index + 1 => (role rows index).below (rows.getD (index + 1) [])

/-- The longest run of continuations right below a line. -/
def continuations (rows : List Text) (index : Nat) : List Nat :=
  (List.range' (index + 1) (rows.length - (index + 1))).takeWhile (role rows · = .continuation)

/-- The lines of the command that a line is the head of. -/
def members (rows : List Text) (index : Nat) : List Nat :=
  match role rows index with
  | .head _ => index :: continuations rows index
  | _ => []

/-- The command that a line is the head of. Its lines are joined by single spaces, without
white space around them. -/
def headed? (rows : List Text) (index : Nat) : Option Command :=
  match role rows index with
  | .head kind =>
      some ⟨index + 1, kind,
        [' '].intercalate ((members rows index).map fun member => Text.strip (rows.getD member []))⟩
  | _ => none

/-! ## Roles of single lines -/

theorem isSilent_iff (line : Text) :
    isSilent line = true ↔ line = [] ∨ ['#'] <+: line ∨ ['/', '/'] <+: line := by
  unfold isSilent
  split
  · simp
  · simp
  · simp
  next notEmpty notSign notSlashes =>
    constructor
    · intro impossible
      cases impossible
    · rintro (rfl | ⟨rest, rfl⟩ | ⟨rest, rfl⟩)
      · exact absurd rfl notEmpty
      · exact absurd rfl (notSign rest)
      · exact absurd rfl (notSlashes rest)

theorem isIndented_iff (line : Text) :
    isIndented line = true ↔ [' '] <+: line ∨ ['\t'] <+: line := by
  cases line with
  | nil => decide
  | cons first rest =>
      simp only [isIndented_cons, List.cons_prefix_cons, List.nil_prefix, and_true,
        Bool.or_eq_true, beq_iff_eq]
      exact or_congr eq_comm eq_comm

theorem startsWith_eq (word line : Text) :
    startsWith word line = decide ((line.take word.length).map Char.toLower = word) := by
  induction word generalizing line with
  | nil => simp [startsWith]
  | cons letter others inductionHypothesis =>
      cases line with
      | nil => simp [startsWith]
      | cons first rest =>
          rw [startsWith, inductionHypothesis, Bool.eq_iff_iff]
          simp

/-- A line that starts a command starts one of its kind. -/
theorem headOf_eq (content : Text) : Role.below.headOf content = .head (kindOf content) := by
  unfold Role.below.headOf kindOf
  have sign : ['$'] <+: content ↔ content.head? = some '$' := by
    cases content with
    | nil => simp
    | cons first rest => simp [eq_comm]
  have word : startsWith boardWord content = true ↔
      (content.take 5).map Char.toLower = "board".toList := by
    rw [startsWith_eq, decide_eq_true_iff]
    rfl
  simp only [sign, word]
  split
  · rfl
  · split <;> rfl

theorem below_eq (above : Role) (line : Text) :
    above.below line =
      if isSilent (Text.strip line) then .silent
      else if above.isOpen && isIndented line then .continuation
      else .head (kindOf (Text.strip line)) := by
  unfold Role.below
  simp only [isSilent_iff, headOf_eq, Bool.and_eq_true, isIndented_iff]
  split
  · rfl
  · cases above.isOpen <;> simp

section Below

variable {above : Role} {line : Text}

theorem below_of_isSilent (silent : isSilent (Text.strip line) = true) :
    above.below line = .silent := by
  rw [below_eq, if_pos silent]

variable (spoken : isSilent (Text.strip line) = false)
include spoken

theorem below_of_continues (continues : (above.isOpen && isIndented line) = true) :
    above.below line = .continuation := by
  rw [below_eq, spoken, continues]
  rfl

theorem below_of_starts (starts : (above.isOpen && isIndented line) = false) :
    above.below line = .head (kindOf (Text.strip line)) := by
  rw [below_eq, spoken, starts]
  rfl

end Below

/-- A line below one that is not open is no continuation. -/
theorem below_ne_continuation {above : Role} (closed : above.isOpen = false) (line : Text) :
    above.below line ≠ .continuation := by
  rw [below_eq, closed, Bool.false_and]
  split
  · exact Role.noConfusion
  · exact Role.noConfusion

/-! ## Rows of lines -/

/-- The role of the line above a line. Above the first line nothing goes on. -/
def roleAbove (rows : List Text) : Nat → Role
  | 0 => .silent
  | index + 1 => role rows index

theorem role_eq (rows : List Text) (index : Nat) :
    role rows index = (roleAbove rows index).below (rows.getD index []) := by
  cases index <;> rfl

theorem takeWhile_role_of_closed
    {rows : List Text}
    {index : Nat}
    (closed : (roleAbove rows index).isOpen = false)
    (count : Nat) :
    (List.range' index count).takeWhile (role rows · = .continuation) = [] := by
  cases count with
  | zero => rfl
  | succ count =>
      rw [List.range'_succ, List.takeWhile_cons_of_neg]
      rw [role_eq, decide_eq_true_iff]
      exact below_ne_continuation closed _

/-- The lines of some heads, behind a run of continuations, are all lines that are not
silent. -/
theorem takeWhile_append_flatMap_members (rows : List Text) (index count : Nat)
    (whole : index + count = rows.length) :
    (List.range' index count).takeWhile (role rows · = .continuation) ++
        (List.range' index count).flatMap (members rows) =
      (List.range' index count).filter (role rows · ≠ .silent) := by
  induction count generalizing index with
  | zero => rfl
  | succ count inductionHypothesis =>
      have further := inductionHypothesis (index + 1) (by omega)
      have left : rows.length - (index + 1) = count := by omega
      rw [List.range'_succ, List.flatMap_cons, List.takeWhile_cons, List.filter_cons, ← further,
        members]
      cases known : role rows index with
      | silent =>
          rw [takeWhile_role_of_closed (by rw [roleAbove, known]; rfl)]
          rfl
      | continuation => rfl
      | head kind => simp [continuations, left]

/-- What a row of lines behind some others starts with and holds, by the roles of its
lines. -/
theorem gather_eq_headed
    (before rows : List Text) :
    let whole := before ++ rows
    let indices := List.range' before.length rows.length
    gather (before.length + 1) (roleAbove whole before.length).isOpen rows =
      ((indices.takeWhile (role whole · = .continuation)).map fun member =>
          Text.strip (whole.getD member []),
        indices.filterMap (headed? whole)) := by
  induction rows generalizing before with
  | nil => rfl
  | cons line rest inductionHypothesis =>
      have further := inductionHypothesis (before ++ [line])
      rw [List.append_assoc, List.singleton_append, List.length_append, List.length_singleton]
        at further
      generalize same : before ++ line :: rest = whole at further ⊢
      have here : whole.getD before.length [] = line := by
        rw [← same, List.getD_eq_getElem?_getD, List.getElem?_append_right (Nat.le_refl _),
          Nat.sub_self]
        rfl
      have length : whole.length - (before.length + 1) = rest.length := by
        rw [← same, List.length_append, List.length_cons]
        omega
      have known := role_eq whole before.length
      rw [here] at known
      simp only [roleAbove] at further
      simp only [List.length_cons, List.range'_succ, List.takeWhile_cons, List.filterMap_cons,
        headed?, members, continuations, length]
      cases silent : isSilent (Text.strip line) with
      | true =>
          rw [below_of_isSilent silent] at known
          rw [known] at further ⊢
          rw [gather_cons_of_isSilent _ _ _ silent]
          rw [show Role.isOpen .silent = false from rfl] at further
          rw [gather_false, further]
          rfl
      | false =>
          cases continues : (roleAbove whole before.length).isOpen && isIndented line with
          | true =>
              rw [below_of_continues silent continues] at known
              rw [known] at further ⊢
              rw [gather_cons_of_continues _ _ _ silent continues]
              rw [show Role.isOpen .continuation = true from rfl] at further
              rw [further]
              simp only [decide_true, if_true, List.map_cons, here]
          | false =>
              rw [below_of_starts silent continues] at known
              rw [known] at further ⊢
              rw [gather_cons_of_starts _ _ _ silent continues]
              rw [show Role.isOpen (.head (kindOf (Text.strip line))) =
                decide (kindOf (Text.strip line) = .board) from rfl] at further
              rw [further]
              simp only [List.map_cons, here, intercalate_cons]
              rfl

/-- A text is its lines with line feeds between them, and there is none on a line. The commands
of the text are its heads in their order, each with the number of its line and with the
continuations right below it, which only a board command has. Together the commands have every
line that is not silent, once and in order. -/
theorem commands_are_heads (text : Text) :
    let rows := lines text
    let indices := List.range rows.length
    (rows ≠ [] ∧ ['\n'].intercalate rows = text ∧ ∀ row ∈ rows, '\n' ∉ row) ∧
      commands text = indices.filterMap (headed? rows) ∧
      (∀ index kind, role rows index = .head kind → kind ≠ .board →
        members rows index = [index]) ∧
      indices.flatMap (members rows) = indices.filter (role rows · ≠ .silent) := by
  intro rows indices
  have fromStart : indices = List.range' 0 rows.length := List.range_eq_range'
  refine ⟨⟨lines_ne_nil text, unlines_lines text, fun row => not_mem_of_mem_lines⟩, ?_, ?_, ?_⟩
  · have known := congrArg Prod.snd (gather_eq_headed [] rows)
    rw [fromStart]
    exact known
  · intro index kind known different
    have closed : (roleAbove rows (index + 1)).isOpen = false := by
      rw [roleAbove, known]
      exact decide_eq_false different
    rw [members, known, continuations, takeWhile_role_of_closed closed]
  · have all := takeWhile_append_flatMap_members rows 0 rows.length (Nat.zero_add _)
    rw [takeWhile_role_of_closed rfl, List.nil_append] at all
    rw [fromStart]
    exact all

example : commands "$T = 1\n  board 1 x 1 x 1 \"a\"\n\tview f\n// note\n  at 1".toList =
    [⟨1, .definition, "$T = 1".toList⟩, ⟨2, .board, "board 1 x 1 x 1 \"a\" view f".toList⟩,
      ⟨5, .unknown, "at 1".toList⟩] := by
  decide

end Command
end Joinery
