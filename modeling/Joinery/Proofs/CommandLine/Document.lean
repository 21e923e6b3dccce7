import Joinery.CommandLine.Run
import Joinery.Proofs.Assembly.Finite
import Joinery.Proofs.Json
import Joinery.Proofs.Session.Registry
import Joinery.Proofs.Session.Success
import Joinery.Proofs.Session.Variable

/-!
# Finite numbers in sessions and documents

Infinities and missing numbers arise while an expression is evaluated, but none of them
gets into a session: a definition or a board with one is refused. So the document of a
design names no number.
-/

namespace Joinery

/-! ## Sessions -/

namespace Creation

/-- All numbers of a board that is added are finite. -/
theorem isFinite_board
    {creation : Creation}
    {board : Board Binary64}
    (placed : creation.board? = some board) :
    ∀ value ∈ board.numbers, value.isFinite = true := by
  obtain ⟨heading, draft, drafted, built⟩ := board?_eq_some_iff.mp placed
  obtain ⟨headed, -, known⟩ := Session.draft?_eq_some_iff.mp drafted
  exact Draft.isFinite_board headed known built

end Creation

namespace Session

theorem isFinite_of_assignment?
    {session : Session}
    {line name : Text}
    {value : Binary64}
    (given : session.assignment? line = some (name, value)) :
    value.isFinite = true := by
  unfold assignment? at given
  split at given
  · cases given
  · split at given
    next evaluated =>
      cases given
      exact isFinite_evaluate evaluated
    next => cases given

/-- A run gives finite values to variables. -/
theorem isFinite_of_mem_assignments
    {session : Session}
    {operations : List Operation}
    {name : Text}
    {value : Binary64}
    (member : (name, value) ∈ session.assignments operations) :
    value.isFinite = true := by
  induction operations generalizing session with
  | nil => cases member
  | cons operation rest inductionHypothesis =>
      rcases List.mem_append.mp member with first | later
      · cases operation with
        | define line => exact isFinite_of_assignment? (Option.mem_toList.mp first)
        | draw line text => cases first
        | evaluate text => cases first
        | read =>
            obtain ⟨step, -, given⟩ := List.mem_filterMap.mp first
            unfold Step.assignment? at given
            split at given
            · exact isFinite_of_assignment? given
            · cases given
      · exact inductionHypothesis later

/-- After every run, every variable has a finite value. -/
theorem isFinite_of_number?
    {text name : Text}
    {operations : List Operation}
    {value : Binary64}
    (known : ((new text).run operations).number? name = some value) :
    value.isFinite = true := by
  rw [(assigns_run (new text) operations).number?_eq] at known
  have given : Dictionary.lastValue? name ((new text).assignments operations) = some value := by
    rwa [show (new text).number? name = none from rfl, Option.or_none] at known
  exact isFinite_of_mem_assignments (Dictionary.mem_of_lastValue? given)

/-- After every run, all numbers of all boards are finite. -/
theorem isFinite_of_mem_boards
    {text : Text}
    {operations : List Operation}
    {board : Board Binary64}
    (member : board ∈ ((new text).run operations).boards) :
    ∀ value ∈ board.numbers, value.isFinite = true := by
  rw [boards_run] at member
  obtain ⟨creation, -, placed⟩ := List.mem_filterMap.mp member
  exact Creation.isFinite_board placed

/-- After every run, a board that is found by its id is one of the boards. -/
theorem mem_boards_of_board?
    {text id : Text}
    {operations : List Operation}
    {board : Board Binary64}
    (found : ((new text).run operations).board? id = some board) :
    board ∈ ((new text).run operations).boards := by
  have entry := Dictionary.mem_entries_of_get? found
  rw [isRegistered_run text operations] at entry
  obtain ⟨known, member, same⟩ := List.mem_map.mp entry
  cases same
  exact member

/-- A design has the boards of the session that reads its text. -/
theorem boards_of_readDesign
    {text : Text}
    {design : Design}
    (found : (readDesign text).2 = .ok design) :
    design.boards = ((new text).run [.read]).boards := by
  obtain ⟨-, boards, -⟩ := design_of_readDesign found
  rw [boards, boards_run, creations, creations, List.append_nil, creationsOf, filterMap_board?_eq]

end Session

/-! ## Documents -/

theorem Segment.numbers_json_subset (segment : Segment Binary64) :
    segment.json.numbers ⊆ segment.numbers :=
  List.subset_append_left _ _

theorem Cuts.numbers_json (cuts : Cuts Binary64) : cuts.json.numbers = cuts.numbers := by
  obtain ⟨left, right, top, bottom⟩ := cuts
  cases left <;> cases right <;> cases top <;> cases bottom <;> rfl

/-- The document of a board has only numbers of the board. -/
theorem Board.numbers_json_subset (board : Board Binary64) :
    board.json.numbers ⊆ board.numbers := by
  have level : board.levelJson.numbers ⊆ board.z.toList := by
    unfold levelJson
    split
    · exact List.nil_subset _
    · rw [Json.numbers_ofOption]
      exact List.Subset.refl _
  have angle : board.angleJson.numbers ⊆ [board.angle] := by
    unfold angleJson
    split
    · exact List.nil_subset _
    · exact List.Subset.refl _
  have segment : (Json.ofOption Segment.json board.segment).numbers ⊆
      board.segment.toList.flatMap Segment.numbers := by
    cases board.segment with
    | none => exact List.nil_subset _
    | some segment => simpa [Json.ofOption] using segment.numbers_json_subset
  have cuts : (Json.ofOption Cuts.json board.cuts).numbers =
      board.cuts.toList.flatMap Cuts.numbers := by
    cases board.cuts with
    | none => rfl
    | some cuts => simpa [Json.ofOption] using cuts.numbers_json
  have view : (Json.ofOption .string board.view).numbers = [] := by
    cases board.view <;> rfl
  intro value member
  simp only [json, Json.numbers, Json.numbersOfFields, Json.numbers_ofOption, cuts, view,
    List.mem_append, List.mem_singleton, List.not_mem_nil, or_false, false_or] at member
  simp only [numbers, List.mem_append, List.mem_cons, List.not_mem_nil, or_false]
  grind

/-- The numbers in the document of a design are those in the documents of its boards. -/
theorem Design.numbers_json (design : Design) :
    design.json.numbers = design.boards.flatMap (·.json.numbers) := by
  simp [json, Json.numbers, Json.numbersOfFields, Json.numbersOfItems_eq_flatMap,
    List.flatMap_map]

namespace CommandLine

/-- The document of a design that was read names no number. -/
theorem namesNoNumber_of_readDesign
    {text : Text}
    {design : Design}
    (found : (readDesign text).2 = .ok design) :
    Json.NamesNoNumber design.json.text := by
  refine Json.namesNoNumber_text fun value member => ?_
  rw [design.numbers_json] at member
  obtain ⟨board, known, inside⟩ := List.mem_flatMap.mp member
  rw [Session.boards_of_readDesign found] at known
  exact Session.isFinite_of_mem_boards known value (board.numbers_json_subset inside)

/-- What a parsing run prints, and what it writes to a file, is the document of the design
if the design is read. -/
theorem runRequest_parse
    (libraries : Libraries)
    (folder : Folder)
    (journal : Journal)
    (document : Document) :
    (∀ line ∈ (runRequest libraries folder journal (.parse document none)).output,
        Json.NamesNoNumber line) ∧
      ∀ path place text,
        (place, .text text) ∈
            (runRequest libraries folder journal (.parse document (some path))).files →
          Json.NamesNoNumber text := by
  have sameDesign (output : Option Text) : (Request.parse document output).design = document := rfl
  cases found : (readDesign (Text.unifyBreaks document.content)).2 with
  | error failure =>
      simp only [runRequest, sameDesign, found]
      exact ⟨by simp [Outcome.aborted], by simp [Outcome.aborted]⟩
  | ok design =>
      have written := namesNoNumber_of_readDesign found
      simp only [runRequest, sameDesign, found, runDesign, runParse]
      refine ⟨by simpa [Outcome.finished] using written, fun path place text member => ?_⟩
      split at member
      · simp [Outcome.aborted] at member
      · simp only [Outcome.writing, Outcome.finished, List.nil_append, List.mem_singleton,
          Prod.mk.injEq, Content.text.injEq] at member
        rw [member.2]
        exact written

/-- After every run of a session, all variables and all numbers of all boards are finite,
and a document that is printed or written to a file names no number. -/
theorem only_finite_numbers :
    (∀ (text : Text) (operations : List Operation),
      let session := (Session.new text).run operations
      (∀ name value, session.number? name = some value → value.isFinite = true) ∧
        ∀ board, (board ∈ session.boards ∨ ∃ id, session.board? id = some board) →
          ∀ value ∈ board.numbers, value.isFinite = true) ∧
      ∀ (libraries : Libraries) (folder : Folder) (journal : Journal) (document : Document),
        (∀ line ∈ (runRequest libraries folder journal (.parse document none)).output,
            Json.NamesNoNumber line) ∧
          ∀ path place text,
            (place, .text text) ∈
                (runRequest libraries folder journal (.parse document (some path))).files →
              Json.NamesNoNumber text := by
  refine ⟨fun text operations => ⟨fun name value known => Session.isFinite_of_number? known,
    ?_⟩, runRequest_parse⟩
  rintro board (member | ⟨id, found⟩)
  · exact Session.isFinite_of_mem_boards member
  · exact Session.isFinite_of_mem_boards (Session.mem_boards_of_board? found)

end CommandLine
end Joinery
