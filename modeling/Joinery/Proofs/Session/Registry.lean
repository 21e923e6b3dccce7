import Joinery.Proofs.Options.Tail
import Joinery.Proofs.Session.Run

/-!
# Boards and their registry

After every run, the registry of a session has exactly its boards, in the order of their
creation, and every board is well formed. Ids and colours that a command does not give
follow from the number of boards before it.
-/

namespace Joinery

/-! ## Ids and colours -/

/-- The palette repeats after twelve boards. -/
theorem Palette.getElem?_colors_mod (index : Nat) :
    (Palette.colors[index % 12]?).map String.toList = some (Palette.autoColor index) := by
  have inside : index % 12 < Palette.colors.length := Nat.mod_lt index (by decide)
  have same : ((index : Int).emod Palette.colors.length).toNat = index % 12 := by
    change ((index : Int) % (12 : Nat)).toNat = index % 12
    omega
  rw [Palette.autoColor, same, List.getD_eq_getElem?_getD, List.getElem?_eq_getElem inside]
  rfl

namespace Draft

variable {scope : Scope} {draft : Draft}

/-- What is left of the options behind the place of a board. -/
theorem isTail_place
    {placement : Placement}
    {options : Text}
    (placed : draft.place scope = .ok (placement, options)) :
    IsTail options draft.options := by
  unfold place at placed
  split at placed
  · cases placed
    exact IsTail.refl _
  · cases placed
    exact IsTail.refl _
  · obtain ⟨⟨level, rest⟩, found, placed⟩ := bind_eq_ok.mp placed
    dsimp only at placed
    split at placed
    · cases placed
      exact Options.isTail_readLevel found
    · cases placed

/-- A board without the keyword for its colour has the colour of its index. -/
theorem color_of_board
    {heading : Heading}
    {id name : Text}
    {index : Nat}
    {board : Board Binary64}
    (drafted : ofHeading scope heading = .ok draft)
    (built : draft.board scope id name index = .ok board)
    (absent : Keyword.find? (Options.withoutComment heading.options) "color".toList = none) :
    board.color = Palette.autoColor index := by
  obtain ⟨placement, options, cuts, behindCuts, view, behindView, placed, cut, viewed, rfl⟩ :=
    board_eq_ok built
  have positioned := Options.isTail_readPosition (readPosition_of_ofHeading drafted)
  have isTail : IsTail behindView (Options.withoutComment heading.options) :=
    (Options.isTail_takeView viewed).trans ((Options.isTail_takeCuts cut).trans
      ((isTail_place placed).trans positioned))
  have missing := Keyword.find?_eq_none_of_isTail isTail absent
  simp only [Options.color?_eq_none missing, Option.getD_none]

end Draft

/-- The id and the colour that a board gets, by the number of boards before it. -/
theorem Creation.id_and_color
    {creation : Creation}
    {board : Board Binary64}
    (placed : creation.board? = some board) :
    ∃ heading, Heading.ofLine? creation.text = some heading ∧
      board.id = heading.id.getD ('b' :: Nat.toDigits 10 creation.before.boards.length) ∧
      (Keyword.find? (Options.withoutComment heading.options) "color".toList = none →
        (Palette.colors[creation.before.boards.length % 12]?).map String.toList =
          some board.color) := by
  obtain ⟨heading, draft, drafted, built⟩ := board?_eq_some_iff.mp placed
  obtain ⟨headed, -, known⟩ := Session.draft?_eq_some_iff.mp drafted
  refine ⟨heading, headed, ?_, fun absent => ?_⟩
  · obtain ⟨_, _, _, _, _, _, -, -, -, rfl⟩ := Draft.board_eq_ok built
    rfl
  · rw [Draft.color_of_board known built absent]
    exact Palette.getElem?_colors_mod _

namespace Session

/-! ## All runs -/

/-- The boards of a session are the entries of its registry. -/
def IsRegistered (session : Session) : Prop :=
  session.registry.entries = session.boards.map fun board => (board.id, board)

theorem isRegistered_run (text : Text) (operations : List Operation) :
    ((new text).run operations).IsRegistered := by
  have grown := extends_run (new text) operations
  unfold IsRegistered
  rw [grown.entries, grown.boards]
  rfl

/-- The boards of a run are those of its creations. -/
theorem boards_run (text : Text) (operations : List Operation) :
    ((new text).run operations).boards =
      ((new text).creations operations).filterMap Creation.board? :=
  (extends_run (new text) operations).boards

theorem IsRegistered.names_eq {session : Session} (registered : session.IsRegistered) :
    session.registry.names = session.boards.map (·.id) := by
  unfold IsRegistered at registered
  rw [Dictionary.names, registered, List.map_map]
  rfl

/-- A registered board is found by its id. -/
theorem IsRegistered.board?_eq
    {session : Session}
    {board : Board Binary64}
    (registered : session.IsRegistered)
    (member : board ∈ session.boards) :
    session.board? board.id = some board := by
  refine Dictionary.get?_of_mem_entries ?_
  rw [registered]
  exact List.mem_map_of_mem member

/-- After every run, the registry has the boards in their order under different ids, all
later operations only append to both, and a board that a command adds stays at its
index, which decides its id and its colour. -/
theorem registry_follows_boards (text : Text) (operations : List Operation) :
    let session := (new text).run operations
    session.registry.names = session.boards.map (·.id) ∧
      (session.boards.map (·.id)).Nodup ∧
      (∀ board ∈ session.boards, session.board? board.id = some board) ∧
      (∀ later, ∃ added,
        (session.run later).boards = session.boards ++ added ∧
        (session.run later).registry.entries =
          session.registry.entries ++ added.map fun board => (board.id, board)) ∧
      session.boards = ((new text).creations operations).filterMap Creation.board? ∧
      ∀ creation ∈ (new text).creations operations, ∀ board, creation.board? = some board →
        let index := creation.before.boards.length
        session.boards[index]? = some board ∧
          ∃ heading, Heading.ofLine? creation.text = some heading ∧
            board.id = heading.id.getD ('b' :: Nat.toDigits 10 index) ∧
            (Keyword.find? (Options.withoutComment heading.options) "color".toList = none →
              (Palette.colors[index % 12]?).map String.toList = some board.color) := by
  intro session
  have registered := isRegistered_run text operations
  refine ⟨registered.names_eq, ?_, fun _ => registered.board?_eq, ?_,
    boards_run text operations, ?_⟩
  · rw [← registered.names_eq]
    exact session.registry.nodup
  · intro later
    have grown := session.extends_run later
    exact ⟨_, grown.boards, grown.entries⟩
  · intro creation member board placed
    refine ⟨?_, creation.id_and_color placed⟩
    -- The board has its index right behind its command, and later boards come behind it.
    obtain ⟨added, grown⟩ := extends_after_of_mem_creations member
    obtain ⟨inside, -⟩ := List.getElem?_eq_some_iff.mp placed
    rw [grown.boards, List.getElem?_append_left inside]
    exact placed

/-! ## Well-formed boards -/

/-- After every run, every board is well formed. So its cuts cut something, the letters
of its view are faces, and its colour can be darkened to one half. -/
theorem boards_are_wellFormed
    (text : Text)
    (operations : List Operation)
    (board : Board Binary64)
    (member : board ∈ ((new text).run operations).boards) :
    board.WellFormed ∧
      board.hasCuts = board.cuts.isSome ∧
      (∃ faces, board.shownFaces? = some faces ∧
        faces.map Face.letter = board.shownLetters) ∧
      ∃ digits, Palette.darken (some board.color) Binary64.half = .ok ('#' :: digits) ∧
        digits.length = 6 ∧ digits.all Palette.isHexDigit = true := by
  rw [boards_run] at member
  obtain ⟨creation, -, placed⟩ := List.mem_filterMap.mp member
  have wellFormed := Creation.wellFormed_board placed
  exact ⟨wellFormed, wellFormed.hasCuts_eq, wellFormed.exists_shownFaces,
    Palette.darken_half wellFormed.color⟩

/-- A board with everything that a command can give. -/
theorem exists_wellFormed_board :
    ∃ board ∈ ((new []).run [.draw 1
        "board 5 x 20 x 3 \"a\" from 0,0 to 3,4 z 1 cut left 5 view tf color #abc".toList]).boards,
      board.WellFormed ∧ board.cuts.isSome = true ∧ board.view = some "tf".toList := by
  have known : ((new []).run [.draw 1
      "board 5 x 20 x 3 \"a\" from 0,0 to 3,4 z 1 cut left 5 view tf color #abc".toList]).boards.map
        (fun board => (board.cuts.isSome, board.view)) = [(true, some "tf".toList)] := by
    decide +kernel
  obtain ⟨board, member, same⟩ :=
    List.mem_map.mp (known.symm ▸ List.mem_singleton_self (true, some "tf".toList))
  obtain ⟨isCut, view⟩ := Prod.mk.inj same
  exact ⟨board, member, (boards_are_wellFormed [] _ board member).1, isCut, view⟩

end Session
end Joinery
