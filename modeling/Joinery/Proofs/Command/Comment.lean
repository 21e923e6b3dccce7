import Joinery.Proofs.Command.Definition
import Joinery.Proofs.Command.Row
import Joinery.Proofs.Options.Comment

/-!
# Comments behind lines

A comment behind a line stands at the end of what the line adds to its command. A definition
loses it, and so do the options of a board, together with everything behind it. Where the name
of the board is not complete yet, the comment becomes a part of the dimensions or of the name.
-/

namespace Joinery
namespace Command

/-- White space and a comment, as they stand behind a line. -/
structure Note where
  gap : Text
  comment : Text
  spaced : gap ≠ []
  blank : gap.all Text.isBlank = true

namespace Note

/-- The characters of a note. -/
def text (note : Note) : Text := note.gap ++ '#' :: ' ' :: note.comment

/-- Behind the first character of a note, which is white space, white space goes on or the
comment starts. -/
theorem exists_text_eq (note : Note) :
    ∃ first second rest, note.text = first :: second :: rest ∧ Text.isBlank first = true ∧
      (Text.isBlank second = true ∨ second = '#') := by
  obtain ⟨gap, comment, spaced, blank⟩ := note
  rcases gap with _ | ⟨first, _ | ⟨second, others⟩⟩
  · exact absurd rfl spaced
  · rw [List.all_cons, Bool.and_eq_true] at blank
    exact ⟨first, '#', _, rfl, blank.1, Or.inr rfl⟩
  · rw [List.all_cons, List.all_cons, Bool.and_eq_true, Bool.and_eq_true] at blank
    exact ⟨first, second, _, rfl, blank.1, Or.inl blank.2.1⟩

/-- Behind white space, a note starts with more of it and a number sign. -/
theorem exists_append_eq
    (note : Note)
    {gap : Text}
    (blank : gap.all Text.isBlank = true)
    (rest : Text) :
    ∃ front more, gap ++ (note.text ++ rest) = front ++ '#' :: more ∧
      front.all Text.isBlank = true := by
  refine ⟨gap ++ note.gap, ' ' :: (note.comment ++ rest), by simp [text], ?_⟩
  rw [List.all_append, blank, note.blank, Bool.and_self]

theorem startsWith_text_append (note : Note) (rest : Text) :
    Text.startsWith Text.isBlank (note.text ++ rest) = true := by
  obtain ⟨first, second, others, same, blank, -⟩ := note.exists_text_eq
  rw [same]
  exact blank

theorem startsWith_text (note : Note) : Text.startsWith Text.isBlank note.text = true := by
  simpa using note.startsWith_text_append []

end Note

/-- A line with a comment behind it. -/
def withNote (line comment : Text) : Text := line ++ " # ".toList ++ comment

/-- What stripping leaves of a line with a comment behind it. -/
theorem exists_strip_withNote
    {line comment : Text}
    (spoken : Text.strip line ≠ [])
    (written : Text.strip comment ≠ []) :
    ∃ note : Note, Text.strip (withNote line comment) = Text.strip line ++ note.text := by
  obtain ⟨lead, gap, wholeLine, leadBlank, gapBlank⟩ := Text.exists_strip_append line
  obtain ⟨inner, trail, wholeComment, innerBlank, trailBlank⟩ := Text.exists_strip_append comment
  have lineTrimmed := Text.isTrimmed_strip line
  have commentTrimmed := Text.isTrimmed_strip comment
  generalize Text.strip line = content at wholeLine spoken lineTrimmed ⊢
  generalize Text.strip comment = remark at wholeComment written commentTrimmed
  let note : Note := ⟨gap ++ [' '], inner ++ remark, by simp, by
    rw [List.all_append, gapBlank]
    rfl⟩
  refine ⟨note, ?_⟩
  have whole : withNote line comment = lead ++ ((content ++ note.text) ++ trail) := by
    rw [withNote, wholeLine, wholeComment]
    simp [note, Note.text]
  have trimmed : Text.IsTrimmed (content ++ note.text) := by
    refine ⟨?_, ?_⟩
    · rw [Text.IsSpaced.startsWith_append spoken]
      exact lineTrimmed.start
    · have reversed : (content ++ note.text).reverse =
          remark.reverse ++ (content ++ (gap ++ ' ' :: '#' :: ' ' :: inner)).reverse := by
        simp [note, Note.text]
      rw [reversed, Text.IsSpaced.startsWith_append (by simpa using written)]
      exact commentTrimmed.ending
  rw [whole]
  exact Text.strip_append_append trimmed (by simp [spoken]) leadBlank trailBlank

/-- A line with a comment behind it is like the line. -/
theorem areAlike_withNote
    {line comment : Text}
    (spoken : isSilent (Text.strip line) = false)
    (written : Text.strip comment ≠ []) :
    AreAlike line (withNote line comment) ∧
      ∃ note : Note, Text.strip (withNote line comment) = Text.strip line ++ note.text := by
  have nonempty := ne_nil_of_isSilent spoken
  have lineNonempty : line ≠ [] := by
    rintro rfl
    exact nonempty rfl
  obtain ⟨note, same⟩ := exists_strip_withNote nonempty written
  have spaced := note.startsWith_text
  refine ⟨⟨?_, ?_, ?_⟩, note, same⟩
  · rw [same]
    exact isSilent_append_blank spaced spoken
  · rw [withNote, List.append_assoc, isIndented_append lineNonempty]
  · rw [same]
    exact kindOf_append_blank spaced nonempty

/-- A definition may end in front of a comment. -/
theorem Note.endsBefore_text
    {note : Note}
    (single : '\n' ∉ note.text) :
    Definition.endsBefore note.text = true := by
  have stripped : Text.stripStart note.text = '#' :: ' ' :: note.comment :=
    Text.dropWhile_append_eq note.blank rfl
  have singleComment : '\n' ∉ ' ' :: note.comment := by
    intro member
    refine single ?_
    rw [Note.text]
    exact List.mem_append_right _ (List.mem_cons_of_mem _ member)
  rw [Definition.endsBefore, stripped]
  simp [singleLine?_eq_some singleComment]

/-! ## The site of a comment -/

/-- A line in one of some commands: the part of the command that goes up to the end of the
line, with no comment at its end, and what the continuations below the line add. -/
structure Site where
  earlier : List Command
  number : Nat
  kind : Kind
  part : Text
  tail : Text
  later : List Command
  ending : Text.startsWith Text.isBlank part.reverse = false
  noSign : part.getLast? ≠ some '#'
  /-- Only a board command goes on with other lines. -/
  undivided : kind ≠ .board → '#' ∉ part ∧ tail = []
  continued : tail = [] ∨ ∃ solid more, tail = ' ' :: solid :: more ∧
    Text.isBlank solid = false ∧ solid ≠ '#'

/-- The commands, with another text of the command that has the line. -/
def Site.commandsWith (site : Site) (text : Text) : List Command :=
  site.earlier ++ ⟨site.number, site.kind, text⟩ :: site.later

/-- A comment behind a line stands in one command, behind the part of it that goes up to the
end of the line. If the continuations below the line are made blank, that part is the whole
command. -/
theorem exists_site_of_line
    {text line comment : Text}
    {above below : List Text}
    (rows : lines text = above ++ line :: below)
    (spoken : isSilent (Text.strip line) = false)
    (plain : '#' ∉ line)
    (single : '\n' ∉ comment)
    (written : Text.strip comment ≠ []) :
    ∃ (site : Site) (note : Note),
      commands text = site.commandsWith (site.part ++ site.tail) ∧
      commands (unlines (above ++ withNote line comment :: below)) =
        site.commandsWith (site.part ++ (note.text ++ site.tail)) ∧
      commands (unlines (above ++ line ::
          withoutContinuations (isOpenAfter false (above ++ [line])) below)) =
        site.commandsWith site.part := by
  obtain ⟨alike, note, noted⟩ := areAlike_withNote spoken written
  obtain ⟨earlier, number, kind, start, isOpen, startEmpty, place⟩ :=
    exists_place_of_line above spoken
  have nonempty := ne_nil_of_isSilent spoken
  have unsigned : '#' ∉ Text.strip line := fun member =>
    plain ((Text.strip_isInfix line).subset member)
  let site : Site := {
    earlier, number, kind
    part := start ++ Text.strip line
    tail := tailText (gather (above.length + 2) (kind = .board) below).1
    later := (gather (above.length + 2) (kind = .board) below).2
    ending := by
      rw [List.reverse_append, Text.IsSpaced.startsWith_append (by simpa using nonempty)]
      exact (Text.isTrimmed_strip line).ending
    noSign := by
      rw [List.getLast?_append_of_ne_nil _ nonempty]
      exact fun last => unsigned (List.mem_of_getLast? last)
    undivided := by
      intro other
      rw [startEmpty other, decide_eq_false other, gather_false]
      exact ⟨unsigned, rfl⟩
    continued := exists_tailText_gather _ _ below }
  have unbroken : ∀ row ∈ above ++ line :: below, '\n' ∉ row := by
    rw [← rows]
    exact fun row => not_mem_of_mem_lines
  rw [List.forall_mem_append, List.forall_mem_cons] at unbroken
  obtain ⟨unbrokenAbove, unbrokenLine, unbrokenBelow⟩ := unbroken
  have rowsOf {other : Text} {others : List Text}
      (otherSingle : '\n' ∉ other)
      (othersSingle : ∀ row ∈ others, '\n' ∉ row) :
      commands (unlines (above ++ other :: others)) =
        (gather 1 false (above ++ other :: others)).2 := by
    refine commands_unlines (by simp) ?_
    rw [List.forall_mem_append, List.forall_mem_cons]
    exact ⟨unbrokenAbove, otherSingle, othersSingle⟩
  refine ⟨site, note, ?_, ?_, ?_⟩
  · rw [commands, rows, place line ⟨spoken, rfl, rfl⟩, ← List.append_assoc]
    rfl
  · have notedSingle : '\n' ∉ withNote line comment := by
      simp [withNote, unbrokenLine, single]
    rw [rowsOf notedSingle unbrokenBelow, place _ alike, noted, List.append_assoc,
      ← List.append_assoc start]
    rfl
  · have shortSingle : ∀ row ∈ withoutContinuations (decide (kind = .board)) below,
        '\n' ∉ row := by
      intro row member
      rcases mem_withoutContinuations member with rfl | inside
      · exact List.not_mem_nil
      · exact unbrokenBelow row inside
    rw [isOpen, rowsOf unbrokenLine shortSingle, place line ⟨spoken, rfl, rfl⟩,
      gather_withoutContinuations]
    simp [tailText, Site.commandsWith, site]

end Command

namespace Heading

/-! ## Comments in options -/

/-- A comment behind a heading with solid dimensions, and everything behind the comment, is
no part of the options. -/
theorem exists_ofLine?_note
    {line tail : Text}
    {note : Command.Note}
    {heading : Heading}
    (single : '\n' ∉ line ++ (note.text ++ tail))
    (noSign : line.getLast? ≠ some '#')
    (found : ofLine? line = some heading)
    (isSolid : heading.IsSolid) :
    ∃ options, ofLine? (line ++ (note.text ++ tail)) = some { heading with options := options } ∧
      Options.withoutComment options = Options.withoutComment heading.options := by
  obtain ⟨after, ⟨before, whole⟩, same, longer⟩ :=
    exists_ofLine?_append (note.startsWith_text_append tail) single found isSolid
  refine ⟨_, longer, ?_⟩
  have noSignAfter : after.getLast? ≠ some '#' := by
    intro sign
    rw [← whole, List.getLast?_append, sign] at noSign
    exact noSign rfl
  have text : after ++ (note.text ++ tail) =
      after ++ (note.gap ++ '#' :: ' ' :: (note.comment ++ tail)) := by
    simp [Command.Note.text]
  rw [same, Options.withoutComment_stripStart, Options.withoutComment_stripStart, text,
    Options.withoutComment_append noSignAfter note.spaced note.blank]

/-! ## Names that are not complete -/

/-- A text that starts with white space and a name without its closing quote. -/
def BeginsName (text begun : Text) : Prop :=
  ∃ gap, text = gap ++ '"' :: begun ∧ gap ≠ [] ∧ gap.all Text.isBlank = true ∧ '"' ∉ begun

theorem BeginsName.unique
    {text first second : Text}
    (begins : BeginsName text first)
    (alsoBegins : BeginsName text second) :
    first = second := by
  obtain ⟨gap, rfl, -, blank, -⟩ := begins
  obtain ⟨other, same, -, otherBlank, -⟩ := alsoBegins
  have stripped := congrArg (List.dropWhile Text.isBlank) same
  rw [Text.dropWhile_append_eq blank rfl, Text.dropWhile_append_eq otherBlank rfl] at stripped
  exact (List.cons.inj stripped).2

theorem BeginsName.count_eq {text begun : Text} (begins : BeginsName text begun) :
    text.count '"' = 1 := by
  obtain ⟨gap, rfl, -, blank, unquoted⟩ := begins
  have noQuote : gap.count '"' = 0 := by
    rw [List.count_eq_zero]
    intro member
    exact absurd (List.all_eq_true.mp blank _ member) (by decide)
  simp [noQuote, List.count_eq_zero_of_not_mem unquoted]

/-- A name that is complete in a longer text only begins in the text, if the text goes on with
another character than a quote. -/
theorem exists_beginsName
    {text tail name options : Text}
    {first : Char}
    (single : '\n' ∉ text ++ first :: tail)
    (notQuote : first ≠ '"')
    (notBlank : text.all Text.isBlank = false)
    (unnamed : nameAndOptions? text = none)
    (found : nameAndOptions? (text ++ first :: tail) = some (name, options)) :
    ∃ begun part after, BeginsName text begun ∧ name = begun ++ first :: part ∧
      tail = part ++ '"' :: after := by
  obtain ⟨gap, after, whole, spaced, blank, nonempty, unquoted, -⟩ :=
    (nameAndOptions?_eq_some_iff single).mp found
  rcases List.append_eq_append_iff.mp whole with ⟨more, longer, -⟩ | ⟨more, longer, behind⟩
  · rw [longer, List.all_append, Bool.and_eq_true] at blank
    rw [blank.1] at notBlank
    cases notBlank
  · cases more with
    | nil =>
        rw [longer, List.append_nil, blank] at notBlank
        cases notBlank
    | cons quote begun =>
        obtain ⟨rfl, onward⟩ := List.cons.inj behind
        rcases List.append_eq_append_iff.mp onward with ⟨part, same, rest⟩ | ⟨part, same, rest⟩
        · -- The name would be complete in the text, or the quote stand right behind it.
          cases part with
          | nil => exact absurd (List.cons.inj rest).1.symm notQuote
          | cons quote further =>
              obtain ⟨rfl, -⟩ := List.cons.inj rest
              have here : nameAndOptions? text = some (name, Text.stripStart further) := by
                refine (nameAndOptions?_eq_some_iff fun member =>
                  single (List.mem_append_left _ member)).mpr ?_
                exact ⟨gap, further, by rw [longer, same], spaced, blank, nonempty, unquoted, rfl⟩
              rw [here] at unnamed
              cases unnamed
        · cases part with
          | nil => exact absurd (List.cons.inj rest).1 notQuote
          | cons next part =>
              obtain ⟨rfl, others⟩ := List.cons.inj rest
              refine ⟨begun, part, after, ⟨gap, longer, spaced, blank, fun member => ?_⟩, same,
                others⟩
              exact unquoted (by simp [same, member])

/-- A quote further on completes a name. -/
theorem isSome_nameAndOptions?
    {text begun tail : Text}
    {first : Char}
    (single : '\n' ∉ text ++ first :: tail)
    (begins : BeginsName text begun)
    (notQuote : first ≠ '"')
    (quoted : '"' ∈ tail) :
    (nameAndOptions? (text ++ first :: tail)).isSome = true := by
  obtain ⟨gap, rfl, spaced, blank, unquoted⟩ := begins
  obtain ⟨part, after, rfl, absent⟩ := List.eq_append_cons_of_mem quoted
  have found : nameAndOptions? (gap ++ '"' :: begun ++ first :: (part ++ '"' :: after)) =
      some (begun ++ first :: part, Text.stripStart after) := by
    refine (nameAndOptions?_eq_some_iff single).mpr ?_
    refine ⟨gap, after, by simp, spaced, blank, by simp, ?_, rfl⟩
    simp [unquoted, absent, Ne.symm notQuote]
  rw [found]
  rfl

section Note

variable {text more : Text} {solid : Char} {note : Command.Note}
  (single : '\n' ∉ text ++ (note.text ++ ' ' :: solid :: more))
  (notBlank : text.all Text.isBlank = false)
  (unnamed : nameAndOptions? text = none)
include single

theorem not_mem_of_note : '\n' ∉ text ++ ' ' :: solid :: more := by
  rw [List.mem_append, List.mem_append, not_or, not_or] at single
  rw [List.mem_append, not_or]
  exact ⟨single.1, single.2.2⟩

include notBlank unnamed

/-- A comment completes no name, if the text behind the comment has the quotes. -/
theorem nameAndOptions?_note
    (quotes : 2 ≤ (text ++ ' ' :: solid :: more).count '"') :
    nameAndOptions? (text ++ (note.text ++ ' ' :: solid :: more)) = none ↔
      nameAndOptions? (text ++ ' ' :: solid :: more) = none := by
  obtain ⟨first, second, others, noteText, firstBlank, -⟩ := note.exists_text_eq
  have notQuote : first ≠ '"' := by
    rintro rfl
    cases firstBlank
  have singlePlain := not_mem_of_note single
  rw [noteText, List.cons_append] at single ⊢
  constructor
  · intro absent
    rw [Option.eq_none_iff_forall_not_mem]
    intro found isFound
    obtain ⟨begun, part, after, begins, -, whole⟩ :=
      exists_beginsName singlePlain (by decide) notBlank unnamed isFound
    have complete := isSome_nameAndOptions? single begins notQuote (by simp [whole])
    rw [absent] at complete
    cases complete
  · intro absent
    rw [Option.eq_none_iff_forall_not_mem]
    intro found isFound
    obtain ⟨begun, part, after, begins, -, -⟩ :=
      exists_beginsName single notQuote notBlank unnamed isFound
    rw [List.count_append, begins.count_eq] at quotes
    have quoted : '"' ∈ solid :: more := by
      rw [List.count_cons_of_ne (by decide)] at quotes
      exact List.count_pos_iff.mp (by omega)
    have complete := isSome_nameAndOptions? singlePlain begins (by decide) quoted
    rw [absent] at complete
    cases complete

/-- A comment inside a name changes the name: it goes on with white space or a number sign,
where another character stood. -/
theorem name_ne_of_nameAndOptions?
    {found noted : Text × Text}
    (isSolid : Text.isBlank solid = false)
    (notSign : solid ≠ '#')
    (plainName : nameAndOptions? (text ++ ' ' :: solid :: more) = some found)
    (notedName : nameAndOptions? (text ++ (note.text ++ ' ' :: solid :: more)) = some noted) :
    found.1 ≠ noted.1 := by
  obtain ⟨first, second, others, noteText, firstBlank, behind⟩ := note.exists_text_eq
  have notQuote : first ≠ '"' := by
    rintro rfl
    cases firstBlank
  have singlePlain := not_mem_of_note single
  rw [noteText, List.cons_append] at single notedName
  obtain ⟨begun, part, after, begins, name, whole⟩ :=
    exists_beginsName singlePlain (by decide) notBlank unnamed plainName
  obtain ⟨otherBegun, otherPart, otherAfter, otherBegins, otherName, otherWhole⟩ :=
    exists_beginsName single notQuote notBlank unnamed notedName
  obtain rfl := begins.unique otherBegins
  rw [name, otherName]
  intro same
  obtain ⟨rfl, rfl⟩ := List.cons.inj (List.append_cancel_left same)
  -- What stands behind the white space is in both names, or it is the quote at their ends.
  have sameHead : solid = second := by
    have heads : some solid = (part ++ '"' :: after).head? := congrArg List.head? whole
    have otherHeads : some second = (part ++ '"' :: otherAfter).head? :=
      congrArg List.head? otherWhole
    cases part with
    | nil => exact Option.some.inj (heads.trans otherHeads.symm)
    | cons _ _ => exact Option.some.inj (heads.trans otherHeads.symm)
  rcases behind with isBlank | isSign
  · rw [← sameHead, isSolid] at isBlank
    cases isBlank
  · exact notSign (sameHead.trans isSign)

end Note

/-! ## Comments in dimensions -/

theorem nameAndOptions?_sign
    {gap : Text}
    (blank : gap.all Text.isBlank = true)
    (more : Text) :
    nameAndOptions? (gap ++ '#' :: more) = none := by
  have stripped : Text.stripStart (gap ++ '#' :: more) = '#' :: more :=
    Text.dropWhile_append_eq blank rfl
  unfold nameAndOptions?
  split
  next quoted =>
    rw [stripped] at quoted
    cases quoted
  next => rfl

/-- Dimensions that go on to a number sign have it. -/
theorem sign_mem_dimensions
    {id : Option Text}
    {before gap more : Text}
    {heading : Heading}
    (blank : gap.all Text.isBlank = true)
    (found : body? id before (gap ++ '#' :: more) = some heading) :
    '#' ∈ heading.dimensions := by
  induction gap generalizing before with
  | nil =>
      simp only [List.nil_append, body?, Option.ite_none_left_eq_some] at found
      obtain ⟨-, found⟩ := found
      split at found
      · cases found
        simp
      · obtain ⟨part, -, -, -, dimensions⟩ := exists_dimensions_of_body? found
        simp [dimensions]
  | cons character rest inductionHypothesis =>
      rw [List.all_cons, Bool.and_eq_true] at blank
      simp only [List.cons_append, body?, Option.ite_none_left_eq_some] at found
      obtain ⟨-, found⟩ := found
      rw [nameAndOptions?_sign blank.2] at found
      exact inductionHypothesis blank.2 found

/-- A comment in dimensions or in a name changes the name, if the comment is not in the
dimensions: the name goes on with white space and a number sign, where another character
stood. -/
theorem name_ne_of_body?
    {id : Option Text}
    {before text more : Text}
    {solid : Char}
    {note : Command.Note}
    {heading commented : Heading}
    (isSolid : Text.isBlank solid = false)
    (notSign : solid ≠ '#')
    (single : '\n' ∉ text ++ (note.text ++ ' ' :: solid :: more))
    (headless : body? id before text = none)
    (plain : body? id before (text ++ ' ' :: solid :: more) = some heading)
    (noted : body? id before (text ++ (note.text ++ ' ' :: solid :: more)) = some commented)
    (clean : '#' ∉ commented.dimensions) :
    heading.name ≠ commented.name := by
  induction text generalizing before with
  | nil =>
      rw [List.nil_append, Command.Note.text, List.append_assoc] at noted
      exact absurd (sign_mem_dimensions note.blank noted) clean
  | cons character rest inductionHypothesis =>
      rw [List.cons_append, List.mem_cons, not_or] at single
      have singlePlain := not_mem_of_note single.2
      simp only [List.cons_append, body?, Option.ite_none_left_eq_some] at plain noted
      obtain ⟨notBreak, plain⟩ := plain
      replace noted := noted.2
      rw [body?, if_neg notBreak] at headless
      have quotes : 2 ≤ (rest ++ ' ' :: solid :: more).count '"' := by
        split at plain
        next named => exact two_le_count_of_nameAndOptions? singlePlain named
        next => exact two_le_count_of_body? singlePlain plain
      cases blank : rest.all Text.isBlank with
      | true =>
          obtain ⟨front, onward, whole, frontBlank⟩ :=
            note.exists_append_eq blank (' ' :: solid :: more)
          rw [whole, nameAndOptions?_sign frontBlank] at noted
          exact absurd (sign_mem_dimensions frontBlank noted) clean
      | false =>
          cases unnamed : nameAndOptions? rest with
          | some found =>
              rw [unnamed] at headless
              cases headless
          | none =>
              rw [unnamed] at headless
              have alike := nameAndOptions?_note single.2 blank unnamed quotes
              cases plainName : nameAndOptions? (rest ++ ' ' :: solid :: more) with
              | none =>
                  rw [plainName] at plain
                  rw [alike.mpr plainName] at noted
                  exact inductionHypothesis single.2 headless plain noted
              | some found =>
                  cases notedName :
                      nameAndOptions? (rest ++ (note.text ++ ' ' :: solid :: more)) with
                  | none =>
                      rw [alike.mp notedName] at plainName
                      cases plainName
                  | some other =>
                      rw [plainName] at plain
                      rw [notedName] at noted
                      cases plain
                      cases noted
                      exact name_ne_of_nameAndOptions? single.2 blank unnamed isSolid notSign
                        plainName notedName

/-- A comment behind a line of a command whose heading is not complete yet changes the name,
if it is not in the dimensions. -/
theorem name_ne_of_ofLine?
    {line more : Text}
    {solid : Char}
    {note : Command.Note}
    {heading commented : Heading}
    (isSolid : Text.isBlank solid = false)
    (notSign : solid ≠ '#')
    (single : '\n' ∉ line ++ (note.text ++ ' ' :: solid :: more))
    (incomplete : ∀ other, ofLine? line = some other → ¬ other.IsSolid)
    (plain : ofLine? (line ++ ' ' :: solid :: more) = some heading ∧ heading.IsSolid)
    (noted : ofLine? (line ++ (note.text ++ ' ' :: solid :: more)) = some commented ∧
      commented.IsSolid)
    (clean : '#' ∉ commented.dimensions) :
    heading.name ≠ commented.name := by
  have spaced : Text.startsWith Text.isBlank (' ' :: solid :: more) = true := rfl
  obtain ⟨starts, id, rest, bracketed, gap, text, behind, blank, stops, gapNonempty, known⟩ :=
    exists_body?_of_append spaced plain
  obtain ⟨-, other, otherRest, otherBracketed, otherGap, otherText, otherBehind, otherBlank,
    otherStops, -, otherKnown⟩ := exists_body?_of_append (note.startsWith_text_append _) noted
  rw [bracketed] at otherBracketed
  cases otherBracketed
  obtain ⟨front, back, rfl, frontBlank, backStops⟩ := Text.exists_append_of_all Text.isBlank rest
  cases back with
  | nil =>
      -- The dimensions would start with the comment.
      obtain ⟨start, onward, whole, startBlank⟩ :=
        note.exists_append_eq frontBlank (' ' :: solid :: more)
      rw [List.append_nil] at otherBehind
      obtain ⟨-, rfl⟩ := Text.append_inj_of_stops (otherBehind.symm.trans whole) otherBlank
        otherStops startBlank rfl
      exact absurd (@sign_mem_dimensions _ _ [] _ _ rfl otherKnown) clean
  | cons first further =>
      have nonempty : first :: further ≠ [] := List.cons_ne_nil _ _
      have plainStops : Text.startsWith Text.isBlank (first :: further ++ ' ' :: solid :: more) =
          false := backStops
      rw [List.append_assoc] at behind otherBehind
      obtain ⟨rfl, rfl⟩ := Text.append_inj_of_stops behind frontBlank plainStops blank stops
      obtain ⟨rfl, rfl⟩ :=
        Text.append_inj_of_stops otherBehind frontBlank backStops otherBlank otherStops
      have headless : body? id [] (first :: further) = none := by
        rw [Option.eq_none_iff_forall_not_mem]
        intro found isFound
        obtain ⟨isHeading, foundSolid⟩ := ofLine?_isSolid_iff.mpr
          ⟨starts, id, _, _, bracketed, frontBlank, backStops, gapNonempty, isFound⟩
        exact incomplete found isHeading foundSolid
      have inside : first :: further <:+ line := (List.suffix_append _ _).trans
        ((bracketedId?_isSuffix bracketed).trans (List.drop_suffix _ line))
      refine name_ne_of_body? isSolid notSign (fun member => single ?_) headless known otherKnown
        clean
      exact (List.mem_append.mp member).elim
        (fun here => List.mem_append_left _ (inside.subset here)) (List.mem_append_right _)

end Heading
end Joinery
