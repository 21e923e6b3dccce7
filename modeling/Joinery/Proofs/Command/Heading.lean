import Joinery.Proofs.Canonical.Heading
import Joinery.Proofs.Command.Part
import Joinery.Proofs.Text.Digit

/-!
# Headings of longer commands

What a board command starts with decides its heading, as soon as the name is complete: a
longer command only has longer options.
-/

namespace Joinery

namespace Command

/-! ## Kinds of longer lines -/

theorem length_le_of_startsWith
    {word line : Text}
    (starts : startsWith word line = true) :
    word.length ≤ line.length := by
  induction word generalizing line with
  | nil => exact Nat.zero_le _
  | cons letter others inductionHypothesis =>
      cases line with
      | nil => cases starts
      | cons first rest =>
          rw [startsWith, Bool.and_eq_true] at starts
          exact Nat.succ_le_succ (inductionHypothesis starts.2)

theorem isSilent_cons (first : Char) (rest : Text) :
    isSilent (first :: rest) = (first == '#' || first == '/' && rest.head? == some '/') := by
  unfold isSilent
  split
  next same => cases same
  next same =>
    cases same
    rfl
  next same =>
    cases same
    rfl
  next notSign notSlashes =>
    have other : first ≠ '#' := fun same => notSign rest (by rw [same])
    rw [beq_false_of_ne other, Bool.false_or, eq_comm, Bool.and_eq_false_iff]
    by_cases slash : first = '/'
    · refine Or.inr (beq_false_of_ne fun second => ?_)
      obtain ⟨others, rfl⟩ := List.head?_eq_some_iff.mp second
      exact notSlashes others (by rw [slash])
    · exact Or.inl (beq_false_of_ne slash)

theorem ne_nil_of_isSilent {line : Text} (spoken : isSilent line = false) : line ≠ [] := by
  rintro rfl
  cases spoken

section Tail

variable {tail : Text} (spaced : Text.startsWith Text.isBlank tail = true)
include spaced

theorem exists_blank : ∃ blank rest, tail = blank :: rest ∧ Text.isBlank blank = true := by
  cases tail with
  | nil => cases spaced
  | cons blank rest => exact ⟨blank, rest, rfl, spaced⟩

/-- White space behind a line completes no word. -/
theorem startsWith_append_blank
    {word : Text}
    (isWord : word.all (!Text.isBlank ·) = true)
    (line : Text) :
    startsWith word (line ++ tail) = startsWith word line := by
  induction word generalizing line with
  | nil => simp [startsWith]
  | cons letter others inductionHypothesis =>
      rw [List.all_cons, Bool.and_eq_true] at isWord
      cases line with
      | nil =>
          obtain ⟨blank, rest, rfl, isBlank⟩ := exists_blank spaced
          rw [List.nil_append, startsWith, startsWith, Text.toLower_of_isBlank isBlank]
          have different : (blank == letter) = false := by
            rw [beq_eq_false_iff_ne]
            rintro rfl
            simp [isBlank] at isWord
          rw [different, Bool.false_and]
      | cons first rest =>
          rw [List.cons_append, startsWith, startsWith, inductionHypothesis isWord.2]

theorem isSilent_append_blank {line : Text} (spoken : isSilent line = false) :
    isSilent (line ++ tail) = false := by
  obtain ⟨blank, others, rfl, isBlank⟩ := exists_blank spaced
  have notSlash : blank ≠ '/' := by
    rintro rfl
    exact absurd isBlank (by decide)
  cases line with
  | nil => cases spoken
  | cons first rest =>
      rw [isSilent_cons] at spoken
      rw [List.cons_append, isSilent_cons]
      cases rest with
      | nil => simpa [notSlash] using spoken
      | cons second further => exact spoken

theorem kindOf_append_blank {line : Text} (nonempty : line ≠ []) :
    kindOf (line ++ tail) = kindOf line := by
  rw [kindOf, kindOf, startsWith_append_blank spaced (by decide),
    List.head?_append_of_ne_nil _ nonempty]

end Tail
end Command

namespace Heading

/-! ## Names -/

/-- What a name and options on a single line are made of. -/
theorem exists_parts_of_nameAndOptions?
    {text name options : Text}
    (single : '\n' ∉ text)
    (found : nameAndOptions? text = some (name, options)) :
    ∃ gap after, text = gap ++ '"' :: (name ++ '"' :: after) ∧ gap ≠ [] ∧
      gap.all Text.isBlank = true ∧ name ≠ [] ∧ '"' ∉ name ∧
      options = Text.stripStart after := by
  unfold nameAndOptions? at found
  split at found
  next rest blank quoted =>
    split at found
    · cases found
    · cases found
    next first quote after nonempty split =>
      rw [List.span_eq_takeWhile_dropWhile, Prod.mk.injEq] at split
      obtain ⟨taken, left⟩ := split
      have whole : text.takeWhile Text.isBlank ++ '"' :: rest = text := by
        rw [← quoted]
        exact List.takeWhile_append_dropWhile
      have isQuote : quote = '"' := by
        have stops := Text.startsWith_dropWhile (· != '"') rest
        rw [left, Text.startsWith_cons] at stops
        simpa using stops
      have inside : rest = first ++ '"' :: after := by
        rw [← isQuote, ← taken, ← left]
        exact List.takeWhile_append_dropWhile.symm
      obtain ⟨line, single?, same⟩ := Option.map_eq_some_iff.mp found
      cases same
      have singleAfter : '\n' ∉ Text.stripStart after := by
        intro member
        refine single ?_
        rw [← whole, inside]
        have behind := (List.dropWhile_suffix Text.isBlank).subset member
        simp [behind]
      rw [singleLine?_eq_some singleAfter] at single?
      cases single?
      refine ⟨text.takeWhile Text.isBlank, after, ?_, ?_, List.all_takeWhile,
        fun empty => nonempty empty, ?_, rfl⟩
      · rw [← inside, whole]
      · cases text with
        | nil => cases blank
        | cons head others =>
            rw [List.head?_cons, Option.map_some, Option.some.injEq] at blank
            rw [List.takeWhile_cons_of_pos blank]
            exact List.cons_ne_nil _ _
      · intro member
        rw [← taken] at member
        simpa using List.all_eq_true.mp List.all_takeWhile _ member
  next => cases found

/-- How much white space stands in front of a name does not matter. -/
theorem nameAndOptions?_gap
    {gap : Text}
    (spaced : gap ≠ [])
    (blank : gap.all Text.isBlank = true)
    (rest : Text) :
    nameAndOptions? (gap ++ '"' :: rest) = nameAndOptions? (' ' :: '"' :: rest) := by
  have behind : Text.stripStart (gap ++ '"' :: rest) = Text.stripStart (' ' :: '"' :: rest) :=
    Text.dropWhile_append_eq blank rfl
  have head : (gap ++ '"' :: rest).head?.map Text.isBlank =
      (' ' :: '"' :: rest).head?.map Text.isBlank := by
    cases gap with
    | nil => exact absurd rfl spaced
    | cons first others =>
        rw [List.all_cons, Bool.and_eq_true] at blank
        exact congrArg some blank.1
  rw [nameAndOptions?, nameAndOptions?, head, behind]

/-- A name and options on a single line: white space, a name in quotes, and the options
behind white space. -/
theorem nameAndOptions?_eq_some_iff
    {text name options : Text}
    (single : '\n' ∉ text) :
    nameAndOptions? text = some (name, options) ↔
      ∃ gap after, text = gap ++ '"' :: (name ++ '"' :: after) ∧ gap ≠ [] ∧
        gap.all Text.isBlank = true ∧ name ≠ [] ∧ '"' ∉ name ∧
        options = Text.stripStart after := by
  refine ⟨exists_parts_of_nameAndOptions? single, ?_⟩
  rintro ⟨gap, after, rfl, spaced, blank, nonempty, unquoted, rfl⟩
  have oneLine : '\n' ∉ name := fun member => single (by simp [member])
  have singleAfter : '\n' ∉ Text.stripStart after := by
    intro member
    have inside := (List.dropWhile_suffix Text.isBlank).subset member
    exact single (by simp [inside])
  have found := nameAndOptions?_quoted ⟨name, nonempty, unquoted, oneLine⟩ rfl singleAfter
  rw [nameAndOptions?_gap spaced blank, ← found]
  simp [Canonical.Name.quoted]

/-- A text with two quotes has a name at its start already, or has none in a longer text. -/
theorem nameAndOptions?_append_eq_none
    {text tail : Text}
    (single : '\n' ∉ text ++ tail)
    (quotes : 2 ≤ text.count '"')
    (unnamed : nameAndOptions? text = none) :
    nameAndOptions? (text ++ tail) = none := by
  rw [Option.eq_none_iff_forall_not_mem]
  rintro ⟨name, options⟩ found
  obtain ⟨gap, after, whole, spaced, blank, nonempty, unquoted, -⟩ :=
    (nameAndOptions?_eq_some_iff single).mp found
  have noQuote : gap.count '"' = 0 := by
    rw [List.count_eq_zero]
    intro member
    exact absurd (List.all_eq_true.mp blank _ member) (by decide)
  have front : (gap ++ '"' :: name).count '"' = 1 := by
    simp [noQuote, List.count_eq_zero_of_not_mem unquoted]
  have split : text ++ tail = (gap ++ '"' :: name) ++ '"' :: after := by simp [whole]
  rcases List.append_eq_append_iff.mp split with ⟨more, longer, -⟩ | ⟨more, longer, behind⟩
  · rw [longer, List.count_append] at front
    omega
  · cases more with
    | nil =>
        rw [List.append_nil] at longer
        rw [longer, front] at quotes
        omega
    | cons quote rest =>
        obtain ⟨rfl, -⟩ := List.cons.inj behind
        have here : nameAndOptions? text = some (name, Text.stripStart rest) := by
          refine (nameAndOptions?_eq_some_iff fun member => single (by simp [member])).mpr ?_
          exact ⟨gap, rest, by simp [longer], spaced, blank, nonempty, unquoted, rfl⟩
        rw [here] at unnamed
        cases unnamed

/-- The name at the start of a text stays in a longer text, and the options are longer. -/
theorem exists_nameAndOptions?_append
    {text tail name options : Text}
    (single : '\n' ∉ text ++ tail)
    (found : nameAndOptions? text = some (name, options)) :
    ∃ after, after <:+ text ∧ options = Text.stripStart after ∧
      nameAndOptions? (text ++ tail) = some (name, Text.stripStart (after ++ tail)) := by
  obtain ⟨gap, after, rfl, spaced, blank, nonempty, unquoted, rfl⟩ :=
    (nameAndOptions?_eq_some_iff fun member => single (List.mem_append_left _ member)).mp found
  refine ⟨after, ⟨gap ++ '"' :: (name ++ ['"']), by simp⟩, rfl, ?_⟩
  refine (nameAndOptions?_eq_some_iff single).mpr ?_
  exact ⟨gap, after ++ tail, by simp, spaced, blank, nonempty, unquoted, rfl⟩

/-! ## Dimensions -/

theorem two_le_count_of_nameAndOptions?
    {text name options : Text}
    (single : '\n' ∉ text)
    (found : nameAndOptions? text = some (name, options)) :
    2 ≤ text.count '"' := by
  obtain ⟨gap, after, rfl, -⟩ := (nameAndOptions?_eq_some_iff single).mp found
  simp [List.count_append]
  omega

theorem two_le_count_of_body?
    {id : Option Text}
    {before text : Text}
    {heading : Heading}
    (single : '\n' ∉ text)
    (found : body? id before text = some heading) :
    2 ≤ text.count '"' := by
  induction text generalizing before with
  | nil => cases found
  | cons character rest inductionHypothesis =>
      rw [List.mem_cons, not_or] at single
      simp only [body?, Option.ite_none_left_eq_some] at found
      obtain ⟨-, found⟩ := found
      have longer : rest.count '"' ≤ (character :: rest).count '"' :=
        (List.sublist_cons_self character rest).count_le _
      split at found
      next name options named =>
        exact (two_le_count_of_nameAndOptions? single.2 named).trans longer
      next => exact (inductionHypothesis single.2 found).trans longer

/-- Dimensions and a name stay in a longer text, and the options are longer. -/
theorem exists_body?_append
    {id : Option Text}
    {before text tail : Text}
    {heading : Heading}
    (single : '\n' ∉ text ++ tail)
    (found : body? id before text = some heading) :
    ∃ after, after <:+ text ∧ heading.options = Text.stripStart after ∧
      body? id before (text ++ tail) =
        some { heading with options := Text.stripStart (after ++ tail) } := by
  induction text generalizing before with
  | nil => cases found
  | cons character rest inductionHypothesis =>
      rw [List.cons_append, List.mem_cons, not_or] at single
      simp only [body?, Option.ite_none_left_eq_some] at found
      obtain ⟨notBreak, found⟩ := found
      rw [List.cons_append, body?, if_neg notBreak]
      split at found
      next name options named =>
        cases found
        obtain ⟨after, behind, same, longer⟩ := exists_nameAndOptions?_append single.2 named
        refine ⟨after, behind.trans (List.suffix_cons _ _), same, ?_⟩
        rw [longer]
      next unnamed =>
        have quotes := two_le_count_of_body?
          (fun member => single.2 (List.mem_append_left _ member)) found
        obtain ⟨after, behind, same, longer⟩ := inductionHypothesis single.2 found
        refine ⟨after, behind.trans (List.suffix_cons _ _), same, ?_⟩
        rw [nameAndOptions?_append_eq_none single.2 quotes unnamed]
        exact longer

/-- Whether there is a heading does not depend on what stands before the text. -/
theorem body?_eq_none_iff (id other : Option Text) (before further text : Text) :
    body? id before text = none ↔ body? other further text = none := by
  induction text generalizing before further with
  | nil => simp [body?]
  | cons character rest inductionHypothesis =>
      unfold body?
      split
      · rfl
      · split
        · simp
        · exact inductionHypothesis _ _

/-- Dimensions are a part of the text, which is not empty, behind what stands before it. -/
theorem exists_dimensions_of_body?
    {id : Option Text}
    {before text : Text}
    {heading : Heading}
    (found : body? id before text = some heading) :
    ∃ part rest, part ≠ [] ∧ text = part ++ rest ∧
      heading.dimensions = before.reverse ++ part := by
  induction text generalizing before with
  | nil => cases found
  | cons character rest inductionHypothesis =>
      simp only [body?, Option.ite_none_left_eq_some] at found
      obtain ⟨-, found⟩ := found
      split at found
      · cases found
        exact ⟨[character], rest, List.cons_ne_nil _ _, rfl, List.reverse_cons⟩
      · obtain ⟨part, others, -, same, dimensions⟩ := inductionHypothesis found
        refine ⟨character :: part, others, List.cons_ne_nil _ _, by rw [same]; rfl, ?_⟩
        rw [dimensions, List.reverse_cons, List.append_assoc]
        rfl

/-- Dimensions that start with white space are blank, if there is no heading behind it. -/
theorem exists_blank_dimensions
    {id : Option Text}
    {before gap text : Text}
    {heading : Heading}
    (blank : gap.all Text.isBlank = true)
    (headless : ∀ id before, body? id before text = none)
    (found : body? id before (gap ++ text) = some heading) :
    ∃ part, part.all Text.isBlank = true ∧ heading.dimensions = before.reverse ++ part := by
  induction gap generalizing before with
  | nil =>
      rw [List.nil_append, headless] at found
      cases found
  | cons character rest inductionHypothesis =>
      rw [List.all_cons, Bool.and_eq_true] at blank
      simp only [List.cons_append, body?, Option.ite_none_left_eq_some] at found
      obtain ⟨-, found⟩ := found
      split at found
      · cases found
        exact ⟨[character], by simp [blank.1], List.reverse_cons⟩
      · obtain ⟨part, partBlank, dimensions⟩ := inductionHypothesis blank.2 found
        refine ⟨character :: part, by simp [blank.1, partBlank], ?_⟩
        rw [dimensions, List.reverse_cons, List.append_assoc]
        rfl

/-! ## Whole headings -/

/-- Dimensions with a character that is no white space. -/
def IsSolid (heading : Heading) : Prop := Text.strip heading.dimensions ≠ []

/-- The longest suffix that is skipped comes first. -/
theorem firstSuffix?_eq_some
    {α : Type}
    {read : Text → Option α}
    {text : Text}
    {least count : Nat}
    {value : α}
    (within : least ≤ count)
    (known : read (text.drop count) = some value) :
    firstSuffix? read text least count = some value := by
  cases count with
  | zero =>
      rw [List.drop_zero] at known
      rw [firstSuffix?, if_pos (Nat.le_zero.mp within), known]
  | succ count =>
      rw [firstSuffix?, if_neg (Nat.not_lt.mpr within), known]
      rfl

/-- Solid dimensions start behind all white space. -/
theorem firstSuffix?_isSolid_iff
    {id : Option Text}
    {gap text : Text}
    {heading : Heading}
    (blank : gap.all Text.isBlank = true)
    (solid : Text.startsWith Text.isBlank text = false) :
    (firstSuffix? (body? id []) (gap ++ text) 1 gap.length = some heading ∧ heading.IsSolid) ↔
      gap ≠ [] ∧ body? id [] text = some heading := by
  constructor
  · rintro ⟨found, isSolid⟩
    obtain ⟨skipped, most, least, read⟩ := exists_of_firstSuffix? found
    have nonempty : gap ≠ [] := by
      rintro rfl
      exact absurd (least.trans most) (by decide)
    refine ⟨nonempty, ?_⟩
    cases known : body? id [] text with
    | some other =>
        -- The first suffix that is tried has a heading.
        have first := @firstSuffix?_eq_some _ (body? id []) (gap ++ text) 1 gap.length other
          (least.trans most) (by rw [List.drop_left, known])
        exact first.symm.trans found
    | none =>
        rw [List.drop_append_of_le_length most] at read
        have headless (other : Option Text) (before : Text) : body? other before text = none :=
          (body?_eq_none_iff other id before [] text).mpr known
        obtain ⟨part, partBlank, dimensions⟩ := exists_blank_dimensions
          (Text.all_of_subset blank (List.drop_subset skipped gap)) headless read
        rw [IsSolid, dimensions, Ne, Text.strip_eq_nil_iff] at isSolid
        exact absurd partBlank isSolid
  · rintro ⟨nonempty, known⟩
    refine ⟨firstSuffix?_eq_some (List.length_pos_iff.mpr nonempty)
      (by rw [List.drop_left, known]), ?_⟩
    obtain ⟨part, rest, partNonempty, same, dimensions⟩ := exists_dimensions_of_body? known
    rw [IsSolid, Ne, Text.strip_eq_nil_iff, dimensions]
    intro partBlank
    rw [same] at solid
    exact partNonempty (Text.startsWith_of_all partBlank solid)

/-- A heading with solid dimensions: behind the word and the id there is white space, and
the dimensions start right behind that. -/
theorem ofLine?_isSolid_iff {line : Text} {heading : Heading} :
    (ofLine? line = some heading ∧ heading.IsSolid) ↔
      Command.startsWith Command.boardWord line = true ∧
        ∃ id gap text, bracketedId? (line.drop Command.boardWord.length) = some (id, gap ++ text) ∧
          gap.all Text.isBlank = true ∧ Text.startsWith Text.isBlank text = false ∧
          gap ≠ [] ∧ body? id [] text = some heading := by
  constructor
  · rintro ⟨found, isSolid⟩
    unfold ofLine? at found
    split at found
    next starts =>
      split at found
      · cases found
      next id rest bracketed =>
        obtain ⟨gap, text, rfl, blank, solid⟩ := Text.exists_append_of_all Text.isBlank rest
        rw [Text.takeWhile_append_eq blank solid] at found
        exact ⟨starts, id, gap, text, bracketed, blank, solid,
          (firstSuffix?_isSolid_iff blank solid).mp ⟨found, isSolid⟩⟩
    next => cases found
  · rintro ⟨starts, id, gap, text, bracketed, blank, solid, behind⟩
    rw [ofLine?, if_pos starts, bracketed]
    dsimp only
    rw [Text.takeWhile_append_eq blank solid]
    exact (firstSuffix?_isSolid_iff blank solid).mpr behind

/-! ## Longer commands -/

/-- White space is no letter of an id. -/
theorem isLookAlike_of_isBlank
    {character : Char}
    (blank : Text.isBlank character = true) :
    isLookAlike character = false := by
  have apart : ∀ point ∈ lookAlikes, ∀ range ∈ Text.blankRanges,
      point < range.1 ∨ range.2 < point := by
    decide
  rw [← Bool.not_eq_true]
  intro alike
  obtain ⟨range, member, inside⟩ := List.any_eq_true.mp blank
  simp only [Bool.and_eq_true, decide_eq_true_eq] at inside
  have outside := apart _ (List.contains_iff_mem.mp alike) range member
  omega

theorem bracketedId?_cons (inside : Text) :
    bracketedId? ('[' :: inside) =
      if idAt inside ≠ [] ∧ (inside.drop (idAt inside).length).head? = some ']' then
        some (some (idAt inside), inside.drop ((idAt inside).length + 1))
      else none := rfl

theorem bracketedId?_of_head?_ne {text : Text} (opens : text.head? ≠ some '[') :
    bracketedId? text = some (none, text) := by
  unfold bracketedId?
  split
  · exact absurd rfl opens
  · rfl

theorem idAt_isPrefix (text : Text) : idAt text <+: text := by
  cases text with
  | nil => exact List.prefix_refl _
  | cons first rest =>
      rw [idAt]
      split
      · exact List.cons_prefix_cons.mpr ⟨rfl, List.takeWhile_prefix _⟩
      · exact List.nil_prefix

section Tail

variable {tail : Text} (spaced : Text.startsWith Text.isBlank tail = true)
include spaced

theorem idAt_append_blank (text : Text) : idAt (text ++ tail) = idAt text := by
  obtain ⟨blank, others, rfl, isBlank⟩ := Command.exists_blank spaced
  have notWord := Token.isAsciiWordCharacter_of_isBlank isBlank
  have notAlike := isLookAlike_of_isBlank isBlank
  cases text with
  | nil =>
      change idAt (blank :: others) = []
      rw [idAt, Token.isAsciiWordStart_of_isBlank isBlank, notAlike]
      rfl
  | cons first rest =>
      obtain ⟨name, further, rfl, all, stops⟩ := Text.exists_append_of_all
        (fun character => Text.isAsciiWordCharacter character || isLookAlike character) rest
      have stopsLater : Text.startsWith
          (fun character => Text.isAsciiWordCharacter character || isLookAlike character)
          (further ++ blank :: others) = false :=
        Text.startsWith_append_eq_false stops (by simp [notWord, notAlike])
      rw [List.cons_append, List.append_assoc, idAt, idAt, Text.takeWhile_append_eq all stops,
        Text.takeWhile_append_eq all stopsLater]

/-- White space behind an id in brackets stays behind it. -/
theorem bracketedId?_append_blank
    {text rest : Text}
    {id : Option Text}
    (found : bracketedId? text = some (id, rest)) :
    bracketedId? (text ++ tail) = some (id, rest ++ tail) := by
  by_cases opens : text.head? = some '['
  · obtain ⟨inside, rfl⟩ := List.head?_eq_some_iff.mp opens
    obtain ⟨⟨nonempty, closing⟩, same⟩ := Option.ite_none_right_eq_some.mp found
    cases same
    obtain ⟨others, behind⟩ := List.head?_eq_some_iff.mp closing
    have sameId := idAt_append_blank spaced inside
    have within : (idAt inside).length ≤ inside.length := (idAt_isPrefix inside).length_le
    have behindLater : (inside ++ tail).drop (idAt inside).length = ']' :: (others ++ tail) := by
      rw [List.drop_append_of_le_length within, behind, List.cons_append]
    have left : inside.drop ((idAt inside).length + 1) = others := by
      rw [← List.drop_drop, behind]
      rfl
    have leftLater : (inside ++ tail).drop ((idAt inside).length + 1) = others ++ tail := by
      rw [← List.drop_drop, behindLater]
      rfl
    rw [left, List.cons_append]
    simp [bracketedId?, sameId, nonempty, behindLater, leftLater]
  · rw [bracketedId?_of_head?_ne opens] at found
    cases found
    refine bracketedId?_of_head?_ne fun opensLater => ?_
    cases text with
    | nil =>
        obtain ⟨others, rfl⟩ := List.head?_eq_some_iff.mp opensLater
        cases spaced
    | cons first others => exact opens opensLater

/-- White space completes no id in brackets. -/
theorem exists_bracketedId?_of_append
    {text behind : Text}
    {id : Option Text}
    (found : bracketedId? (text ++ tail) = some (id, behind)) :
    ∃ rest, bracketedId? text = some (id, rest) ∧ behind = rest ++ tail := by
  cases known : bracketedId? text with
  | some pair =>
      obtain ⟨other, rest⟩ := pair
      rw [bracketedId?_append_blank spaced known] at found
      cases found
      exact ⟨rest, rfl, rfl⟩
  | none =>
      by_cases opens : text.head? = some '['
      · obtain ⟨inside, rfl⟩ := List.head?_eq_some_iff.mp opens
        have within : (idAt inside).length ≤ inside.length := (idAt_isPrefix inside).length_le
        rw [List.cons_append, bracketedId?_cons, idAt_append_blank spaced,
          List.drop_append_of_le_length within] at found
        obtain ⟨⟨nonempty, closing⟩, -⟩ := Option.ite_none_right_eq_some.mp found
        cases behindId : inside.drop (idAt inside).length with
        | nil =>
            rw [behindId, List.nil_append] at closing
            obtain ⟨others, rfl⟩ := List.head?_eq_some_iff.mp closing
            cases spaced
        | cons first others =>
            rw [behindId, List.cons_append] at closing
            rw [bracketedId?_cons, behindId, if_pos ⟨nonempty, closing⟩] at known
            cases known
      · rw [bracketedId?_of_head?_ne opens] at known
        cases known

/-- A command in front of white space decides the id in brackets of a longer command, and where
its dimensions start. -/
theorem exists_body?_of_append
    {line : Text}
    {heading : Heading}
    (found : ofLine? (line ++ tail) = some heading ∧ heading.IsSolid) :
    Command.startsWith Command.boardWord line = true ∧
      ∃ id rest, bracketedId? (line.drop Command.boardWord.length) = some (id, rest) ∧
        ∃ gap text, rest ++ tail = gap ++ text ∧ gap.all Text.isBlank = true ∧
          Text.startsWith Text.isBlank text = false ∧ gap ≠ [] ∧
          body? id [] text = some heading := by
  obtain ⟨starts, id, gap, text, bracketed, blank, stops, nonempty, known⟩ :=
    ofLine?_isSolid_iff.mp found
  rw [Command.startsWith_append_blank spaced (by decide)] at starts
  rw [List.drop_append_of_le_length (Command.length_le_of_startsWith starts)] at bracketed
  obtain ⟨rest, lineBracketed, behind⟩ := exists_bracketedId?_of_append spaced bracketed
  exact ⟨starts, id, rest, lineBracketed, gap, text, behind.symm, blank, stops, nonempty, known⟩

/-- A heading with solid dimensions stays the heading of a longer command, but for longer
options. -/
theorem exists_ofLine?_append
    {line : Text}
    {heading : Heading}
    (single : '\n' ∉ line ++ tail)
    (found : ofLine? line = some heading)
    (isSolid : heading.IsSolid) :
    ∃ after, after <:+ line ∧ heading.options = Text.stripStart after ∧
      ofLine? (line ++ tail) =
        some { heading with options := Text.stripStart (after ++ tail) } := by
  obtain ⟨starts, id, gap, text, bracketed, blank, solid, nonempty, known⟩ :=
    ofLine?_isSolid_iff.mp ⟨found, isSolid⟩
  have singleText : '\n' ∉ text ++ tail := by
    have inside := (bracketedId?_isSuffix bracketed).trans (List.drop_suffix _ line)
    rw [List.mem_append, not_or] at single ⊢
    exact ⟨fun member => single.1 (inside.subset (List.mem_append_right _ member)), single.2⟩
  obtain ⟨after, behind, same, longer⟩ := exists_body?_append singleText known
  have inside : text <:+ line := (List.suffix_append gap text).trans
    ((bracketedId?_isSuffix bracketed).trans (List.drop_suffix _ line))
  have nonemptyText : text ≠ [] := by
    rintro rfl
    cases known
  have length := Command.length_le_of_startsWith starts
  refine ⟨after, behind.trans inside, same, ?_⟩
  refine (ofLine?_isSolid_iff.mpr ⟨?_, id, gap, text ++ tail, ?_, blank, ?_, nonempty, longer⟩).1
  · rw [Command.startsWith_append_blank spaced (by decide), starts]
  · rw [List.drop_append_of_le_length length, bracketedId?_append_blank spaced bracketed,
      List.append_assoc]
  · rw [Text.IsSpaced.startsWith_append nonemptyText, solid]

end Tail

end Heading
end Joinery
