import Joinery.Proofs.Expression.Foreign
import Joinery.Proofs.Expression.Substitution
import Joinery.Proofs.Text.Respaced

/-!
# White space in expressions

An expression that has a value keeps it if there is other white space where it has some.
No reference has white space in it but the arguments of a distance, and these are plain
arithmetic, in which white space separates lexemes and says nothing.
-/

namespace Joinery

open Text

/-! ## Replacing -/

/-- What is written for the pieces of a text is written for those of a respaced text, with
white space at the same places. -/
theorem Text.Respects.exists_replace
    {α : Type}
    {read : Reader α}
    {alike : α → α → Prop}
    {write : α → Except Cause Text}
    (respects : Respects read alike)
    (writes : ∀ value other text, alike value other → write value = .ok text →
      write other = .ok text)
    {first second : Text}
    (respaced : Respaced first second) :
    ∀ replaced, replace write (pieces read first) = .ok replaced →
      ∃ other, replace write (pieces read second) = .ok other ∧ Respaced replaced other := by
  have gaps (gap rest : Text) (isGap : IsGap gap) :
      replace write (pieces read (gap ++ rest)) =
        (replace write (pieces read rest)).map (gap ++ ·) :=
    Expression.replace_append (fun character member =>
      (respects.unread character · (List.all_eq_true.mp isGap.blank character member))) rest
  refine respects.induction respaced ?nil ?gap ?other ?found
  case nil => exact fun replaced done => ⟨replaced, done, .refl replaced⟩
  case gap =>
    intro left right first second leftGap rightGap inductionHypothesis replaced done
    rw [gaps _ _ leftGap] at done
    cases written : replace write (pieces read first) with
    | error cause =>
        rw [written] at done
        cases done
    | ok rest =>
        rw [written] at done
        cases done
        obtain ⟨other, known, respaced⟩ := inductionHypothesis _ written
        refine ⟨right ++ other, ?_, .gap leftGap rightGap respaced⟩
        rw [gaps _ _ rightGap, known]
        rfl
  case other =>
    intro character first second isSolid absent otherAbsent inductionHypothesis replaced done
    rw [pieces_of_read_eq_none absent] at done
    obtain ⟨rest, written, same⟩ := bind_eq_ok.mp done
    cases same
    obtain ⟨other, known, respaced⟩ := inductionHypothesis _ written
    refine ⟨character :: other, ?_, .solid character isSolid respaced⟩
    rw [pieces_of_read_eq_none otherAbsent, replace, known]
    rfl
  case found =>
    intro character first second value otherValue count otherCount isSolid known otherKnown same
      taken left inductionHypothesis replaced done
    rw [pieces_of_read_eq_some known] at done
    obtain ⟨text, here, done⟩ := bind_eq_ok.mp done
    obtain ⟨rest, written, whole⟩ := bind_eq_ok.mp done
    cases whole
    obtain ⟨other, known, respaced⟩ := inductionHypothesis _ written
    refine ⟨text ++ other, ?_, (Respaced.refl text).append respaced⟩
    rw [pieces_of_read_eq_some otherKnown, replace, writes _ _ _ same here, known]
    rfl

namespace Arithmetic

/-! ## Arithmetic -/

/-- A numeral ends where the same text ends in a respaced text. -/
theorem exists_of_readNumeral
    {character : Char}
    {first second : Text}
    {value : Binary64}
    {count : Nat}
    (respaced : Respaced first second)
    (found : readNumeral character first = some (value, count)) :
    ∃ part rest others, first = part ++ rest ∧ second = part ++ others ∧ Respaced rest others ∧
      part.length = count ∧ readNumeral character second = some (value, count) := by
  obtain ⟨digits, rest, others, rfl, rfl, left, taken, otherTaken⟩ :=
    respaced.exists_takeWhile fun _ => isDigit_of_isBlank
  simp only [readNumeral, taken, otherTaken, List.drop_left] at found ⊢
  cases isDigit : Text.isDigit character with
  | false =>
      simp only [isDigit, Bool.false_eq_true, if_false] at found ⊢
      obtain ⟨-, same⟩ := Option.ite_none_right_eq_some.mp found
      cases same
      exact ⟨digits, rest, others, rfl, rfl, left, rfl, found⟩
  | true =>
      simp only [isDigit, if_true] at found ⊢
      obtain ⟨after, otherAfter, rfl, rfl, further⟩ | ⟨noPoint, otherNoPoint⟩ :=
        left.exists_cons_or (show Text.isBlank '.' = false by decide)
      · obtain ⟨fraction, rest, others, rfl, rfl, left, taken, otherTaken⟩ :=
          further.exists_takeWhile fun _ => isDigit_of_isBlank
        simp only [taken, otherTaken] at found ⊢
        cases found
        refine ⟨digits ++ '.' :: fraction, rest, others, by simp, by simp, left, ?_, rfl⟩
        simp
        omega
      · split at found
        · exact absurd rfl noPoint
        cases found
        refine ⟨digits, rest, others, rfl, rfl, left, rfl, ?_⟩
        split
        · exact absurd rfl otherNoPoint
        · rfl

theorem respects_readLexeme : Respects readLexeme Eq := by
  refine .of_common (fun _ rest blank => readLexeme_of_isBlank blank rest) ?_
  intro character first second value count respaced found
  unfold readLexeme at found ⊢
  cases known : Lexeme.ofCharacter? character with
  | some lexeme =>
      simp only [known] at found ⊢
      cases found
      exact ⟨[], first, second, rfl, rfl, respaced, rfl, rfl⟩
  | none =>
      simp only [known] at found ⊢
      obtain ⟨⟨number, digits⟩, read, same⟩ := Option.map_eq_some_iff.mp found
      cases same
      obtain ⟨part, rest, others, front, rear, left, length, otherRead⟩ :=
        exists_of_readNumeral respaced read
      exact ⟨part, rest, others, front, rear, left, length, by rw [otherRead]; rfl⟩

/-- White space does not change the lexemes of a text. -/
theorem lexemes?_eq_of_respaced {first second : Text} (respaced : Respaced first second) :
    lexemes? first = lexemes? second := by
  unfold lexemes?
  refine respects_readLexeme.induction respaced ?nil ?gap ?other ?found
  case nil => rfl
  case gap =>
    intro left right first second leftGap rightGap inductionHypothesis
    rwa [lexemesOfPieces?_append_blanks leftGap.blank,
      lexemesOfPieces?_append_blanks rightGap.blank]
  case other =>
    intro character first second isSolid absent otherAbsent inductionHypothesis
    rw [pieces_of_read_eq_none absent, pieces_of_read_eq_none otherAbsent, lexemesOfPieces?,
      lexemesOfPieces?, inductionHypothesis]
  case found =>
    rintro character first second lexeme _ count otherCount isSolid known otherKnown rfl taken left
      inductionHypothesis
    rw [pieces_of_read_eq_some known, pieces_of_read_eq_some otherKnown, lexemesOfPieces?,
      lexemesOfPieces?, inductionHypothesis]

/-- White space does not change the value of arithmetic. -/
theorem evaluate_eq_of_respaced {first second : Text} (respaced : Respaced first second) :
    evaluate first = evaluate second := by
  have allowed : first.all isAllowed = second.all isAllowed :=
    respaced.all_eq fun character blank => by simp [isAllowed, blank]
  have empty : first = [] ↔ second = [] :=
    ⟨fun same => (same ▸ respaced).eq_nil, fun same => (same ▸ respaced.symm).eq_nil⟩
  simp only [evaluate, rawValue, allowed, empty, lexemes?_eq_of_respaced respaced]

end Arithmetic

theorem evaluateArithmetic_of_respaced
    {first second : Text}
    {value : Binary64}
    (respaced : Respaced first second)
    (evaluated : evaluateArithmetic first = .ok value) :
    evaluateArithmetic second = .ok value := by
  have known := mapError_eq_ok.mp evaluated
  rw [Arithmetic.evaluate_eq_of_respaced respaced.strip] at known
  exact mapError_eq_ok.mpr known

namespace Expression

/-! ## References -/

theorem identifier_eq (text : Text) :
    identifier text =
      if startsWith isAsciiWordStart text then text.takeWhile isAsciiWordCharacter else [] := by
  cases text <;> rfl

/-- Respaced texts start with the same name. -/
theorem exists_identifier {first second : Text} (respaced : Respaced first second) :
    ∃ name rest others, first = name ++ rest ∧ second = name ++ others ∧
      Respaced rest others ∧ identifier first = name ∧ identifier second = name := by
  simp only [identifier_eq, respaced.startsWith_eq fun _ => Token.isAsciiWordStart_of_isBlank]
  split
  · exact respaced.exists_takeWhile fun _ => Token.isAsciiWordCharacter_of_isBlank
  · exact ⟨[], first, second, rfl, rfl, respaced, rfl, rfl⟩

theorem respects_readVariable : Respects readVariable Eq := by
  refine .of_common (fun character rest blank => readVariable_eq_none ?_ rest) ?_
  · rintro rfl
    cases blank
  · intro character first second name count respaced found
    obtain ⟨part, rest, others, front, rear, left, named, otherNamed⟩ :=
      exists_identifier respaced
    simp only [readVariable, named, otherNamed] at found ⊢
    obtain ⟨-, same⟩ := Option.ite_none_right_eq_some.mp found
    cases same
    exact ⟨name, rest, others, front, rear, left, rfl, found⟩

theorem isAlphanum_of_isBlank
    {character : Char}
    (blank : isBlank character = true) :
    character.isAlphanum = false :=
  (Bool.or_eq_false_iff.mp (Token.isAsciiWordCharacter_of_isBlank blank)).1

theorem respects_readProperty : Respects readProperty Eq := by
  refine .of_common (fun character rest blank => readProperty_eq_none ?_ rest) ?_
  · rintro rfl
    cases blank
  · intro character first second reference count respaced found
    obtain ⟨id, rest, others, rfl, rfl, left, named, otherNamed⟩ :=
      exists_identifier respaced
    simp only [readProperty, named, otherNamed, List.drop_left] at found ⊢
    obtain ⟨opens, found⟩ := Option.ite_none_right_eq_some.mp found
    rw [if_pos opens]
    split at found
    next after =>
      obtain ⟨otherAfter, rfl, further⟩ := left.exists_cons (show isBlank '.' = false by decide)
      obtain ⟨property, rest, others, rfl, rfl, left, taken, otherTaken⟩ :=
        further.exists_takeWhile fun _ => isAlphanum_of_isBlank
      simp only [taken, otherTaken, List.drop_left] at found ⊢
      obtain ⟨closes, same⟩ := Option.ite_none_right_eq_some.mp found
      cases same
      obtain ⟨behind, rfl⟩ := List.head?_eq_some_iff.mp closes.2
      obtain ⟨otherBehind, rfl, ends⟩ := left.exists_cons (show isBlank '}' = false by decide)
      refine ⟨id ++ '.' :: (property ++ ['}']), behind, otherBehind, by simp, by simp, ends, ?_, ?_⟩
      · simp
        omega
      · rw [if_pos ⟨closes.1, rfl⟩]
    next => cases found

/-- Distances with the same arguments but for white space. -/
structure DistanceReference.Respaced (first second : DistanceReference) : Prop where
  x1 : first.x1.Respaced second.x1
  y1 : first.y1.Respaced second.y1
  x2 : first.x2.Respaced second.x2
  y2 : first.y2.Respaced second.y2

theorem partBefore?_eq_some_iff {mark : Char} {text part rest : Text} :
    partBefore? mark text = some (part, rest) ↔
      text = part ++ mark :: rest ∧ part ≠ [] ∧ mark ∉ part := by
  constructor
  · intro found
    have whole := eq_append_of_partBefore? found
    unfold partBefore? at found
    split at found
    · cases found
    · cases found
    next first stop behind nonempty split =>
      cases found
      rw [List.span_eq_takeWhile_dropWhile, Prod.mk.injEq] at split
      refine ⟨whole, nonempty, fun member => ?_⟩
      rw [← split.1] at member
      simpa using List.mem_takeWhile_imp member
  · rintro ⟨rfl, nonempty, absent⟩
    have all : part.all (· != mark) = true :=
      List.all_eq_true.mpr fun character member =>
        bne_iff_ne.mpr fun same => absent (same ▸ member)
    have stops : startsWith (· != mark) (mark :: rest) = false := by simp
    rw [partBefore?, List.span_eq_takeWhile_dropWhile, takeWhile_append_eq all stops,
      dropWhile_append_eq all stops]
    split
    next empty => exact absurd (Prod.mk.inj empty).1 nonempty
    next ends => cases (Prod.mk.inj ends).2
    next split =>
      obtain ⟨same, behind⟩ := Prod.mk.inj split
      rw [same, (List.cons.inj behind).2]

/-- A part before a character has a respaced part in a respaced text. -/
theorem exists_partBefore?
    {mark : Char}
    {first second part rest : Text}
    (isSolid : Text.isBlank mark = false)
    (respaced : Respaced first second)
    (found : partBefore? mark first = some (part, rest)) :
    ∃ otherPart others, partBefore? mark second = some (otherPart, others) ∧
      Respaced part otherPart ∧ Respaced rest others := by
  obtain ⟨rfl, nonempty, absent⟩ := partBefore?_eq_some_iff.mp found
  obtain ⟨otherPart, others, rfl, front, rear⟩ := respaced.exists_append_cons isSolid
  refine ⟨otherPart, others, partBefore?_eq_some_iff.mpr ⟨rfl, ?_, ?_⟩, front, rear⟩
  · rintro rfl
    exact nonempty front.symm.eq_nil
  · exact fun member => absent (front.symm.mem_of_mem isSolid member)

/-- A distance is read from its name and its arguments. -/
theorem readDistance_eq_some_iff
    {letter : Char}
    {text : Text}
    {reference : DistanceReference}
    {count : Nat} :
    readDistance letter text = some (reference, count) ↔
      ∃ second third arguments behindX1 behindY1 behindX2 rest,
        text = second :: third :: '(' :: arguments ∧
        [letter, second, third].map Char.toLower = "len".toList ∧
        partBefore? ',' arguments = some (reference.x1, behindX1) ∧
        partBefore? ',' behindX1 = some (reference.y1, behindY1) ∧
        partBefore? ',' behindY1 = some (reference.x2, behindX2) ∧
        partBefore? ')' behindX2 = some (reference.y2, rest) ∧
        count = 3 + arguments.length - rest.length := by
  constructor
  · intro found
    unfold readDistance at found
    split at found
    next second third arguments isFirst =>
      obtain ⟨_, letters, found⟩ := Option.bind_eq_some_iff.mp found
      obtain ⟨⟨x1, behindX1⟩, knownX1, found⟩ := Option.bind_eq_some_iff.mp found
      obtain ⟨⟨y1, behindY1⟩, knownY1, found⟩ := Option.bind_eq_some_iff.mp found
      obtain ⟨⟨x2, behindX2⟩, knownX2, found⟩ := Option.bind_eq_some_iff.mp found
      obtain ⟨⟨y2, rest⟩, knownY2, found⟩ := Option.bind_eq_some_iff.mp found
      cases found
      have lowered : second.toLower = 'e' ∧ third.toLower = 'n' := by
        by_contra other
        rw [guard, if_neg other] at letters
        cases letters
      exact ⟨second, third, arguments, behindX1, behindY1, behindX2, rest, rfl,
        by simp [isFirst, lowered], knownX1, knownY1, knownX2, knownY2, rfl⟩
    next => cases found
  · rintro ⟨second, third, arguments, behindX1, behindY1, behindX2, rest, rfl, name, x1, y1, x2,
      y2, rfl⟩
    have lowered : letter.toLower = 'l' ∧ second.toLower = 'e' ∧ third.toLower = 'n' := by
      simpa using name
    simp [readDistance, lowered, x1, y1, x2, y2]

/-- The arguments of a distance as they are written, with the parenthesis behind them. -/
def DistanceReference.arguments (reference : DistanceReference) : Text :=
  reference.x1 ++ ',' :: (reference.y1 ++ ',' :: (reference.x2 ++ ',' :: (reference.y2 ++ [')'])))

theorem DistanceReference.Respaced.arguments
    {first second : DistanceReference}
    (same : first.Respaced second) :
    first.arguments.Respaced second.arguments :=
  have isSolid : isBlank ',' = false := by decide
  same.x1.append (.solid ',' isSolid (same.y1.append (.solid ',' isSolid
    (same.x2.append (.solid ',' isSolid (same.y2.append (.refl _)))))))

theorem arguments_eq
    {text rest behindX1 behindY1 behindX2 : Text}
    {reference : DistanceReference}
    (x1 : partBefore? ',' text = some (reference.x1, behindX1))
    (y1 : partBefore? ',' behindX1 = some (reference.y1, behindY1))
    (x2 : partBefore? ',' behindY1 = some (reference.x2, behindX2))
    (y2 : partBefore? ')' behindX2 = some (reference.y2, rest)) :
    text = reference.arguments ++ rest := by
  rw [eq_append_of_partBefore? x1, eq_append_of_partBefore? y1, eq_append_of_partBefore? x2,
    eq_append_of_partBefore? y2]
  simp [DistanceReference.arguments]

theorem respects_readDistance : Respects readDistance DistanceReference.Respaced where
  unread character rest blank := by
    refine readDistance_eq_none ?_ rest
    rw [toLower_of_isBlank blank]
    rintro rfl
    cases blank
  found letter first second reference count respaced found := by
    obtain ⟨next, last, arguments, behindX1, behindY1, behindX2, rest, rfl, name, x1, y1, x2, y2,
      rfl⟩ := readDistance_eq_some_iff.mp found
    have solid (character : Char) (member : character ∈ [letter, next, last]) :
        isBlank character = false := by
      rw [← Bool.not_eq_true]
      intro blank
      have lowered := List.mem_map_of_mem (f := Char.toLower) member
      rw [name, toLower_of_isBlank blank] at lowered
      have inName : ∀ other ∈ ['l', 'e', 'n'], isBlank other = false :=
        forall_mem_of_all_not (by decide)
      rw [inName character lowered] at blank
      cases blank
    obtain ⟨_, rfl, behindFirst⟩ := respaced.exists_cons (solid next (by simp))
    obtain ⟨_, rfl, behindName⟩ := behindFirst.exists_cons (solid last (by simp))
    obtain ⟨_, rfl, inside⟩ := behindName.exists_cons (by decide)
    obtain ⟨x1Text, _, otherX1, sameX1, left⟩ := exists_partBefore? (by decide) inside x1
    obtain ⟨y1Text, _, otherY1, sameY1, left⟩ := exists_partBefore? (by decide) left y1
    obtain ⟨x2Text, _, otherX2, sameX2, left⟩ := exists_partBefore? (by decide) left x2
    obtain ⟨y2Text, _, otherY2, sameY2, left⟩ := exists_partBefore? (by decide) left y2
    have same : reference.Respaced ⟨x1Text, y1Text, x2Text, y2Text⟩ :=
      ⟨sameX1, sameY1, sameX2, sameY2⟩
    have count_eq (front rest : Text) :
        3 + (front ++ rest).length - rest.length = (next :: last :: '(' :: front).length := by
      simp
      omega
    have cut_eq (front rest : Text) :
        next :: last :: '(' :: (front ++ rest) = (next :: last :: '(' :: front) ++ rest := rfl
    have written := arguments_eq x1 y1 x2 y2
    have otherWritten :=
      @arguments_eq _ _ _ _ _ ⟨x1Text, y1Text, x2Text, y2Text⟩ otherX1 otherY1 otherX2 otherY2
    refine ⟨_, _, readDistance_eq_some_iff.mpr ⟨_, _, _, _, _, _, _, rfl, name, otherX1, otherY1,
      otherX2, otherY2, rfl⟩, same, ?_, ?_⟩
    · rw [written, otherWritten, count_eq, count_eq, cut_eq, cut_eq, List.take_left, List.take_left]
      exact .solid next (solid next (by simp)) (.solid last (solid last (by simp))
        (.solid '(' (by decide) same.arguments))
    · rw [written, otherWritten, count_eq, count_eq, cut_eq, cut_eq, List.drop_left, List.drop_left]
      exact left

theorem writeDistance_of_respaced
    {first second : DistanceReference}
    {text : Text}
    (respaced : first.Respaced second)
    (written : writeDistance first = .ok text) :
    writeDistance second = .ok text := by
  obtain ⟨x1, knownX1, written⟩ := bind_eq_ok.mp written
  obtain ⟨y1, knownY1, written⟩ := bind_eq_ok.mp written
  obtain ⟨x2, knownX2, written⟩ := bind_eq_ok.mp written
  obtain ⟨y2, knownY2, written⟩ := bind_eq_ok.mp written
  exact bind_eq_ok.mpr ⟨x1, evaluateArithmetic_of_respaced respaced.x1 knownX1,
    bind_eq_ok.mpr ⟨y1, evaluateArithmetic_of_respaced respaced.y1 knownY1,
      bind_eq_ok.mpr ⟨x2, evaluateArithmetic_of_respaced respaced.x2 knownX2,
        bind_eq_ok.mpr ⟨y2, evaluateArithmetic_of_respaced respaced.y2 knownY2, written⟩⟩⟩⟩

end Expression

/-- An expression with a value keeps it in a respaced text. -/
theorem evaluate_of_respaced
    {scope : Scope}
    {first second : Text}
    {value : Binary64}
    (respaced : Respaced first second)
    (evaluated : evaluate scope first = .ok value) :
    evaluate scope second = .ok value := by
  obtain ⟨plain, written, evaluated⟩ := bind_eq_ok.mp evaluated
  obtain ⟨measured, replaced, evaluated⟩ := bind_eq_ok.mp evaluated
  obtain ⟨spanned, done, evaluated⟩ := bind_eq_ok.mp evaluated
  obtain ⟨_, otherWritten, respaced⟩ := Expression.respects_readVariable.exists_replace
    (fun _ _ _ same known => same ▸ known) respaced plain written
  obtain ⟨_, otherReplaced, respaced⟩ := Expression.respects_readProperty.exists_replace
    (fun _ _ _ same known => same ▸ known) respaced measured replaced
  obtain ⟨_, otherDone, respaced⟩ := Expression.respects_readDistance.exists_replace
    (fun _ _ _ same known => Expression.writeDistance_of_respaced same known) respaced spanned done
  exact bind_eq_ok.mpr ⟨_, otherWritten, bind_eq_ok.mpr ⟨_, otherReplaced,
    bind_eq_ok.mpr ⟨_, otherDone, evaluateArithmetic_of_respaced respaced evaluated⟩⟩⟩

end Joinery
