import Joinery.Proofs.Keyword.Next
import Joinery.Proofs.Token.Place
import Mathlib.Data.List.Find
import Mathlib.Data.List.Pairwise

/-!
# Searches for keywords as words

A keyword is found where it stands as a word: nothing continues it, it is no variable, and
as many brackets are closed as opened in front of it. So the next of some keywords does not
depend on tokens, and its place does not depend on the order of the keywords.
-/

namespace Joinery
namespace Keyword

/-- Whether a word is a keyword, in capitals or small letters of ASCII. -/
def isSpelledAs (word keyword : Text) : Bool :=
  word.map Char.toLower == keyword.map Char.toLower

/-- One of some keywords stands at an offset. -/
def IsPlaceOf (text : Text) (keywords : List Text) (offset : Nat) : Prop :=
  ∃ word, IsWordAt text offset word ∧ ∃ keyword ∈ keywords, isSpelledAs word keyword = true

variable {text keyword word : Text} {keywords : List Text} {position : Nat}

theorem isSpelledAs_comm (word keyword : Text) :
    isSpelledAs word keyword = isSpelledAs keyword word :=
  BEq.comm

theorem isSpelledAs_trans
    {first second third : Text}
    (firstSecond : isSpelledAs first second = true)
    (secondThird : isSpelledAs second third = true) :
    isSpelledAs first third = true := by
  rw [isSpelledAs, beq_iff_eq] at firstSecond secondThird ⊢
  exact firstSecond.trans secondThird

/-- Of keywords with different spellings, a word is spelled like one at most. -/
theorem eq_of_isSpelledAs
    (differ : keywords.Pairwise fun first second => isSpelledAs first second = false)
    {first second : Text}
    (firstMember : first ∈ keywords)
    (secondMember : second ∈ keywords)
    (firstSpelled : isSpelledAs word first = true)
    (secondSpelled : isSpelledAs word second = true) :
    first = second := by
  have symmetric : Std.Symm fun first second => isSpelledAs first second = false :=
    ⟨fun first second => (isSpelledAs_comm first second).symm.trans⟩
  by_contra different
  have apart := differ.forall firstMember secondMember different
  rw [isSpelledAs_comm word first] at firstSpelled
  rw [isSpelledAs_trans firstSpelled secondSpelled] at apart
  cases apart

/-- The places of keywords do not depend on their order. -/
theorem isPlaceOf_perm
    {reordered : List Text}
    (perm : reordered.Perm keywords)
    (place : Nat) :
    IsPlaceOf text reordered place ↔ IsPlaceOf text keywords place := by
  simp only [IsPlaceOf, perm.mem_iff]

/-- Of tokens with increasing offsets, a search takes the one with the least offset. -/
theorem find?_eq_some_iff_isLeast
    {list : List Token}
    (order : list.Pairwise (·.position < ·.position))
    {holds : Token → Bool}
    {token : Token} :
    list.find? holds = some token ↔
      token ∈ list ∧ holds token = true ∧
        ∀ other ∈ list, holds other = true → token.position ≤ other.position := by
  induction list with
  | nil => simp
  | cons first others inductionHypothesis =>
      obtain ⟨ahead, othersOrder⟩ := List.pairwise_cons.mp order
      cases here : holds first with
      | true =>
          rw [List.find?_cons_of_pos here, Option.some.injEq]
          constructor
          · rintro rfl
            refine ⟨List.mem_cons_self, here, List.forall_mem_cons.mpr ⟨?_, ?_⟩⟩
            · exact fun _ => Nat.le_refl _
            · exact fun other member _ => Nat.le_of_lt (ahead other member)
          · rintro ⟨member, -, least⟩
            rcases List.mem_cons.mp member with same | later
            · exact same.symm
            · exact absurd (least first List.mem_cons_self here) (by simpa using ahead token later)
      | false =>
          rw [List.find?_cons_of_neg (by simp [here]), inductionHypothesis othersOrder]
          constructor
          · rintro ⟨member, found, least⟩
            refine ⟨List.mem_cons_of_mem _ member, found, List.forall_mem_cons.mpr ⟨?_, least⟩⟩
            simp [here]
          · rintro ⟨member, found, least⟩
            rcases List.mem_cons.mp member with rfl | later
            · rw [here] at found
              cases found
            · exact ⟨later, found, (List.forall_mem_cons.mp least).2⟩

/-! ## A single keyword -/

section Single

variable (ascii : ∀ character ∈ keyword, character.toNat < 128)
include ascii

/-- A word outside of brackets is a keyword if it is spelled like it. -/
theorem isAt_word (isWord : IsWordAt text position word) :
    isAt keyword ⟨.word, word, position, 0⟩ = isSpelledAs word keyword := by
  obtain ⟨_, _, -, -, between, -⟩ := isWord
  rw [isAt, isSpelledAs, Text.lower_of_isAsciiWordCharacter between.isWord,
    Text.lower_of_ascii ascii]
  simp [beq_eq_decide]

/-- A token that is a keyword is a word that is spelled like it. -/
theorem isWordAt_of_isAt
    {token : Token}
    (member : token ∈ tokens text)
    (here : isAt keyword token = true) :
    IsWordAt text token.position token.text ∧ isSpelledAs token.text keyword = true := by
  obtain ⟨kind, word, position, depth⟩ := token
  obtain ⟨⟨rfl, rfl⟩, -⟩ : (kind = .word ∧ depth = 0) ∧ _ := by simpa [isAt] using here
  have isWord := (isWordAt_iff text position word).mpr member
  exact ⟨isWord, (isAt_word ascii isWord).symm.trans here⟩

theorem find?_eq_none_iff :
    find? text keyword = none ↔
      ∀ place word, IsWordAt text place word → isSpelledAs word keyword = false := by
  rw [find?, Option.map_eq_none_iff, List.find?_eq_none]
  constructor
  · intro none place word isWord
    rw [← isAt_word ascii isWord]
    simpa using none _ ((isWordAt_iff text place word).mp isWord)
  · intro none token member here
    obtain ⟨isWord, spelled⟩ := isWordAt_of_isAt ascii member here
    rw [none _ _ isWord] at spelled
    cases spelled

/-- A keyword is found at the first place at which it stands as a word. -/
theorem find?_eq_some_iff :
    find? text keyword = some position ↔
      (∃ word, IsWordAt text position word ∧ isSpelledAs word keyword = true) ∧
        ∀ place word, IsWordAt text place word → isSpelledAs word keyword = true →
          position ≤ place := by
  have order : (tokens text).Pairwise (·.position < ·.position) :=
    Token.pairwise_position 0 0 text
  rw [find?, Option.map_eq_some_iff]
  constructor
  · rintro ⟨token, found, rfl⟩
    obtain ⟨member, here, least⟩ := (find?_eq_some_iff_isLeast order).mp found
    refine ⟨⟨_, isWordAt_of_isAt ascii member here⟩, fun place word isWord spelled => ?_⟩
    apply least _ ((isWordAt_iff text place word).mp isWord)
    rw [isAt_word ascii isWord, spelled]
  · rintro ⟨⟨word, isWord, spelled⟩, least⟩
    refine ⟨⟨.word, word, position, 0⟩, (find?_eq_some_iff_isLeast order).mpr ⟨?_, ?_, ?_⟩, rfl⟩
    · exact (isWordAt_iff text position word).mp isWord
    · rw [isAt_word ascii isWord, spelled]
    · intro other member here
      obtain ⟨otherWord, otherSpelled⟩ := isWordAt_of_isAt ascii member here
      exact least _ _ otherWord otherSpelled

end Single

/-! ## The next of some keywords -/

section Next

variable (ascii : ∀ keyword ∈ keywords, ∀ character ∈ keyword, character.toNat < 128)
include ascii

/-- No keyword is found exactly if none stands anywhere. -/
theorem findNext?_eq_none_iff_forall :
    findNext? text keywords = none ↔ ∀ place, ¬IsPlaceOf text keywords place := by
  rw [findNext?_eq_none_iff]
  constructor
  · rintro none place ⟨word, isWord, keyword, member, spelled⟩
    have unspelled :=
      (find?_eq_none_iff (ascii keyword member)).mp (none keyword member) place word isWord
    rw [spelled] at unspelled
    cases unspelled
  · intro none keyword member
    rw [find?_eq_none_iff (ascii keyword member)]
    intro place word isWord
    rw [Bool.eq_false_iff]
    exact fun spelled => none place ⟨word, isWord, keyword, member, spelled⟩

/-- Where a word stands in front of all keywords of a text, the keywords found there are
those that are spelled like it. -/
theorem find?_eq_some_iff_isSpelledAs
    (isWord : IsWordAt text position word)
    (least : ∀ place, IsPlaceOf text keywords place → position ≤ place)
    (member : keyword ∈ keywords) :
    find? text keyword = some position ↔ isSpelledAs word keyword = true := by
  rw [find?_eq_some_iff (ascii keyword member)]
  constructor
  · rintro ⟨⟨other, otherWord, spelled⟩, -⟩
    rwa [isWord.unique otherWord]
  · intro spelled
    refine ⟨⟨word, isWord, spelled⟩, fun place other otherWord otherSpelled => ?_⟩
    exact least place ⟨other, otherWord, keyword, member, otherSpelled⟩

/-- The next keyword is the first in the list of those that are spelled like the word at the
least place. -/
theorem findNext?_eq_some_iff_isLeast :
    findNext? text keywords = some (position, keyword) ↔
      (∃ word, IsWordAt text position word ∧
        keywords.find? (isSpelledAs word) = some keyword) ∧
      ∀ place, IsPlaceOf text keywords place → position ≤ place := by
  have same {word : Text} (isWord : IsWordAt text position word)
      (least : ∀ place, IsPlaceOf text keywords place → position ≤ place) :
      keywords.find? (fun other => find? text other = some position) =
        keywords.find? (isSpelledAs word) := by
    refine List.find?_congr fun other member => ?_
    rw [Bool.eq_iff_iff, decide_eq_true_iff]
    exact find?_eq_some_iff_isSpelledAs ascii isWord least member
  rw [findNext?_eq_some_iff]
  constructor
  · rintro ⟨isFirst, behind⟩
    have found : find? text keyword = some position := by simpa using List.find?_some isFirst
    obtain ⟨⟨word, isWord, -⟩, -⟩ :=
      (find?_eq_some_iff (ascii keyword (List.mem_of_find?_eq_some isFirst))).mp found
    have least (place : Nat) (isPlace : IsPlaceOf text keywords place) : position ≤ place := by
      obtain ⟨other, otherWord, further, member, spelled⟩ := isPlace
      cases first : find? text further with
      | none =>
          have unspelled := (find?_eq_none_iff (ascii further member)).mp first place other otherWord
          rw [spelled] at unspelled
          cases unspelled
      | some front =>
          have ahead := ((find?_eq_some_iff (ascii further member)).mp first).2
          exact Nat.le_trans (behind further member front first)
            (ahead place other otherWord spelled)
    exact ⟨⟨word, isWord, same isWord least ▸ isFirst⟩, least⟩
  · rintro ⟨⟨word, isWord, isFirst⟩, least⟩
    refine ⟨(same isWord least).trans isFirst, fun other member place found => least place ?_⟩
    obtain ⟨⟨front, frontWord, spelled⟩, -⟩ := (find?_eq_some_iff (ascii other member)).mp found
    exact ⟨front, frontWord, other, member, spelled⟩

/-- Keywords in another order are found at the same offset. -/
theorem findNext?_perm_position
    {reordered : List Text}
    (perm : reordered.Perm keywords) :
    (findNext? text reordered).map Prod.fst = (findNext? text keywords).map Prod.fst := by
  have reorderedAscii : ∀ keyword ∈ reordered, ∀ character ∈ keyword, character.toNat < 128 :=
    fun keyword member => ascii keyword (perm.mem_iff.mp member)
  cases found : findNext? text keywords with
  | none =>
      have none := (findNext?_eq_none_iff_forall ascii).mp found
      simp only [← isPlaceOf_perm perm] at none
      rw [(findNext?_eq_none_iff_forall reorderedAscii).mpr none]
  | some next =>
      obtain ⟨position, keyword⟩ := next
      obtain ⟨⟨word, isWord, isFirst⟩, least⟩ := (findNext?_eq_some_iff_isLeast ascii).mp found
      obtain ⟨other, isOther⟩ : ∃ other, reordered.find? (isSpelledAs word) = some other := by
        rw [← Option.isSome_iff_exists, List.find?_isSome]
        exact ⟨keyword, perm.mem_iff.mpr (List.mem_of_find?_eq_some isFirst),
          List.find?_some isFirst⟩
      simp only [← isPlaceOf_perm perm] at least
      rw [(findNext?_eq_some_iff_isLeast reorderedAscii).mpr ⟨⟨word, isWord, isOther⟩, least⟩]
      rfl

/-- Keywords in another order are found as the same keyword, if no two of them have the same
spelling. -/
theorem findNext?_perm
    {reordered : List Text}
    (perm : reordered.Perm keywords)
    (differ : keywords.Pairwise fun first second => isSpelledAs first second = false) :
    findNext? text reordered = findNext? text keywords := by
  have reorderedAscii : ∀ keyword ∈ reordered, ∀ character ∈ keyword, character.toNat < 128 :=
    fun keyword member => ascii keyword (perm.mem_iff.mp member)
  have places := @findNext?_perm_position text keywords ascii reordered perm
  cases found : findNext? text keywords with
  | none => rwa [found, Option.map_none, Option.map_eq_none_iff] at places
  | some next =>
      rw [found, Option.map_some, Option.map_eq_some_iff] at places
      obtain ⟨position, keyword⟩ := next
      obtain ⟨⟨_, other⟩, otherFound, rfl⟩ := places
      obtain ⟨⟨word, isWord, isFirst⟩, -⟩ := (findNext?_eq_some_iff_isLeast ascii).mp found
      obtain ⟨⟨same, isSame, isOther⟩, -⟩ :=
        (findNext?_eq_some_iff_isLeast reorderedAscii).mp otherFound
      obtain rfl := isSame.unique isWord
      rw [otherFound, eq_of_isSpelledAs differ
        (perm.mem_iff.mp (List.mem_of_find?_eq_some isOther)) (List.mem_of_find?_eq_some isFirst)
        (List.find?_some isOther) (List.find?_some isFirst)]

end Next

/-- The search for the next of some keywords. It finds the least place at which one of them
stands, and of those that are spelled like the word there the first in the list. It finds none
only where there is no such place. So the order of the keywords matters only for keywords with
the same spelling, and never for the place. -/
theorem search_finds_least_place
    (ascii : ∀ keyword ∈ keywords, ∀ character ∈ keyword, character.toNat < 128)
    (text : Text) :
    (∀ position keyword, findNext? text keywords = some (position, keyword) ↔
      (∃ word, IsWordAt text position word ∧
        keywords.find? (isSpelledAs word) = some keyword) ∧
      ∀ place, IsPlaceOf text keywords place → position ≤ place) ∧
    (findNext? text keywords = none ↔ ∀ place, ¬IsPlaceOf text keywords place) ∧
    ∀ reordered : List Text, reordered.Perm keywords →
      (findNext? text reordered).map Prod.fst = (findNext? text keywords).map Prod.fst ∧
      ((keywords.Pairwise fun first second => isSpelledAs first second = false) →
        findNext? text reordered = findNext? text keywords) := by
  refine ⟨fun position keyword => ?_, ?_, fun reordered perm => ⟨?_, fun differ => ?_⟩⟩
  · exact findNext?_eq_some_iff_isLeast ascii
  · exact findNext?_eq_none_iff_forall ascii
  · exact findNext?_perm_position ascii perm
  · exact findNext?_perm ascii perm differ

/-- The keyword at stands in braces, and to first as a variable: both are passed over. -/
theorem least_place_behind_braces :
    (∀ place, IsPlaceOf "{at} $to é{at}to TO".toList ["AT".toList, "to".toList] place →
      14 ≤ place) ∧
    findNext? "{at} $to é{at}to TO".toList ["to".toList, "AT".toList] =
      some (14, "to".toList) := by
  have small : ["AT".toList, "to".toList].all (List.all · (·.toNat < 128)) = true := by decide
  have ascii (keyword : Text) (member : keyword ∈ ["AT".toList, "to".toList]) (character : Char)
      (inside : character ∈ keyword) : character.toNat < 128 := by
    have all := List.all_eq_true.mp small keyword member
    simpa using List.all_eq_true.mp all character inside
  obtain ⟨found, -, order⟩ := search_finds_least_place ascii "{at} $to é{at}to TO".toList
  refine ⟨((found 14 "to".toList).mp (by decide)).2, ?_⟩
  rw [(order ["to".toList, "AT".toList] (by decide)).2 (by decide)]
  decide

end Keyword
end Joinery
