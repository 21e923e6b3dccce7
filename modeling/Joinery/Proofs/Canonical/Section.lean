import Joinery.Proofs.Canonical.Content

/-!
# Sections of canonical options

The sections of canonical options are read in their order. Each reader finds its keyword
at the start of what is left, takes the phrases behind it up to the next keyword, and
leaves the rest; and it leaves everything if its section is absent.
-/

namespace Joinery
namespace Canonical

open Options

variable {scope : Scope} {keyword : Text}

/-! ## Phrases of sections -/

section Phrases

variable {word : String} {α : Type} {body : α → List Text} {part? : Option (Section word α)}

/-- What the keyword of a section and its phrases have holds of all of them. -/
theorem forall_mem_phrasesOf
    {holds : Text → Prop}
    (key : ∀ part : Section word α, holds part.spelling.text)
    (each : ∀ content, ∀ phrase ∈ body content, holds phrase) :
    ∀ phrase ∈ phrasesOf body part?, holds phrase := by
  cases part? with
  | none => simp [phrasesOf]
  | some part => exact List.forall_mem_cons.mpr ⟨key part, each part.content⟩

/-- An optional section starts at its keyword, or what stands behind it starts there. -/
theorem startsAt_phrasesOf
    {stops rest : List Text}
    (known : word.toList ∈ stops)
    (startsAt : Keyword.StartsAt stops rest) :
    Keyword.StartsAt stops (phrasesOf body part? ++ rest) := by
  cases part? with
  | none => exact startsAt
  | some part =>
      intro phrase member
      cases member
      exact ⟨word.toList, known, part.spelling, rfl⟩

end Phrases

/-- A section at the start of what is left goes on to the next keyword. -/
theorem takeSection_section
    {word : String}
    {α : Type}
    (part : Section word α)
    {body rest stops : List Text}
    (areKeywords : stops ⊆ keywords)
    (nonempty : body ≠ [])
    (contents : ∀ phrase ∈ body, IsContent phrase)
    (restOptions : ∀ phrase ∈ rest, IsOption phrase)
    (startsAt : Keyword.StartsAt stops rest) :
    Keyword.takeSection (Text.strip
        ((Text.joined ' ' (part.spelling.text :: (body ++ rest))).drop word.toList.length)) stops =
      (Text.joined ' ' body, Text.joined ' ' rest) := by
  have bodyPhrases : ∀ phrase ∈ body, Text.IsPhrase phrase :=
    fun phrase member => (contents phrase member).isPhrase
  have restPhrases : ∀ phrase ∈ rest, Text.IsPhrase phrase :=
    fun phrase member => (restOptions phrase member).isPhrase
  rw [Keyword.strip_drop_joined part.spelling
    (List.forall_mem_append.mpr ⟨bodyPhrases, restPhrases⟩)]
  exact Keyword.takeSection_joined (fun keyword member => isKeyword_of_mem (areKeywords member))
    nonempty bodyPhrases restPhrases
    (fun keyword known phrase member => (contents phrase member).passes keyword (areKeywords known))
    startsAt

/-- A section with a single phrase. -/
theorem takeSection_phrase
    {word : String}
    {α : Type}
    (part : Section word α)
    {phrase : Text}
    {rest stops : List Text}
    (areKeywords : stops ⊆ keywords)
    (content : IsContent phrase)
    (restOptions : ∀ phrase ∈ rest, IsOption phrase)
    (startsAt : Keyword.StartsAt stops rest) :
    Keyword.takeSection (Text.strip
        ((Text.joined ' ' (part.spelling.text :: phrase :: rest)).drop word.toList.length)) stops =
      (phrase, Text.joined ' ' rest) := by
  have taken := takeSection_section part areKeywords (List.cons_ne_nil phrase [])
    (by simpa using content) restOptions startsAt
  rwa [List.singleton_append, Text.joined_singleton] at taken

/-- The keyword of a section is found at the start of what is left. -/
theorem behind?_section
    {word : String}
    (known : word.toList ∈ keywords)
    {α : Type}
    (part : Section word α)
    (phrases : List Text) :
    Keyword.behind? (Text.joined ' ' (part.spelling.text :: phrases)) word.toList =
      some ((Text.joined ' ' (part.spelling.text :: phrases)).drop word.toList.length) :=
  Keyword.behind?_joined (isKeyword_of_mem known) part.spelling phrases

theorem behind?_joined_eq_none
    {phrases : List Text}
    (passes : ∀ phrase ∈ phrases, Keyword.Passes keyword phrase) :
    Keyword.behind? (Text.joined ' ' phrases) keyword = none :=
  Keyword.behind?_eq_none (.joined (by decide) passes)

/-! ## What stands behind the position -/

namespace CutList

theorem phrases_ne_nil (cuts : CutList scope) : cuts.phrases ≠ [] := by
  obtain ⟨cuts, nonempty⟩ := cuts
  cases cuts with
  | nil => exact absurd rfl nonempty
  | cons cut others => exact List.cons_ne_nil _ _

theorem isContent (cuts : CutList scope) : ∀ phrase ∈ cuts.phrases, IsContent phrase := by
  intro phrase member
  obtain ⟨cut, -, inside⟩ := List.mem_flatMap.mp member
  simp only [List.mem_cons, List.not_mem_nil, or_false] at inside
  rcases inside with rfl | rfl
  · exact cut.isContent_side
  · exact cut.length.isContent

end CutList

namespace BoardCommand

variable (command : BoardCommand scope)

theorem isOption_colorPhrases : ∀ phrase ∈ command.colorPhrases, IsOption phrase :=
  forall_mem_phrasesOf (isOption_keyword (by decide)) fun color => by
    simpa using color.isContent.toIsOption

theorem isOption_viewPhrases : ∀ phrase ∈ command.viewPhrases, IsOption phrase :=
  List.forall_mem_append.mpr ⟨forall_mem_phrasesOf (isOption_keyword (by decide)) fun view => by
    simpa using view.isContent.toIsOption, command.isOption_colorPhrases⟩

theorem isOption_cutPhrases : ∀ phrase ∈ command.cutPhrases, IsOption phrase :=
  List.forall_mem_append.mpr ⟨forall_mem_phrasesOf (isOption_keyword (by decide))
    fun cuts phrase member => (cuts.isContent phrase member).toIsOption,
    command.isOption_viewPhrases⟩

theorem passes_colorPhrases
    (known : keyword ∈ keywords)
    (notColor : "color".toList ≠ keyword) :
    ∀ phrase ∈ command.colorPhrases, Keyword.Passes keyword phrase :=
  forall_mem_phrasesOf (passes_keyword known (by decide) notColor) fun color => by
    simpa using color.isContent.passes keyword known

theorem passes_viewPhrases
    (known : keyword ∈ keywords)
    (notView : "view".toList ≠ keyword)
    (notColor : "color".toList ≠ keyword) :
    ∀ phrase ∈ command.viewPhrases, Keyword.Passes keyword phrase :=
  List.forall_mem_append.mpr
    ⟨forall_mem_phrasesOf (passes_keyword known (by decide) notView) fun view => by
      simpa using view.isContent.passes keyword known, command.passes_colorPhrases known notColor⟩

theorem passes_cutPhrases
    (known : keyword ∈ keywords)
    (notCut : "cut".toList ≠ keyword)
    (notView : "view".toList ≠ keyword)
    (notColor : "color".toList ≠ keyword) :
    ∀ phrase ∈ command.cutPhrases, Keyword.Passes keyword phrase :=
  List.forall_mem_append.mpr
    ⟨forall_mem_phrasesOf (passes_keyword known (by decide) notCut)
      fun cuts phrase member => (cuts.isContent phrase member).passes keyword known,
      command.passes_viewPhrases known notView notColor⟩

theorem startsAt_colorPhrases
    {stops : List Text}
    (color : "color".toList ∈ stops) :
    Keyword.StartsAt stops command.colorPhrases := by
  rw [colorPhrases, ← List.append_nil (phrasesOf _ _)]
  refine startsAt_phrasesOf color ?_
  rintro phrase ⟨⟩

theorem startsAt_viewPhrases
    {stops : List Text}
    (view : "view".toList ∈ stops)
    (color : "color".toList ∈ stops) :
    Keyword.StartsAt stops command.viewPhrases :=
  startsAt_phrasesOf view (command.startsAt_colorPhrases color)

theorem startsAt_cutPhrases
    {stops : List Text}
    (cut : "cut".toList ∈ stops)
    (view : "view".toList ∈ stops)
    (color : "color".toList ∈ stops) :
    Keyword.StartsAt stops command.cutPhrases :=
  startsAt_phrasesOf cut (command.startsAt_viewPhrases view color)

/-! ## Readers -/

/-- The colour is read. -/
theorem color?_colorPhrases :
    color? (Text.joined ' ' command.colorPhrases) = command.color.map (·.content.val) := by
  unfold color? colorPhrases
  cases command.color with
  | none => rfl
  | some part =>
      have phrases : ∀ phrase ∈ [part.content.val], Text.IsPhrase phrase := by
        simpa using part.content.isContent.isPhrase
      rw [phrasesOf, behind?_section (by decide), Option.bind_some,
        Keyword.strip_drop_joined part.spelling phrases, Text.joined_singleton, readColor?_color]
      rfl

/-- The view is read. -/
theorem takeView_viewPhrases :
    takeView (Text.joined ' ' command.viewPhrases) =
      .ok (command.view.map (·.content.value), Text.joined ' ' command.colorPhrases) := by
  have absent := command.passes_colorPhrases (show "view".toList ∈ keywords by decide) (by decide)
  unfold takeView viewPhrases
  cases command.view with
  | none =>
      rw [phrasesOf, List.nil_append, behind?_joined_eq_none absent]
      rfl
  | some part =>
      have taken := takeSection_phrase part (show behindView ⊆ keywords by decide)
        part.content.isContent command.isOption_colorPhrases
        (command.startsAt_colorPhrases (by decide))
      rw [phrasesOf, List.cons_append, List.singleton_append, behind?_section (by decide)]
      simp only [taken, normalizeView_letters]
      rfl

/-- The cuts are read. -/
theorem takeCuts_cutPhrases :
    takeCuts scope (Text.joined ' ' command.cutPhrases) =
      .ok (command.cuts.map (·.content.value), Text.joined ' ' command.viewPhrases) := by
  have absent := command.passes_viewPhrases (show "cut".toList ∈ keywords by decide) (by decide)
    (by decide)
  unfold takeCuts cutPhrases
  cases command.cuts with
  | none =>
      rw [phrasesOf, List.nil_append, behind?_joined_eq_none absent]
      rfl
  | some part =>
      have taken := takeSection_section part
        (show behindCuts ⊆ keywords by decide) part.content.phrases_ne_nil part.content.isContent
        command.isOption_viewPhrases (command.startsAt_viewPhrases (by decide) (by decide))
      rw [phrasesOf, List.cons_append, behind?_section (by decide)]
      simp only [taken, readCuts_cuts]
      rfl

end BoardCommand
end Canonical
end Joinery
