import Joinery.Proofs.Recovery
import Joinery.Yaml.Meaning

/-!
# Keys of mappings

No two entries of a mapping have the same key. While the values of a document are found,
the value of a collection can change, but that of anything else cannot. Keys are never
collections, so keys that differ when a mapping is filled still differ in the document.
-/

namespace Joinery
namespace Yaml

/-- No two of the entries have keys of the same value. -/
def HaveDistinctKeys (value : Nat → Value) (entries : List (Nat × Nat)) : Prop :=
  entries.Pairwise fun first second => (value first.1).isSameKey (value second.1) = false

/-! ## Slots -/

/-- What a slot for a value may become: a value that is found stays, unless it is a
collection, which may become another collection. -/
def MayBecome : (slot later : Option (Option Value)) → Prop
  | none, later => later = none
  | some none, later => later ≠ none
  | some (some value), later =>
      ∃ last, later = some (some last) ∧ last.isCollection = value.isCollection ∧
        (value.isCollection = false → last = value)

namespace MayBecome

theorem refl (slot : Option (Option Value)) : MayBecome slot slot := by
  rcases slot with _ | _ | value
  · exact rfl
  · exact Option.some_ne_none none
  · exact ⟨value, rfl, rfl, fun _ => rfl⟩

theorem trans
    {slot later last : Option (Option Value)}
    (first : MayBecome slot later)
    (second : MayBecome later last) :
    MayBecome slot last := by
  rcases slot with _ | _ | value
  · cases first
    exact second
  · rcases later with _ | _ | value
    · exact absurd rfl first
    · exact second
    · obtain ⟨last, rfl, -⟩ := second
      exact Option.some_ne_none _
  · obtain ⟨middle, rfl, sameKind, same⟩ := first
    obtain ⟨last, rfl, sameKindAgain, sameAgain⟩ := second
    refine ⟨last, rfl, sameKindAgain.trans sameKind, fun isNone => ?_⟩
    rw [sameAgain (sameKind.trans isNone), same isNone]

end MayBecome

namespace Construction

/-- One construction leads to another. -/
def LeadsTo (construction last : Construction) : Prop :=
  ∀ number : Nat, MayBecome construction.values[number]? last.values[number]?

/-- A node has a value, if it exists, and whether this is a collection is given. The value
is settled if it is none. -/
def HasKind (construction : Construction) (number : Nat) (isCollection : Bool) : Prop :=
  construction.values[number]? = none ∨
    ∃ value, construction.values[number]? = some (some value) ∧
      value.isCollection = isCollection

/-- The keys of some entries are settled, and no two of them are the same. -/
structure HasKeys (construction : Construction) (entries : List Entry) : Prop where
  settled : ∀ entry ∈ entries, construction.HasKind entry.1 false
  distinct : HaveDistinctKeys construction.foundValue entries

/-- Mappings that are filled have keys that differ, and what is begun are collections. -/
structure IsProper (construction : Construction) : Prop where
  mappings : ∀ (number : Nat) entries,
    construction.values[number]? = some (some (.mapping entries)) → construction.HasKeys entries
  begun : ∀ number ∈ construction.begun, construction.HasKind number true

variable {construction later last : Construction} {number : Nat}

theorem foundValue_eq (number : Nat) (construction : Construction) :
    construction.foundValue number = (construction.values[number]?.getD none).getD .null := by
  rw [foundValue, Array.getD_eq_getD_getElem?]

namespace LeadsTo

theorem refl (construction : Construction) : construction.LeadsTo construction :=
  fun _ => MayBecome.refl _

theorem trans (first : construction.LeadsTo later) (second : later.LeadsTo last) :
    construction.LeadsTo last :=
  fun number => (first number).trans (second number)

variable (leads : construction.LeadsTo last)
include leads

theorem hasKind
    {isCollection : Bool}
    (known : construction.HasKind number isCollection) :
    last.HasKind number isCollection := by
  have becomes := leads number
  rcases known with missing | ⟨value, found, kind⟩
  · rw [missing] at becomes
    exact Or.inl becomes
  · rw [found] at becomes
    obtain ⟨final, foundLast, sameKind, -⟩ := becomes
    exact Or.inr ⟨final, foundLast, sameKind.trans kind⟩

/-- A value that is settled stays. -/
theorem foundValue_eq (settled : construction.HasKind number false) :
    last.foundValue number = construction.foundValue number := by
  have becomes := leads number
  rw [Construction.foundValue_eq, Construction.foundValue_eq]
  rcases settled with missing | ⟨value, found, isNone⟩
  · rw [missing] at becomes ⊢
    rw [becomes]
  · rw [found] at becomes ⊢
    obtain ⟨final, foundLast, -, same⟩ := becomes
    rw [foundLast, same isNone]

theorem hasKeys {entries : List Entry} (keys : construction.HasKeys entries) :
    last.HasKeys entries where
  settled entry member := leads.hasKind (keys.settled entry member)
  distinct := by
    refine keys.distinct.imp_of_mem fun {first second} isFirst isSecond differ => ?_
    dsimp only at differ ⊢
    rw [leads.foundValue_eq (keys.settled first isFirst),
      leads.foundValue_eq (keys.settled second isSecond)]
    exact differ

end LeadsTo

/-! ## Steps -/

/-- A step from a construction ends, if it succeeds, with a result and a construction of
which something holds. -/
def Ensures {α : Type} (construction : Construction) (step : Constructing α)
    (after : α → Construction → Prop) : Prop :=
  ∀ result last, step construction = .ok (result, last) → after result last

namespace Ensures

variable {α β : Type} {step : Constructing α} {after : α → Construction → Prop}

theorem pure {value : α} (holds : after value construction) :
    construction.Ensures (Pure.pure value) after := by
  intro result last ended
  cases ended
  exact holds

theorem get
    {next : Construction → Constructing α}
    (holds : construction.Ensures (next construction) after) :
    construction.Ensures (MonadState.get >>= next) after :=
  fun result last ended => holds result last ended

theorem modify
    {change : Construction → Construction}
    {holds : Construction → Prop}
    (known : holds (change construction)) :
    construction.Ensures (modifyGet fun state => ((), change state)) fun _ => holds := by
  intro result last ended
  cases ended
  exact known

theorem throw {fault : Fault} : construction.Ensures (MonadExcept.throw fault) after := by
  intro result last ended
  cases ended

theorem bind
    {next : α → Constructing β}
    {afterNext : β → Construction → Prop}
    (first : construction.Ensures step after)
    (second : ∀ value later, after value later → later.Ensures (next value) afterNext) :
    construction.Ensures (step >>= next) afterNext := by
  intro result last ended
  obtain ⟨⟨value, later⟩, isFirst, isSecond⟩ := bind_eq_ok.mp ended
  exact second value later (first value later isFirst) result last isSecond

theorem lift
    {outcome : Except Fault α}
    {next : α → Constructing β}
    {afterNext : β → Construction → Prop}
    (holds : ∀ value, outcome = .ok value → construction.Ensures (next value) afterNext) :
    construction.Ensures (liftM outcome >>= next) afterNext := by
  intro result last ended
  obtain ⟨⟨value, later⟩, lifted, isSecond⟩ := bind_eq_ok.mp ended
  obtain ⟨_, isValue, same⟩ := bind_eq_ok.mp lifted
  cases same
  exact holds _ isValue result last isSecond

/-- What holds before a row of steps and after each of them holds after all. -/
theorem foldlM
    {list : List β}
    {next : α → β → Constructing α}
    {start : α}
    (holds : after start construction)
    (keeps : ∀ value member later, after value later →
      later.Ensures (next value member) after) :
    construction.Ensures (list.foldlM next start) after := by
  induction list generalizing start construction with
  | nil => exact pure holds
  | cons member rest inductionHypothesis =>
      rw [List.foldlM_cons]
      exact (keeps start member construction holds).bind fun _ _ => inductionHypothesis

theorem forM
    {list : List β}
    {next : β → Constructing Unit}
    {holds : Construction → Prop}
    (start : holds construction)
    (keeps : ∀ member later, member ∈ list → holds later →
      later.Ensures (next member) fun _ => holds) :
    construction.Ensures (list.forM next) fun _ => holds := by
  induction list generalizing construction with
  | nil => exact pure start
  | cons member rest inductionHypothesis =>
      refine (keeps member construction List.mem_cons_self start).bind ?_
      intro _ later known
      exact inductionHypothesis known fun other later isLater =>
        keeps other later (List.mem_cons_of_mem _ isLater)

theorem mapM
    {list : List β}
    {next : β → Constructing α}
    {holds : Construction → Prop}
    (start : holds construction)
    (keeps : ∀ member later, holds later → later.Ensures (next member) fun _ => holds) :
    construction.Ensures (list.mapM next) fun _ => holds := by
  induction list generalizing construction with
  | nil => exact pure start
  | cons member rest inductionHypothesis =>
      rw [List.mapM_cons]
      refine (keeps member construction start).bind fun _ later known => ?_
      exact (inductionHypothesis known).bind fun _ last knownLast => pure knownLast

theorem mono
    {afterward : α → Construction → Prop}
    (holds : construction.Ensures step after)
    (implies : ∀ value later, after value later → afterward value later) :
    construction.Ensures step afterward :=
  fun result last ended => implies result last (holds result last ended)

end Ensures

/-- The construction goes on from another one, and is proper. -/
structure Follows (construction last : Construction) : Prop where
  isProper : last.IsProper
  leadsTo : construction.LeadsTo last

namespace Follows

theorem refl (isProper : construction.IsProper) : construction.Follows construction :=
  ⟨isProper, LeadsTo.refl construction⟩

theorem trans (first : construction.Follows later) (second : later.Follows last) :
    construction.Follows last :=
  ⟨second.isProper, first.leadsTo.trans second.leadsTo⟩

end Follows

/-- Whatever has the same values follows, if only collections are begun. -/
theorem follows_of_values_eq
    (isProper : construction.IsProper)
    (same : last.values = construction.values)
    (begun : ∀ number ∈ last.begun, construction.HasKind number true) :
    construction.Follows last := by
  have leads : construction.LeadsTo last := by
    intro number
    rw [same]
    exact MayBecome.refl _
  refine ⟨⟨fun number entries found => ?_, fun number member => ?_⟩, leads⟩
  · rw [same] at found
    exact leads.hasKeys (isProper.mappings number entries found)
  · exact leads.hasKind (begun number member)

/-- A member of an array is replaced if it exists. -/
theorem getElem?_setIfInBounds_eq
    {α : Type}
    (array : Array α)
    (index : Nat)
    (new : α)
    (other : Nat) :
    (array.setIfInBounds index new)[other]? =
      if index = other then array[other]?.map fun _ => new else array[other]? := by
  rw [Array.getElem?_setIfInBounds]
  split
  next same =>
    subst same
    split
    next inside => rw [Array.getElem?_eq_getElem inside, Option.map_some]
    next outside => rw [Array.getElem?_eq_none (Nat.le_of_not_lt outside), Option.map_none]
  next => rfl

/-- A value may be noted if the slot may become it, and if the keys of a mapping differ. -/
theorem ensures_setValue
    {value : Value}
    (isProper : construction.IsProper)
    (becomes : ∀ slot, construction.values[number]? = some slot →
      MayBecome (some slot) (some (some value)))
    (keys : ∀ entries, value = .mapping entries → construction.HasKeys entries) :
    construction.Ensures (setValue number value) fun _ last =>
      construction.Follows last ∧ last.HasKind number value.isCollection := by
  intro result last ended
  cases ended
  have noted := getElem?_setIfInBounds_eq construction.values number (some value)
  have leads : construction.LeadsTo
      { construction with values := construction.values.setIfInBounds number (some value) } := by
    intro other
    rw [noted]
    split
    next same =>
      subst same
      cases slot : construction.values[number]? with
      | none => exact rfl
      | some found => exact becomes found slot
    next => exact MayBecome.refl _
  refine ⟨⟨⟨fun other entries found => ?_, fun other member => ?_⟩, leads⟩, ?_⟩
  · rw [noted] at found
    split at found
    next =>
      obtain ⟨_, -, same⟩ := Option.map_eq_some_iff.mp found
      exact leads.hasKeys (keys entries (Option.some.inj same))
    next => exact leads.hasKeys (isProper.mappings other entries found)
  · exact leads.hasKind (isProper.begun other member)
  · have new := (noted number).trans (if_pos rfl)
    cases slot : construction.values[number]? with
    | none =>
        rw [slot] at new
        exact Or.inl new
    | some _ =>
        rw [slot] at new
        exact Or.inr ⟨value, new, rfl⟩

/-! ## Finding values -/

theorem isCollection_of_ofTruthWord
    {text : Text}
    {value : Value}
    (read : Value.ofTruthWord text = .ok value) :
    value.isCollection = false := by
  unfold Value.ofTruthWord at read
  split at read <;> cases read <;> rfl

theorem isCollection_of_ofBase64
    {text : Text}
    {value : Value}
    (read : Value.ofBase64 text = .ok value) :
    value.isCollection = false := by
  unfold Value.ofBase64 at read
  split at read
  next =>
    split at read
    next =>
      cases read
      rfl
    next => cases read
  next => cases read

theorem isCollection_of_ofTimestamp
    {text : Text}
    {value : Value}
    (read : Value.ofTimestamp text = .ok value) :
    value.isCollection = false := by
  unfold Value.ofTimestamp at read
  split at read
  next =>
    split at read
    next =>
      cases read
      rfl
    next => cases read
  next =>
    split at read
    next =>
      cases read
      rfl
    next => cases read
  next => cases read

/-- No scalar is a collection. -/
theorem isCollection_of_ofScalar
    {content : Content}
    {text : Text}
    {tag : Tag}
    {value : Value}
    (read : Value.ofScalar content text tag = .ok value) :
    value.isCollection = false := by
  cases tag with
  | null =>
      cases read
      rfl
  | truth => exact isCollection_of_ofTruthWord read
  | integer =>
      obtain ⟨_, -, same⟩ := bind_eq_ok.mp read
      cases same
      rfl
  | number =>
      obtain ⟨_, -, same⟩ := bind_eq_ok.mp read
      cases same
      rfl
  | bytes => exact isCollection_of_ofBase64 read
  | timestamp =>
      cases content with
      | scalar _ => exact isCollection_of_ofTimestamp read
      | _ => cases read
  | text =>
      cases read
      rfl
  | _ => cases read

/-- A collection that is begun has no parts. -/
theorem isCollection_of_begun?
    {tag : Tag}
    {value : Value}
    (begun : Value.begun? tag = some value) :
    value.isCollection = true ∧ ∀ entries, value = .mapping entries → entries = [] := by
  cases tag <;> cases begun <;> simp [Value.isCollection]

theorem HasKeys.nil (construction : Construction) : construction.HasKeys [] where
  settled entry member := by cases member
  distinct := List.Pairwise.nil

/-- After a node was looked for, it has a value if it exists. -/
theorem ensures_find (isProper : construction.IsProper) (number : Nat) :
    construction.Ensures (find number) fun _ last =>
      construction.Follows last ∧ ∃ isCollection, last.HasKind number isCollection := by
  unfold find
  apply Ensures.get
  split
  next found =>
    refine Ensures.pure ⟨.refl isProper, ?_⟩
    rw [Array.getD_eq_getD_getElem?] at found
    rcases slot : construction.values[number]? with _ | _ | value
    · exact ⟨false, Or.inl slot⟩
    · rw [slot] at found
      cases found
    · exact ⟨value.isCollection, Or.inr ⟨value, slot, rfl⟩⟩
  next unknown =>
    have becomes (value : Value) (slot : Option Value)
        (found : construction.values[number]? = some slot) :
        MayBecome (some slot) (some (some value)) := by
      rw [Array.getD_eq_getD_getElem?, found] at unknown
      cases slot with
      | none => exact Option.some_ne_none _
      | some value => exact absurd rfl unknown
    dsimp only
    split
    next value begun =>
      obtain ⟨isCollection, isEmpty⟩ := isCollection_of_begun? begun
      refine (ensures_setValue isProper (becomes value) fun entries same => ?_).bind ?_
      · rw [isEmpty entries same]
        exact HasKeys.nil construction
      · rintro _ last ⟨follows, kind⟩
        rw [isCollection] at kind
        refine Ensures.modify ⟨follows.trans (follows_of_values_eq follows.isProper rfl ?_), ?_⟩
        · exact List.forall_mem_cons.mpr ⟨kind, follows.isProper.begun⟩
        · exact ⟨true, kind⟩
    next =>
      split
      next => exact Ensures.throw
      next =>
        apply Ensures.lift
        intro text _
        apply Ensures.lift
        intro value read
        refine (ensures_setValue isProper (becomes value) ?_).mono ?_
        · rintro entries rfl
          cases isCollection_of_ofScalar read
        · exact fun _ last ⟨follows, kind⟩ => ⟨follows, _, kind⟩

/-! ## Filling collections -/

/-- An entry more keeps the keys distinct, if its key is settled. -/
theorem HasKeys.putEntry
    {entries : List Entry}
    {key : Nat}
    (keys : construction.HasKeys entries)
    (settled : construction.HasKind key false)
    (value : Nat) :
    construction.HasKeys (construction.putEntry key value entries) := by
  unfold Construction.putEntry
  dsimp only
  split
  next =>
    -- A new value leaves the keys as they are.
    constructor
    · intro entry member
      obtain ⟨earlier, isEarlier, rfl⟩ := List.mem_map.mp member
      split
      next => exact keys.settled earlier isEarlier
      next => exact keys.settled earlier isEarlier
    · refine List.pairwise_map.mpr (keys.distinct.imp fun {first second} differ => ?_)
      split <;> split <;> exact differ
  next free =>
    constructor
    · intro entry member
      rcases List.mem_append.mp member with earlier | isNew
      · exact keys.settled entry earlier
      · rw [List.mem_singleton.mp isNew]
        exact settled
    · refine List.pairwise_append.mpr ⟨keys.distinct, List.pairwise_singleton _ _, ?_⟩
      intro earlier isEarlier new isNew
      rw [List.mem_singleton.mp isNew]
      apply Bool.eq_false_iff.mpr
      exact fun same => free (List.any_eq_true.mpr ⟨earlier, isEarlier, same⟩)

/-- A node with a value is settled if this is no collection. -/
theorem HasKind.of_foundValue
    {isCollection : Bool}
    (kind : construction.HasKind number isCollection)
    (isNone : (construction.foundValue number).isCollection = false) :
    construction.HasKind number false := by
  rcases kind with missing | ⟨value, found, -⟩
  · exact Or.inl missing
  · rw [foundValue_eq, found] at isNone
    exact Or.inr ⟨value, found, isNone⟩

theorem ensures_mappingEntries (isProper : construction.IsProper) (number : Nat) :
    construction.Ensures (mappingEntries number) fun entries last =>
      construction.Follows last ∧ last.HasKeys entries := by
  unfold mappingEntries
  apply Ensures.get
  split
  next =>
    apply Ensures.get
    apply Ensures.lift
    intro graph _
    refine (Ensures.modify (follows_of_values_eq isProper rfl isProper.begun)).bind ?_
    intro _ flattened follows
    refine Ensures.foldlM ⟨follows, HasKeys.nil flattened⟩ ?_
    rintro entries ⟨key, value⟩ before ⟨follows, keys⟩
    refine (ensures_find follows.isProper key).bind fun _ found ⟨followsKey, _, kind⟩ => ?_
    apply Ensures.get
    split
    next => exact Ensures.throw
    next isNone =>
      have settled := kind.of_foundValue (Bool.eq_false_iff.mpr isNone)
      refine (ensures_find followsKey.isProper value).bind fun _ last ⟨followsValue, _⟩ => ?_
      apply Ensures.get
      have leads := followsKey.leadsTo.trans followsValue.leadsTo
      exact Ensures.pure ⟨follows.trans (followsKey.trans followsValue),
        (leads.hasKeys keys).putEntry (followsValue.leadsTo.hasKind settled) value⟩
  next => exact Ensures.throw

theorem ensures_pairOf (isProper : construction.IsProper) (number : Nat) :
    construction.Ensures (pairOf number) fun _ last => construction.Follows last := by
  unfold pairOf
  apply Ensures.get
  split
  next key value _ =>
    refine (ensures_find isProper key).bind fun _ later ⟨follows, _⟩ => ?_
    refine (ensures_find follows.isProper value).bind fun _ last ⟨followsValue, _⟩ => ?_
    exact Ensures.pure (follows.trans followsValue)
  next => exact Ensures.throw

/-- A collection may become another one, also after other steps. -/
theorem Follows.ensures_setValue
    {value : Value}
    (follows : construction.Follows later)
    (isOpen : construction.HasKind number true)
    (isCollection : value.isCollection = true)
    (keys : ∀ entries, value = .mapping entries → later.HasKeys entries) :
    later.Ensures (setValue number value) fun _ last => construction.Follows last := by
  refine (Construction.ensures_setValue follows.isProper (fun slot found => ?_) keys).mono ?_
  · rcases follows.leadsTo.hasKind isOpen with missing | ⟨old, isOld, wasCollection⟩
    · rw [missing] at found
      cases found
    · rw [isOld] at found
      cases found
      refine ⟨value, rfl, isCollection.trans wasCollection.symm, fun isNone => ?_⟩
      rw [wasCollection] at isNone
      cases isNone
  · exact fun _ last known => follows.trans known.1

theorem ensures_fill
    (isProper : construction.IsProper)
    (isOpen : construction.HasKind number true) :
    construction.Ensures (fill number) fun _ last => construction.Follows last := by
  unfold fill
  apply Ensures.get
  apply Ensures.get
  split
  next =>
    refine (ensures_mappingEntries isProper number).bind fun entries _ ⟨follows, keys⟩ => ?_
    refine follows.ensures_setValue isOpen rfl ?_
    rintro _ ⟨⟩
    exact keys
  next =>
    refine (ensures_mappingEntries isProper number).bind fun entries _ ⟨follows, _⟩ => ?_
    refine follows.ensures_setValue isOpen rfl ?_
    rintro _ ⟨⟩
  next items _ _ =>
    refine (Ensures.forM (Follows.refl isProper) fun item later _ follows =>
      (ensures_find follows.isProper item).mono fun _ _ known => follows.trans known.1).bind ?_
    intro _ last follows
    refine follows.ensures_setValue isOpen rfl ?_
    rintro _ ⟨⟩
  next items _ _ _ =>
    refine (Ensures.mapM (Follows.refl isProper) fun item later follows =>
      (ensures_pairOf follows.isProper item).mono fun _ _ => follows.trans).bind ?_
    intro entries last follows
    refine follows.ensures_setValue isOpen rfl ?_
    rintro _ ⟨⟩
  next => exact Ensures.throw

theorem ensures_fillAll (isProper : construction.IsProper) (rounds : Nat) :
    construction.Ensures (fillAll rounds) fun _ last => construction.Follows last := by
  induction rounds generalizing construction with
  | zero => exact Ensures.pure (Follows.refl isProper)
  | succ rounds inductionHypothesis =>
      unfold fillAll
      apply Ensures.get
      dsimp only
      split
      next => exact Ensures.pure (Follows.refl isProper)
      next =>
        have emptied : construction.Follows { construction with begun := [] } :=
          follows_of_values_eq isProper rfl fun _ member => by cases member
        refine (Ensures.modify emptied).bind fun _ later follows => ?_
        refine (Ensures.forM follows fun number later member follows => ?_).bind ?_
        · have isOpen := follows.leadsTo.hasKind
            (isProper.begun number (List.mem_reverse.mp member))
          exact (ensures_fill follows.isProper isOpen).mono fun _ _ => follows.trans
        · exact fun _ _ follows =>
            (inductionHypothesis follows.isProper).mono fun _ _ => follows.trans

/-- No mapping of a document that is found in a graph has a key twice. -/
theorem haveDistinctKeys_of_document
    {graph : Graph}
    {document : Document}
    (found : Construction.document graph = .ok document)
    {number : Nat}
    {entries : List Entry}
    (mapping : document.value number = .mapping entries) :
    HaveDistinctKeys document.value entries := by
  obtain ⟨⟨⟨⟩, last⟩, ended, same⟩ := bind_eq_ok.mp found
  cases same
  have isProper : IsProper ⟨graph, Array.replicate graph.nodes.size none, []⟩ := by
    refine ⟨fun number entries known => ?_, fun number member => by cases member⟩
    rw [Array.getElem?_replicate] at known
    split at known <;> cases known
  have follows := (ensures_find isProper graph.root).bind (fun _ _ ⟨follows, _⟩ =>
    (ensures_fillAll follows.isProper (graph.nodes.size + 1)).mono fun _ _ => follows.trans)
      () last ended
  have same (number : Nat) :
      Document.value ⟨last.values.map (·.getD .null), graph.root⟩ number =
        last.foundValue number := by
    rw [Document.value, Array.getD_eq_getD_getElem?, Array.getElem?_map, foundValue_eq]
    cases last.values[number]? <;> rfl
  have mapped : last.values[number]? = some (some (.mapping entries)) := by
    rw [same, foundValue_eq] at mapping
    rcases slot : last.values[number]? with _ | _ | value
    · rw [slot] at mapping
      cases mapping
    · rw [slot] at mapping
      cases mapping
    · rw [slot] at mapping
      exact congrArg (some ∘ some) mapping
  rw [funext same]
  exact (follows.isProper.mappings number entries mapped).distinct

end Construction
end Yaml
end Joinery
