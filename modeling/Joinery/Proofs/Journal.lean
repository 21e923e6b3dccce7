import Mathlib.Data.List.Induction
import Joinery.Journal

/-!
# Records of a journal

A journal is set up and read with again and again. What counts is its last setup: from then on
a record that is severe enough becomes one line on the console and one line in the file of
that setup, and no other file changes. This is proved for one record, for a row of records,
and for every use in a run.
-/

namespace Joinery
namespace Journal

/-- A use of a journal: it is set up, or a design is read. -/
inductive Use
  | setUp (level : Int) (path : Option Text)
  | read (text : Text)

/-- What a setup decides: the level, and the place of the file if there is one. -/
structure Setting where
  level : Int
  file : Option Text

/-- What is decided by a use. -/
def Use.setting? : Use → Option Setting
  | .setUp level path => some ⟨level, (file? path).map Path.place⟩
  | .read _ => none

/-- The records that a use gives to the journal. -/
def Use.records : Use → List Record
  | .setUp level path => [setupRecord level (file? path)]
  | .read text => (readDesign text).1.events.map Event.record

/-- What the last setup of some uses decided. -/
def latest? (uses : List Use) : Option Setting := (uses.filterMap Use.setting?).getLast?

/-- The journal behind a use. -/
def perform (journal : Journal) : Use → Journal
  | .setUp level path => journal.setUp level path
  | .read text => journal.follow (readDesign text).1

/-- The journal behind a row of uses. -/
def run (journal : Journal) (uses : List Use) : Journal := uses.foldl perform journal

/-- The lines of a file, if the journal has it. -/
def linesOf (journal : Journal) (place : Text) : Option (List String) :=
  (journal.files.find? (·.1 = place)).map (·.2)

/-- The writers of a setting. -/
def Setting.writers (setting : Setting) : List Writer :=
  ⟨.console, setting.level⟩ ::
    (setting.file.map fun place => ⟨.file place, setting.level⟩).toList

/-- The lines of those records that are severe enough. -/
def Setting.lines (setting : Setting) (records : List Record) : List String :=
  (records.filter fun record => setting.level ≤ record.severity.level).map Record.line

/-- A journal is as a setting wants it, and has the file of the setting. -/
structure Obeys (journal : Journal) (setting : Setting) : Prop where
  level : journal.level = setting.level
  writers : journal.writers = setting.writers
  file : ∀ place ∈ setting.file, (journal.linesOf place).isSome = true

/-- A journal has some lines more, on the console and in the file of a setting. Nothing else
is different. -/
structure Gains (setting : Setting) (lines : List String) (before after : Journal) : Prop where
  level : after.level = before.level
  writers : after.writers = before.writers
  console : after.console = before.console ++ lines
  file : ∀ place ∈ setting.file, after.linesOf place = (before.linesOf place).map (· ++ lines)
  others : ∀ place ∉ setting.file, after.linesOf place = before.linesOf place

variable {setting : Setting} {journal : Journal}

/-! ## Files -/

theorem find?_appendTo
    (path place : Text)
    (line : String)
    (files : List (Text × List String)) :
    ((appendTo path line files).find? (·.1 = place)).map (·.2) =
      ((files.find? (·.1 = place)).map (·.2)).map fun lines =>
        if place = path then lines ++ [line] else lines := by
  unfold appendTo
  induction files with
  | nil => rfl
  | cons file rest inductionHypothesis =>
      rw [List.map_cons]
      by_cases same : file.1 = place
      · subst same
        by_cases here : file.1 = path <;> simp [here]
      · have kept : (if file.1 = path then (file.1, file.2 ++ [line]) else file).1 ≠ place := by
          split <;> exact same
        rw [List.find?_cons_of_neg (by simpa using kept),
          List.find?_cons_of_neg (by simpa using same), inductionHypothesis]

theorem linesOf_append_console (journal : Journal) (line : String) (place : Text) :
    (journal.append line .console).linesOf place = journal.linesOf place := rfl

theorem linesOf_append_file (journal : Journal) (line : String) (path place : Text) :
    (journal.append line (.file path)).linesOf place =
      (journal.linesOf place).map fun lines =>
        if place = path then lines ++ [line] else lines :=
  find?_appendTo path place line journal.files

/-- A file that is started again is empty, and the others stay. -/
theorem find?_restart (path place : Text) (files : List (Text × List String)) :
    ((restart path files).find? (·.1 = place)).map (·.2) =
      if place = path then some [] else (files.find? (·.1 = place)).map (·.2) := by
  unfold restart
  rw [List.find?_append]
  split
  next same =>
    subst same
    have gone : (files.filter (·.1 ≠ place)).find? (·.1 = place) = none := by
      apply List.find?_eq_none.mpr
      intro file member
      simpa using (List.mem_filter.mp member).2
    rw [gone]
    simp
  next different =>
    have stays : (files.filter (·.1 ≠ path)).find? (·.1 = place) =
        files.find? (·.1 = place) := by
      rw [List.find?_filter]
      congr 1
      funext file
      by_cases same : file.1 = place
      · simp [same, different]
      · simp [same]
    have absent : [(path, ([] : List String))].find? (·.1 = place) = none := by
      simpa using Ne.symm different
    rw [stays, absent, Option.or_none]

/-! ## Records -/

namespace Gains

theorem refl (setting : Setting) (journal : Journal) : Gains setting [] journal journal where
  level := rfl
  writers := rfl
  console := (List.append_nil _).symm
  file place _ := by simp
  others _ _ := rfl

theorem trans
    {first second third : Journal}
    {lines more : List String}
    (earlier : Gains setting lines first second)
    (later : Gains setting more second third) :
    Gains setting (lines ++ more) first third where
  level := later.level.trans earlier.level
  writers := later.writers.trans earlier.writers
  console := by rw [later.console, earlier.console, List.append_assoc]
  file place member := by
    rw [later.file place member, earlier.file place member, Option.map_map]
    congr 1
    funext known
    exact List.append_assoc known lines more
  others place absent := (later.others place absent).trans (earlier.others place absent)

end Gains

/-- Records leave the setting of a journal. -/
theorem Obeys.of_gains
    {after : Journal}
    {lines : List String}
    (obeys : journal.Obeys setting)
    (gains : Gains setting lines journal after) :
    after.Obeys setting where
  level := gains.level.trans obeys.level
  writers := gains.writers.trans obeys.writers
  file place member := by
    rw [gains.file place member, Option.isSome_map]
    exact obeys.file place member

theorem effectiveLevel_eq
    (obeys : journal.Obeys setting)
    (positive : 1 ≤ setting.level) :
    journal.effectiveLevel = setting.level := by
  rw [effectiveLevel, obeys.level, if_neg (by omega)]

/-- A record that is severe enough is written by every writer of the setting. -/
theorem write_of_le
    (obeys : journal.Obeys setting)
    (positive : 1 ≤ setting.level)
    {record : Record}
    (severe : setting.level ≤ record.severity.level) :
    journal.write record =
      (setting.writers.map (·.target)).foldl (fun before target =>
        before.append record.line target) journal := by
  rw [write, effectiveLevel_eq obeys positive, if_neg (Int.not_lt.mpr severe), obeys.writers]
  unfold Setting.writers
  cases setting.file <;> simp [offer, severe]

theorem write_of_lt
    (obeys : journal.Obeys setting)
    (positive : 1 ≤ setting.level)
    {record : Record}
    (mild : record.severity.level < setting.level) :
    journal.write record = journal := by
  rw [write, effectiveLevel_eq obeys positive, if_pos mild]

/-- A line that goes to all writers of a setting. -/
theorem gains_append (setting : Setting) (journal : Journal) (line : String) :
    Gains setting [line] journal
      ((setting.writers.map (·.target)).foldl (fun before target =>
        before.append line target) journal) := by
  obtain ⟨level, file⟩ := setting
  cases file with
  | none => exact ⟨rfl, rfl, rfl, fun _ member => (Option.not_mem_none _ member).elim, fun _ _ => rfl⟩
  | some path =>
      refine ⟨rfl, rfl, rfl, fun place member => ?_, fun place absent => ?_⟩
      · obtain rfl := Option.mem_some.mp member
        exact (linesOf_append_file _ line path path).trans (by simp [linesOf_append_console])
      · have different : place ≠ path := fun same => absent (Option.mem_some.mpr same.symm)
        exact (linesOf_append_file _ line path place).trans
          (by simp [different, linesOf_append_console])

/-- A record becomes one line at each of the writers if it is severe enough. -/
theorem gains_write
    (obeys : journal.Obeys setting)
    (positive : 1 ≤ setting.level)
    (record : Record) :
    Gains setting (setting.lines [record]) journal (journal.write record) := by
  rcases Int.lt_or_le record.severity.level setting.level with mild | severe
  · rw [write_of_lt obeys positive mild]
    have none : setting.lines [record] = [] := by simp [Setting.lines, mild]
    rw [none]
    exact .refl setting journal
  · rw [write_of_le obeys positive severe]
    have one : setting.lines [record] = [record.line] := by simp [Setting.lines, severe]
    rw [one]
    exact gains_append setting journal record.line

/-- A row of records becomes one line for each of them that is severe enough. -/
theorem gains_writeAll
    (obeys : journal.Obeys setting)
    (positive : 1 ≤ setting.level)
    (records : List Record) :
    Gains setting (setting.lines records) journal (journal.writeAll records) := by
  induction records generalizing journal with
  | nil => exact .refl setting journal
  | cons record rest inductionHypothesis =>
      have first := gains_write obeys positive record
      have others := inductionHypothesis (obeys.of_gains first)
      have split : setting.lines (record :: rest) =
          setting.lines [record] ++ setting.lines rest := by
        unfold Setting.lines
        rw [← List.map_append, ← List.filter_append, List.singleton_append]
      rw [split]
      exact first.trans others

/-! ## Uses -/

/-- A journal with the writers of a setting, whose file is started again. -/
def prepare (journal : Journal) (setting : Setting) : Journal :=
  { journal with
    level := setting.level
    writers := setting.writers
    files := setting.file.elim journal.files (restart · journal.files) }

/-- A use prepares the journal if it is a setup, and gives it records. -/
theorem perform_eq (journal : Journal) (use : Use) :
    journal.perform use = (use.setting?.elim journal journal.prepare).writeAll use.records := by
  cases use with
  | setUp level path =>
      simp only [perform, setUp, Use.setting?, Use.records, Option.elim_some, prepare,
        Setting.writers, writeAll]
      cases file? path <;> rfl
  | read text => rfl

theorem obeys_prepare (journal : Journal) (setting : Setting) :
    (journal.prepare setting).Obeys setting where
  level := rfl
  writers := rfl
  file place member := by
    obtain ⟨level, file⟩ := setting
    obtain rfl := Option.mem_def.mp member
    have restarted := find?_restart place place journal.files
    rw [if_pos rfl] at restarted
    exact congrArg Option.isSome restarted

/-- Preparing a journal empties the file of the setting and changes no other one. -/
theorem linesOf_prepare (journal : Journal) (setting : Setting) (place : Text) :
    (journal.prepare setting).linesOf place =
      if place ∈ setting.file then some [] else journal.linesOf place := by
  obtain ⟨level, file⟩ := setting
  cases file with
  | none => rfl
  | some path =>
      refine (find?_restart path place journal.files).trans ?_
      simp only [Option.mem_some, eq_comm, linesOf]

/-! ## Runs -/

/-- Every setup has a positive level. -/
def ArePositive (uses : List Use) : Prop := ∀ level path, .setUp level path ∈ uses → 1 ≤ level

theorem latest?_concat (uses : List Use) (use : Use) :
    latest? (uses ++ [use]) = use.setting?.or (latest? uses) := by
  unfold latest?
  rw [List.filterMap_append, List.getLast?_append]
  cases decided : use.setting? <;> simp [decided]

theorem run_concat (journal : Journal) (uses : List Use) (use : Use) :
    journal.run (uses ++ [use]) = (journal.run uses).perform use := by
  rw [run, List.foldl_append]
  rfl

theorem ArePositive.of_latest?
    {uses : List Use}
    (positive : ArePositive uses)
    (latest : latest? uses = some setting) :
    1 ≤ setting.level := by
  have member := List.mem_of_getLast? latest
  obtain ⟨use, isUse, decided⟩ := List.mem_filterMap.mp member
  cases use with
  | setUp level path =>
      cases decided
      exact positive level path isUse
  | read text => cases decided

theorem exists_latest?_cons (level : Int) (path : Option Text) (uses : List Use) :
    ∃ setting, latest? (.setUp level path :: uses) = some setting := by
  apply Option.isSome_iff_exists.mp
  rw [latest?, List.getLast?_isSome]
  exact List.cons_ne_nil _ _

/-- Before its records, a use finds a journal that obeys the latest setting, if the uses before
it left such a journal. -/
theorem obeys_elim_prepare
    {uses : List Use}
    {use : Use}
    (obeys : ∀ setting, latest? uses = some setting → journal.Obeys setting)
    (latest : latest? (uses ++ [use]) = some setting) :
    (use.setting?.elim journal journal.prepare).Obeys setting := by
  rw [latest?_concat] at latest
  cases decided : use.setting? with
  | none =>
      rw [decided, Option.none_or] at latest
      exact obeys setting latest
  | some decision =>
      rw [decided, Option.some_or] at latest
      cases latest
      exact obeys_prepare journal _

/-- What a use finds in the files: a setup empties its own one, and nothing else changes. -/
theorem linesOf_elim_prepare
    {uses : List Use}
    {use : Use}
    (latest : latest? (uses ++ [use]) = some setting)
    (present : ∀ place ∈ setting.file,
      ((use.setting?.elim journal journal.prepare).linesOf place).isSome = true)
    (place : Text) :
    (use.setting?.elim journal journal.prepare).linesOf place =
      if place ∈ setting.file then
        some (if use.setting?.isSome then [] else (journal.linesOf place).getD [])
      else journal.linesOf place := by
  rw [latest?_concat] at latest
  cases decided : use.setting? with
  | none =>
      rw [decided] at present
      split
      next member =>
        obtain ⟨lines, known⟩ := Option.isSome_iff_exists.mp (present place member)
        have found : journal.linesOf place = some lines := known
        rw [Option.elim_none, found]
        rfl
      next => rfl
  | some decision =>
      rw [decided, Option.some_or] at latest
      cases latest
      exact linesOf_prepare journal setting place

/-- A run leaves a journal that obeys its last setup. -/
theorem obeys_run
    (start : Journal)
    {uses : List Use}
    (positive : ArePositive uses)
    (latest : latest? uses = some setting) :
    (start.run uses).Obeys setting := by
  induction uses using List.reverseRecOn generalizing setting with
  | nil => cases latest
  | append_singleton uses use inductionHypothesis =>
      have earlier : ArePositive uses := fun level path member =>
        positive level path (List.mem_append_left _ member)
      have obeys := obeys_elim_prepare (fun setting => inductionHypothesis earlier) latest
      rw [run_concat, perform_eq]
      exact obeys.of_gains (gains_writeAll obeys (positive.of_latest? latest) use.records)

/-- Once it is set up, a journal has one writer for the console and, if its last setup named a
file, one for that file, both with the level of this setup. Each use of the journal adds one
line for every record that is severe enough to the console and to this file, which a setup
empties first, and it adds nothing to any other file. -/
theorem records_are_written_once
    (start : Journal)
    {uses : List Use}
    {use : Use}
    (starts : ∃ level path rest, uses ++ [use] = .setUp level path :: rest)
    (positive : ArePositive (uses ++ [use])) :
    let before := start.run uses
    let after := start.run (uses ++ [use])
    ∃ setting, latest? (uses ++ [use]) = some setting ∧ after.level = setting.level ∧
      after.writers.filter (·.target = .console) = [⟨.console, setting.level⟩] ∧
      after.writers.filter (·.target ≠ .console) =
        (setting.file.map fun place => ⟨.file place, setting.level⟩).toList ∧
      let lines := (use.records.filter fun record =>
        setting.level ≤ record.severity.level).map Record.line
      after.console = before.console ++ lines ∧
        ∀ place, after.linesOf place =
          if place ∈ setting.file then
            some ((if use.setting?.isSome then [] else (before.linesOf place).getD []) ++ lines)
          else before.linesOf place := by
  intro before after
  obtain ⟨setting, latest⟩ : ∃ setting, latest? (uses ++ [use]) = some setting := by
    obtain ⟨level, path, rest, same⟩ := starts
    rw [same]
    exact exists_latest?_cons level path rest
  have obeys := obeys_run start positive latest
  have writers : after.writers = setting.writers := obeys.writers
  have earlier : ArePositive uses := fun level path member =>
    positive level path (List.mem_append_left _ member)
  have ready : (use.setting?.elim before before.prepare).Obeys setting :=
    obeys_elim_prepare (fun setting => obeys_run start earlier) latest
  have gains := gains_writeAll ready (positive.of_latest? latest) use.records
  rw [← perform_eq, ← run_concat] at gains
  refine ⟨setting, latest, obeys.level, ?_, ?_, ?_, fun place => ?_⟩
  · rw [writers, Setting.writers]
    cases setting.file <;> simp
  · rw [writers, Setting.writers]
    cases setting.file <;> simp
  · refine gains.console.trans ?_
    cases use.setting? <;> rfl
  · have found := linesOf_elim_prepare latest ready.file place
    split
    next member =>
      rw [if_pos member] at found
      rw [gains.file place member, found]
      rfl
    next absent =>
      rw [if_neg absent] at found
      exact (gains.others place absent).trans found

/-- A second setup is less talkative and has another file. The first file stays as it is, and
of the two records of a board the second file gets the warning. -/
theorem exists_records_written_once :
    ∃ uses use, (∃ level path rest, uses ++ [use] = .setUp level path :: rest) ∧
      ArePositive (uses ++ [use]) ∧ use.records.length = 2 ∧
      ∃ line, (new.run (uses ++ [use])).linesOf "b.log".toList = some [line] ∧
        (new.run (uses ++ [use])).linesOf "a.log".toList =
          (new.run uses).linesOf "a.log".toList ∧
        (new.run (uses ++ [use])).console = (new.run uses).console ++ [line] := by
  let uses : List Use := [.setUp 10 (some "a.log".toList), .setUp 30 (some "b.log".toList)]
  let use : Use := .read "board 5 x 1 x 1 \"a\" from 0,0 to 9,0".toList
  have starts : ∃ level path rest, uses ++ [use] = .setUp level path :: rest := ⟨_, _, _, rfl⟩
  have positive : ArePositive (uses ++ [use]) := by
    intro level path member
    simp [uses, use] at member
    omega
  obtain ⟨setting, latest, -, -, -, console, files⟩ :=
    records_are_written_once new starts positive
  have last : latest? (uses ++ [use]) = some ⟨30, some "b.log".toList⟩ := rfl
  obtain rfl := Option.some.inj (latest.symm.trans last)
  have lines : ((use.records.filter fun record =>
      30 ≤ record.severity.level).map Record.line).length = 1 := by decide +kernel
  obtain ⟨line, only⟩ := List.length_eq_one_iff.mp lines
  have second : "b.log".toList ∈ (some "b.log".toList) := rfl
  have first : "a.log".toList ∉ (some "b.log".toList) := by decide
  have empty : (new.run uses).linesOf "b.log".toList = some [] := by decide +kernel
  refine ⟨uses, use, starts, positive, by decide +kernel, line, ?_, ?_, ?_⟩
  · refine (files "b.log".toList).trans ?_
    rw [if_pos second, empty, only]
    rfl
  · exact (files "a.log".toList).trans (if_neg first)
  · rw [console, only]

end Journal
end Joinery
