import Joinery.Text.Basic

/-!
# Flags of a command line

Flags stand before or between the other arguments. A flag has a long name behind two
hyphens and perhaps a letter behind one. Its value is the next argument, or stands
behind an equals sign. Two hyphens alone end the flags.
-/

namespace Joinery
namespace CommandLine

/-- A flag that may be given. -/
structure Flag (κ : Type) where
  key : κ
  /-- Name with its two hyphens. -/
  name : Text
  letter : Option Char
  hasValue : Bool

/-- A flag that was given. -/
structure Setting (κ : Type) where
  key : κ
  value : Text

namespace Flag

variable {κ : Type}

/-- What an argument that starts with a hyphen says. -/
inductive Reading (κ : Type)
  /-- Flags that are complete. -/
  | settings (settings : List (Setting κ))
  /-- A flag whose value is the next argument. -/
  | expecting (key : κ)

/-- A long flag, with its value if there is one behind an equals sign. -/
def readLong (flags : List (Flag κ)) (argument : Text) : Option (Reading κ) :=
  let name := argument.takeWhile (· != '=')
  match flags.find? (·.name = name), argument.drop name.length with
  | none, _ => none
  | some flag, [] =>
      if flag.hasValue then some (.expecting flag.key) else some (.settings [⟨flag.key, []⟩])
  | some flag, _ :: value =>
      if flag.hasValue then some (.settings [⟨flag.key, value⟩]) else none

/-- Flags without values, given by their letters. -/
def readLetters (flags : List (Flag κ)) (letters : Text) : Option (Reading κ) :=
  (letters.mapM fun letter =>
    (flags.find? fun flag => flag.letter = some letter ∧ !flag.hasValue).map fun flag =>
      ⟨flag.key, []⟩).map .settings

/-- What an argument says, unless it is no flag. -/
def read (flags : List (Flag κ)) (argument : Text) : Option (Reading κ) :=
  match argument with
  | '-' :: '-' :: _ => readLong flags argument
  | '-' :: letters => readLetters flags letters
  | _ => none

/-- Whether an argument is a flag. -/
def isFlag : Text → Bool
  | '-' :: _ :: _ => true
  | _ => false

/-- The flags of a command line and its other arguments, if all flags are known and
have their values. Unless they are mixed with the other arguments, flags end at the
first of those. -/
def settingsFrom? (flags : List (Flag κ)) (isMixed : Bool) :
    (expecting : Option κ) → List Text → Option (List (Setting κ) × List Text)
  | none, [] => some ([], [])
  | some _, [] => none
  | some key, value :: rest =>
      (settingsFrom? flags isMixed none rest).map fun (settings, others) =>
        (⟨key, value⟩ :: settings, others)
  | none, argument :: rest =>
      if argument = ['-', '-'] then some ([], rest)
      else if isFlag argument then
        match read flags argument with
        | none => none
        | some (.expecting key) => settingsFrom? flags isMixed (some key) rest
        | some (.settings given) =>
            (settingsFrom? flags isMixed none rest).map fun (settings, others) =>
              (given ++ settings, others)
      else if isMixed then
        (settingsFrom? flags isMixed none rest).map fun (settings, others) =>
          (settings, argument :: others)
      else some ([], argument :: rest)

/-- The flags of a command line and its other arguments. -/
def settings? (flags : List (Flag κ)) (isMixed : Bool) (arguments : List Text) :
    Option (List (Setting κ) × List Text) :=
  settingsFrom? flags isMixed none arguments

end Flag

/-- The value of a flag, which is the last one given. -/
def value? {κ : Type} [DecidableEq κ] (settings : List (Setting κ)) (key : κ) :
    Option Text :=
  (settings.reverse.find? (·.key = key)).map (·.value)

end CommandLine
end Joinery
