import AirDefense.Number.DecimalText
import AirDefense.Settings.Validation

/-!
# Run options

How a run is asked for: by arguments, and by the environment for what the
arguments leave open.  Options name a settings document and bound the length of
the run.
-/

namespace AirDefense

/-!
## Run lengths
-/

namespace RunLength

def second : Nat := 1000000000

/-- Lengths of this many seconds and more cannot be kept. -/
def limit : Nat := 18446744073709551616

/-- The nanoseconds nearest to `m * 2 ^ q` seconds, a tie going to the even one. -/
def ofSeconds? (m : Nat) (q : Int) : Except Fault Nat :=
  if 0 <= q then
    let seconds := m * powerOfTwo q.toNat
    if limit <= seconds then .error .durationOverflow else .ok (seconds * second)
  else
    let den := powerOfTwo (-q).toNat
    if limit * den <= m then .error .durationOverflow
    else .ok (BinaryFormat.nearest (m * second) den)

end RunLength

structure RunOptions where
  settingsPath : Option String
  /-- Nanoseconds; a run that is not timed ends with its input. -/
  runFor : Option Nat
deriving DecidableEq, Repr

namespace RunOptions

def settingsVariable : String := "PATRIOTS_CONFIG"

def secondsVariable : String := "PATRIOTS_RUN_SECS"

end RunOptions

inductive OptionError where
  | secondsMissing
  | secondsMalformed (text : String) (reason : NumberError)
  | secondsNotPositive (text : String)
  | unknownArgument (argument : String)
  | secondPath (path : String)
  | environment (reason : OptionError)
  | fault (f : Fault)
deriving DecidableEq, Repr

namespace OptionError

def message : OptionError -> String
  | secondsMissing => "--seconds requires a number"
  | secondsMalformed text reason => s!"invalid seconds value: {text}: {reason.message}"
  | secondsNotPositive text => s!"run length must be positive, got {text}"
  | unknownArgument argument => s!"unknown argument: {argument}. Use --help for usage."
  | secondPath path => s!"more than one config path given: {path}"
  | environment reason => s!"invalid {RunOptions.secondsVariable}: {reason.message}"
  | fault f => f.message

end OptionError

inductive Invocation where
  | run (options : RunOptions)
  | help
deriving DecidableEq, Repr

namespace RunOptions

def unset : RunOptions := ⟨none, none⟩

/-- A run length in seconds, which has to be positive before it is rounded. -/
def seconds (text : String) : Except OptionError Nat :=
  match WrittenNumber.ofText text with
  | .error reason => .error (.secondsMalformed text reason)
  | .ok (.finite false m q) =>
      if m = 0 then .error (.secondsNotPositive text)
      else (RunLength.ofSeconds? m q).mapError .fault
  | .ok _ => .error (.secondsNotPositive text)

/-- Reads arguments from the left; the first one at fault is reported. -/
def readArguments : List String -> RunOptions -> Except OptionError Invocation
  | [], o => .ok (.run o)
  | argument :: rest, o =>
      if argument = "--seconds" || argument = "-s" then
        match rest with
        | [] => .error .secondsMissing
        | text :: rest =>
            match seconds text with
            | .ok length => readArguments rest { o with runFor := some length }
            | .error e => .error e
      else if argument = "-h" || argument = "--help" then .ok .help
      else if argument.toList.head? = some '-' then .error (.unknownArgument argument)
      else if o.settingsPath.isSome then .error (.secondPath argument)
      else readArguments rest { o with settingsPath := some argument }

def environmentSeconds (text : String) : Except OptionError Nat :=
  match seconds text with
  | .error (.fault f) => .error (.fault f)
  | .error e => .error (.environment e)
  | .ok length => .ok length

def complete (environment : String -> Option String) (o : RunOptions) :
    Except OptionError RunOptions := do
  let settingsPath := o.settingsPath.or (environment settingsVariable)
  match o.runFor, environment secondsVariable with
  | none, some text =>
      let length <- environmentSeconds text
      return ⟨settingsPath, some length⟩
  | runFor, _ => return ⟨settingsPath, runFor⟩

def read (arguments : List String) (environment : String -> Option String) :
    Except OptionError Invocation :=
  match readArguments arguments unset with
  | .ok (.run o) => (complete environment o).map .run
  | .ok .help => .ok .help
  | .error e => .error e

/-!
## Settings
-/

structure LoadFailure where
  path : String
  reason : Settings.LoadError
deriving DecidableEq, Repr

namespace LoadFailure

def message (f : LoadFailure) : String :=
  s!"failed to load config: {f.path}"

end LoadFailure

def load (file : String -> Except String ByteArray) (o : RunOptions) :
    Checked (Except LoadFailure Settings) :=
  match o.settingsPath with
  | none => .ok (.ok {})
  | some path => (Settings.load file path).map fun r => r.mapError (⟨path, ·⟩)

end RunOptions
end AirDefense
