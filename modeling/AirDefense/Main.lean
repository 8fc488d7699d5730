import AirDefense.Session.Options
import AirDefense.Session.Play

/-!
# The command line

Runs one session in real time: lines of input are commands, and the summary is
printed when the session has ended.
-/

namespace AirDefense
namespace CommandLine

def usage : String :=
  "Usage: airdefense [CONFIG.json] [--seconds <n>]\n"
    ++ "Input: 'a', space or an empty line launches an attacker; 'q' quits.\n"
    ++ s!"Env: {RunOptions.settingsVariable}, {RunOptions.secondsVariable}"

def readFile (path : String) : IO (Except String ByteArray) := do
  try
    let bytes <- IO.FS.readBinFile path
    return .ok bytes
  catch e => return .error (toString e)

/-- Input that has been read and not yet looked at. -/
abbrev Inbox := IO.Ref (List Heard)

/-- Reads input byte by byte into the inbox; `line` is the line so far, reversed. -/
partial def listen (inbox : Inbox) (input : IO.FS.Stream) (line : List UInt8) : IO Unit := do
  let bytes <- input.read 1
  match bytes.toList with
  | [] =>
      let last := if line.isEmpty then [] else [line.reverse]
      inbox.modify (· ++ Heard.ofLines last)
  | byte :: _ =>
      if byte = Heard.lineFeed then
        match Heard.ofLine? line.reverse with
        | some h =>
            inbox.modify (· ++ [h])
            if h ≠ .closed then listen inbox input []
        | none => listen inbox input []
      else listen inbox input (byte :: line)

def takeFinding (inbox : Inbox) : IO Finding :=
  inbox.modifyGet fun waiting =>
    match waiting with
    | h :: rest => (.heard h, rest)
    | [] => (.silence, [])

def sleep (nanoseconds : Nat) : IO Unit :=
  IO.sleep (UInt32.ofNat (nanoseconds / Cadence.millisecond))

partial def play (inbox : Inbox) (began : Nat) (s : Session) : IO Session := do
  let now <- IO.monoNanosNow
  let s := { s with run := s.run.advance (now - began) }
  if s.isExpired then return s
  match s.take (<- takeFinding inbox) with
  | (s, .ending) => return s
  | (s, .again pause) =>
      sleep pause
      play inbox began s

def finish (began : Nat) (s : Session) : IO Summary := do
  let finished := s.finish
  let now <- IO.monoNanosNow
  sleep (finished.run.now - (now - began))
  return .ofSession finished

def runSession (settings : Settings) (length : Option Nat) : IO (Except String Summary) := do
  match Run.ofValid? settings with
  | .error fault => return .error fault.message
  | .ok (.error i) => return .error i.message
  | .ok (.ok r) =>
      match Session.begin r length with
      | .error refusal => return .error refusal.message
      | .ok s =>
          let inbox : Inbox <- IO.mkRef []
          let input <- IO.getStdin
          let _ <- IO.asTask (listen inbox input []) .dedicated
          let began <- IO.monoNanosNow
          let s <- play inbox began s
          return .ok (<- finish began s)

def runWith (o : RunOptions) : IO (Except String Summary) := do
  let content <-
    match o.settingsPath with
    | some path => readFile path
    | none => pure (.error "")
  match o.load fun _ => content with
  | .error fault => return .error fault.message
  | .ok (.error failure) => return .error s!"{failure.message}: {failure.reason.message}"
  | .ok (.ok settings) => runSession settings o.runFor

def answer (invocation : Except OptionError Invocation) : IO UInt32 := do
  let fail (message : String) : IO UInt32 := do
    IO.eprintln s!"Error: {message}"
    return 1
  match invocation with
  | .error e => fail e.message
  | .ok .help =>
      IO.println usage
      return 0
  | .ok (.run o) =>
      match <- runWith o with
      | .error message => fail message
      | .ok summary =>
          IO.println summary.toJson.broadText
          return 0

end CommandLine
end AirDefense

open AirDefense in
def main (arguments : List String) : IO UInt32 := do
  let settingsPath <- IO.getEnv RunOptions.settingsVariable
  let seconds <- IO.getEnv RunOptions.secondsVariable
  let environment (name : String) : Option String :=
    if name = RunOptions.settingsVariable then settingsPath
    else if name = RunOptions.secondsVariable then seconds
    else none
  CommandLine.answer (RunOptions.read arguments environment)
