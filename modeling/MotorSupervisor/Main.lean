import MotorSupervisor.Program

/-!
# Entry point

Reads the arguments and the configuration file, then lets the program run in
real time: between two looks at the clock the process sleeps.
-/

namespace MotorSupervisor

/-- What a path leads to. -/
def readSource (path : String) : IO Source := do
  try
    return .file (← IO.FS.readBinFile path)
  catch e =>
    match e with
    | .noFileOrDirectory .. => return .missing
    | _ => return .notAFile

/-- How the log is written. -/
structure LogStyle where
  /-- Severity from which on events are shown. -/
  kept : LogLevel
  /-- Lines are data instead of text. -/
  data : Bool

/-- Write the events that the log level shows. -/
def writeLog (style : LogStyle) (log : List Event) : IO Unit := do
  for e in log do
    if style.kept.shows e.level then
      IO.println (if style.data then e.dataLine else e.line)

/-- Run a session until its deadline. -/
partial def follow (style : LogStyle) (s : Program.Session) : IO Unit := do
  if s.expired then
    let (_, log) := s.finish
    writeLog style (.durationElapsed :: log)
  else
    IO.sleep 10
    let (next, log) := s.poll
    writeLog style log
    follow style next

/-- Run the program with its options. -/
def runProgram (options : Options) : IO UInt32 := do
  let config := Program.configOf options (← readSource (Program.configPath options))
  let style : LogStyle := ⟨Program.logLevel options config, options.json⟩
  let (launch, log) := Program.launch options config
  writeLog style log
  match launch with
  | .failed => return UInt32.ofNat Program.failedExit
  | .overlong session =>
      writeLog style session.breakOff.2
      IO.eprintln "error: the requested duration is too long"
      return UInt32.ofNat Program.overlongExit
  | .running session =>
      follow style session
      return 0

end MotorSupervisor

open MotorSupervisor

/-- Answer the arguments. -/
def main (arguments : List String) : IO UInt32 := do
  match Request.ofArguments arguments with
  | .error e =>
      IO.eprintln s!"error: {e.message}"
      return 2
  | .ok .help =>
      IO.print Program.helpText
      return 0
  | .ok .version =>
      IO.print Program.versionText
      return 0
  | .ok (.run options) => runProgram options
