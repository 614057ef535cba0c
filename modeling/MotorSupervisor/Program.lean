import MotorSupervisor.CommandLine
import MotorSupervisor.Config.Load
import MotorSupervisor.Controller
import MotorSupervisor.Registry

/-!
# The program

The program brings up a controller on the selected driver, calls at most one
setter, and then reports the status at intervals until its time is over.

**Starting.**  `Program.launch` decides from the options and the selected
configuration whether the program runs: the configuration has to be readable
and valid, the driver registered, and the controller has to come up.

**Running.**  A `Session` is a running program at a point of its time line.
The control loop has a cycle whenever its period is over, and one at once when
a setter was called.  The program itself looks at the clock every ten
milliseconds: first for the end of the requested duration, then for the next
report.

**Ending.**  The controller is shut down and the program ends with an exit
code.  A requested duration too long to be measured is noticed only when the
controller is up: the program then breaks off at once, without a summary.
-/

namespace MotorSupervisor
namespace Program

/-- Version of the program. -/
def version : String :=
  "0.1.0"

/-- The answer to a request for the version. -/
def versionText : String :=
  s!"esc_control {version}\n"

/-- File that is loaded when no other one is given. -/
def defaultConfigPath : String :=
  "config/esc.toml"

/-- The answer to a request for help. -/
def helpText : String :=
  "Closed-loop BLDC motor control supervisor\n\n" ++
  "Usage: esc_control [OPTIONS]\n\nOptions:\n" ++
  "  -c, --config <FILE>                configuration file\n" ++
  "  -d, --driver <DRIVER>              driver to load\n" ++
  "      --duty <DUTY>                  open-loop duty cycle setpoint\n" ++
  "      --rpm <RPM>                    RPM setpoint\n" ++
  "      --duration <DURATION>          stop after this many seconds\n" ++
  "      --status-interval-ms <MILLIS>  status report interval\n" ++
  "  -v, --verbose                      log debug messages\n" ++
  "      --json                         write the log as data\n" ++
  "  -h, --help                         print this help\n" ++
  "  -V, --version                      print the version\n"

/-- Path of the configuration file. -/
def configPath (options : Options) : String :=
  options.config.getD defaultConfigPath

/-- The configuration of a run, given what its path leads to.  Only the default
file may be missing. -/
def configOf (options : Options) (source : Source) : Except ConfigError Config :=
  match options.config, source with
  | none, .missing => .ok .standard
  | _, _ => Config.loadValid source

/-- Severity from which on messages are shown. -/
def logLevel (options : Options) (config : Except ConfigError Config) : LogLevel :=
  if options.verbose then .debug
  else
    match config with
    | .ok config => config.shared.logLevel
    | .error _ => .info

/-- A running program. -/
structure Session where
  controller : Controller SimulatedDriver
  /-- Time since the start. -/
  now : Span
  /-- Time up to which the driver has seen time pass. -/
  driverTime : Span
  /-- Time of the next cycle of the control loop. -/
  nextCycle : Span
  /-- Time of the next report. -/
  nextReport : Span
  /-- Time between reports. -/
  interval : Span
  /-- Time at which the program ends by itself. -/
  deadline : Option Span

/-- How often the program looks at the clock. -/
def pollInterval : Span :=
  .ofMillis 10

namespace Session

/-- Let time pass for the driver. -/
def passTo (time : Span) (s : Session) : Session × List Event :=
  let (passed, result) := s.controller.step (.change (time - s.driverTime))
  ({ s with controller := passed, driverTime := time }, result.log)

/-- Let time pass for the driver, then take a step of the controller. -/
def access (time : Span) (input : Input Span) (s : Session) : Session × List Event :=
  let (passed, log) := s.passTo time
  let (stepped, result) := passed.controller.step input
  ({ passed with controller := stepped }, log ++ result.log)

/-- All cycles that are due up to a time, at most `fuel` of them. -/
def runCycles (limit : Span) : Nat → Session → Session × List Event
  | 0, s => (s, [])
  | fuel + 1, s =>
      if s.nextCycle ≤ limit then
        let time := s.nextCycle
        let (stepped, log) := s.access time (.cycle (Clock.reading time) .zero)
        let (last, more) :=
          runCycles limit fuel { stepped with nextCycle := time + s.controller.period }
        (last, log ++ more)
      else (s, [])

/-- All cycles that are due up to a time. -/
def runDue (limit : Span) (s : Session) : Session × List Event :=
  let fuel :=
    (limit.nanoseconds - s.nextCycle.nanoseconds) / s.controller.period.nanoseconds + 1
  runCycles limit fuel s

/-- Report the status if a report is due. -/
def reportDue (s : Session) : Session × List Event :=
  if s.nextReport ≤ s.now then
    let (passed, log) := s.passTo s.now
    let (read, status, more) := passed.controller.status
    ({ passed with
        controller := read
        nextReport := s.nextReport + s.interval },
      log ++ more ++ [.report status])
  else (s, [])

/-- The requested duration is over. -/
def expired (s : Session) : Bool :=
  match s.deadline with
  | some deadline => decide (deadline ≤ s.now)
  | none => false

/-- Look at the clock at a time, when the cycles that are due have run. -/
def wakeAt (wake : Span) (s : Session) : Session × List Event :=
  let (cycled, log) := s.runDue wake
  let (reported, more) := { cycled with now := wake }.reportDue
  (reported, log ++ more)

/-- Sleep until the program looks at the clock again. -/
def poll (s : Session) : Session × List Event :=
  s.wakeAt (s.now + pollInterval)

/-- Shut the controller down and sum up. -/
def finish (s : Session) : Session × List Event :=
  let (stopped, log) := s.access s.now .shutdown
  (stopped, log ++ [.loopSummary stopped.controller.stats, .programFinished])

/-- End at once: the cycles that are due still run, then the controller is shut
down. -/
def breakOff (s : Session) : Session × List Event :=
  let (cycled, log) := s.runDue s.now
  let (stopped, more) := cycled.access s.now .shutdown
  (stopped, log ++ more)

/-- The end of a run, with what was logged before it. -/
def prepend (log : List Event) (ending : Session × List Event) : Session × List Event :=
  (ending.1, log ++ ending.2)

/-- At most `polls` looks at the clock, and the end of the run. -/
def runPolls : Nat → Session → Session × List Event
  | 0, s => s.finish
  | polls + 1, s =>
      if s.expired then prepend [.durationElapsed] s.finish
      else
        let polled := s.poll
        prepend polled.2 (runPolls polls polled.1)

/-- The whole run up to the deadline; none if only an interruption ends it. -/
def complete? (s : Session) : Option (Session × List Event) :=
  s.deadline.map fun deadline =>
    s.runPolls (deadline.nanoseconds / pollInterval.nanoseconds + 2)

end Session

/-- What starting the program leads to. -/
inductive Launch
  /-- The program ends with exit code one. -/
  | failed
  /-- The controller is up, but the requested duration cannot be measured. -/
  | overlong (session : Session)
  /-- The program runs. -/
  | running (session : Session)

/-- Time at which the program ends by itself, if the requested duration is
positive; an error if it is too long. -/
def deadlineOf (duration : Double) : Except Unit (Option Span) :=
  if 0 < duration then
    match Span.ofSecondsNumber? duration with
    | some span => .ok (some span)
    | none => .error ()
  else .ok none

/-- The setter call that the options ask for. -/
def setpointInput (options : Options) : Option (Input Span × Event) :=
  match options.duty, options.rpm with
  | some duty, _ => some (.setDuty duty 0, .dutySelected duty)
  | none, some rpm => some (.setRpm rpm 0, .rpmSelected rpm)
  | none, none => none

/-- The drivers of the program. -/
def registry : Registry SimulatedDriver :=
  .builtin id

/-- Start reporting on a controller that is up. -/
def operate (options : Options) (c : Controller SimulatedDriver) : Launch × List Event :=
  let (selected, firstCycle, log) :=
    match setpointInput options with
    | some (input, event) => ((c.step input).1, Span.zero, [event])
    | none => (c, c.period, [])
  let interval := Span.ofMillis (max options.statusIntervalMillis.toNat 1)
  let session (deadline : Option Span) : Session :=
    { controller := selected
      now := .zero
      driverTime := .zero
      nextCycle := firstCycle
      nextReport := interval
      interval := interval
      deadline := deadline }
  match deadlineOf options.duration with
  | .error () => (.overlong (session none), log)
  | .ok deadline => (.running (session deadline), log)

/-- Start the program on a configuration. -/
def start (options : Options) (config : Config) : Launch × List Event :=
  let name := options.driver.getD config.driver.name
  let accepted : Event :=
    .configAccepted config.shared.serviceName name config.control.controlPeriodMicros
  match registry.create name config with
  | .error e =>
      (.failed, [accepted, .knownDrivers registry.names, .programFailed e.message])
  | .ok d =>
      match Controller.init config.control 0 d with
      | (.error e, log) => (.failed, accepted :: log ++ [.programFailed e.message])
      | (.ok c, log) =>
          let (launch, more) := operate options c
          (launch, accepted :: log ++ more)

/-- Start the program. -/
def launch (options : Options) (config : Except ConfigError Config) :
    Launch × List Event :=
  let (launch, log) :=
    match config with
    | .error e => (.failed, [.programFailed e.message])
    | .ok config => start options config
  (launch, .programStarted version :: log)

/-- Exit code of a run that did not come up. -/
def failedExit : Nat :=
  1

/-- Exit code of a run whose requested duration cannot be measured. -/
def overlongExit : Nat :=
  101

/-- How a run ends. -/
inductive Ending
  | exit (code : Nat)
  | interruption
deriving DecidableEq

/-- The whole run: how it ends and what is shown of its log. -/
def run (options : Options) (source : Source) : Ending × List Event :=
  let config := configOf options source
  let shown (log : List Event) := log.filter fun e => (logLevel options config).shows e.level
  match launch options config with
  | (.failed, log) => (.exit failedExit, shown log)
  | (.overlong session, log) => (.exit overlongExit, shown (log ++ session.breakOff.2))
  | (.running session, log) =>
      match session.complete? with
      | some (_, more) => (.exit 0, shown (log ++ more))
      | none => (.interruption, shown log)

end Program
end MotorSupervisor
