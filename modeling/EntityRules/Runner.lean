import EntityRules.Engine
import EntityRules.Scene.Loader
import EntityRules.Scene.Path

/-!
# Running a scene

**Input.**  Variables of the environment, files, and the times between the steps.

**Algorithm.**  The capacities come from a file or from variables.  The first scene must load.
Then step follows step: scenes that were loaded are applied, the rules run, and a scene that
they ask for is requested relative to the present one.  A line is written whenever the number
of steps is a multiple of the whole frame rate.  At the end the failures are counted by kind.
A frame rate so low that the time of one step cannot be counted breaks the run off before its
first step.

**Results.**  `Runner.run` gives the exit code, the reason for a failure, and the lines.
-/

namespace EntityRules

/-- How much a line matters. -/
inductive LogLevel where
  | info
  | warn
  | error
deriving DecidableEq, Repr

/-- The name of a level. -/
def LogLevel.name : LogLevel → String
  | .info => "INFO"
  | .warn => "WARN"
  | .error => "ERROR"

/-- A line about the run. -/
structure LogLine where
  level : LogLevel
  text : String
deriving DecidableEq, Repr

/-- What surrounds the run. -/
structure Surroundings where
  environment : String → Option String
  file : String → Option ByteArray

/-- Why a run does not start. -/
inductive StartFault where
  | unreadableConfig (path : String)
  | unparsableConfig (path : String)
  | noFirstScene
  | endlessStep
deriving DecidableEq, Repr

namespace StartFault

/-- The wording of a fault. -/
def message : StartFault → String
  | .unreadableConfig path => "failed to read " ++ path
  | .unparsableConfig path => "failed to parse " ++ path
  | .noFirstScene => "failed to load first scene"
  | .endlessStep => "the time of a step is too long to be counted"

/-- What the standard error says: a line for a fault that the surroundings can mend, and a
paragraph of its own for a run that is broken off. -/
def report : StartFault → String
  | .endlessStep => "\n" ++ endlessStep.message
  | fault => "Error: " ++ fault.message

/-- The exit code of a run that does not start. -/
def exitCode : StartFault → Nat
  | .endlessStep => 101
  | _ => 1

end StartFault

/-- The state of a run, with the lines since they were last taken. -/
structure Runner where
  engine : Engine
  loader : Loader
  scene : String
  frameRate : Float
  maxSteps : Option Nat
  log : List LogLine

namespace Runner

/-- The lines that came up before the run started, and the fault if it did not. -/
structure Start where
  log : List LogLine
  result : Except StartFault Runner

/-- The capacities. -/
def config (w : Surroundings) : Except StartFault Config :=
  match w.environment "RULES_CONFIG" with
  | none => .ok (.ofVariables w.environment)
  | some path =>
    match (w.file path).bind String.fromUTF8? with
    | none => .error (.unreadableConfig path)
    | some text =>
      match Config.read? text with
      | some config => .ok config
      | none => .error (.unparsableConfig path)

/-- The path of the first scene. -/
def firstScene (w : Surroundings) : String :=
  (w.environment "SCENE_FILE").getD "scenes/arena.json"

/-- The number of steps in a second: a positive number, or the default. -/
def frameRateOf (w : Surroundings) : Float :=
  match (w.environment "TARGET_FPS").bind fun text => Numeric.readFloat? text.toList with
  | some rate => if 0 < rate then rate else 20
  | none => 20

/-- The seconds from which on a time cannot be counted. -/
def timeBound : Float := 18446744073709551616

/-- Whether the time of a step can be counted. -/
def hasStepTime (rate : Float) : Bool := 1 / rate < timeBound

/-- The number of steps after which the run ends. -/
def maxStepsOf (w : Surroundings) : Option Nat :=
  ((w.environment "STEPS").bind fun text => Numeric.readNat? text.toList).filter (· < UInt64.size)

/-- The whole number of steps in a second, at least one. -/
def wholeRate (rate : Float) : Nat :=
  (min (Numeric.toInt64 (Numeric.maximum rate 1)) (UInt32.size - 1)).toNat

/-- Adds a line. -/
def write (r : Runner) (level : LogLevel) (text : String) : Runner :=
  { r with log := r.log ++ [⟨level, text⟩] }

/-- Applies a scene. -/
def enter (r : Runner) (scene : Scene) : Runner :=
  let (engine, summary) := r.engine.applyScene scene
  { r with engine, scene := scene.source }.write .info
    ("scene applied source=" ++ scene.source ++ " entities=" ++ toString summary.entities
      ++ " rules=" ++ toString summary.rules
      ++ " global_rules=" ++ toString summary.globalRules
      ++ " dropped=" ++ toString summary.dropped)

/-- Starts a run with its first scene. -/
def start (w : Surroundings) : Start :=
  match config w with
  | .error fault => ⟨[], .error fault⟩
  | .ok config =>
    let opening : LogLine := ⟨.info, "Starting rule runner config=" ++ config.summary⟩
    let path := firstScene w
    match Scene.load path (w.file path) with
    | .error _ => ⟨[opening], .error .noFirstScene⟩
    | .ok scene =>
      let runner : Runner :=
        { engine := .new config .standard
          loader := {}
          scene := path
          frameRate := frameRateOf w
          maxSteps := maxStepsOf w
          log := [] }
      let runner := runner.enter scene
      if hasStepTime runner.frameRate then ⟨[opening], .ok runner⟩
      else ⟨opening :: runner.log, .error .endlessStep⟩

/-- Applies what was loaded. -/
def enterLoaded (r : Runner) : Runner :=
  r.loader.results.foldl
    (fun r result =>
      match result with
      | .ok scene => r.enter scene
      | .error e => r.write .error e.message)
    { r with loader := { r.loader with results := [] } }

/-- Requests the scene that a step asked for. -/
def follow (r : Runner) (report : Report) : Runner :=
  match report.sceneRequest with
  | none => r
  | some request =>
    let path := ScenePath.resolve r.scene request
    let (loader, _) := r.loader.request path
    { r with loader }.write .info ("scene change requested path=" ++ path)

/-- Writes a line at the end of every second. -/
def tick (r : Runner) (report : Report) : Runner :=
  if r.engine.steps % wholeRate r.frameRate = 0 then
    r.write .info
      ("tick step=" ++ toString r.engine.steps ++ " rules=" ++ toString r.engine.rules.size
        ++ " entities=" ++ toString r.engine.store.activeCount.toNat
        ++ " written=" ++ toString report.entitiesWritten)
  else r

/-- One step. -/
def turn (r : Runner) (deltaTime : Float) : Runner :=
  let r := r.enterLoaded
  let (engine, report) := r.engine.step deltaTime
  ({ r with engine }.follow report).tick report

/-- Whether the run has come to its end. -/
def isDone (r : Runner) : Bool :=
  match r.maxSteps with
  | some max => max ≤ r.engine.steps
  | none => false

/-- Serves the requests from files. -/
def serve (r : Runner) (file : String → Option ByteArray) : Runner :=
  { r with loader := r.loader.serve file }

/-- The lines at the end of a run. -/
def closing (r : Runner) : List LogLine :=
  let diagnostics := r.engine.diagnostics
  let counts := (FailureKind.all.filter fun kind => 0 < diagnostics.count kind).map fun kind =>
    LogLine.mk .warn ("diagnostics reported kind=\"" ++ kind.name ++ "\" count="
      ++ toString (diagnostics.count kind))
  counts ++ [⟨.info, "Shutting down... steps=" ++ toString r.engine.steps⟩]

/-- Steps until the run is done, at most as often as there are times. -/
def turns (file : String → Option ByteArray) : List Float → Runner → Runner
  | [], r => r
  | deltaTime :: rest, r =>
    let r := r.turn deltaTime
    if r.isDone then r else turns file rest (r.serve file)

/-- The outcome of a run. -/
structure Outcome where
  exitCode : Nat
  failure : Option StartFault
  log : List LogLine

/-- A run whose steps take the given times. -/
def run (w : Surroundings) (times : List Float) : Outcome :=
  let s := start w
  match s.result with
  | .error fault => ⟨fault.exitCode, some fault, s.log⟩
  | .ok runner =>
    let runner := turns w.file times runner
    ⟨0, none, s.log ++ runner.log ++ runner.closing⟩

/-- The number of steps of a run that ends. -/
def stepCount (w : Surroundings) : Option Nat := (maxStepsOf w).map (max 1)

end Runner
end EntityRules
