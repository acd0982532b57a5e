import EntityRules.Runner

/-!
# Command line

Runs a scene at a fixed rate.  The variables `SCENE_FILE`, `TARGET_FPS`, `STEPS`,
`RULES_CONFIG` and `RULES_*` say how.
-/

namespace EntityRules
namespace CommandLine

/-- The variables that a run reads. -/
def variableNames : List String :=
  ["SCENE_FILE", "TARGET_FPS", "STEPS", "RULES_CONFIG", "RULES_GLOBAL_ENTITIES",
   "RULES_SCENE_ENTITIES", "RULES_GLOBAL_RULES", "RULES_SCENE_RULES", "RULES_MAX_SELECTORS",
   "RULES_DIAGNOSTIC_HISTORY"]

/-- Reads files; those that cannot be read are left out. -/
def readFiles (paths : List String) : IO (List (String × ByteArray)) :=
  paths.filterMapM fun (path : String) => do
    try
      let content ← IO.FS.readBinFile path
      pure (some (path, content))
    catch _ => pure none

/-- Writes lines. -/
def printLog (lines : List LogLine) : IO Unit :=
  lines.forM fun line => IO.println (line.level.name ++ " " ++ line.text)

/-- Steps until the run is done. -/
partial def loop (runner : Runner) (last : Nat) : IO Runner := do
  let begun ← IO.monoNanosNow
  let runner := runner.turn (Float.ofNat (begun - last) / 1000000000)
  printLog runner.log
  let runner := { runner with log := [] }
  if runner.isDone then pure runner
  else
    let files ← readFiles runner.loader.requests
    let runner := runner.serve fun path => files.lookup path
    let spent := (← IO.monoNanosNow) - begun
    let wanted := Numeric.toInt64 (1000000000 / runner.frameRate)
    IO.sleep (min ((wanted - spent).toNat / 1000000) (UInt32.size - 1)).toUInt32
    loop runner begun

/-- Starts a run and writes its lines. -/
def start : IO UInt32 := do
  let entries ← variableNames.filterMapM fun name => do
    pure ((← IO.getEnv name).map fun value => (name, value))
  let environment (name : String) : Option String := entries.lookup name
  let scene := Runner.firstScene ⟨environment, fun _ => none⟩
  let files ← readFiles (scene :: (environment "RULES_CONFIG").toList)
  let started := Runner.start ⟨environment, fun path => files.lookup path⟩
  printLog started.log
  match started.result with
  | .error fault =>
    IO.eprintln fault.report
    pure fault.exitCode.toUInt32
  | .ok runner =>
    let runner ← loop runner (← IO.monoNanosNow)
    printLog runner.closing
    pure 0

end CommandLine
end EntityRules

def main : IO UInt32 := EntityRules.CommandLine.start
