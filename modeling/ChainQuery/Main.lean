/-
  ChainQuery.Main — the tool itself: its words, the variables and the file that set
  it up, and its output.
-/

import ChainQuery.CommandLine.Run

open ChainQuery

/-- The variables that are looked for, by their usual names. -/
def variableNames : List String := ["OBELISK_LOG_FILTER", "OBELISK_PRETTY"]

/-- What stands under a name. A directory is no file; a file of other bytes than text cannot be read. -/
def readSettingsFile (name : String) : IO (Option SettingsFile) := do
  try
    return some (.text (← IO.FS.readFile name))
  catch
    | .noFileOrDirectory .. => return none
    | .inappropriateType .. => return none
    | _ => return some .unreadable

def readSources : IO Sources := do
  let environment ← variableNames.filterMapM fun name => do return (← IO.getEnv name).map fun v => (name, v)
  let file ← readSettingsFile ".obelisk.toml"
  return { environment, file }

def main (words : List String) : IO UInt32 := do
  let exit := CommandLine.process words (← readSources)
  let stdout ← IO.getStdout
  let stderr ← IO.getStderr
  for line in exit.log do
    stderr.putStrLn line
  stderr.putStr exit.stderr
  stdout.putStr exit.stdout
  return exit.code.toUInt32
