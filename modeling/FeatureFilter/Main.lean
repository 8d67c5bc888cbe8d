import FeatureFilter.Command.Run

open FeatureFilter.Command

/-- The text of a file, if it can be read. -/
def readText? (path : String) : IO (Option String) := do
  try
    return some (← IO.FS.readFile path)
  catch _ =>
    return none

/-- The one file that the arguments name. -/
def filesFor (args : List String) : IO Files := do
  match Request.ofArgs args with
  | .action a =>
    match a.configPath? with
    | some path =>
      let text ← readText? path
      return fun p => if p = path then text else none
    | none => return fun _ => none
  | _ => return fun _ => none

def main (args : List String) : IO UInt32 := do
  let outcome := runArgs (← filesFor args) args
  IO.print outcome.stdout
  if let some complaint := outcome.complaint? then
    IO.eprintln complaint
  return outcome.exitCode
