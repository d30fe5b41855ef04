import LiveServices.CommandLine

/-!
# The program

The command line with its effects: the file of a request is read, its output is printed, and what
went wrong is left to the exit code.
-/

open LiveServices.CommandLine

/-- The text of a file, if it can be read. -/
def LiveServices.CommandLine.readText (file : String) : IO (Option String) := do
  try
    pure (some (← IO.FS.readFile file))
  catch _ => pure none

def main (args : List String) : IO UInt32 := do
  let outcome ← match parse? args with
    | none => pure Outcome.misused
    | some request =>
      let text ← match request.file? with
        | some file => readText file
        | none => pure none
      pure (request.outcome text)
  IO.print outcome.output
  pure outcome.code
