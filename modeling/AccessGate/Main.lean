import AccessGate.Demo.Walk

/-!
# The command line

Runs the walk through a gate with its own settings. The clock starts anywhere: the token is made and
checked by the same one.
-/

/-- Prints the walk and ends with its exit code. -/
def main : IO UInt32 := do
  let milliseconds ← IO.monoMsNow
  let world : AccessGate.World :=
    { files := .empty, environment := [], served := [], now := .ofRatio false milliseconds 1000 }
  match AccessGate.Demo.walk world AccessGate.Demo.settings with
  | .ok walked => do
      IO.print (AccessGate.Demo.printed walked.lines)
      return UInt32.ofNat walked.exit
  | .error _ => return 1
