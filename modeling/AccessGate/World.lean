import AccessGate.File.Tree
import AccessGate.Value.Texts

/-!
# The surroundings of a gate

* `AccessGate.World` – what a gate finds **around it**: files, variables, the answers of remote
  endpoints, and the time.
-/

namespace AccessGate

/-- The surroundings. An endpoint that serves nothing cannot be reached; the time is in seconds, as
the double that a clock shows. -/
structure World where
  files : Tree
  environment : Texts
  served : Texts
  now : Double

end AccessGate
