import AccessGate.Error.Fault
import AccessGate.Text.LowerCase
import AccessGate.Text.Split
import AccessGate.Value.Texts

/-!
# Settings from the environment

* `AccessGate.Setting.fromEnvironment` – the **variables under a prefix**, as settings named by the
  rest of their names in lower case;
* `AccessGate.Setting.fromEnvironmentUnder` – the same with a prefix **of any kind**. Only a text is
  one, which shows as soon as there is a variable.
-/

namespace AccessGate.Setting

/-- The prefix that marks a variable as a setting, unless another one is asked for. -/
def defaultPrefix : String := "CLAIMGATE_"

/-- The variables whose names start with `front`, as settings. -/
def fromEnvironment (vars : Texts) (front : String) : Members :=
  Members.ofPairs <| (vars.filter fun (name, _) => Text.startsWith name front).map
    fun (name, v) =>
      (.text (Text.lower (String.ofList (name.toList.drop front.length))), .text v)

/-- The variables under a prefix of any kind, as settings. -/
def fromEnvironmentUnder (vars : Texts) : Value → Except Fault Members
  | .text front => .ok (fromEnvironment vars front)
  | _ => if vars.isEmpty then .ok [] else .error .wrongKind

end AccessGate.Setting
