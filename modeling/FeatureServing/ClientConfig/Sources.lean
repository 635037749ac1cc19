import FeatureServing.ClientConfig
import FeatureServing.Error
import FeatureServing.Json.Reading
import FeatureServing.Json.Settled
import FeatureServing.Settings.Reading
import FeatureServing.Yaml.Node

/-!
# Where the configuration comes from

* `ClientConfig.ofYaml` : a YAML document;
* `ClientConfig.load` : a JSON file, if there is one, with the environment laid over it. Variables
  start with `ONLINEFS__` in any case, and two underscores separate the names of nested settings.
-/

namespace FeatureServing.ClientConfig

def ofYaml (text : String) : Except ClientError ClientConfig :=
  match (Yaml.read? text).bind fun t => read? (Yaml.Node.root t) with
  | some c => .ok c
  | none => .error (.configuration .unparsable)

/-- What the names of the variables start with. -/
def variableHead : String := "onlinefs__"

/-- The name of the setting that a variable is for. -/
def settingName? (key : String) : Option String :=
  let cs := (Text.lowercase key).toList
  let head := variableHead.toList
  if head.isPrefixOf cs then
    some (".".intercalate ((String.ofList (cs.drop head.length)).splitOn "__"))
  else none

/-- The settings of the environment. -/
def ofEnvironment (vars : List (String × String)) : List (String × Setting) :=
  vars.filterMap fun v => (settingName? v.1).map fun name => (name, .ofVariable v.2)

/-- The settings of a configuration file: the members of a JSON object. -/
def ofFile? (content : String) : Option (List (String × Setting)) := do
  let j ← Json.read? content
  match Setting.ofJson (← j.settle? Json.nestingLimit) with
  | .table ms => some ms
  | _ => none

/-- Reads the configuration from a file, none if there is no file, and from the environment. -/
def load (file : Option String) (vars : List (String × String)) :
    Except ClientError ClientConfig := do
  let members ←
    match file with
    | none => .ok []
    | some content =>
      match ofFile? content with
      | some ms => .ok ms
      | none => .error (.configuration .unreadable)
  let settings := ((Setting.table []).overlay members).overlay (ofEnvironment vars)
  match read? settings with
  | some c => .ok c
  | none => .error (.configuration .undecodable)

end FeatureServing.ClientConfig
