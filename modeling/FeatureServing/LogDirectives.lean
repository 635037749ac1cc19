import FeatureServing.Text.Blank

/-!
# Log directives

A log level is expanded to one directive per component; a text with an equals sign already is a
list of directives.
-/

namespace FeatureServing.LogDirectives

/-- The components that write log events. -/
def components : List String := ["onlinefs", "onlinefs_sdk", "onlinefs_runtime"]

/-- The same level for every component. -/
def forLevel (level : String) : String :=
  ",".intercalate (components.map fun c => c ++ "=" ++ level)

/-- The directives of a log level; no level means `info`. -/
def expand (level : String) : String :=
  let level := Text.trim level
  if level.isEmpty then forLevel "info"
  else if level.toList.contains '=' then level
  else forLevel level

end FeatureServing.LogDirectives
