/-!
# YAML trees

`Yaml` is what a YAML document says before its plain scalars are resolved: block and flow
collections, and scalars with the difference between plain and quoted ones. A document without any
node is `void`; a node that is left out is the empty plain scalar.
-/

namespace FeatureServing

inductive Yaml
  | void
  | plain (s : String)
  | quoted (s : String)
  | list (items : List Yaml)
  | map (members : List (Yaml × Yaml))

namespace Yaml

instance : Inhabited Yaml := ⟨void⟩

/-- A node that is left out. -/
def omitted : Yaml :=
  plain ""

end Yaml

end FeatureServing
