import FeatureServing.Document
import FeatureServing.Json.Reading
import FeatureServing.Yaml.Node

/-!
# Metadata files

`Document.parse` reads a metadata document in YAML or JSON. A `MetadataFile` is a path whose
extension tells which of the two it holds.
-/

namespace FeatureServing

inductive DocumentFormat
  | yaml
  | json
deriving DecidableEq

/-- The last component of a path, none if it names no file. -/
def fileName? (path : String) : Option String :=
  ((path.splitOn "/").filter fun c => !c.isEmpty && c != ".").getLast?.filter (· != "..")

/-- What stands behind the last point of a file name; a point in front of the whole name does not
count. -/
def extension? (path : String) : Option String :=
  (fileName? path).bind fun name =>
    match (name.splitOn ".").reverse with
    | ext :: stem => if stem.isEmpty || stem = [""] then none else some ext
    | [] => none

namespace DocumentFormat

def ofPath (path : String) : Except ClientError DocumentFormat :=
  match extension? path with
  | some "yaml" | some "yml" => .ok yaml
  | some "json" => .ok json
  | _ => .error (.configuration (.unknownFileFormat path))

def name : DocumentFormat → String
  | yaml => "Yaml"
  | json => "Json"

end DocumentFormat

/-- Reads a document. -/
def Document.parse (content : String) (format : DocumentFormat) : Except ClientError Document :=
  match format with
  | .yaml =>
    match (Yaml.read? content).bind fun t => Document.read? (Yaml.Node.root t) with
    | some d => .ok d
    | none => .error (.document .invalidYaml)
  | .json =>
    match (Json.read? content).bind fun j => Document.read? (Json.Node.root j) with
    | some d => .ok d
    | none => .error (.document .invalidJson)

structure MetadataFile where
  path : String
  format : DocumentFormat

namespace MetadataFile

/-- The file at a path; the extension has to be known, the file need not exist. -/
def ofPath (path : String) : Except ClientError MetadataFile :=
  (DocumentFormat.ofPath path).map fun format => ⟨path, format⟩

/-- Reads the document out of the content of the file, none if it does not exist. -/
def load (f : MetadataFile) (content : Option String) : Except ClientError Document :=
  match content with
  | some text => Document.parse text f.format
  | none => .error (.io "No such file or directory (os error 2)")

end MetadataFile

end FeatureServing
