import SoftwareCensus.Detection.Enrichment
import SoftwareCensus.Document.Merge
import SoftwareCensus.Plugin.Basic

/-!
# Plugins that add entries

Bindings, endpoints, files, messages and versions are entries of lists among the facts. An entry is
added unless one of the list says the same already.
-/

namespace SoftwareCensus.Plugin

/-- Whether a value has all entries of a mapping. -/
def carries (item : Fields) (d : Document) : Bool :=
  match d with
  | .map fields => item.all fun (k, v) => (Fields.get? fields k).any (· == v)
  | _ => false

/-- The result that adds an entry to a list, unless the list has one that carries it. -/
def appendEntry (facts : Document) (key : String) (item : Fields) : Document :=
  let known := ((facts.field? key).bind Document.asList?).any fun entries =>
    entries.any (carries item)
  .ofFields [(instanceKey, .ofFields [(key, .list (if known then [] else [.map item]))]),
    (listMergeKey, .str ListMerge.append.name)]

/-! ## Entries of several fields -/

/-- A field that is not required. -/
def optionalField (name : String) (type : ArgType) : ArgField := { name, type }

/-- A field that is required. -/
def requiredField (name : String) (type : ArgType) : ArgField := { name, type, required := true }

/-- A plugin that adds its arguments as an entry. Of some fields one has to be there. -/
def recorder (name description key : String) (fields : List ArgField) (anyOf : List String) :
    Plugin where
  name := name
  description := description
  args := .fields fields
  check args :=
    if anyOf.isEmpty || anyOf.any fun key => (args.field? key).isSome then .ok ()
    else .error (.missingAll anyOf)
  run call := call.answer (.ok (appendEntry call.facts key (call.args.asMap?.getD [])))

/-- Adds a binding. -/
def addBindingInfo : Plugin :=
  recorder "add_binding_info" "Record an address/port the instance serves on" "bindings"
    [optionalField "address" .str, optionalField "port" .int, optionalField "protocol" .str,
      { name := "class", type := .str, default := some (.str Binding.serviceClass) },
      optionalField "extra_data" .dict]
    ["address", "port"]

/-- Adds an endpoint. -/
def addEndpointInfo : Plugin :=
  recorder "add_endpoint_info" "Record an endpoint URI of the instance" "endpoints"
    [requiredField "uri" .str,
      { name := "type", type := .str, default := some (.str "generic") },
      optionalField "extra_data" .dict]
    []

/-- Adds a file. -/
def addFileInfo : Plugin :=
  recorder "add_file_info" "Record a file that belongs to the instance" "files"
    [requiredField "path" .str, optionalField "type" .str, optionalField "name" .str,
      optionalField "subtype" .str, optionalField "extra_data" .dict]
    []

/-- Adds a message. -/
def addMessageInfo : Plugin :=
  recorder "add_message_info" "Attach a message to the instance" "messages"
    [requiredField "msg" .str, optionalField "key" .str, optionalField "value" .raw,
      optionalField "extra_data" .dict]
    []

/-! ## Versions -/

/-- Adds a version. -/
def addVersionInfo : Plugin where
  name := "add_version_info"
  description := "Record a version of the instance"
  args := .fields [requiredField "version_type" .str, requiredField "version_number" .str]
  run call := call.answer (.ok (appendEntry call.facts "version" (Fields.ofList
    [("type", (call.arg? "version_type").getD .null),
      ("number", (call.arg? "version_number").getD .null)])))

end SoftwareCensus.Plugin
