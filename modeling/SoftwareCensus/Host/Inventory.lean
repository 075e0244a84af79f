import SoftwareCensus.Document.Json.Reader
import SoftwareCensus.Document.Yaml.Reader
import SoftwareCensus.Failure
import SoftwareCensus.Files.Tree
import SoftwareCensus.Host.Pid

/-!
# Inventories

The facts about a host that a run works on: its processes, its listening sockets, its packages and
its containers. What is not known here is kept as it is, so that tasks can see it.
-/

namespace SoftwareCensus

open Source

/-! ## Records -/

/-- A process as it was collected. -/
structure ProcessRecord where
  pid : Pid
  ppid : Pid := .root
  cmdline : String := ""
  cwd : Option String := none
  user : Option String := none
  extra : Fields := []
  deriving Inhabited

/-- A listening socket. -/
structure PortRecord where
  address : String := ""
  port : Nat
  protocol : String := ""
  pid : Pid := .root
  extra : Fields := []
  deriving Inhabited

/-- A whole inventory. The packages are lists of entries by family. -/
structure Inventory where
  processes : List ProcessRecord := []
  tcpListen : List PortRecord := []
  udpListen : List PortRecord := []
  packages : Fields := []
  dockers : Option Document := none
  deriving Inhabited

/-- The greatest number of a port. -/
def maxPort : Nat := 65535

/-- The entry of a field that may be missing. -/
def entryOf (name : String) (value : Option String) : List (String × Document) :=
  match value with
  | some s => [(name, .str s)]
  | none => []

/-! ## Processes -/

namespace ProcessRecord

/-- The names of the fields that are known. -/
def fieldNames : List String := ["pid", "ppid", "cmdline", "cwd", "user"]

/-- Reads a process. -/
def decode? (s : Source) : Option ProcessRecord := do
  let r ← Record.ofEntries? fieldNames (← s.entries?)
  let pid ← r.required "pid" Pid.decode?
  let ppid ← r.withDefault "ppid" .root Pid.decode?
  let cmdline ← r.optional "cmdline" text?
  let cwd ← r.optional "cwd" text?
  let user ← r.optional "user" text?
  let extra ← toFields? r.others []
  return { pid, ppid, cmdline := cmdline.getD "", cwd, user, extra }

/-- The entries of the fields that are known. -/
def known (p : ProcessRecord) : List (String × Document) :=
  [("pid", .str p.pid.text), ("ppid", .str p.ppid.text), ("cmdline", .str p.cmdline)] ++
    entryOf "cwd" p.cwd ++ entryOf "user" p.user

/-- The document of a process. -/
def toDocument (p : ProcessRecord) : Document :=
  .map (Fields.extend (Fields.ofList p.known) p.extra)

end ProcessRecord

/-! ## Sockets -/

namespace PortRecord

/-- The names of the fields that are known. -/
def fieldNames : List String := ["address", "port", "protocol", "pid"]

/-- Reads a listening socket. -/
def decode? (s : Source) : Option PortRecord := do
  let r ← Record.ofEntries? fieldNames (← s.entries?)
  let address ← r.optional "address" text?
  let port ← r.required "port" (nat? maxPort)
  let protocol ← r.optional "protocol" text?
  let pid ← r.withDefault "pid" .root Pid.decode?
  let extra ← toFields? r.others []
  return { address := address.getD "", port, protocol := protocol.getD "", pid, extra }

/-- The entries of the fields that are known. -/
def known (p : PortRecord) : List (String × Document) :=
  [("address", .str p.address), ("port", .int p.port), ("protocol", .str p.protocol),
    ("pid", .str p.pid.text)]

/-- The document of a listening socket. -/
def toDocument (p : PortRecord) : Document :=
  .map (Fields.extend (Fields.ofList p.known) p.extra)

end PortRecord

/-! ## Inventories -/

namespace Inventory

/-- Why there is no inventory. -/
inductive Error where
  | unreadable (path why : String)
  | notJson
  | notYaml
  deriving DecidableEq, Inhabited, Repr

/-- The text of an error. -/
def Error.message : Error → String
  | unreadable path why => "I/O error reading inventory " ++ path ++ ": " ++ why
  | notJson => "invalid inventory JSON: not an inventory"
  | notYaml => "invalid inventory YAML: not an inventory"

/-- The failure that an error is. -/
def Error.toFailure (e : Error) : Failure :=
  match e with
  | unreadable _ why => .io why
  | notJson | notYaml => .inventory e.message

/-- The names of the fields that are known. -/
def fieldNames : List String := ["processes", "tcp_listen", "udp_listen", "packages", "dockers"]

/-- Reads an inventory. Fields that are not known are passed over. -/
def decode? (s : Source) : Option Inventory := do
  let r ← s.record? fieldNames
  let processes ← r.withDefault "processes" [] (listOf? ProcessRecord.decode?)
  let tcpListen ← r.withDefault "tcp_listen" [] (listOf? PortRecord.decode?)
  let udpListen ← r.withDefault "udp_listen" [] (listOf? PortRecord.decode?)
  let packages ← r.withDefault "packages" [] Source.fields?
  let dockers ← r.optional "dockers" toDocument?
  return { processes, tcpListen, udpListen, packages, dockers }

/-- Reads a JSON text as an inventory. -/
def ofJson (text : String) : Except Error Inventory :=
  match (Json.source? text).bind decode? with
  | some inventory => .ok inventory
  | none => .error .notJson

/-- Reads a YAML text as an inventory. -/
def ofYaml (text : String) : Except Error Inventory :=
  match (Yaml.source? text).bind decode? with
  | some inventory => .ok inventory
  | none => .error .notYaml

/-- Reads a text as an inventory: as JSON if it begins with a brace or bracket, else as YAML. -/
def ofText (text : String) : Except Error Inventory :=
  match text.toList.dropWhile Text.isBlank with
  | '{' :: _ | '[' :: _ => ofJson text
  | _ => ofYaml text

/-- Reads a file as an inventory. -/
def ofFile (files : Files.View) (path : String) : Except Error Inventory :=
  match (files path).read with
  | .ok text => ofText text
  | .error fault => .error (.unreadable path fault.message)

/-- The entries of the fields that are known. -/
def known (inventory : Inventory) : List (String × Document) :=
  [("processes", .list (inventory.processes.map ProcessRecord.toDocument)),
    ("tcp_listen", .list (inventory.tcpListen.map PortRecord.toDocument)),
    ("udp_listen", .list (inventory.udpListen.map PortRecord.toDocument)),
    ("packages", .map inventory.packages)] ++
    match inventory.dockers with
    | some d => [("dockers", d)]
    | none => []

/-- The document of an inventory. -/
def toDocument (inventory : Inventory) : Document := .ofFields inventory.known

/-- The containers of a host. -/
def containers (inventory : Inventory) : List Document :=
  ((inventory.dockers.bind (·.field? "containers")).bind Document.asList?).getD []

/-- The variables that every task can use. -/
def taskVars (inventory : Inventory) : Fields :=
  Fields.ofList [("processes", .list (inventory.processes.map ProcessRecord.toDocument)),
    ("tcp_listen", .list (inventory.tcpListen.map PortRecord.toDocument)),
    ("udp_listen", .list (inventory.udpListen.map PortRecord.toDocument)),
    ("packages", .map inventory.packages),
    ("dockers", inventory.dockers.getD .empty)]

end Inventory

end SoftwareCensus
