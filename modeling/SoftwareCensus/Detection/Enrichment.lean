import SoftwareCensus.Detection.Matching
import SoftwareCensus.Host.Container
import SoftwareCensus.Text.Pieces

/-!
# Enrichment

What the inventory knows about a detected instance before any task runs: its tree of processes, its
ports and bindings, its packages with their versions, and the container it runs in.
-/

namespace SoftwareCensus

/-! ## Parts of an instance -/

/-- An address and port that software serves on. -/
structure Binding where
  address : String
  port : Nat
  protocol : String
  deriving DecidableEq, Inhabited, Repr

namespace Binding

/-- The class of bindings that come from sockets. -/
def serviceClass : String := "service"

/-- The binding of a socket. -/
def ofRecord (r : PortRecord) : Binding := ⟨r.address, r.port, r.protocol⟩

/-- The document of a binding. -/
def toDocument (b : Binding) : Document :=
  .ofFields [("address", .str b.address), ("port", .int b.port), ("protocol", .str b.protocol),
    ("class", .str serviceClass)]

end Binding

/-- A version, and where it was found. -/
structure VersionEntry where
  kind : String
  number : String
  deriving DecidableEq, Inhabited, Repr

/-- The document of a version. -/
def VersionEntry.toDocument (v : VersionEntry) : Document :=
  .ofFields [("type", .str v.kind), ("number", .str v.number)]

/-- What is reported of a container, with the whole of it for the tasks. -/
structure DockerSummary where
  id : Document
  name : Document
  image : Document
  networkMode : Document
  exposedPorts : Document
  portBindings : Document
  fullData : Document
  deriving Inhabited

namespace DockerSummary

/-- The summary of a container. -/
def ofContainer (container : Document) : DockerSummary :=
  let field (path : List String) : Document := (Container.at_ container path).getD .null
  let orEmpty (d : Document) : Document := if d.isNull then .empty else d
  { id := field ["Id"]
    name := field ["Name"]
    image := field ["Config", "Image"]
    networkMode := field ["HostConfig", "NetworkMode"]
    exposedPorts := orEmpty (field ["Config", "ExposedPorts"])
    portBindings := orEmpty (field ["HostConfig", "PortBindings"])
    fullData := container }

/-- What follows the last colon of the image's name, unless nothing does. -/
def imageTag? (d : DockerSummary) : Option String :=
  match d.image with
  | .str image => ((Text.afterLast? ':' image.toList).filter (!·.isEmpty)).map String.ofList
  | _ => none

/-- The document of a summary. -/
def toDocument (d : DockerSummary) : Document :=
  .ofFields [("id", d.id), ("name", d.name), ("image", d.image), ("network_mode", d.networkMode),
    ("exposed_ports", d.exposedPorts), ("port_bindings", d.portBindings),
    ("full_data", d.fullData)]

end DockerSummary

/-- A detected instance and what is known about it. -/
structure Instance where
  seed : Seed
  process : Document
  ports : List Nat
  bindings : List Binding
  packages : List Document
  versions : List VersionEntry
  docker : Option DockerSummary := none
  deriving Inhabited

/-- The document that tasks work on. -/
def Instance.toDocument (i : Instance) : Document :=
  .ofFields ([("type", .str i.seed.softwareType), ("process", i.process),
    ("listening_ports", .list (i.ports.map fun (p : Nat) => .int p)),
    ("bindings", .list (i.bindings.map Binding.toDocument)), ("packages", .list i.packages),
    ("version", .list (i.versions.map VersionEntry.toDocument))] ++
    match i.docker with
    | some d => [("docker", d.toDocument)]
    | none => [])

/-! ## Packages -/

/-- The entries of all package families that a signature names. -/
def matchingPackages (packages : Fields) (s : Signature) :
    Except Signature.Error (List Document) := do
  match ← s.pkgMatcher with
  | none => return []
  | some m => return packages.flatMap fun (family, entries) =>
      if m.isMatch family then entries.asList?.getD [] else []

/-- Adds a text to texts in ascending order, unless it is there. -/
private def insertText (s : String) : List String → List String
  | [] => [s]
  | t :: rest =>
    if s < t then s :: t :: rest else if s == t then t :: rest else t :: insertText s rest

/-- The versions of packages, each once, in ascending order. -/
def packageVersions (packages : List Document) : List VersionEntry :=
  let versions := packages.filterMap fun p =>
    match p.field? "version" with
    | some (.str s) => some s
    | some (.int n) => some (toString n)
    | some (.float x) => some (Document.float x).toJson
    | _ => none
  (versions.foldl (fun acc s => insertText s acc) []).map fun v => ⟨"package", v⟩

/-! ## Sockets -/

/-- Adds ports to ports in ascending order. -/
def unionPorts (ports more : List Nat) : List Nat :=
  more.foldl (fun acc p => ProcessNode.insertPort p acc) ports

/-- The items, each once, in the order in which they come first. -/
def firstOfEach {α : Type} [DecidableEq α] (items : List α) : List α :=
  items.foldl (fun acc x => if acc.contains x then acc else acc ++ [x]) []

/-- The nodes of an instance, parents before children. -/
def claimedNodes (f : Forest) (seed : Seed) : List ProcessNode :=
  f.subtree seed.representative seed.claimed.contains

/-- The ports of an instance. -/
def portsOf (f : Forest) (seed : Seed) : List Nat :=
  (claimedNodes f seed).foldl (fun ports node => unionPorts ports node.ports) []

/-- The bindings of an instance. -/
def bindingsOf (f : Forest) (seed : Seed) : List Binding :=
  firstOfEach ((claimedNodes f seed).flatMap fun node => node.portRecords.map Binding.ofRecord)

/-! ## Containers -/

/-- The processes that connect an instance with a container: the reported one, its children, and
its ancestors above the first process. -/
def relatedPids (f : Forest) (representative : Pid) : List Pid :=
  representative :: (f.childrenOf representative).map (·.pid) ++ f.ancestors representative

/-- Notes the container of an instance, and the ports of all processes that connect them. -/
def attachContainer (f : Forest) (container : Document) (i : Instance) : Instance :=
  let ports := (relatedPids f i.seed.representative).foldl (fun ports pid =>
    match f.get? pid with
    | some node => unionPorts ports node.ports
    | none => ports) i.ports
  { i with docker := some (.ofContainer container), ports }

/-- Gives a container to the first instance that it is connected with. -/
def attributeContainer (f : Forest) (container : Document) (pid : Pid) :
    List Instance → List Instance
  | [] => []
  | i :: rest =>
    if (relatedPids f i.seed.representative).contains pid then attachContainer f container i :: rest
    else i :: attributeContainer f container pid rest

/-- Gives every container that runs to an instance. -/
def attributeContainers (f : Forest) (containers : List Document) (instances : List Instance) :
    List Instance :=
  containers.foldl (fun instances container =>
    match Container.pid? container with
    | some pid => attributeContainer f container pid instances
    | none => instances) instances

/-- Adds the version that the image of the container names. -/
def addImageVersion (i : Instance) : Instance :=
  match i.docker.bind DockerSummary.imageTag? with
  | some tag => { i with versions := i.versions ++ [⟨"docker", tag⟩] }
  | none => i

/-! ## Instances -/

/-- The instance of a seed before containers are looked at. -/
def Instance.ofSeed (f : Forest) (packages : List Document) (seed : Seed) : Instance :=
  { seed
    process := f.render seed.representative seed.claimed.contains
    ports := portsOf f seed
    bindings := bindingsOf f seed
    packages
    versions := packageVersions packages }

/-- The instances of the seeds of one pass. -/
def enrich (f : Forest) (inventory : Inventory) (s : Signature) (seeds : List Seed) :
    Except Signature.Error (List Instance) := do
  let packages ← matchingPackages inventory.packages s
  let instances := seeds.map (Instance.ofSeed f packages)
  return (attributeContainers f inventory.containers instances).map addImageVersion

end SoftwareCensus
