import SoftwareCensus.Host.Inventory

/-!
# Forests of processes

The flat list of processes as parents and children. A parent that is not in the list gets a node of
its own, without data and with the root as its parent. A process may be its own parent; no walk
follows it into itself, and no walk comes to a node twice.
-/

namespace SoftwareCensus

/-- A process in a forest. -/
structure ProcessNode where
  pid : Pid
  ppid : Pid := .root
  cmdline : String := ""
  cwd : Option String := none
  user : Option String := none
  extra : Fields := []
  /-- The children in the order in which they were listed. -/
  children : List Pid := []
  /-- The ports in ascending order, each once. -/
  ports : List Nat := []
  portRecords : List PortRecord := []
  /-- Whether the node exists only because a process names it as its parent. -/
  synthetic : Bool := true
  deriving Inhabited

namespace ProcessNode

/-- The node of a pid about which nothing is known. -/
def placeholder (pid : Pid) : ProcessNode := { pid }

/-- Takes over what is known about a process. -/
def fillFrom (node : ProcessNode) (p : ProcessRecord) : ProcessNode :=
  { node with
    ppid := p.ppid, cmdline := p.cmdline, cwd := p.cwd, user := p.user, extra := p.extra,
    synthetic := false }

/-- Whether a node is its own parent. -/
def isSelfParented (node : ProcessNode) : Bool := node.pid == node.ppid

/-- The document of a node. -/
def toDocument (node : ProcessNode) : Document :=
  let text (s : Option String) : Document := .ofOption (s.map .str)
  .ofFields [("pid", .str node.pid.text), ("ppid", .str node.ppid.text),
    ("cmdline", .str node.cmdline), ("cwd", text node.cwd), ("user", text node.user),
    ("extra", .map node.extra), ("children", .ofStrings (node.children.map (·.text))),
    ("listening_ports", .list (node.ports.map fun (port : Nat) => .int port)),
    ("records", .list (node.portRecords.map PortRecord.toDocument)),
    ("synthetic", .bool node.synthetic), ("self_parented", .bool node.isSelfParented)]

/-- Adds a number to a list in ascending order, unless it is there. -/
def insertPort (port : Nat) : List Nat → List Nat
  | [] => [port]
  | p :: rest =>
    if port < p then port :: p :: rest
    else if port == p then p :: rest
    else p :: insertPort port rest

/-- Notes a listening socket of a process. -/
def attachPort (node : ProcessNode) (r : PortRecord) : ProcessNode :=
  { node with ports := insertPort r.port node.ports, portRecords := node.portRecords ++ [r] }

/-- Adds a child, unless it is there. -/
def addChild (node : ProcessNode) (child : Pid) : ProcessNode :=
  if node.children.contains child then node else { node with children := node.children ++ [child] }

/-- Removes a child. -/
def removeChild (node : ProcessNode) (child : Pid) : ProcessNode :=
  { node with children := node.children.filter (· != child) }

end ProcessNode

/-- The processes of a host; the nodes are in ascending order of their pids. -/
structure Forest where
  nodes : List ProcessNode := []
  deriving Inhabited

namespace Forest

/-! ## Nodes -/

/-- The node of a pid. -/
def get? (f : Forest) (pid : Pid) : Option ProcessNode := f.nodes.find? (·.pid == pid)

/-- Whether a pid has a node. -/
def contains (f : Forest) (pid : Pid) : Bool := (f.get? pid).isSome

/-- The pids in ascending order. -/
def pids (f : Forest) : List Pid := f.nodes.map (·.pid)

/-- Changes the node of a pid, if there is one. -/
def modify (f : Forest) (pid : Pid) (change : ProcessNode → ProcessNode) : Forest :=
  ⟨f.nodes.map fun node => if node.pid == pid then change node else node⟩

/-- Adds a node to nodes in ascending order. -/
def insertNode (node : ProcessNode) : List ProcessNode → List ProcessNode
  | [] => [node]
  | n :: rest => if node.pid.cmp n.pid == .lt then node :: n :: rest else n :: insertNode node rest

/-- Makes sure that a pid has a node. -/
def ensure (f : Forest) (pid : Pid) : Forest :=
  if f.contains pid then f else ⟨insertNode (.placeholder pid) f.nodes⟩

/-! ## Building -/

/-- The parent that a process was listed with, if it was listed. -/
def parent? (f : Forest) (pid : Pid) : Option Pid :=
  (f.get? pid).bind fun node => if node.synthetic then none else some node.ppid

/-- Takes over what is known about a process. -/
def place (f : Forest) (p : ProcessRecord) : Forest := (f.ensure p.pid).modify p.pid (·.fillFrom p)

/-- Takes a process away from its earlier parent, if it gets another one. -/
def leave (f : Forest) (p : ProcessRecord) (earlier : Option Pid) : Forest :=
  match earlier with
  | some parent => if parent == p.ppid then f else f.modify parent (·.removeChild p.pid)
  | none => f

/-- Puts a process under its parent. No process is its own child. -/
def join (f : Forest) (p : ProcessRecord) : Forest :=
  if p.ppid == p.pid then f else (f.ensure p.ppid).modify p.ppid (·.addChild p.pid)

/-- Adds a process. One that was there before takes over the new data, and moves to its new
parent. -/
def add (f : Forest) (p : ProcessRecord) : Forest :=
  ((f.place p).leave p (f.parent? p.pid)).join p

/-- The forest of a list of processes. -/
def build (processes : List ProcessRecord) : Forest := processes.foldl add {}

/-- Gives every listening socket to the process that owns it; the others are passed over. -/
def attachPorts (f : Forest) (records : List PortRecord) : Forest :=
  records.foldl (fun f r => f.modify r.pid (·.attachPort r)) f

/-! ## Walks -/

/-- The children of a process other than itself. -/
def childrenOf (f : Forest) (pid : Pid) : List ProcessNode :=
  match f.get? pid with
  | some node => (node.children.filter (· != pid)).filterMap f.get?
  | none => []

/-- The nodes that a walk meets, children before siblings. Pids that are not included or that were
met before are passed over. Every round takes a pid from the stack; the first argument bounds the
number of rounds. -/
def walk (f : Forest) (include_ : Pid → Bool) : Nat → List Pid → List Pid → List ProcessNode
  | 0, _, _ => []
  | _, _, [] => []
  | bound + 1, seen, pid :: stack =>
    if !include_ pid || seen.contains pid then walk f include_ bound seen stack
    else match f.get? pid with
      | none => walk f include_ bound (pid :: seen) stack
      | some node => node :: walk f include_ bound (pid :: seen) (node.children ++ stack)

/-- How many rounds a walk can take: every node puts its children on the stack once. -/
def walkBound (f : Forest) : Nat := f.nodes.foldl (fun n node => n + node.children.length) 1

/-- The subtree under a process, parents before children. A pid that is not included hides all
under it. -/
def subtree (f : Forest) (root : Pid) (include_ : Pid → Bool) : List ProcessNode :=
  f.walk include_ f.walkBound [] [root]

/-- The ancestors from a pid on that are above the first process, until one comes again. -/
def ancestorsFrom (f : Forest) : Nat → List Pid → Option Pid → List Pid
  | 0, _, _ => []
  | _, _, none => []
  | bound + 1, seen, some parent =>
    if !parent.isAboveInit || seen.contains parent then []
    else parent :: ancestorsFrom f bound (parent :: seen) ((f.get? parent).map (·.ppid))

/-- The ancestors of a process that are above the first process, nearest first. -/
def ancestors (f : Forest) (pid : Pid) : List Pid :=
  ancestorsFrom f (f.nodes.length + 1) [pid] ((f.get? pid).map (·.ppid))

/-! ## Documents -/

/-- The document of a node, given those of its children. -/
def nodeDocument (node : ProcessNode) (children : List Document) : Document :=
  let optional (name : String) (value : Option String) (fields : Fields) : Fields :=
    match value with
    | some s => fields.insert name (.str s)
    | none => fields
  let fields := Fields.insert node.extra "pid" (.str node.pid.text)
  let fields := fields.insert "ppid" (.str node.ppid.text)
  let fields := fields.insert "cmdline" (.str node.cmdline)
  let fields := optional "user" node.user (optional "cwd" node.cwd fields)
  let fields := fields.insert "children" (.list children)
  .map (if node.ports.isEmpty then fields
    else fields.insert "listening_ports" (.list (node.ports.map fun (p : Nat) => .int p)))

/-- The document of the tree under a pid, and the pids met by then. Children that are not included
or that were met before are left out. The first argument bounds the depth. -/
def renderFrom (f : Forest) (include_ : Pid → Bool) : Nat → List Pid → Pid → Document × List Pid
  | 0, seen, _ => (.null, seen)
  | bound + 1, seen, pid =>
    match f.get? pid with
    | none => (.null, seen)
    | some node =>
      let (children, seen) := node.children.foldl (fun (children, seen) child =>
        if seen.contains child || !include_ child then (children, seen)
        else
          let (d, seen) := renderFrom f include_ bound seen child
          (children ++ [d], seen)) (([] : List Document), pid :: seen)
      (nodeDocument node children, seen)

/-- The document of the tree under a pid. -/
def render (f : Forest) (root : Pid) (include_ : Pid → Bool) : Document :=
  (f.renderFrom include_ (f.nodes.length + 1) [] root).1

end Forest

end SoftwareCensus
