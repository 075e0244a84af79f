import SoftwareCensus.Host.Inventory
import SoftwareCensus.Regex.Program
import SoftwareCensus.Text.Pieces

/-!
# Containers

What an inspected container says about its process, its addresses and its image, and the sockets
that a proxy serves on behalf of a container.
-/

namespace SoftwareCensus

namespace Container

/-- The value that a path of names leads to. -/
def at_ (container : Document) (path : List String) : Option Document :=
  path.foldl (fun d name => d.bind (·.field? name)) (some container)

/-- The process of a container that runs. -/
def pid? (container : Document) : Option Pid :=
  ((at_ container ["State", "Pid"]).bind fun d => Pid.decode? (.ofDocument d)).filter (!·.isRoot)

/-- Whether a document has an address in it. -/
def hasAddress (ip : String) (d : Document) : Bool :=
  (d.field? "IPAddress").bind Document.asStr? == some ip

/-- Whether a container can be reached at an address. -/
def isAt (container : Document) (ip : String) : Bool :=
  match container.field? "NetworkSettings" with
  | none => false
  | some settings =>
    hasAddress ip settings ||
      match (settings.field? "Networks").bind Document.asMap? with
      | some networks => networks.any fun (_, network) => hasAddress ip network
      | none => false

/-- The process of the first container at an address, if that container runs. -/
def pidAt? (containers : List Document) (ip : String) : Option Pid :=
  (containers.find? (isAt · ip)).bind pid?

end Container

/-! ## Proxies -/

/-- What the command line of a proxy says. -/
structure Proxy where
  ip : String
  protocol : Option String

namespace Proxy

/-- The name of a socket that was inferred. -/
def inferredName : String := "inferred"

/-- The first group of the first match of a pattern. -/
private def firstGroup? (pattern text : String) : Option String :=
  match Regex.Matcher.compile {} pattern with
  | .ok m => (m.find? text).bind (·.group? 1)
  | .error _ => none

/-- Reads the command line of a proxy. -/
def ofCmdline? (cmdline : String) : Option Proxy :=
  (firstGroup? "-container-ip\\s(\\d*\\.\\d*\\.\\d*\\.\\d*)" cmdline).map fun ip =>
    ⟨ip, firstGroup? "-proto\\s([a-z]\x7b3\x7d)" cmdline⟩

/-- Adds a copy of the first socket of a proxy that belongs to a container. -/
def appendCopy? (proxy container : Pid) (records : List PortRecord) : Option (List PortRecord) :=
  (records.find? (·.pid == proxy)).map fun r =>
    records ++ [{ r with
      pid := container, extra := Fields.insert r.extra "name" (.str inferredName) }]

/-- Whether a process is a proxy. -/
def isProxy (p : ProcessRecord) : Bool := Text.hasPart "docker-proxy" p.cmdline

/-- Adds the socket of the container behind a process, if that process is a proxy for one. Without
a protocol the first list is tried before the second. -/
def inferOne (containers : List Document) (p : ProcessRecord)
    (sockets : List PortRecord × List PortRecord) : List PortRecord × List PortRecord :=
  let (tcp, udp) := sockets
  if !isProxy p then sockets
  else match ofCmdline? p.cmdline with
    | none => sockets
    | some proxy =>
      match Container.pidAt? containers proxy.ip with
      | none => sockets
      | some container =>
        match proxy.protocol with
        | some "udp" => (tcp, (appendCopy? p.pid container udp).getD udp)
        | some _ => ((appendCopy? p.pid container tcp).getD tcp, udp)
        | none => match appendCopy? p.pid container tcp with
          | some tcp => (tcp, udp)
          | none => (tcp, (appendCopy? p.pid container udp).getD udp)

/-- Adds the sockets of the containers behind all proxies. -/
def infer (processes : List ProcessRecord) (containers : List Document)
    (tcp udp : List PortRecord) :
    List PortRecord × List PortRecord :=
  if containers.isEmpty then (tcp, udp)
  else processes.foldl (fun sockets p => inferOne containers p sockets) (tcp, udp)

end Proxy

end SoftwareCensus
