import SoftwareCensus.Catalog.Signature
import SoftwareCensus.Host.Forest

/-!
# Matching

Which processes belong to which software. Signatures run one after another against a pool of
processes that shrinks as they claim subtrees. Within one pass ancestors come first: before a
process is tested its ancestors that are still available are, from the top down, so that one that
matches takes the whole subtree.
-/

namespace SoftwareCensus

/-! ## Pools -/

/-- The processes that no signature has claimed, in ascending order. -/
structure Pool where
  pids : List Pid
  deriving DecidableEq, Inhabited

namespace Pool

/-- The pool of all processes of a forest. -/
def ofForest (f : Forest) : Pool := ⟨f.pids⟩

/-- Whether a process is in the pool. -/
def contains (pool : Pool) (pid : Pid) : Bool := pool.pids.contains pid

/-- Takes processes out of the pool. -/
def claim (pool : Pool) (pids : List Pid) : Pool :=
  ⟨pool.pids.filter fun p => !pids.contains p⟩

/-- Puts processes back into the pool. -/
def restore (pool : Pool) (pids : List Pid) : Pool :=
  ⟨pids.foldl (fun pids p => Pid.insert p pids) pool.pids⟩

end Pool

/-! ## Seeds -/

/-- A detected instance. -/
structure Seed where
  /-- The name of the signature. -/
  softwareType : String
  /-- The process that the instance is reported at. -/
  representative : Pid
  /-- The process whose command line matches. -/
  matched : Pid
  /-- The representative and the processes under it, parents before children. -/
  claimed : List Pid
  deriving DecidableEq, Inhabited, Repr

/-- Whether a process belongs to an instance. -/
def Seed.owns (seed : Seed) (pid : Pid) : Bool := seed.claimed.contains pid

/-- The entries of a seed. -/
def Seed.entries (seed : Seed) : List (String × Document) :=
  [("type", .str seed.softwareType), ("representative", .str seed.representative.text),
    ("matched", .str seed.matched.text),
    ("claimed", .ofStrings (seed.claimed.map (·.text)))]

/-! ## Detection -/

/-- What one signature looks for. A process without a command line is no software. -/
structure Detector where
  name : String
  processType : ProcessType
  isSoftware : String → Bool
  isSoftware_empty : isSoftware "" = false

namespace Detector

/-- The detector of a signature. -/
def ofSignature (s : Signature) : Except Signature.Error Detector := do
  let m ← s.cmdMatcher
  return ⟨s.name, s.processType, fun cmdline => cmdline != "" && m.isMatch cmdline, by simp⟩

/-- What happened in a pass: the ancestors that were tested, and the processes that were claimed. -/
structure Pass where
  tested : List Pid := []
  used : List Pid := []

/-- Whether a process is in the pool and not claimed in this pass. -/
def isAvailable (pool : Pool) (pass : Pass) (pid : Pid) : Bool :=
  pool.contains pid && !pass.used.contains pid

/-- The process at which a match is reported: the one that matches, or its parent if the signature
wants that and the parent is available. -/
def representativeOf (d : Detector) (pool : Pool) (pass : Pass) (node : ProcessNode) : Pid :=
  match d.processType with
  | .parent => node.pid
  | .child =>
    if !node.ppid.isRoot && node.ppid != node.pid && isAvailable pool pass node.ppid then node.ppid
    else node.pid

/-- Claims the subtree of a process, if the process matches. -/
def tryClaim (d : Detector) (f : Forest) (pool : Pool) (pass : Pass) (pid : Pid) :
    Option (Seed × Pass) :=
  match f.get? pid with
  | none => none
  | some node =>
    if !d.isSoftware node.cmdline then none
    else
      let representative := d.representativeOf pool pass node
      let claimed := (f.subtree representative (isAvailable pool pass)).map (·.pid)
      if claimed.isEmpty then none
      else some (⟨d.name, representative, pid, claimed⟩, { pass with used := claimed ++ pass.used })

/-- The ancestors of a process that are available and not tested yet, the topmost first, followed
by what is held; those ancestors count as tested from now on. The first argument bounds their
number. -/
def chainFrom (f : Forest) (pool : Pool) :
    Nat → Pass → List Pid → List Pid → Pid → List Pid × Pass
  | 0, pass, chain, _, _ => (chain, pass)
  | bound + 1, pass, chain, visited, current =>
    match f.get? current with
    | none => (chain, pass)
    | some node =>
      let ppid := node.ppid
      if ppid.isRoot || visited.contains ppid || pass.tested.contains ppid ||
          !isAvailable pool pass ppid then (chain, pass)
      else
        chainFrom f pool bound { pass with tested := ppid :: pass.tested } (ppid :: chain)
          (ppid :: visited) ppid

/-- Tests the available ancestors of a process from the top down, then the process itself. -/
def checkHierarchy (d : Detector) (f : Forest) (pool : Pool) (pass : Pass) (start : Pid) :
    Option Seed × Pass :=
  let (chain, pass) := chainFrom f pool (f.nodes.length + 1) pass [start] [start] start
  match chain.findSome? (d.tryClaim f pool pass) with
  | some (seed, pass) => (some seed, pass)
  | none => (none, pass)

/-- Looks at one process of the pool. -/
def visit (d : Detector) (f : Forest) (pool : Pool) (seeds : List Seed) (pass : Pass) (pid : Pid) :
    List Seed × Pass :=
  if pass.used.contains pid || pass.tested.contains pid then (seeds, pass)
  else match f.get? pid with
    | none => (seeds, pass)
    | some node =>
      if node.cmdline == "" then (seeds, pass)
      else match d.checkHierarchy f pool pass pid with
        | (some seed, pass) => (seeds ++ [seed], pass)
        | (none, pass) => (seeds, pass)

/-- One pass over the pool, which loses what is claimed. -/
def detect (d : Detector) (f : Forest) (pool : Pool) : List Seed × Pool :=
  let (seeds, pass) := pool.pids.foldl (fun (seeds, pass) pid => d.visit f pool seeds pass pid)
    (([] : List Seed), ({} : Pass))
  (seeds, pool.claim pass.used)

end Detector

end SoftwareCensus
