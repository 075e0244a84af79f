import SoftwareCensus.Proofs.Host.Containers

/-!
# Sockets behind Proxies

The processes of an inventory are gone through once, and each of them adds at most one socket to one of
the two lists, behind what is there. The lists are searched as they stand by then, so a socket that was
added for one proxy can be the source for a later one, and whether a list has a socket of a proxy
depends on what was added before. Therefore what is said of a process here is said of the lists with
all that the processes before it added.

## Main results

* `inferOne_eq` : what one process does to the lists
* `addition?_eq_some_iff` : which socket is added for a process
* `getElem?_additionsFor` : what is added for each process
* `infer_appends_copies` : what is there in the end
-/

namespace SoftwareCensus.Proxy

/-! ## Additions -/

/-- The two lists of sockets. -/
inductive Side where
  | tcp
  | udp
  deriving DecidableEq

/-- The list of a side. -/
def Side.of {α : Type} (side : Side) (sockets : α × α) : α :=
  match side with
  | tcp => sockets.1
  | udp => sockets.2

/-- A socket that is added to a list. -/
structure Addition where
  side : Side
  record : PortRecord

variable {containers : List Document} {p : ProcessRecord} {processes : List ProcessRecord}
  {sockets : List PortRecord × List PortRecord} {a : Addition}

/-- The sockets that are added to one of the lists. -/
def added (side : Side) (additions : List (Option Addition)) : List PortRecord :=
  additions.filterMap fun a => (a.filter (·.side = side)).map (·.record)

/-- The lists with what was added behind them. -/
def grown (sockets : List PortRecord × List PortRecord) (additions : List (Option Addition)) :
    List PortRecord × List PortRecord :=
  (sockets.1 ++ added .tcp additions, sockets.2 ++ added .udp additions)

@[simp]
theorem grown_nil (sockets : List PortRecord × List PortRecord) : grown sockets [] = sockets := by
  simp [grown, added]

theorem grown_append (sockets : List PortRecord × List PortRecord)
    (additions more : List (Option Addition)) :
    grown sockets (additions ++ more) = grown (grown sockets additions) more := by
  simp [grown, added]

@[simp]
theorem grown_none (sockets : List PortRecord × List PortRecord) : grown sockets [none] = sockets := by
  simp [grown, added]

/-! ## One process -/

/-- The copy of a socket that belongs to a container. -/
def copyFor (container : Pid) (source : PortRecord) : PortRecord :=
  { source with pid := container, extra := Fields.insert source.extra "name" (.str inferredName) }

/-- Whether a socket that is added for a process is a copy of another one: the process is a proxy, its
command line names the address of a container that runs, and the other one is the first socket of the
proxy in the list. -/
structure Copies (containers : List Document) (p : ProcessRecord)
    (sockets : List PortRecord × List PortRecord) (a : Addition) (proxy : Proxy) (container : Pid)
    (source : PortRecord) : Prop where
  named : "docker-proxy".toList <:+: p.cmdline.toList
  reads : ofCmdline? p.cmdline = some proxy
  found : Container.pidAt? containers proxy.ip = some container
  live : ∃ c ∈ containers, Container.HasAddress proxy.ip c ∧ Container.Runs c container
  first : IsFirst (·.pid = p.pid) (a.side.of sockets) source
  record : a.record = copyFor container source
  /-- Without a protocol the second list is for proxies of which the first has no socket. -/
  side : a.side = .udp ↔ proxy.protocol = some "udp" ∨
    proxy.protocol = none ∧ ∀ r ∈ sockets.1, r.pid ≠ p.pid

/-- Whether a socket that is added for a process has a reason to be. -/
def Justified (containers : List Document) (p : ProcessRecord)
    (sockets : List PortRecord × List PortRecord) (a : Addition) : Prop :=
  ∃ proxy container source, Copies containers p sockets a proxy container source

/-- The list in which the socket of a proxy is looked up. -/
def sideOf (protocol : Option String) (proxy : Pid) (tcp : List PortRecord) : Side :=
  match protocol with
  | some "udp" => .udp
  | some _ => .tcp
  | none => if tcp.any (·.pid == proxy) then .tcp else .udp

theorem sideOf_eq_udp_iff {protocol : Option String} {proxy : Pid} {tcp : List PortRecord} :
    sideOf protocol proxy tcp = .udp ↔
      protocol = some "udp" ∨ protocol = none ∧ ∀ r ∈ tcp, r.pid ≠ proxy := by
  unfold sideOf
  split
  · simp
  · next name hname => simpa using hname
  · simp

/-- The copy of the first socket of a proxy in a list. -/
def copyIn? (side : Side) (proxy container : Pid) (sockets : List PortRecord × List PortRecord) :
    Option Addition :=
  ((side.of sockets).find? (·.pid == proxy)).map fun source => ⟨side, copyFor container source⟩

theorem grown_copyIn?_tcp (proxy container : Pid) (tcp udp : List PortRecord) :
    grown (tcp, udp) [copyIn? .tcp proxy container (tcp, udp)] =
      ((appendCopy? proxy container tcp).getD tcp, udp) := by
  rw [copyIn?, Side.of, appendCopy?]
  cases tcp.find? (·.pid == proxy) <;> simp [grown, added, copyFor]

theorem grown_copyIn?_udp (proxy container : Pid) (tcp udp : List PortRecord) :
    grown (tcp, udp) [copyIn? .udp proxy container (tcp, udp)] =
      (tcp, (appendCopy? proxy container udp).getD udp) := by
  rw [copyIn?, Side.of, appendCopy?]
  cases udp.find? (·.pid == proxy) <;> simp [grown, added, copyFor]

/-- Without a protocol it depends on the first list which one is searched. -/
theorem sideOf_none (proxy container : Pid) (tcp : List PortRecord) :
    sideOf none proxy tcp = if (appendCopy? proxy container tcp).isSome then .tcp else .udp := by
  rw [appendCopy?, Option.isSome_map, List.isSome_find?]
  rfl

/-- The socket that is added for a process. -/
def addition? (containers : List Document) (p : ProcessRecord)
    (sockets : List PortRecord × List PortRecord) : Option Addition :=
  if isProxy p then
    (ofCmdline? p.cmdline).bind fun proxy =>
      (Container.pidAt? containers proxy.ip).bind fun container =>
        copyIn? (sideOf proxy.protocol p.pid sockets.1) p.pid container sockets
  else none

/-- **What one process does to the lists.** -/
theorem inferOne_eq (containers : List Document) (p : ProcessRecord)
    (sockets : List PortRecord × List PortRecord) :
    inferOne containers p sockets = grown sockets [addition? containers p sockets] := by
  obtain ⟨tcp, udp⟩ := sockets
  rw [inferOne, addition?]
  cases isProxy p with
  | false => exact (grown_none _).symm
  | true =>
    cases ofCmdline? p.cmdline with
    | none => exact (grown_none _).symm
    | some proxy =>
      cases hcontainer : Container.pidAt? containers proxy.ip with
      | none => simp [hcontainer]
      | some container =>
        simp only [hcontainer, Option.bind_some, Bool.not_true, Bool.false_eq_true, if_false, if_true]
        -- All that is left to say is on which side the copy is: as the protocol has it.
        split
        case h_1 hprotocol =>
          rw [hprotocol]
          exact (grown_copyIn?_udp ..).symm
        case h_2 name hname hprotocol =>
          have hside : sideOf (some name) p.pid tcp = .tcp := by simp [sideOf]
          rw [hprotocol, hside]
          exact (grown_copyIn?_tcp ..).symm
        case h_3 hprotocol =>
          rw [hprotocol, sideOf_none p.pid container]
          cases happend : appendCopy? p.pid container tcp with
          | none =>
            exact (grown_copyIn?_udp ..).symm
          | some longer =>
            refine Eq.trans ?_ (grown_copyIn?_tcp ..).symm
            rw [happend]
            rfl

/-- **Which socket is added for a process.** -/
theorem addition?_eq_some_iff :
    addition? containers p sockets = some a ↔ Justified containers p sockets a := by
  have hproxy : isProxy p = true ↔ "docker-proxy".toList <:+: p.cmdline.toList := Text.hasPart_iff
  constructor
  · intro h
    rw [addition?] at h
    split at h
    case isFalse => cases h
    case isTrue hnamed =>
      obtain ⟨proxy, hreads, h⟩ := Option.bind_eq_some_iff.mp h
      obtain ⟨container, hfound, h⟩ := Option.bind_eq_some_iff.mp h
      obtain ⟨source, hsource, rfl⟩ := Option.map_eq_some_iff.mp h
      obtain ⟨c, hfirst, hruns⟩ := Container.pidAt?_eq_some_iff.mp hfound
      exact ⟨proxy, container, source, {
        named := hproxy.mp hnamed
        reads := hreads
        found := hfound
        live := ⟨c, hfirst.mem, hfirst.1, hruns⟩
        first := (find?_eq_some_iff_isFirst fun _ => beq_iff_eq).mp hsource
        record := rfl
        side := sideOf_eq_udp_iff }⟩
  · rintro ⟨proxy, container, source, h⟩
    have hside : sideOf proxy.protocol p.pid sockets.1 = a.side := by
      -- There are only two sides, so it is enough to know when it is the second one.
      have hudp := sideOf_eq_udp_iff.trans h.side.symm
      revert hudp
      cases sideOf proxy.protocol p.pid sockets.1 <;> cases a.side <;> simp
    have hsource : (a.side.of sockets).find? (·.pid == p.pid) = some source :=
      (find?_eq_some_iff_isFirst fun _ => beq_iff_eq).mpr h.first
    rw [addition?, if_pos (hproxy.mpr h.named), h.reads, Option.bind_some, h.found, Option.bind_some,
      hside, copyIn?, hsource, Option.map_some, ← h.record]

/-! ## All processes -/

/-- What is added for each process. -/
def additionsFor (containers : List Document) : List ProcessRecord →
    List PortRecord × List PortRecord → List (Option Addition)
  | [], _ => []
  | p :: rest, sockets =>
    let a := addition? containers p sockets
    a :: additionsFor containers rest (grown sockets [a])

theorem length_additionsFor : (additionsFor containers processes sockets).length = processes.length := by
  induction processes generalizing sockets with
  | nil => rfl
  | cons p rest ih => rw [additionsFor, List.length_cons, ih, List.length_cons]

/-- **What all processes do to the lists.** -/
theorem foldl_inferOne : processes.foldl (fun sockets p => inferOne containers p sockets) sockets =
    grown sockets (additionsFor containers processes sockets) := by
  -- The lists that the first process leaves are those that the others go on from.
  induction processes generalizing sockets with
  | nil => exact (grown_nil sockets).symm
  | cons p rest ih =>
    rw [List.foldl_cons, inferOne_eq, ih, ← grown_append]
    rfl

/-- **What is added for a process** is found in the lists with all that was added before. -/
theorem getElem?_additionsFor {i : Nat} (hp : processes[i]? = some p) :
    (additionsFor containers processes sockets)[i]? =
      some (addition? containers p
        (grown sockets ((additionsFor containers processes sockets).take i))) := by
  induction processes generalizing sockets i with
  | nil => cases hp
  | cons first rest ih =>
    cases i with
    | zero =>
      obtain rfl := Option.some.inj hp
      rw [List.take_zero, grown_nil]
      rfl
    | succ i =>
      -- The processes behind the first one find the lists with what was added for it.
      rw [additionsFor, List.getElem?_cons_succ, ih hp, List.take_succ_cons, ← grown_append]
      rfl

/-- Without containers a process does nothing to the lists. -/
theorem inferOne_nil (p : ProcessRecord) (sockets : List PortRecord × List PortRecord) :
    inferOne [] p sockets = sockets := by
  have hnone : addition? [] p sockets = none := by
    rw [Option.eq_none_iff_forall_ne_some]
    intro a ha
    obtain ⟨proxy, container, source, h⟩ := addition?_eq_some_iff.mp ha
    obtain ⟨c, hc, -⟩ := h.live
    cases hc
  rw [inferOne_eq, hnone, grown_none]

theorem infer_eq (processes : List ProcessRecord) (containers : List Document)
    (tcp udp : List PortRecord) : infer processes containers tcp udp =
      grown (tcp, udp) (additionsFor containers processes (tcp, udp)) := by
  rw [infer, ← foldl_inferOne]
  split
  case isTrue hempty =>
    -- The shortcut changes nothing: without containers no process does anything either.
    obtain rfl := List.isEmpty_iff.mp hempty
    exact (List.foldl_fixed' (fun p => inferOne_nil p (tcp, udp)) processes).symm
  case isFalse => rfl

/-- **Only copies that have a reason are added.** Each list is as it was, with sockets behind it, at most
one for each process. For a process a socket is added exactly if it is a copy of the first socket of the
process, in the list that it is added to as this stands by then; and then the process is a proxy, and the
copy belongs to a container that runs at the address that the proxy names. -/
theorem infer_appends_copies (processes : List ProcessRecord) (containers : List Document)
    (tcp udp : List PortRecord) : ∃ additions : List (Option Addition),
      additions.length = processes.length ∧
      infer processes containers tcp udp = grown (tcp, udp) additions ∧
      (∀ (i : Nat) p, processes[i]? = some p → ∀ a, additions[i]? = some (some a) ↔
        Justified containers p (grown (tcp, udp) (additions.take i)) a) ∧
      (containers = [] → infer processes containers tcp udp = (tcp, udp)) := by
  refine ⟨additionsFor containers processes (tcp, udp), length_additionsFor, infer_eq .., ?_, ?_⟩
  · intro i p hp a
    rw [getElem?_additionsFor hp, Option.some.injEq, addition?_eq_some_iff]
  · rintro rfl
    rfl

end SoftwareCensus.Proxy
