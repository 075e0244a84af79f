import SoftwareCensus.Proofs.Host.ForestRecords

/-!
# Sockets in a Forest

Attaching sockets is described node by node: a node gets the sockets that carry its pid, in their
order, and nothing else of it changes. So a node of a built forest has exactly the sockets of its
process, and its ports are the numbers of these in ascending order.

## Main results

* `Forest.nodes_attachPorts`, `Forest.get?_attachPorts` : what becomes of the nodes when sockets are
  attached
* `Forest.served_of_get?` : the sockets and ports of a node in a built forest
* `Forest.build_attachPorts_serves` : sockets of a built forest, and sockets that are attached again
-/

namespace SoftwareCensus

/-! ## Ports in ascending order -/

namespace ProcessNode

variable {port q : Nat} {ports : List Nat}

/-- Inserting a port adds that port and no other. -/
theorem mem_insertPort : q ∈ insertPort port ports ↔ q = port ∨ q ∈ ports := by
  induction ports with
  | nil => simp [insertPort]
  | cons p rest ih =>
    rw [insertPort]
    split
    · simp
    -- It goes in front, it is there, or its place is further down.
    · split
      case isTrue hsame =>
        obtain rfl : port = p := by simpa using hsame
        simp
      case isFalse =>
        simp only [List.mem_cons, ih]
        exact or_left_comm

/-- Inserting keeps the ports in ascending order. -/
theorem ascending_insertPort (h : ports.Pairwise (· < ·)) (port : Nat) :
    (insertPort port ports).Pairwise (· < ·) := by
  induction ports with
  | nil => exact List.pairwise_singleton _ port
  | cons p rest ih =>
    obtain ⟨hp, hrest⟩ := List.pairwise_cons.mp h
    rw [insertPort]
    split
    -- The new port is less than the first, and so than all others.
    case isTrue hlt =>
      apply List.pairwise_cons.mpr
      refine ⟨?_, h⟩
      intro q hq
      rcases List.mem_cons.mp hq with rfl | hq
      · exact hlt
      · exact Nat.lt_trans hlt (hp q hq)
    case isFalse hnot =>
      split
      case isTrue => exact h
      -- It goes behind the first port, which is less.
      case isFalse hdiff =>
        have hne : port ≠ p := by simpa using hdiff
        apply List.pairwise_cons.mpr
        refine ⟨?_, ih hrest⟩
        intro q hq
        rcases mem_insertPort.mp hq with rfl | hq
        · omega
        · exact hp q hq

/-- Inserting several ports adds these and no others. -/
theorem mem_foldl_insertPort {more : List Nat} :
    q ∈ more.foldl (fun ports port => insertPort port ports) ports ↔ q ∈ ports ∨ q ∈ more := by
  induction more generalizing ports with
  | nil => simp
  | cons p rest ih => rw [List.foldl_cons, ih, mem_insertPort, List.mem_cons, or_comm (a := q = p),
      or_assoc]

/-- Inserting several ports keeps them in ascending order. -/
theorem ascending_foldl_insertPort (h : ports.Pairwise (· < ·)) (more : List Nat) :
    (more.foldl (fun ports port => insertPort port ports) ports).Pairwise (· < ·) := by
  induction more generalizing ports with
  | nil => exact h
  | cons p rest ih => exact ih (ascending_insertPort h p)

/-- A port that is there is not added. -/
theorem insertPort_of_mem (h : ports.Pairwise (· < ·)) (hport : port ∈ ports) :
    insertPort port ports = ports := by
  induction ports with
  | nil => cases hport
  | cons p rest ih =>
    obtain ⟨hp, hrest⟩ := List.pairwise_cons.mp h
    rw [insertPort]
    rcases List.mem_cons.mp hport with rfl | hlater
    · simp
    · -- The ports before it are smaller, so the search goes on behind them.
      have hlt := hp port hlater
      rw [if_neg (Nat.lt_asymm hlt), if_neg (by simpa using Nat.ne_of_gt hlt), ih hrest hlater]

/-- Ports that are there are not added. -/
theorem foldl_insertPort_of_subset (h : ports.Pairwise (· < ·)) {more : List Nat}
    (hmore : ∀ port ∈ more, port ∈ ports) :
    more.foldl (fun ports port => insertPort port ports) ports = ports := by
  induction more with
  | nil => rfl
  | cons p rest ih =>
    obtain ⟨hp, hrest⟩ := List.forall_mem_cons.mp hmore
    rw [List.foldl_cons, insertPort_of_mem h hp, ih hrest]

/-- Sockets go behind those that a node has, their ports among its ports, and the rest stays. -/
theorem foldl_attachPort (records : List PortRecord) (node : ProcessNode) :
    records.foldl attachPort node =
      { node with
        ports := (records.map (·.port)).foldl (fun ports port => insertPort port ports) node.ports
        portRecords := node.portRecords ++ records } := by
  induction records generalizing node with
  | nil => simp
  | cons r rest ih => simp [ih, attachPort]

end ProcessNode

/-- What sockets make of a node that has none. It has those that carry its pid, in their order; its
ports are theirs, each once and in ascending order; the rest of it stays. -/
structure ProcessNode.Serves (records : List PortRecord) (before after : ProcessNode) : Prop where
  records_eq : after.portRecords = records.filter (·.pid == after.pid)
  ascending : after.ports.Pairwise (· < ·)
  mem_ports_iff : ∀ port, port ∈ after.ports ↔ ∃ r ∈ after.portRecords, r.port = port
  rest_eq : after = { before with ports := after.ports, portRecords := after.portRecords }

/-- A node without sockets serves those that are attached to it. -/
theorem ProcessNode.serves_foldl_attachPort (records : List PortRecord) {node : ProcessNode}
    (hports : node.ports = []) (hrecords : node.portRecords = []) :
    Serves records node ((records.filter (·.pid == node.pid)).foldl attachPort node) := by
  rw [foldl_attachPort, hports, hrecords, List.nil_append]
  refine ⟨rfl, ascending_foldl_insertPort .nil _, fun port => ?_, rfl⟩
  rw [mem_foldl_insertPort]
  simp

/-- The same sockets once more bring no new port. -/
theorem ProcessNode.Serves.ports_again {records : List PortRecord} {before after : ProcessNode}
    (h : Serves records before after) :
    ((records.filter (·.pid == after.pid)).foldl attachPort after).ports = after.ports := by
  rw [foldl_attachPort]
  -- Every port of these sockets is a port of the node by now.
  refine foldl_insertPort_of_subset h.ascending fun port hport => ?_
  obtain ⟨r, hr, rfl⟩ := List.mem_map.mp hport
  exact (h.mem_ports_iff r.port).mpr ⟨r, h.records_eq ▸ hr, rfl⟩

/-! ## Sockets of nodes -/

namespace Forest

/-- Every node gets the sockets that carry its pid, and the nodes stay in their order. -/
theorem nodes_attachPorts (records : List PortRecord) (f : Forest) :
    (f.attachPorts records).nodes = f.nodes.map fun node =>
      (records.filter (·.pid == node.pid)).foldl ProcessNode.attachPort node := by
  induction records generalizing f with
  | nil => simp [attachPorts]
  | cons r rest ih =>
    have hstep : f.attachPorts (r :: rest) =
        (f.modify r.pid (·.attachPort r)).attachPorts rest := rfl
    rw [hstep, ih, modify, List.map_map]
    refine List.map_congr_left fun node _ => ?_
    -- The first socket goes to the nodes that carry its pid, and is in no other list.
    by_cases hpid : node.pid = r.pid
    · simp [hpid, ProcessNode.attachPort]
    · simp [hpid, Ne.symm hpid]

/-- The node of a pid gets the sockets of that pid. -/
theorem get?_attachPorts (records : List PortRecord) (f : Forest) (pid : Pid) :
    (f.attachPorts records).get? pid =
      (f.get? pid).map ((records.filter (·.pid == pid)).foldl ProcessNode.attachPort) := by
  -- Sockets change no pid, so the same node is found.
  have hkeep : (fun node : ProcessNode => node.pid == pid) ∘
      (fun node => (records.filter (·.pid == node.pid)).foldl ProcessNode.attachPort node) =
        fun node => node.pid == pid := by
    funext node
    simp [ProcessNode.foldl_attachPort]
  rw [get?, nodes_attachPorts, List.find?_map, hkeep]
  refine Option.map_congr fun node hnode => ?_
  rw [pid_of_get? hnode]

/-- A node of a built forest has the sockets of its process, and their ports in ascending order. -/
theorem served_of_get? {processes : List ProcessRecord} {records : List PortRecord} {pid : Pid}
    {node : ProcessNode} (hnode : ((build processes).attachPorts records).get? pid = some node) :
    node.portRecords = records.filter (·.pid == pid) ∧ node.ports.Pairwise (· < ·) ∧
      ∀ port, port ∈ node.ports ↔ ∃ r ∈ records, r.pid = pid ∧ r.port = port := by
  obtain rfl := pid_of_get? hnode
  rw [get?_attachPorts, Option.map_eq_some_iff] at hnode
  obtain ⟨before, hbefore, hafter⟩ := hnode
  -- A node that was built has no sockets before they are attached.
  obtain ⟨hports, hrecords⟩ := lasting_no_sockets.build processes node.pid before hbefore
  have hserves := before.serves_foldl_attachPort records hports hrecords
  rw [pid_of_get? hbefore, hafter] at hserves
  refine ⟨hserves.records_eq, hserves.ascending, fun port => ?_⟩
  rw [hserves.mem_ports_iff, hserves.records_eq]
  simp [and_assoc]

/-! ## All nodes -/

/-- Sockets of pids without a node leave no trace. -/
theorem attachPorts_filter_contains (records : List PortRecord) (f : Forest) :
    f.attachPorts (records.filter fun r => f.contains r.pid) = f.attachPorts records := by
  have hnodes : (f.attachPorts (records.filter fun r => f.contains r.pid)).nodes =
      (f.attachPorts records).nodes := by
    rw [nodes_attachPorts, nodes_attachPorts]
    refine List.map_congr_left fun node hnode => ?_
    -- A socket of this node is one of a pid with a node.
    rw [List.filter_filter]
    congr 1
    refine List.filter_congr fun r _ => ?_
    have hcontains : f.contains node.pid = true := mem_pids_iff.mp (List.mem_map_of_mem hnode)
    by_cases hpid : r.pid = node.pid <;> simp [hpid, hcontains]
  cases hleft : f.attachPorts (records.filter fun r => f.contains r.pid)
  cases hright : f.attachPorts records
  simpa [hleft, hright] using hnodes

/-- **What sockets make of a built forest.** Every node has exactly the sockets that carry its pid, in
their order, and its ports are exactly theirs, in strictly ascending order; nothing else changes, and
sockets of pids without a node leave no trace. The same sockets attached again change no ports. -/
theorem build_attachPorts_serves (processes : List ProcessRecord) (records : List PortRecord) :
    List.Forall₂ (ProcessNode.Serves records) (build processes).nodes
        ((build processes).attachPorts records).nodes ∧
      (build processes).attachPorts (records.filter fun r => (build processes).contains r.pid) =
        (build processes).attachPorts records ∧
      (((build processes).attachPorts records).attachPorts records).nodes.map (·.ports) =
        ((build processes).attachPorts records).nodes.map (·.ports) := by
  have hserves : ∀ node ∈ (build processes).nodes, ProcessNode.Serves records node
      ((records.filter (·.pid == node.pid)).foldl ProcessNode.attachPort node) := by
    intro node hnode
    have hget := (build_linked processes).get?_of_mem hnode
    obtain ⟨hports, hrecords⟩ := lasting_no_sockets.build processes node.pid node hget
    exact node.serves_foldl_attachPort records hports hrecords
  refine ⟨?_, attachPorts_filter_contains records _, ?_⟩
  · rw [nodes_attachPorts, List.forall₂_map_right_iff, List.forall₂_same]
    exact hserves
  -- The second time every node has the ports of its sockets already.
  · rw [nodes_attachPorts records ((build processes).attachPorts records), nodes_attachPorts,
      List.map_map, List.map_map, List.map_map]
    exact List.map_congr_left fun node hnode => (hserves node hnode).ports_again

/-- A node with sockets of two ports, one of them twice, beside a socket of an unknown process. -/
example :
    (((build [{ pid := ⟨"5"⟩, ppid := ⟨"1"⟩ }]).attachPorts
        [{ address := "a", port := 80, protocol := "tcp", pid := ⟨"5"⟩ },
          { address := "a", port := 22, protocol := "tcp", pid := ⟨"5"⟩ },
          { address := "a", port := 7, protocol := "tcp", pid := ⟨"6"⟩ },
          { address := "b", port := 80, protocol := "tcp", pid := ⟨"5"⟩ }]).nodes.map
      fun node => (node.ports, node.portRecords.map (·.address))) =
      [([], []), ([22, 80], ["a", "a", "b"])] := by
  decide

end Forest

end SoftwareCensus
