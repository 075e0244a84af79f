import SoftwareCensus.Proofs.Detection.Attribution
import SoftwareCensus.Proofs.Detection.Pass
import SoftwareCensus.Proofs.Host.ForestTrees

/-!
# Instances and their Claims

An instance is not made from the list of processes that its seed claims: the tree under the
representative is traversed again, once for the document and once for sockets, and now the claimed
processes are included and no longer the free ones of the pool. Both traversals come to exactly what
was claimed, in the order of the claim. So the document, the bindings and the ports of an instance
are those of its claim.

## Main results

* `firstsOf_firstOfEach` : items that come again are left out, and nothing else
* `Detector.Placed.claimed_again` : the tree under a representative is the claim
* `enrich_covers_claims` : what instances know is what was claimed
-/

namespace SoftwareCensus

/-! ## Items that come again -/

section FirstOfEach

variable {α : Type} [DecidableEq α]

/-- The items of a list, each once, in the order in which they come first. -/
structure FirstsOf (items firsts : List α) : Prop where
  nodup : firsts.Nodup
  mem_iff : ∀ x, x ∈ firsts ↔ x ∈ items
  in_order : firsts.Pairwise fun x y => items.idxOf x < items.idxOf y

/-- An item that is new comes behind the others, and one that is not stays where it is. -/
theorem FirstsOf.next {items firsts : List α} (h : FirstsOf items firsts) (x : α) :
    FirstsOf (items ++ [x]) (if firsts.contains x then firsts else firsts ++ [x]) := by
  -- What is there keeps its place when the list goes on.
  have hplaces : firsts.Pairwise fun y z =>
      (items ++ [x]).idxOf y < (items ++ [x]).idxOf z := by
    refine h.in_order.imp_of_mem ?_
    intro y z hy hz hlt
    rwa [List.idxOf_append_of_mem ((h.mem_iff y).mp hy),
      List.idxOf_append_of_mem ((h.mem_iff z).mp hz)]
  split
  case isTrue hknown =>
    have hx : x ∈ items := (h.mem_iff x).mp (by simpa using hknown)
    refine ⟨h.nodup, fun y => ?_, hplaces⟩
    rw [h.mem_iff, List.mem_append, List.mem_singleton]
    exact ⟨Or.inl, fun hy => hy.elim id fun hsame => hsame ▸ hx⟩
  case isFalse hnew =>
    have hfirsts : x ∉ firsts := by simpa using hnew
    have hitems : x ∉ items := fun hx => hfirsts ((h.mem_iff x).mpr hx)
    refine ⟨?_, fun y => ?_, ?_⟩
    · rw [← List.concat_eq_append]
      exact h.nodup.concat hfirsts
    · rw [List.mem_append, List.mem_append, h.mem_iff]
    · apply List.pairwise_append.mpr
      refine ⟨hplaces, List.pairwise_singleton _ x, ?_⟩
      intro y hy z hz
      obtain rfl := List.mem_singleton.mp hz
      have hbefore : y ∈ items := (h.mem_iff y).mp hy
      have hlt : items.idxOf y < items.length := List.idxOf_lt_length_of_mem hbefore
      rw [List.idxOf_append_of_mem hbefore, List.idxOf_append_of_notMem hitems]
      omega

/-- Items that come again are left out, and nothing else. -/
theorem firstsOf_firstOfEach (items : List α) : FirstsOf items (firstOfEach items) := by
  have hfold : ∀ (rest done firsts : List α), FirstsOf done firsts →
      FirstsOf (done ++ rest)
        (rest.foldl (fun acc x => if acc.contains x then acc else acc ++ [x]) firsts) := by
    intro rest
    induction rest with
    | nil =>
      intro done firsts h
      rwa [List.append_nil]
    | cons x rest ih =>
      intro done firsts h
      have hrest := ih (done ++ [x]) _ (h.next x)
      rwa [List.append_assoc] at hrest
  exact hfold items [] [] ⟨List.nodup_nil, fun _ => Iff.rfl, List.Pairwise.nil⟩

end FirstOfEach

/-! ## The claim again -/

section Claim

variable {d : Detector} {f : Forest} {pool : Pool} {earlier : List Seed} {seed : Seed}

theorem Detector.Placed.representative_mem (h : Placed d f pool earlier seed) :
    seed.representative ∈ seed.claimed :=
  List.mem_of_mem_head? h.head_eq

/-- A claimed process has a node. -/
theorem Detector.Placed.has_node (h : Placed d f pool earlier seed) {pid : Pid}
    (hpid : pid ∈ seed.claimed) : f.contains pid = true := by
  rw [h.claimed_eq] at hpid
  exact (Forest.include_of_mem_subtreePids hpid).2

/-- The tree under a representative, of the claimed processes only, is the claim. -/
theorem Detector.Placed.claimed_again (hf : f.Linked) (h : Placed d f pool earlier seed) :
    f.subtreePids seed.representative seed.claimed.contains = seed.claimed := by
  have hagain : f.subtreePids seed.representative
      (f.subtreePids seed.representative (isFree pool earlier)).contains =
        f.subtreePids seed.representative (isFree pool earlier) :=
    Forest.subtreePids_again hf (h.has_node h.representative_mem)
  rwa [← h.claimed_eq] at hagain

end Claim

/-! ## Sockets of a claim -/

/-- The bindings of the sockets of processes, one process after the other. -/
def servedBy (records : List PortRecord) (pids : List Pid) : List Binding :=
  pids.flatMap fun pid => (records.filter (·.pid == pid)).map Binding.ofRecord

theorem mem_servedBy {records : List PortRecord} {pids : List Pid} {b : Binding} :
    b ∈ servedBy records pids ↔ ∃ r ∈ records, r.pid ∈ pids ∧ Binding.ofRecord r = b := by
  simp only [servedBy, List.mem_flatMap, List.mem_map, List.mem_filter, beq_iff_eq]
  constructor
  · rintro ⟨pid, hpid, r, ⟨hr, rfl⟩, hb⟩
    exact ⟨r, hr, hpid, hb⟩
  · rintro ⟨r, hr, hpid, hb⟩
    exact ⟨r.pid, hpid, r, ⟨hr, rfl⟩, hb⟩

section Sockets

variable {processes : List ProcessRecord} {records : List PortRecord} {seed : Seed}

/-- A node of a claim has the sockets of its process. -/
theorem served_of_mem_claimedNodes {node : ProcessNode}
    (h : node ∈ claimedNodes ((Forest.build processes).attachPorts records) seed) :
    node.portRecords = records.filter (·.pid == node.pid) ∧
      ∀ port, port ∈ node.ports ↔ ∃ r ∈ records, r.pid = node.pid ∧ r.port = port := by
  obtain ⟨hrecords, -, hports⟩ := Forest.served_of_get? (Forest.get?_of_mem_walk h)
  exact ⟨hrecords, hports⟩

/-- The bindings of an instance are those of the claim, each once. -/
theorem bindingsOf_eq
    (hclaim : (claimedNodes ((Forest.build processes).attachPorts records) seed).map (·.pid) =
      seed.claimed) :
    bindingsOf ((Forest.build processes).attachPorts records) seed =
      firstOfEach (servedBy records seed.claimed) := by
  rw [bindingsOf, servedBy, ← hclaim, List.flatMap_map]
  congr 1
  apply List.flatMap_congr
  intro node hnode
  rw [(served_of_mem_claimedNodes hnode).1]

/-- Two processes serve one address, and the binding comes where the first of them is. -/
example :
    bindingsOf
      ((Forest.build [{ pid := ⟨"5"⟩ }, { pid := ⟨"7"⟩, ppid := ⟨"5"⟩ }]).attachPorts
        [⟨"::", 443, "tcp", ⟨"7"⟩, []⟩, ⟨"::", 80, "tcp", ⟨"7"⟩, []⟩, ⟨"::", 80, "tcp", ⟨"5"⟩, []⟩])
      ⟨"server", ⟨"5"⟩, ⟨"5"⟩, [⟨"5"⟩, ⟨"7"⟩]⟩ = [⟨"::", 80, "tcp"⟩, ⟨"::", 443, "tcp"⟩] := by
  decide

/-- The ports of an instance are those of the claim. -/
theorem mem_portsOf_iff
    (hclaim : (claimedNodes ((Forest.build processes).attachPorts records) seed).map (·.pid) =
      seed.claimed) {port : Nat} :
    port ∈ portsOf ((Forest.build processes).attachPorts records) seed ↔
      ∃ r ∈ records, r.pid ∈ seed.claimed ∧ r.port = port := by
  rw [mem_portsOf, ← hclaim]
  constructor
  · rintro ⟨node, hnode, hport⟩
    obtain ⟨r, hr, hpid, hsame⟩ := ((served_of_mem_claimedNodes hnode).2 port).mp hport
    exact ⟨r, hr, List.mem_map.mpr ⟨node, hnode, hpid.symm⟩, hsame⟩
  · rintro ⟨r, hr, hpid, hsame⟩
    obtain ⟨node, hnode, hnodePid⟩ := List.mem_map.mp hpid
    exact ⟨node, hnode, ((served_of_mem_claimedNodes hnode).2 port).mpr
      ⟨r, hr, hnodePid.symm, hsame⟩⟩

end Sockets

/-! ## What an instance covers -/

/-- What an instance knows of the processes that its seed claims. -/
structure Covers (records : List PortRecord) (seed : Seed) (i : Instance) : Prop where
  seed_eq : i.seed = seed
  process_pids : i.process.treePids = seed.claimed.map (·.text)
  bindings_nodup : (i.bindings.map fun b => (b.address, b.port, b.protocol)).Nodup
  mem_bindings_iff : ∀ address port protocol, ⟨address, port, protocol⟩ ∈ i.bindings ↔
    ∃ r ∈ records, r.pid ∈ seed.claimed ∧ r.address = address ∧ r.port = port ∧
      r.protocol = protocol
  /-- Bindings come in the order in which the claimed processes serve them first. -/
  bindings_in_order : i.bindings.Pairwise fun b c =>
    (servedBy records seed.claimed).idxOf b < (servedBy records seed.claimed).idxOf c

/-- What is seen first of a seed covers its claim. -/
theorem covers_ofSeed {processes : List ProcessRecord} {records : List PortRecord} {d : Detector}
    {pool : Pool} {earlier : List Seed} {seed : Seed}
    (h : Detector.Placed d ((Forest.build processes).attachPorts records) pool earlier seed)
    (packages : List Document) :
    Covers records seed
      (Instance.ofSeed ((Forest.build processes).attachPorts records) packages seed) := by
  have hf : ((Forest.build processes).attachPorts records).Linked :=
    Forest.attachPorts_linked records (Forest.build_linked processes)
  have hbindings := bindingsOf_eq (h.claimed_again hf)
  have hfirsts := firstsOf_firstOfEach (servedBy records seed.claimed)
  rw [← hbindings] at hfirsts
  refine ⟨rfl, ?_, ?_, ?_, hfirsts.in_order⟩
  · have hown : seed.claimed.contains seed.representative = true := by
      simpa using h.representative_mem
    show (Forest.render _ seed.representative seed.claimed.contains).treePids = _
    rw [Forest.treePids_render hf (h.has_node h.representative_mem) hown, h.claimed_again hf]
  · -- A binding is its address, its port and its protocol.
    refine hfirsts.nodup.map ?_
    rintro ⟨address, port, protocol⟩ ⟨address', port', protocol'⟩ hsame
    cases hsame
    rfl
  · intro address port protocol
    show _ ∈ bindingsOf _ seed ↔ _
    rw [hfirsts.mem_iff, mem_servedBy]
    simp only [Binding.ofRecord, Binding.mk.injEq]

/-- What an instance covers is told by its seed, its tree and its bindings. -/
theorem Covers.congr {records : List PortRecord} {seed : Seed} {i j : Instance}
    (h : Covers records seed i) (hseed : j.seed = i.seed) (hprocess : j.process = i.process)
    (hbindings : j.bindings = i.bindings) : Covers records seed j where
  seed_eq := hseed.trans h.seed_eq
  process_pids := hprocess ▸ h.process_pids
  bindings_nodup := hbindings ▸ h.bindings_nodup
  mem_bindings_iff := hbindings ▸ h.mem_bindings_iff
  bindings_in_order := hbindings ▸ h.bindings_in_order

/-- **What instances know is what was claimed**: of every seed of a pass, the instance has the
claimed processes in its tree, in the order of the claim, and each of their bindings once, in the
order in which they come first. Before containers are looked at, its ports are those of the claimed
processes in ascending order. Nothing but the pattern of packages can keep the instances from being
made. -/
theorem enrich_covers_claims (processes : List ProcessRecord) (records : List PortRecord)
    (pool : Pool) (d : Detector) (inventory : Inventory) (s : Signature) :
    let f := (Forest.build processes).attachPorts records
    let seeds := (d.detect f pool).1
    (∀ err, enrich f inventory s seeds = .error err ↔ s.pkgMatcher = .error err) ∧
    (∀ instances, enrich f inventory s seeds = .ok instances →
      List.Forall₂ (Covers records) seeds instances) ∧
    ∀ seed ∈ seeds, ∀ packages,
      (Instance.ofSeed f packages seed).ports.Pairwise (· < ·) ∧
        ∀ port, port ∈ (Instance.ofSeed f packages seed).ports ↔
          ∃ r ∈ records, r.pid ∈ seed.claimed ∧ r.port = port := by
  intro f seeds
  have hf : f.Linked := Forest.attachPorts_linked records (Forest.build_linked processes)
  have hplaced : ∀ seed ∈ seeds, ∃ earlier, Detector.Placed d f pool earlier seed := by
    intro seed hseed
    obtain ⟨earlier, later, hsplit⟩ := List.append_of_mem hseed
    exact ⟨earlier, Detector.detect_placed hf hsplit⟩
  refine ⟨fun _ => enrich_eq_error_iff, ?_, ?_⟩
  · intro instances h
    -- What a container brings to an instance is none of what it covers.
    obtain ⟨packages, -, hequipped⟩ := equipped_enrich hf h
    refine List.forall₂_iff_get.mpr ⟨(length_enrich h).symm, fun k hk hk' => ?_⟩
    obtain ⟨earlier, hseed⟩ := hplaced (seeds.get ⟨k, hk⟩) (List.get_mem seeds ⟨k, hk⟩)
    obtain ⟨hsame, hprocess, hbindings, -⟩ := (hequipped k _ _ (List.getElem?_eq_getElem hk)
      (List.getElem?_eq_getElem hk')).rest_eq
    exact (covers_ofSeed hseed packages).congr hsame hprocess hbindings
  · intro seed hseed packages
    obtain ⟨earlier, hseed⟩ := hplaced seed hseed
    exact ⟨ascending_portsOf f seed, fun port => mem_portsOf_iff (hseed.claimed_again hf)⟩

end SoftwareCensus
