import SoftwareCensus.Host.Inventory
import SoftwareCensus.Proofs.Document.JsonText
import SoftwareCensus.Proofs.Text.Trimming

/-!
# Inventories Read Again

What is written of an inventory is not what it was read from: ids of any kind become texts without
white space around them, a command line that is missing becomes an empty one, and further fields are
put in between the known ones. Still nothing is lost. The names of the known fields keep the further
ones apart from them, and what was settled while reading (trimmed ids, ports in range, ordered mappings
of finite doubles) is all that reading again asks for.

## Main results

* `Source.Further.exists_record` : known and further fields are told apart again
* `ProcessRecord.decode?_toDocument`, `PortRecord.decode?_toDocument`,
  `Inventory.decode?_toDocument` : what is well formed is read back from its document
* `Inventory.wellFormed_of_decode?` : what was read is well formed
* `Inventory.ofJson_toJson` : an inventory that was read from JSON is read again from its document, and
  from the text of the document with keys in ascending order
-/

namespace SoftwareCensus

open Numeral Source

/-! ## Ids -/

namespace Pid

/-- An id without white space around it. -/
def Trimmed (p : Pid) : Prop := Text.trim p.text = p.text

/-- The id of the root is a digit. -/
theorem trimmed_root : root.Trimmed := by
  show Text.trim "0" = "0"
  decide

/-- **An id that is read has no white space around it**, whatever kind of value it is read from. -/
theorem trimmed_of_decode? {s : Source} {p : Pid} (h : decode? s = some p) : p.Trimmed := by
  obtain ⟨settled, -, hsettled⟩ := Option.bind_eq_some_iff.mp h
  split at hsettled
  -- A number that is whole and one that is cut off are written with digits only.
  case h_1 | h_2 =>
    obtain rfl := Option.some.inj hsettled
    exact Text.trim_eq_self fun _ => Text.not_isBlank_of_mem_toString
  -- A text is trimmed, and nothing at all becomes the empty text.
  case h_3 =>
    obtain rfl := Option.some.inj hsettled
    exact Text.trim_trim _
  case h_4 =>
    obtain rfl := Option.some.inj hsettled
    show Text.trim "" = ""
    decide
  case h_5 => cases hsettled

/-- So has one that stands for a field which may be missing. -/
theorem trimmed_of_withDefault {r : Record} {name : String} {p : Pid}
    (h : r.withDefault name .root decode? = some p) : p.Trimmed := by
  unfold Record.withDefault at h
  split at h
  case h_1 => exact trimmed_of_decode? h
  case h_2 =>
    obtain rfl := Option.some.inj h
    exact trimmed_root

/-- A trimmed id is read back from its text. -/
theorem decode?_text {p : Pid} (h : p.Trimmed) : decode? (.str p.text) = some p :=
  congrArg (fun text => some (Pid.mk text)) h

end Pid

/-! ## Records with further fields -/

namespace Source

variable {names : List String} {room : Nat}

/-- Fields that can stand next to the known ones of a record: they are in order, can be written as JSON,
and no name belongs to them. -/
structure Further (names : List String) (room : Nat) (extra : Fields) : Prop where
  ordered : (Document.map extra).Ordered
  json : Document.ValuesAreJson room extra
  fresh : ∀ entry ∈ extra, entry.1 ∉ names

/-- No fields at all can stand next to the known ones. -/
theorem Further.nil : Further names room [] where
  ordered := ⟨List.Pairwise.nil, trivial⟩
  json := by trivial
  fresh _ hentry := by cases hentry

/-- A known name is not bound among further fields. -/
theorem Further.get?_eq_none {extra : Fields} (h : Further names room extra) {name : String}
    (hname : name ∈ names) : extra.get? name = none :=
  Fields.get?_eq_none fun entry hentry heq => h.fresh entry hentry (heq ▸ hname)

/-- Known fields and further ones can be written as JSON together. -/
theorem Further.isJson_extend {known extra : Fields} (h : Further names room extra)
    (hknown : Document.ValuesAreJson room known) :
    (Document.map ((Fields.ofList known).extend extra)).IsJson (room + 1) := by
  have hfields : Document.ValuesAreJson room (Fields.ofList known) :=
    Document.valuesAreJson_extend (by trivial) hknown
  exact ⟨Nat.succ_pos _, Document.valuesAreJson_extend hfields h.json⟩

/-- **A record is read back from known fields and further ones**: a field has the value it was given,
and what is left over are the further fields. -/
theorem Further.exists_record {known extra : Fields} (h : Further names room extra)
    (hknown : ∀ entry ∈ known, entry.1 ∈ names) (hnodup : known.keys.Nodup) :
    ∃ r, Record.ofEntries? names (ofFields ((Fields.ofList known).extend extra)) = some r ∧
      (∀ name ∈ names, r.get? name = (known.get? name).map ofDocument) ∧
      toFields? r.others [] = some extra := by
  have hextra : extra.Ascending := h.ordered.1
  have hascending : ((Fields.ofList known).extend extra).Ascending :=
    (Fields.Ascending.extend List.Pairwise.nil known).extend extra
  have hget : ∀ key, ((Fields.ofList known).extend extra).get? key =
      (extra.get? key).or (known.get? key) := by
    intro key
    rw [Fields.get?_extend hextra.keys_nodup, Fields.ofList, Fields.get?_extend hnodup]
    simp [Fields.get?]
  refine ⟨_, Record.ofEntries?_ofFields hascending, ?_, ?_⟩
  -- A known name is bound among the known fields only.
  · intro name hname
    rw [Record.get?_presented, Fields.get?_filter, if_pos (by simpa using hname), hget,
      h.get?_eq_none hname]
    rfl
  · -- What no name belongs to is bound as the further fields have it, so it is these fields.
    have hothers : ((Fields.ofList known).extend extra).filter
        (fun entry => !names.contains entry.1) = extra := by
      refine (hascending.filter _).ext hextra ?_
      intro key
      rw [Fields.get?_filter (fun name => !names.contains name), hget]
      by_cases hkey : key ∈ names
      · simp [hkey, h.get?_eq_none hkey]
      · have hnone : known.get? key = none :=
          Fields.get?_eq_none fun entry hentry heq => hkey (heq ▸ hknown entry hentry)
        simp [hkey, hnone]
    rw [hothers]
    exact toFields?_ofFields extra [] hextra h.ordered.2 h.json

/-- A text that may be missing is read back. -/
theorem optional_text {r : Record} {name : String} {value : Option String}
    (h : r.get? name = (value.map Document.str).map ofDocument) :
    r.optional name text? = some value := by
  unfold Record.optional Record.withDefault
  rw [h]
  cases value with
  | none => rfl
  | some s => rfl

/-- A number that is read keeps to its bound. -/
theorem le_of_nat? {most n : Nat} {s : Source} (h : s.nat? most = some n) : n ≤ most := by
  obtain ⟨i, -, hi⟩ := Option.bind_eq_some_iff.mp h
  split at hi
  -- The number was compared with its bound while it was read.
  case isTrue hbounds =>
    obtain rfl := Option.some.inj hi
    simp only [Bool.and_eq_true, decide_eq_true_eq] at hbounds
    omega
  case isFalse => cases hi

/-- A number within its bound is read back. -/
theorem nat?_int {most n : Nat} (h : n ≤ most) : nat? most (.int n) = some n := by
  have hbounds : (decide ((0 : Int) ≤ n) && decide ((n : Int) ≤ most)) = true := by
    simp only [Bool.and_eq_true, decide_eq_true_eq]
    omega
  show (if decide ((0 : Int) ≤ n) && decide ((n : Int) ≤ most) then some (n : Int).toNat else none) = _
  rw [if_pos hbounds, Int.toNat_natCast]

/-- What is under a name in a record is what stands at an entry. -/
theorem isJson_of_get? {entries : List (Source × Source)} {r : Record} {name : String} {s : Source}
    (hentries : ValuesAreJson room entries) (hr : Record.ofEntries? names entries = some r)
    (hget : r.get? name = some s) : s.IsJson room := by
  obtain ⟨k, hk⟩ := (Record.from_of_ofEntries? hr).get hget
  exact valuesAreJson_iff.mp hentries (k, s) hk

/-- What is left over in a record that was read are further fields. -/
theorem further_of_ofEntries? {entries : List (Source × Source)} {r : Record} {extra : Fields}
    (hentries : ValuesAreJson room entries) (hr : Record.ofEntries? names entries = some r)
    (hextra : toFields? r.others [] = some extra) : Further names room extra := by
  have hfrom := Record.from_of_ofEntries? hr
  have hothers : ValuesAreJson room r.others :=
    valuesAreJson_iff.mpr fun entry hentry =>
      valuesAreJson_iff.mp hentries entry (hfrom.others entry hentry).1
  refine ⟨ordered_of_toFields? r.others List.Pairwise.nil trivial hextra,
    valuesAreJson_of_toFields? r.others hothers (by trivial) hextra, ?_⟩
  refine forall_key_of_toFields? ?_ (fun entry hentry => (hfrom.others entry hentry).2) hextra
  intro entry hentry
  cases hentry

/-- The entries of a mapping of JSON are JSON. -/
theorem entries_isJson {s : Source} {entries : List (Source × Source)} (hs : s.IsJson (room + 1))
    (h : s.entries? = some entries) : ValuesAreJson room entries := by
  cases s with
  | map found =>
    obtain rfl := Option.some.inj h
    exact hs.2
  | plain => exact hs.elim
  | _ => cases h

/-- What is in a field that is a list was read from an item of it. -/
theorem exists_item_of_withDefault {α : Type} {read : Source → Option α} {r : Record} {name : String}
    {xs : List α} (hfield : ∀ v, r.get? name = some v → v.IsJson (room + 1))
    (h : r.withDefault name [] (listOf? read) = some xs) :
    ∀ x ∈ xs, ∃ item : Source, item.IsJson room ∧ read item = some x := by
  intro x hx
  unfold Record.withDefault at h
  split at h
  -- The field is there and is a list; a field that is missing has no items.
  case h_1 v hv =>
    obtain ⟨items, hitems, item, hitem, hread⟩ := exists_item_of_mem_listOf? h hx
    have hjson := hfield v hv
    cases v with
    | list found =>
      obtain rfl := Option.some.inj hitems
      exact ⟨item, areJson_iff.mp hjson.2 item hitem, hread⟩
    | plain => exact hjson.elim
    | _ => cases hitems
  case h_2 =>
    obtain rfl := Option.some.inj h
    cases hx

/-- A field that is a mapping is read in order. -/
theorem ordered_of_withDefault {r : Record} {name : String} {fields : Fields}
    (hfield : ∀ v, r.get? name = some v → v.IsJson (room + 1))
    (h : r.withDefault name [] Source.fields? = some fields) :
    (Document.map fields).Ordered ∧ Document.ValuesAreJson room fields := by
  unfold Record.withDefault at h
  split at h
  case h_1 v hv =>
    obtain ⟨entries, hentries, hfields⟩ := Option.bind_eq_some_iff.mp h
    exact ⟨ordered_of_toFields? entries List.Pairwise.nil trivial hfields,
      valuesAreJson_of_toFields? entries (entries_isJson (hfield v hv) hentries) (by trivial) hfields⟩
  -- A field that is missing stands for the empty mapping.
  case h_2 =>
    obtain rfl := Option.some.inj h
    exact ⟨⟨List.Pairwise.nil, trivial⟩, by trivial⟩

/-- A field of any shape that is not nothing is read as it is. -/
theorem document_of_optional {r : Record} {name : String} {value : Option Document}
    (hfield : ∀ v, r.get? name = some v → v.IsJson room)
    (h : r.optional name toDocument? = some value) :
    ∀ d ∈ value, d ≠ .null ∧ d.Ordered ∧ d.IsJson room := by
  intro d hd
  obtain rfl := Option.mem_def.mp hd
  unfold Record.optional Record.withDefault at h
  split at h
  case h_1 v hv =>
    unfold Source.optional at h
    split at h
    case isTrue => cases h
    case isFalse hpresent =>
      obtain ⟨found, hfound, hsame⟩ := Option.map_eq_some_iff.mp h
      obtain rfl := Option.some.inj hsame
      refine ⟨?_, ordered_of_toDocument? v hfound, isJson_of_toDocument? v (hfield v hv) hfound⟩
      -- If the document were null, the field would have been taken for one that is missing.
      rintro rfl
      exact hpresent (isAbsent_of_toDocument? (hfield v hv) hfound)
  case h_2 => cases h

/-- A document that is not nothing is read back. -/
theorem optional_document {r : Record} {name : String} {value : Option Document}
    (hvalue : ∀ d ∈ value, d ≠ .null ∧ d.Ordered ∧ d.IsJson room)
    (h : r.get? name = value.map ofDocument) : r.optional name toDocument? = some value := by
  unfold Record.optional Record.withDefault
  rw [h]
  cases value with
  | none => rfl
  | some d =>
    obtain ⟨hnull, hordered, hjson⟩ := hvalue d rfl
    -- The document is not null, so its source is not taken for a missing one.
    have hpresent : (ofDocument d).isAbsent = false := by
      cases d with
      | null => exact absurd rfl hnull
      | _ => rfl
    show Source.optional toDocument? (ofDocument d) = _
    rw [Source.optional, hpresent, toDocument?_ofDocument d hordered hjson]
    rfl

/-- A record may also be written as a list, with the values of its fields in order. -/
theorem isJson_of_record? {s : Source} {r : Record} (hs : s.IsJson (room + 1))
    (hr : s.record? names = some r) {name : String} {v : Source} (hget : r.get? name = some v) :
    v.IsJson room := by
  unfold record? at hr
  split at hr
  case h_1 items =>
    split at hr
    -- The list has as many items as there are names, and a field is the item at its place.
    case isTrue =>
      obtain rfl := Option.some.inj hr
      obtain ⟨field, hfind, rfl⟩ := Option.map_eq_some_iff.mp hget
      exact areJson_iff.mp hs.2 _ (List.of_mem_zip (List.mem_of_find?_eq_some hfind)).2
    case isFalse => cases hr
  case h_2 =>
    obtain ⟨entries, hentries, hr⟩ := Option.bind_eq_some_iff.mp hr
    exact isJson_of_get? (entries_isJson hs hentries) hr hget

end Source

/-! ## Processes -/

namespace ProcessRecord

/-- What holds of a process that was read, and is enough to read it again. -/
structure WellFormed (room : Nat) (p : ProcessRecord) : Prop where
  pid : p.pid.Trimmed
  ppid : p.ppid.Trimmed
  extra : Further fieldNames room p.extra

variable {room : Nat} {p : ProcessRecord}

/-- The entries that are written for a process have known names. -/
theorem mem_known : ∀ entry ∈ p.known, entry.1 ∈ fieldNames := by
  cases hcwd : p.cwd <;> cases huser : p.user <;> simp [known, entryOf, fieldNames, hcwd, huser]

/-- They have different names, whether or not a directory and a user are known. -/
theorem nodup_known : (Fields.keys p.known).Nodup := by
  cases hcwd : p.cwd <;> cases huser : p.user <;> simp [known, entryOf, Fields.keys, hcwd, huser]

/-- A working directory that is missing has no entry. -/
theorem get?_known_cwd : Fields.get? p.known "cwd" = p.cwd.map Document.str := by
  cases hcwd : p.cwd <;> cases huser : p.user <;> simp [known, entryOf, Fields.get?, hcwd, huser]

/-- A user that is missing has no entry. -/
theorem get?_known_user : Fields.get? p.known "user" = p.user.map Document.str := by
  cases hcwd : p.cwd <;> cases huser : p.user <;> simp [known, entryOf, Fields.get?, hcwd, huser]

/-- A process that is read is well formed. -/
theorem wellFormed_of_decode? {s : Source} (hs : s.IsJson (room + 1)) (h : decode? s = some p) :
    p.WellFormed room := by
  simp only [decode?, bind, Option.bind_eq_some_iff] at h
  obtain ⟨entries, hentries, r, hr, pid, hpid, ppid, hppid, cmdline, -, cwd, -, user, -, extra,
    hextra, hp⟩ := h
  obtain rfl := Option.some.inj hp
  have hfurther := further_of_ofEntries? (entries_isJson hs hentries) hr hextra
  obtain ⟨source, -, hdecode⟩ := Option.bind_eq_some_iff.mp hpid
  exact ⟨Pid.trimmed_of_decode? hdecode, Pid.trimmed_of_withDefault hppid, hfurther⟩

/-- The document of a process can be written as JSON. -/
theorem isJson_toDocument (h : p.WellFormed room) : p.toDocument.IsJson (room + 1) := by
  -- All known fields are texts.
  have hknown : Document.ValuesAreJson room p.known := by
    cases hcwd : p.cwd <;> cases huser : p.user <;>
      simp [known, entryOf, hcwd, huser, Document.ValuesAreJson, Document.IsJson]
  exact h.extra.isJson_extend hknown

/-- **A process is read back from its document.** -/
theorem decode?_toDocument (h : p.WellFormed room) : decode? (ofDocument p.toDocument) = some p := by
  obtain ⟨r, hr, hget, hextra⟩ := h.extra.exists_record mem_known nodup_known
  -- Field by field, in the order in which they are read.
  have hpid : r.required "pid" Pid.decode? = some p.pid := by
    rw [Record.required, hget "pid" (by decide)]
    exact Pid.decode?_text h.pid
  have hppid : r.withDefault "ppid" .root Pid.decode? = some p.ppid := by
    rw [Record.withDefault, hget "ppid" (by decide)]
    exact Pid.decode?_text h.ppid
  have hcmdline : r.optional "cmdline" text? = some (some p.cmdline) :=
    optional_text (hget "cmdline" (by decide))
  have hcwd : r.optional "cwd" text? = some p.cwd := by
    refine optional_text ((hget "cwd" (by decide)).trans ?_)
    rw [get?_known_cwd]
  have huser : r.optional "user" text? = some p.user := by
    refine optional_text ((hget "user" (by decide)).trans ?_)
    rw [get?_known_user]
  have hentries : (ofDocument p.toDocument).entries? =
      some (ofFields ((Fields.ofList p.known).extend p.extra)) := rfl
  simp only [decode?, hentries, hr, hpid, hppid, hcmdline, hcwd, huser, hextra, bind, pure,
    Option.bind_some, Option.getD_some]

end ProcessRecord

/-! ## Sockets -/

namespace PortRecord

/-- What holds of a listening socket that was read, and is enough to read it again. -/
structure WellFormed (room : Nat) (p : PortRecord) : Prop where
  port : p.port ≤ maxPort
  pid : p.pid.Trimmed
  extra : Further fieldNames room p.extra

variable {room : Nat} {p : PortRecord}

/-- The entries that are written for a socket have known names. -/
theorem mem_known : ∀ entry ∈ p.known, entry.1 ∈ fieldNames := by
  simp [known, fieldNames]

/-- The names of these entries are different. -/
theorem nodup_known : (Fields.keys p.known).Nodup := by
  simp [known, Fields.keys]

/-- A listening socket that is read is well formed. -/
theorem wellFormed_of_decode? {s : Source} (hs : s.IsJson (room + 1)) (h : decode? s = some p) :
    p.WellFormed room := by
  simp only [decode?, bind, Option.bind_eq_some_iff] at h
  obtain ⟨entries, hentries, r, hr, address, -, port, hport, protocol, -, pid, hpid, extra, hextra,
    hp⟩ := h
  obtain rfl := Option.some.inj hp
  have hfurther := further_of_ofEntries? (entries_isJson hs hentries) hr hextra
  obtain ⟨source, -, hnat⟩ := Option.bind_eq_some_iff.mp hport
  exact ⟨le_of_nat? hnat, Pid.trimmed_of_withDefault hpid, hfurther⟩

/-- The document of a listening socket can be written as JSON. -/
theorem isJson_toDocument (h : p.WellFormed room) : p.toDocument.IsJson (room + 1) := by
  -- A port has sixteen bits, so it fits into 64.
  have hport : fits64 p.port = true := by
    have hmost : (maxPort : Int) ≤ maxUInt64 := by decide
    exact fits64_natCast.mpr (le_trans (Int.ofNat_le.mpr h.port) hmost)
  have hknown : Document.ValuesAreJson room p.known := by
    simp [known, Document.ValuesAreJson, Document.IsJson, hport]
  exact h.extra.isJson_extend hknown

/-- **A listening socket is read back from its document.** -/
theorem decode?_toDocument (h : p.WellFormed room) : decode? (ofDocument p.toDocument) = some p := by
  obtain ⟨r, hr, hget, hextra⟩ := h.extra.exists_record mem_known nodup_known
  -- Field by field, in the order in which they are read.
  have haddress : r.optional "address" text? = some (some p.address) :=
    optional_text (hget "address" (by decide))
  have hport : r.required "port" (nat? maxPort) = some p.port := by
    rw [Record.required, hget "port" (by decide)]
    exact nat?_int h.port
  have hprotocol : r.optional "protocol" text? = some (some p.protocol) :=
    optional_text (hget "protocol" (by decide))
  have hpid : r.withDefault "pid" .root Pid.decode? = some p.pid := by
    rw [Record.withDefault, hget "pid" (by decide)]
    exact Pid.decode?_text h.pid
  have hentries : (ofDocument p.toDocument).entries? =
      some (ofFields ((Fields.ofList p.known).extend p.extra)) := rfl
  simp only [decode?, hentries, hr, haddress, hport, hprotocol, hpid, hextra, bind, pure,
    Option.bind_some, Option.getD_some]

end PortRecord

/-! ## Inventories -/

namespace Inventory

/-- What holds of an inventory that was read, and is enough to read it again. -/
structure WellFormed (room : Nat) (inventory : Inventory) : Prop where
  processes : ∀ p ∈ inventory.processes, p.WellFormed room
  tcpListen : ∀ p ∈ inventory.tcpListen, p.WellFormed room
  udpListen : ∀ p ∈ inventory.udpListen, p.WellFormed room
  packages_ordered : (Document.map inventory.packages).Ordered
  packages_json : Document.ValuesAreJson (room + 1) inventory.packages
  dockers : ∀ d ∈ inventory.dockers, d ≠ .null ∧ d.Ordered ∧ d.IsJson (room + 2)

variable {room : Nat} {inventory : Inventory}

/-- The entries that are written for an inventory have known names. -/
theorem mem_known : ∀ entry ∈ inventory.known, entry.1 ∈ fieldNames := by
  cases hdockers : inventory.dockers <;> simp [known, fieldNames, hdockers]

/-- There is one entry for each name, with or without containers. -/
theorem nodup_known : (Fields.keys inventory.known).Nodup := by
  cases hdockers : inventory.dockers <;> simp [known, Fields.keys, hdockers]

/-- Containers that are missing have no entry. -/
theorem get?_known_dockers : Fields.get? inventory.known "dockers" = inventory.dockers := by
  cases hdockers : inventory.dockers <;> simp [known, Fields.get?, hdockers]

/-- **An inventory that is read is well formed**, and so is every record in it. -/
theorem wellFormed_of_decode? {s : Source} (hs : s.IsJson (room + 3))
    (h : decode? s = some inventory) : inventory.WellFormed room := by
  simp only [decode?, bind, Option.bind_eq_some_iff] at h
  obtain ⟨r, hr, processes, hprocesses, tcpListen, htcp, udpListen, hudp, packages, hpackages,
    dockers, hdockers, hinventory⟩ := h
  obtain rfl := Option.some.inj hinventory
  -- A record lies under three brackets: its own, that of its list and that of the inventory.
  have hfield : ∀ name v, r.get? name = some v → v.IsJson (room + 2) :=
    fun _ _ => isJson_of_record? hs hr
  have hrecords := ordered_of_withDefault (hfield "packages") hpackages
  refine ⟨?_, ?_, ?_, hrecords.1, hrecords.2, document_of_optional (hfield "dockers") hdockers⟩
  · intro p hp
    obtain ⟨item, hitem, hread⟩ := exists_item_of_withDefault (hfield "processes") hprocesses p hp
    exact ProcessRecord.wellFormed_of_decode? hitem hread
  · intro p hp
    obtain ⟨item, hitem, hread⟩ := exists_item_of_withDefault (hfield "tcp_listen") htcp p hp
    exact PortRecord.wellFormed_of_decode? hitem hread
  · intro p hp
    obtain ⟨item, hitem, hread⟩ := exists_item_of_withDefault (hfield "udp_listen") hudp p hp
    exact PortRecord.wellFormed_of_decode? hitem hread

/-- A list of records can be written as JSON when these can. -/
theorem isJson_list {α : Type} {write : α → Document} {xs : List α}
    (h : ∀ x ∈ xs, (write x).IsJson room) : (Document.list (xs.map write)).IsJson (room + 1) := by
  refine ⟨Nat.succ_pos _, Document.areJson_iff.mpr ?_⟩
  intro d hd
  obtain ⟨x, hx, rfl⟩ := List.mem_map.mp hd
  exact h x hx

/-- The document of an inventory can be written as JSON. -/
theorem isJson_toDocument (h : inventory.WellFormed room) :
    inventory.toDocument.IsJson (room + 3) := by
  have hprocesses := isJson_list fun p hp => ProcessRecord.isJson_toDocument (h.processes p hp)
  have htcp := isJson_list fun p hp => PortRecord.isJson_toDocument (h.tcpListen p hp)
  have hudp := isJson_list fun p hp => PortRecord.isJson_toDocument (h.udpListen p hp)
  have hpackages : (Document.map inventory.packages).IsJson (room + 2) :=
    ⟨Nat.succ_pos _, h.packages_json⟩
  -- The lists are JSON as their records are, and containers only count if there are any.
  have hknown : Document.ValuesAreJson (room + 2) inventory.known := by
    cases hdockers : inventory.dockers with
    | none =>
      simp [known, Document.ValuesAreJson, hdockers, hprocesses, htcp, hudp, hpackages]
    | some d =>
      have hd := (h.dockers d hdockers).2.2
      simp [known, Document.ValuesAreJson, hdockers, hprocesses, htcp, hudp, hpackages, hd]
  exact ⟨Nat.succ_pos _, Document.valuesAreJson_extend (by trivial) hknown⟩

/-- **An inventory is read back from its document.** -/
theorem decode?_toDocument (h : inventory.WellFormed room) :
    decode? (ofDocument inventory.toDocument) = some inventory := by
  have hnothing : Further fieldNames room [] := .nil
  have hnodup : (Fields.keys inventory.known).Nodup := nodup_known
  -- An inventory keeps no further fields, so its record has the known ones alone.
  obtain ⟨r, hr, hget, -⟩ := hnothing.exists_record mem_known hnodup
  rw [Fields.extend_nil] at hr
  have hrecord : (ofDocument inventory.toDocument).record? fieldNames = some r := hr
  have hprocesses : r.withDefault "processes" [] (listOf? ProcessRecord.decode?) =
      some inventory.processes := by
    rw [Record.withDefault, hget "processes" (by decide)]
    exact listOf?_ofDocument fun p hp => ProcessRecord.decode?_toDocument (h.processes p hp)
  have htcp : r.withDefault "tcp_listen" [] (listOf? PortRecord.decode?) =
      some inventory.tcpListen := by
    rw [Record.withDefault, hget "tcp_listen" (by decide)]
    exact listOf?_ofDocument fun p hp => PortRecord.decode?_toDocument (h.tcpListen p hp)
  have hudp : r.withDefault "udp_listen" [] (listOf? PortRecord.decode?) =
      some inventory.udpListen := by
    rw [Record.withDefault, hget "udp_listen" (by decide)]
    exact listOf?_ofDocument fun p hp => PortRecord.decode?_toDocument (h.udpListen p hp)
  have hpackages : r.withDefault "packages" [] Source.fields? = some inventory.packages := by
    rw [Record.withDefault, hget "packages" (by decide)]
    exact toFields?_ofFields inventory.packages [] h.packages_ordered.1 h.packages_ordered.2
      h.packages_json
  have hdockers : r.optional "dockers" toDocument? = some inventory.dockers := by
    refine optional_document h.dockers ((hget "dockers" (by decide)).trans ?_)
    rw [get?_known_dockers]
  simp only [decode?, hrecord, hprocesses, htcp, hudp, hpackages, hdockers, bind, pure,
    Option.bind_some]

/-! ## Inventories as JSON -/

/-- What a JSON text is read as fits into the depth of a JSON text. -/
theorem wellFormed_of_ofJson {text : String} (h : ofJson text = .ok inventory) :
    inventory.WellFormed (Json.maxDepth - 3) := by
  unfold ofJson at h
  split at h
  case h_1 found hfound =>
    obtain rfl : found = inventory := by cases h; rfl
    obtain ⟨s, hs, hdecode⟩ := Option.bind_eq_some_iff.mp hfound
    exact wellFormed_of_decode? (Json.isJson_of_source? hs) hdecode
  case h_2 => cases h

/-- An inventory with a property that is computed. -/
theorem exists_of_any {result : Option Inventory} {p : Inventory → Bool}
    (h : result.any p = true) : ∃ inventory, result = some inventory ∧ p inventory = true := by
  cases result with
  | none => cases h
  | some inventory => exact ⟨inventory, rfl, h⟩

/-- A text whose source is decoded is read as that inventory. -/
theorem ofJson_eq_ok {text : String} (h : (Json.source? text).bind decode? = some inventory) :
    ofJson text = .ok inventory := by
  rw [ofJson, h]

/-- **Writing an inventory loses nothing that reading it could tell.** An inventory that was read from
a JSON text is read again from its document, and from the JSON text of that document if the numerals in
it are read as the doubles that they stand for.

The text is that of the document, so its keys are in ascending order at every depth. A writer of records
that puts the known fields before the further ones writes the same entries in another order; that order
is not part of the document, and only the first half speaks of such a text. -/
theorem ofJson_toJson {text : String} (h : ofJson text = .ok inventory) :
    decode? (ofDocument inventory.toDocument) = some inventory ∧
      (Json.numeralsReadBack inventory.toDocument = true →
        ofJson inventory.toDocument.toJson = .ok inventory) := by
  have hformed := wellFormed_of_ofJson h
  have hdecode := decode?_toDocument hformed
  refine ⟨hdecode, ?_⟩
  intro hback
  -- The numerals are read as their doubles, so the text has the source of the document.
  have hsource := Json.source?_toJson (isJson_toDocument hformed) hback
  refine ofJson_eq_ok ?_
  rw [hsource]
  exact hdecode

/-- Processes with an id of each kind, one of them without a command line and without a parent. -/
def mixedPids : String :=
  "\x7b\"processes\":[\x7b\"pid\":7.9,\"cmdline\":null,\"load\":1.5\x7d," ++
    "\x7b\"pid\":null,\"ppid\":\" 7 \"\x7d,\x7b\"pid\":8,\"ppid\":-1\x7d]," ++
    "\"packages\":\x7b\"pip\":[]\x7d\x7d"

theorem ofJson_toJson_mixed_pids : ∃ inventory : Inventory, ofJson mixedPids = .ok inventory ∧
    decode? (ofDocument inventory.toDocument) = some inventory ∧
      ofJson inventory.toDocument.toJson = .ok inventory := by
  -- Evaluating the reader settles that the text is read and that its numerals are harmless.
  have hread : ((Json.source? mixedPids).bind decode?).any (fun found =>
      Json.numeralsReadBack found.toDocument) = true := by decide +kernel
  obtain ⟨inventory, hinventory, hback⟩ := exists_of_any hread
  have hok := ofJson_eq_ok hinventory
  obtain ⟨hdocument, htext⟩ := ofJson_toJson hok
  exact ⟨inventory, hok, hdocument, htext hback⟩

/-- A double whose shortest numeral has more digits than a double holds as an integer. -/
def longNumeral : String := "\x7b\"packages\":\x7b\"load\":9.2049385543849773228\x7d\x7d"

/-- Such a numeral is rounded twice when it is read, so the double comes back with another last bit. -/
theorem ofJson_toJson_long_numeral : ∃ inventory again : Inventory,
    ofJson longNumeral = .ok inventory ∧ ofJson inventory.toDocument.toJson = .ok again ∧
      again ≠ inventory := by
  -- The comparison with itself shows that the documents differ, and not that one has no value.
  have hread : ((Json.source? longNumeral).bind decode?).any (fun found =>
      (((Json.lexemes? (Json.chars found.toDocument)).bind fun ls =>
        Json.assemble ls [] .value).bind decode?).any fun later =>
          found.toDocument == found.toDocument && !(later.toDocument == found.toDocument)) = true := by
    decide +kernel
  obtain ⟨inventory, hinventory, hagain⟩ := exists_of_any hread
  obtain ⟨again, hread, hdiffer⟩ := exists_of_any hagain
  rw [← Json.source?_toJson_eq] at hread
  refine ⟨inventory, again, ofJson_eq_ok hinventory, ofJson_eq_ok hread, ?_⟩
  rintro rfl
  simp only [Bool.and_not_self] at hdiffer
  cases hdiffer

end Inventory

end SoftwareCensus
