import Mathlib.Data.List.Basic
import SoftwareCensus.Config.Load

/-!
# The Ladder of Places

A file of configuration is looked up on a ladder: what is typed on the command line is taken whether it
is there or not, what a variable names is taken if it is there, and then directories are searched.
`Ladder` is that rule, and `locate` follows it.

Variables can also be put in place of options that are not typed before the ladder is climbed. Then a
path is taken even if nothing is there, although nobody typed it, and what it leads to counts as typed.

## Main results

* `Config.locate_eq_iff` : a file is looked up by the ladder
* `Config.Ladder.standsIn` : what becomes of the ladder when variables stand in for options
* `Config.locateAll_standIns` : the same for the catalog and the settings of a run
-/

namespace SoftwareCensus.Config

variable {files : Files.View} {typed named user : Option String} {places : List (Origin × String)}
  {l : Location}

/-! ## The ladder -/

/-- Where a file is, by what is typed for it, the variable for it, and the places that it can have
in directories. -/
inductive Ladder (files : Files.View) (typed named : Option String)
    (places : List (Origin × String)) : Location → Prop
  /-- What is typed is taken, whether it is there or not. -/
  | typed {path : String} (htyped : typed = some path) :
    Ladder files typed named places ⟨some path, .commandLine⟩
  /-- What the variable names is taken if it is there. -/
  | environment {path : String} (htyped : typed = none) (hnamed : named = some path)
    (hthere : (files path).isThere = true) :
    Ladder files typed named places ⟨some path, .environment⟩
  /-- The first file in the directories is taken. -/
  | directory {origin : Origin} {path : String} (htyped : typed = none)
    (hmissing : ∀ path, named = some path → (files path).isThere = false)
    (hfirst : places.find? (fun place => (files place.2).isFile) = some (origin, path)) :
    Ladder files typed named places ⟨some path, origin⟩
  /-- Where there is no file, there are built-in values. -/
  | builtin (htyped : typed = none)
    (hmissing : ∀ path, named = some path → (files path).isThere = false)
    (hnone : ∀ place ∈ places, (files place.2).isFile = false) :
    Ladder files typed named places ⟨none, .builtin⟩

/-- What a variable names is passed over exactly if it is not there. -/
theorem filter_isThere_eq_none_iff :
    (named.filter fun path => (files path).isThere) = none ↔
      ∀ path, named = some path → (files path).isThere = false := by
  cases named <;> simp [Option.filter]

/-- **A file is looked up by the ladder.** -/
theorem locate_eq_iff :
    locate files typed named places = l ↔ Ladder files typed named places l := by
  constructor
  · rintro rfl
    -- The rules are tried from the top: the first one that applies decides.
    unfold locate
    split
    next path => exact .typed rfl
    next =>
      split
      next path hpath =>
        obtain ⟨hnamed, hthere⟩ := Option.filter_eq_some_iff.mp hpath
        exact .environment rfl hnamed hthere
      next hmissing =>
        have hmissing := filter_isThere_eq_none_iff.mp hmissing
        split
        next origin path hfirst => exact .directory rfl hmissing hfirst
        next hnone => exact .builtin rfl hmissing (by simpa using hnone)
  · intro h
    unfold locate
    cases h with
    | typed htyped => rw [htyped]
    | environment htyped hnamed hthere => simp only [htyped, hnamed, Option.filter, if_pos hthere]
    | directory htyped hmissing hfirst =>
      simp only [htyped, filter_isThere_eq_none_iff.mpr hmissing, hfirst]
    | builtin htyped hmissing hnone =>
      have hsearch : (places.find? fun place => (files place.2).isFile) = none := by
        simpa using hnone
      simp only [htyped, filter_isThere_eq_none_iff.mpr hmissing, hsearch]

/-! ## Places in directories -/

/-- The places that a file can have in a directory, if there is one. -/
def placesIn (names : List String) (origin : Origin) (directory : Option String) :
    List (Origin × String) :=
  (directory.toList.flatMap fun directory => names.map (Files.join directory)).map (origin, ·)

/-- The places behind those in directories that are typed or named by a variable. -/
def placesBeyond (names : List String) (user : Option String) : List (Origin × String) :=
  placesIn names .userDirectory (user.map fun base => Files.join base directoryName) ++
    placesIn names .systemDirectory (some systemDirectory)

/-- The places of a file in their order, one part for each kind of directory. -/
theorem candidates_directories (names : List String) (env : Environment)
    (user directory : Option String) :
    candidates names (directories env user directory) =
      placesIn names .commandLine directory ++
        (placesIn names .environment (env directoryVariable) ++ placesBeyond names user) := by
  unfold directories placesBeyond placesIn candidates
  -- Each directory is there or not, and brings its places in its own part.
  cases directory <;> cases env directoryVariable <;> cases user <;> simp [Function.comp_def]

/-- The first file in a directory does not depend on how the directory was found. -/
theorem find?_placesIn (names : List String) (origin : Origin) (directory : Option String) :
    (placesIn names origin directory).find? (fun place => (files place.2).isFile) =
      ((directory.toList.flatMap fun directory => names.map (Files.join directory)).find?
        fun path => (files path).isFile).map (origin, ·) := by
  rw [placesIn, List.find?_map]
  rfl

theorem origin_of_mem_placesBeyond {names : List String} {place : Origin × String}
    (h : place ∈ placesBeyond names user) :
    place.1 ≠ .environment := by
  rcases List.mem_append.mp h with h | h
  all_goals
    obtain ⟨path, -, rfl⟩ := List.mem_map.mp h
    nofun

/-! ## Variables in place of options -/

/-- Whether a variable stands in for what is not typed and names what is not there. -/
def Misleads (files : Files.View) (typed named : Option String) (path : String) : Prop :=
  typed = none ∧ named = some path ∧ (files path).isThere = false

/-- What is found for a file, beside what the ladder leads to, if variables stand in for what is not
typed before the ladder is climbed. -/
structure StandsIn (files : Files.View) (typed named directory : Option String)
    (ladder found : Location) : Prop where
  /-- The file is that of the ladder, unless the variable misleads. -/
  path_eq_iff : found.path = ladder.path ↔ ¬ ∃ path, Misleads files typed named path
  /-- What a variable names that stands in is taken, and counts as typed. -/
  instead : typed = none → ∀ path, named = some path → found = ⟨some path, .commandLine⟩
  /-- Where it does not, all is as on the ladder, but that a directory counts as typed, too, if its
  variable stands in. -/
  otherwise : (typed = none → named = none) →
    found = if directory = none ∧ ladder.origin = .environment then
      { ladder with origin := .commandLine } else ladder

theorem locate_none (places : List (Origin × String)) :
    locate files none none places =
      ((places.find? fun place => (files place.2).isFile).map fun place =>
        (⟨some place.2, place.1⟩ : Location)).getD {} := by
  simp only [locate, Option.filter_none]
  cases places.find? fun place => (files place.2).isFile <;> rfl

/-- In directories, the same file is found. It counts as typed if it is in the directory of the
variable and no directory is typed. -/
theorem locate_directories (names : List String) (env : Environment)
    (user directory : Option String) :
    locate files none none
        (candidates names (directories env user (directory.or (env directoryVariable)))) =
      let ladder := locate files none none (candidates names (directories env user directory))
      if directory = none ∧ ladder.origin = .environment then
        { ladder with origin := .commandLine } else ladder := by
  cases directory with
  | some directory => simp
  | none =>
    -- On the ladder the places of the variable come first; with the variable typed, they come twice.
    have hempty : placesIn names .commandLine none = [] := rfl
    simp only [locate_none, candidates_directories, Option.none_or, hempty, List.nil_append,
      List.find?_append, find?_placesIn]
    cases hfound : (env directoryVariable).toList.flatMap (fun directory =>
        names.map (Files.join directory)) |>.find? fun path => (files path).isFile with
    -- The file is in the directory of the variable either way; only how it counts differs.
    | some path => rfl
    | none =>
      cases hbeyond : (placesBeyond names user).find? fun place => (files place.2).isFile with
      | none => rfl
      | some place =>
        have horigin := origin_of_mem_placesBeyond (List.mem_of_find?_eq_some hbeyond)
        simp [horigin]

/-- What is a file is there. -/
theorem isThere_of_isFile {e : Files.Entry} (h : e.isFile = true) : e.isThere = true := by
  cases e <;> first | rfl | cases h

/-- **What becomes of the ladder** if variables stand in for what is not typed. -/
theorem Ladder.standsIn {names : List String} {env : Environment} {directory : Option String}
    (h : Ladder files typed named (candidates names (directories env user directory)) l) :
    StandsIn files typed named directory l
      (locate files (typed.or named) named
        (candidates names (directories env user (directory.or (env directoryVariable))))) := by
  obtain rfl | ⟨path, rfl⟩ := Option.eq_none_or_eq_some typed
  · obtain rfl | ⟨path, rfl⟩ := Option.eq_none_or_eq_some named
    · -- Only the directory can have been named by a variable.
      obtain rfl := locate_eq_iff.mpr h
      have hfound : locate files none none _ = _ := locate_directories names env user directory
      refine ⟨iff_of_true ?_ (by rintro ⟨_, -, ⟨⟩, -⟩), nofun, fun _ => hfound⟩
      rw [Option.none_or, hfound]
      dsimp only
      split <;> rfl
    -- The variable stands in, so its path is taken at once. Which rule of the ladder applies
    -- decides whether that misleads.
    · refine ⟨?_, ?_, fun hnamed => absurd (hnamed rfl) nofun⟩
      · show some path = l.path ↔ _
        cases h with
        | typed htyped => cases htyped
        | environment _ hnamed hthere =>
          cases hnamed
          refine iff_of_true rfl ?_
          rintro ⟨_, -, ⟨⟩, hmissing⟩
          exact absurd hthere (by simp [hmissing])
        | directory _ hmissing hfirst =>
          -- What is found is a file, so it is not what the variable names.
          have hfile := List.find?_some hfirst
          refine iff_of_false ?_ (not_not_intro ⟨path, rfl, rfl, hmissing path rfl⟩)
          rintro ⟨⟩
          exact absurd (isThere_of_isFile hfile) (by simp [hmissing path rfl])
        | builtin _ hmissing =>
          exact iff_of_false nofun (not_not_intro ⟨path, rfl, rfl, hmissing path rfl⟩)
      · rintro - _ ⟨⟩
        rfl
  -- What is typed is taken before any variable is looked at.
  · obtain rfl := locate_eq_iff.mpr h
    refine ⟨iff_of_true rfl (by rintro ⟨_, ⟨⟩, -, -⟩), nofun, fun _ => (if_neg ?_).symm⟩
    rintro ⟨-, ⟨⟩⟩

/-- Wishes with variables in place of those that are not typed. -/
def Wishes.orVariables (env : Environment) (wishes : Wishes) : Wishes where
  directory := wishes.directory.or (env directoryVariable)
  signatures := wishes.signatures.or (env signaturesVariable)
  runSettings := wishes.runSettings.or (env runSettingsVariable)

/-- What is found for both files, if variables stand in for the wishes that are not typed. -/
structure StandIns (files : Files.View) (env : Environment) (user : Option String) (wishes : Wishes)
    (found : Locations) : Prop where
  signatures : ∃ ladder,
    Ladder files wishes.signatures (env signaturesVariable)
      (candidates signaturesNames (directories env user wishes.directory)) ladder ∧
    StandsIn files wishes.signatures (env signaturesVariable) wishes.directory ladder
      found.signatures
  runSettings : ∃ ladder,
    Ladder files wishes.runSettings (env runSettingsVariable)
      (candidates runSettingsNames (directories env user wishes.directory)) ladder ∧
    StandsIn files wishes.runSettings (env runSettingsVariable) wishes.directory ladder
      found.runSettings

/-- The catalog and the settings of a run are looked up one by one. -/
theorem locateAll_standIns (files : Files.View) (env : Environment) (user : Option String)
    (wishes : Wishes) :
    StandIns files env user wishes (locateAll files env user (wishes.orVariables env)) :=
  ⟨⟨_, locate_eq_iff.mp rfl, (locate_eq_iff.mp rfl).standsIn⟩,
    ⟨_, locate_eq_iff.mp rfl, (locate_eq_iff.mp rfl).standsIn⟩⟩

/-! ## Files that are not there -/

variable {found : Locations} {path : String}

theorem loadFrom_of_catalog_missing (hpath : found.signatures.path = some path)
    (hmissing : (files path).isThere = false) :
    loadFrom files found = .error (.notFound path) := by
  have hread : readFile files path = .error (.notFound path) := by simp [readFile, hmissing]
  have hcatalog : loadCatalog files found.signatures.path = .error (.notFound path) := by
    rw [hpath, loadCatalog, hread]
    rfl
  rw [loadFrom, hcatalog]
  rfl

/-- The catalog is read first, so the error can be about the catalog. -/
theorem loadFrom_of_settings_missing (hpath : found.runSettings.path = some path)
    (hmissing : (files path).isThere = false) :
    ∃ e, loadFrom files found = .error e ∧
      (e = .notFound path ∨ loadCatalog files found.signatures.path = .error e) := by
  have hread : readFile files path = .error (.notFound path) := by simp [readFile, hmissing]
  have hsettings : loadSettings files found.runSettings.path = .error (.notFound path) := by
    rw [hpath, loadSettings, hread]
    rfl
  rw [loadFrom, hsettings]
  cases loadCatalog files found.signatures.path with
  | error e => exact ⟨e, rfl, .inr rfl⟩
  | ok catalog => exact ⟨_, rfl, .inl rfl⟩

end SoftwareCensus.Config
