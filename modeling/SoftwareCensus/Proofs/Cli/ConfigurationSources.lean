import SoftwareCensus.Cli.Commands
import SoftwareCensus.Proofs.Config.Ladder

/-!
# Where a Run Finds Its Configuration

The variables that name files of configuration are read twice: with the command line, where they
stand in for options that are not typed, and again when the files are looked up. The first reading
leaves nothing to the second, so what a variable names is never passed over. If it is not there, the
run ends, where the ladder of what is typed leads on to the directories.

## Main results

* `Cli.read_eq` : a command line is what is typed with variables filled in
* `Cli.load_standIns` : what a run loads, beside what the ladder of what is typed leads to
* `Cli.missing_variable_ends_run` : a run that ends although there is a catalog on the ladder
-/

namespace SoftwareCensus.Cli

variable {env : Config.Environment} {given : Occurrences} {words : List String} {t : Invocation}
  {asked : Sources} {c : Command}

/-! ## What is typed -/

/-- What a command line asks for by itself, when no variable stands in for an option. -/
def typed (words : List String) : Except Stop Invocation := Invocation.read (fun _ => none) words

/-- The sources of configuration that a command has. -/
def Command.sources? : Command → Option Sources
  | .discover _ asked .. => some asked
  | .check asked => some asked
  | .plugins => none

/-! ## Variables in place of options -/

/-- Sources of configuration with variables in place of those that are not typed. -/
def Sources.orVariables (env : Config.Environment) (asked : Sources) : Sources where
  signatures := asked.signatures.or (env Config.signaturesVariable)
  runSettings := asked.runSettings.or (env Config.runSettingsVariable)

/-- Whether a file is asked for whose name is empty. -/
def Sources.HasEmpty (asked : Sources) : Prop :=
  asked.signatures = some "" ∨ asked.runSettings = some ""

instance : DecidablePred Sources.HasEmpty := fun asked =>
  inferInstanceAs (Decidable (asked.signatures = some "" ∨ asked.runSettings = some ""))

/-- Fills in variables, and refuses empty names. -/
def Sources.filled (env : Config.Environment) (asked : Sources) : Except Stop Sources :=
  if (asked.orVariables env).HasEmpty then .error .misuse else .ok (asked.orVariables env)

/-- Fills variables into the sources of a command. -/
def Command.filled (env : Config.Environment) : Command → Except Stop Command
  | .discover inventory asked included excluded continueOnError full =>
    (asked.filled env).map (.discover inventory · included excluded continueOnError full)
  | .check asked => (asked.filled env).map Command.check
  | .plugins => .ok .plugins

/-- Fills variables into an invocation. -/
def Invocation.filled (env : Config.Environment) (i : Invocation) : Except Stop Invocation :=
  (i.command.filled env).map fun command =>
    { i with command, directory := i.directory.or (env Config.directoryVariable) }

theorem orVariable_eq (name variableName : String) :
    orVariable env given name variableName = (given.value? name).or (env variableName) := by
  rw [orVariable]
  cases given.value? name <;> rfl

/-- What is typed is read first, and an empty name is refused wherever it comes from. -/
theorem sourcesOf_eq (env : Config.Environment) (given : Occurrences) :
    sourcesOf env given = (sourcesOf (fun _ => none) given).bind (Sources.filled env) := by
  simp only [sourcesOf, orVariable_eq, Option.or_none, Bool.or_eq_true, beq_iff_eq]
  by_cases hempty : given.value? "signatures" = some "" ∨ given.value? "run-config" = some ""
  · -- What is typed stays, so it is still empty with variables filled in.
    rw [if_pos hempty, if_pos]
    · rfl
    · exact hempty.imp (fun h => by rw [h]; rfl) (fun h => by rw [h]; rfl)
  · rw [if_neg hempty]
    rfl

theorem commandOf_eq (env : Config.Environment) (name : String) (given : Occurrences) :
    commandOf env name given =
      (commandOf (fun _ => none) name given).bind (Command.filled env) := by
  unfold commandOf
  split
  · rw [sourcesOf_eq]
    cases sourcesOf (fun _ => none) given with
    | error stop => rfl
    | ok asked =>
      show (asked.filled env).bind _ = Except.bind (Except.bind (.ok asked) _) _
      cases hinventory : given.value? "inventory" with
      | none =>
        -- Whatever is wrong, it is a misuse.
        rw [Sources.filled]
        split <;> rfl
      | some inventory =>
        show _ = (asked.filled env).map _
        cases asked.filled env <;> rfl
  · rw [sourcesOf_eq]
    cases sourcesOf (fun _ => none) given with
    | error stop => rfl
    | ok asked =>
      show (asked.filled env).bind _ = (asked.filled env).map Command.check
      cases asked.filled env <;> rfl
  · rfl

/-- **A command line is what is typed** with variables filled in. -/
theorem read_eq (env : Config.Environment) (words : List String) :
    Invocation.read env words = (typed words).bind (Invocation.filled env) := by
  unfold typed Invocation.read
  -- No variable is looked at before the command is made of what is given.
  cases Level.read ⟨none, globalOptions⟩ [] words with
  | error stop => rfl
  | ok result =>
    obtain ⟨before, rest⟩ := result
    dsimp only [bind, Except.bind]
    split
    case h_1 => rfl
    case h_2 => rfl
    case h_3 name rest hname =>
      cases commands.find? (·.1 == name) with
      | none => rfl
      | some entry =>
        obtain ⟨command, options⟩ := entry
        dsimp only
        cases Level.read ⟨some name, globalOptions ++ options⟩ [] rest with
        | error stop => rfl
        | ok result =>
          obtain ⟨given, rest⟩ := result
          dsimp only
          split
          case isTrue => rfl
          case isFalse =>
            rw [commandOf_eq]
            cases commandOf (fun _ => none) name given with
            | error stop => rfl
            | ok command =>
              show (command.filled env >>= fun command => _) = (command.filled env).map _
              cases command.filled env with
              | error stop => rfl
              | ok command =>
                dsimp only [Except.map, bind, Except.bind, pure, Except.pure]
                congr 2
                -- Only the directory is left, that is typed on either side of the command.
                generalize (if given.has "config" then _ else _ : List String).head? = directory
                cases directory <;> rfl

/-- Only the sources of a command change when variables are filled in. -/
theorem exists_filled_eq (hasked : c.sources? = some asked) (env : Config.Environment) :
    ∃ rebuild : Sources → Command, (∀ filled, (rebuild filled).sources? = some filled) ∧
      c.filled env = (asked.filled env).map rebuild := by
  cases c with
  | plugins => cases hasked
  | discover inventory _ included excluded continueOnError full =>
    cases hasked
    exact ⟨(.discover inventory · included excluded continueOnError full), fun _ => rfl, rfl⟩
  | check =>
    cases hasked
    exact ⟨.check, fun _ => rfl, rfl⟩

/-! ## What a run loads -/

/-- **What a run loads.** A variable that stands in for an option is refused if it is empty. Otherwise
what is loaded is what the ladder of what is typed leads to, unless a variable names what is not
there: then the run ends. What variables lead to counts as typed. -/
theorem load_standIns {s : Surroundings} (htyped : typed words = .ok t)
    (hasked : t.command.sources? = some asked) :
    ((asked.orVariables s.env).HasEmpty → Invocation.read s.env words = .error .misuse) ∧
    (¬ (asked.orVariables s.env).HasEmpty →
      ∃ i filled found, Invocation.read s.env words = .ok i ∧ i.command.sources? = some filled ∧
        i.load s filled = Config.loadFrom s.files found ∧
        Config.StandIns s.files s.env s.userBase (t.wishes asked) found ∧
        (∀ path, Config.Misleads s.files asked.signatures (s.env Config.signaturesVariable) path →
          i.load s filled = .error (.notFound path)) ∧
        ∀ path, Config.Misleads s.files asked.runSettings (s.env Config.runSettingsVariable) path →
          ∃ e, i.load s filled = .error e ∧ (e = .notFound path ∨
            Config.loadCatalog s.files found.signatures.path = .error e)) := by
  have hread : Invocation.read s.env words = t.filled s.env := by
    rw [read_eq, htyped]
    rfl
  obtain ⟨rebuild, hsources, hfilled⟩ := exists_filled_eq hasked s.env
  rw [hread, Invocation.filled, hfilled, Sources.filled]
  constructor
  · intro hempty
    rw [if_pos hempty]
    rfl
  · intro hempty
    rw [if_neg hempty]
    have hfound := Config.locateAll_standIns s.files s.env s.userBase (t.wishes asked)
    refine ⟨_, _, _, rfl, hsources _, rfl, hfound, ?_, ?_⟩
    -- What the variable names is taken unseen, and then there is nothing to read.
    · rintro path ⟨hnone, hnamed, hmissing⟩
      obtain ⟨_, -, hstands⟩ := hfound.signatures
      have hpath := congrArg Config.Location.path (hstands.instead hnone path hnamed)
      exact Config.loadFrom_of_catalog_missing hpath hmissing
    · rintro path ⟨hnone, hnamed, hmissing⟩
      obtain ⟨_, -, hstands⟩ := hfound.runSettings
      have hpath := congrArg Config.Location.path (hstands.instead hnone path hnamed)
      exact Config.loadFrom_of_settings_missing hpath hmissing

/-- A directory with a catalog. -/
private def withCatalog : Files.View := fun path =>
  if path = "c/signatures.yaml" then .text "- name: J\n  cmd_regexp: j\n" else .missing

/-- An environment that names this directory and maybe a catalog. -/
private def naming (catalog : Option String) : Config.Environment := fun name =>
  if name = Config.signaturesVariable then catalog
  else if name = Config.directoryVariable then some "c"
  else none

/-- What surrounds a run in such an environment. -/
private def besideCatalog (catalog : Option String) : Surroundings where
  env := naming catalog
  userBase := none
  files := withCatalog
  input := .ok ""
  runId := default
  discoveryTime := ""
  timestamp := ""
  levels := 1

private theorem find_catalog (catalog : Option String) :
    (Config.candidates Config.signaturesNames (Config.directories (naming catalog) none none)).find?
      (fun place => (withCatalog place.2).isFile) = some (.environment, "c/signatures.yaml") := by
  have hjoin : Files.join "c" "signatures.yaml" = "c/signatures.yaml" := by decide +kernel
  have hplaces : ∃ rest, Config.candidates Config.signaturesNames
      (Config.directories (naming catalog) none none) =
        (.environment, Files.join "c" "signatures.yaml") :: rest := ⟨_, rfl⟩
  obtain ⟨rest, hplaces⟩ := hplaces
  rw [hplaces, hjoin]
  rfl

/-- A catalog in the directory that a variable names counts as asked for by the command line. -/
theorem load_standIns_directory :
    typed ["check"] = .ok { command := .check {} } ∧
      ∃ i filled found, Invocation.read (naming none) ["check"] = .ok i ∧
        i.command.sources? = some filled ∧
        i.load (besideCatalog none) filled = Config.loadFrom withCatalog found ∧
        found.signatures = ⟨some "c/signatures.yaml", .commandLine⟩ := by
  have htyped : typed ["check"] = .ok { command := .check {} } := rfl
  have hempty : ¬ (Sources.orVariables (naming none) {}).HasEmpty := by decide
  obtain ⟨-, hload⟩ := load_standIns (s := besideCatalog none) htyped rfl
  obtain ⟨i, filled, found, hread, hfilled, hfound, ⟨⟨ladder, hladder, hstands⟩, -⟩, -⟩ :=
    hload hempty
  refine ⟨htyped, i, filled, found, hread, hfilled, hfound, ?_⟩
  -- The ladder leads to one place only.
  have hplace : Config.Ladder withCatalog none none _ ⟨some "c/signatures.yaml", .environment⟩ :=
    .directory rfl nofun (find_catalog none)
  obtain rfl := (Config.locate_eq_iff.mpr hladder).symm.trans (Config.locate_eq_iff.mpr hplace)
  exact hstands.otherwise fun _ => rfl

/-- The ladder of what is typed leads to the catalog in the directory, but the variable for the
catalog names what is not there, and the run ends. -/
theorem missing_variable_ends_run :
    typed ["check"] = .ok { command := .check {} } ∧
      Config.Ladder withCatalog none (some "gone.yaml")
        (Config.candidates Config.signaturesNames (Config.directories (naming (some "gone.yaml")) none none))
        ⟨some "c/signatures.yaml", .environment⟩ ∧
      Invocation.read (naming (some "gone.yaml")) ["check"] =
        .ok { command := .check { signatures := some "gone.yaml" }, directory := some "c" } ∧
      Invocation.load { command := .check { signatures := some "gone.yaml" }, directory := some "c" }
        (besideCatalog (some "gone.yaml")) { signatures := some "gone.yaml" } =
          .error (.notFound "gone.yaml") ∧
      (respond (besideCatalog (some "gone.yaml")) ["check"]).code = 11 := by
  refine ⟨rfl, .directory rfl ?_ (find_catalog _), rfl, rfl, rfl⟩
  rintro _ ⟨⟩
  rfl

end SoftwareCensus.Cli
