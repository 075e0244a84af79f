/-!
# Help

What the program tells about itself when it is asked for help or for its version.
-/

namespace SoftwareCensus.Cli

/-- The name of the program. -/
def programName : String := "swd"

/-- The version of the program. -/
def programVersion : String := "0.1.0"

/-- The text for a version. -/
def versionText (command : Option String) : String :=
  let name := match command with
    | some command => programName ++ "-" ++ command
    | none => programName
  name ++ " " ++ programVersion ++ "\n"

/-- The lines about options that all commands have, up to those for help and for the version. -/
def globalHelp : List String :=
  ["      --config <CONFIG>          Override config directory [env: SWD_CONFIG_DIR=]",
    "  -f, --format <FORMAT>          Output format [default: json] " ++
      "[possible values: json, yaml, summary]",
    "  -v, --verbose...               Increase verbosity (-v, -vv, -vvv)",
    "  -q, --quiet                    Decrease verbosity (quiet mode)",
    "      --log-format <LOG_FORMAT>  Log line format on stderr [possible values: human, jsonl]",
    "      --no-color                 Disable colored output"]

/-- The lines about the options for help and for the version. -/
def finalHelp : List String :=
  ["  -h, --help                     Print help",
    "  -V, --version                  Print version"]

/-- The lines about the files of configuration. -/
def sourceHelp : List String :=
  ["      --signatures <SIGNATURES>  Signature catalog file (YAML or JSON) [env: SWD_SIGNATURES=]",
    "      --run-config <RUN_CONFIG>  Run configuration file (TOML) [env: SWD_RUN_CONFIG=]"]

/-- The lines of the help for a command, or for the program. -/
def helpLines (command : Option String) : List String :=
  match command with
  | some "discover" =>
    ["Detect software instances in an inventory document", "",
      "Usage: swd discover [OPTIONS] --inventory <INVENTORY>", "", "Options:",
      "  -i, --inventory <INVENTORY>    " ++
        "Inventory document (JSON or YAML); \x60-\x60 reads stdin"] ++
      globalHelp.take 1 ++ sourceHelp ++ globalHelp.drop 1 ++
      ["      --include <NAME>           Only evaluate these signatures (repeatable)",
        "      --exclude <NAME>           Skip these signatures (repeatable)",
        "      --continue-on-error        Drop instances whose tasks fail instead of aborting",
        "      --full                     Also report the run id, dropped instances and " ++
          "unclaimed pids"] ++ finalHelp
  | some "check" =>
    ["Validate the signature catalog, run config and task lists", "", "Usage: swd check [OPTIONS]",
      "", "Options:"] ++ sourceHelp ++ globalHelp ++ finalHelp
  | some "plugins" =>
    ["List the builtin plugins", "", "Usage: swd plugins [OPTIONS]", "", "Options:"] ++
      globalHelp ++ finalHelp
  | _ =>
    ["Software Discovery - detect installed software from process inventories", "",
      "Usage: swd [OPTIONS] <COMMAND>", "", "Commands:",
      "  discover  Detect software instances in an inventory document",
      "  check     Validate the signature catalog, run config and task lists",
      "  plugins   List the builtin plugins",
      "  help      Print this message or the help of the given subcommand(s)", "", "Options:"] ++
      globalHelp ++ finalHelp

/-- The text of the help for a command, or for the program. -/
def helpText (command : Option String) : String :=
  String.join ((helpLines command).map (· ++ "\n"))

/-- What is told when a command line is misused. -/
def misuseText : String :=
  "error: the command line is not understood\n\nFor more information, try '--help'.\n"

end SoftwareCensus.Cli
