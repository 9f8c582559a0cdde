import ScriptTriage.Command.Arguments

/-
The texts about the command itself: its version and its help pages.
-/

namespace ScriptTriage

def versionText : String := "scriptwalk 0.1.0\n"

def HelpPage.programLines : List String :=
  ["Static pre-pass that finds breakpoints and shellcode candidates in hostile JavaScript",
    "",
    "Usage: scriptwalk [OPTIONS] <COMMAND>",
    "",
    "Commands:",
    "  analyze  Walk one or more scripts",
    "  help     Print this message or the help of the given subcommand(s)",
    "",
    "Options:",
    "  -f, --format <FORMAT>",
    "          Output format (json, terminal)",
    "",
    "          Possible values:",
    "          - json:     JSON output for machine consumption",
    "          - terminal: Human-readable terminal output",
    "          ",
    "          [default: terminal]",
    "",
    "  -o, --output <OUTPUT>",
    "          Write output to file",
    "",
    "  -v, --verbose",
    "          Verbose logging",
    "",
    "  -c, --config <CONFIG>",
    "          YAML file with analysis options",
    "",
    "  -h, --help",
    "          Print help (see a summary with '-h')",
    "",
    "  -V, --version",
    "          Print version"]

def HelpPage.programSummaryLines : List String :=
  ["Static pre-pass that finds breakpoints and shellcode candidates in hostile JavaScript",
    "",
    "Usage: scriptwalk [OPTIONS] <COMMAND>",
    "",
    "Commands:",
    "  analyze  Walk one or more scripts",
    "  help     Print this message or the help of the given subcommand(s)",
    "",
    "Options:",
    "  -f, --format <FORMAT>  Output format (json, terminal) [default: terminal] [possible values: json, terminal]",
    "  -o, --output <OUTPUT>  Write output to file",
    "  -v, --verbose          Verbose logging",
    "  -c, --config <CONFIG>  YAML file with analysis options",
    "  -h, --help             Print help (see more with '--help')",
    "  -V, --version          Print version"]

def HelpPage.analyzeLines : List String :=
  ["Walk one or more scripts",
    "",
    "Usage: scriptwalk analyze [OPTIONS] <PATHS>...",
    "",
    "Arguments:",
    "  <PATHS>...",
    "          Script files to analyze (\"-\" reads paths from stdin)",
    "",
    "Options:",
    "      --min-shellcode-length <MIN_SHELLCODE_LENGTH>",
    "          Minimum string length reported as a shellcode candidate",
    "",
    "  -f, --format <FORMAT>",
    "          Output format (json, terminal)",
    "",
    "          Possible values:",
    "          - json:     JSON output for machine consumption",
    "          - terminal: Human-readable terminal output",
    "          ",
    "          [default: terminal]",
    "",
    "      --strict",
    "          Skip scripts with syntax errors instead of walking the recovered tree",
    "",
    "  -o, --output <OUTPUT>",
    "          Write output to file",
    "",
    "  -v, --verbose",
    "          Verbose logging",
    "",
    "  -c, --config <CONFIG>",
    "          YAML file with analysis options",
    "",
    "  -h, --help",
    "          Print help (see a summary with '-h')"]

def HelpPage.analyzeSummaryLines : List String :=
  ["Walk one or more scripts",
    "",
    "Usage: scriptwalk analyze [OPTIONS] <PATHS>...",
    "",
    "Arguments:",
    "  <PATHS>...  Script files to analyze (\"-\" reads paths from stdin)",
    "",
    "Options:",
    "      --min-shellcode-length <MIN_SHELLCODE_LENGTH>",
    "          Minimum string length reported as a shellcode candidate",
    "  -f, --format <FORMAT>",
    "          Output format (json, terminal) [default: terminal] [possible values: json, terminal]",
    "      --strict",
    "          Skip scripts with syntax errors instead of walking the recovered tree",
    "  -o, --output <OUTPUT>",
    "          Write output to file",
    "  -v, --verbose",
    "          Verbose logging",
    "  -c, --config <CONFIG>",
    "          YAML file with analysis options",
    "  -h, --help",
    "          Print help (see more with '--help')"]

def HelpPage.helpLines : List String :=
  ["Print this message or the help of the given subcommand(s)",
    "",
    "Usage: scriptwalk help [COMMAND]...",
    "",
    "Arguments:",
    "  [COMMAND]...  Print help for the subcommand(s)"]

def HelpPage.lines : HelpPage → List String
  | .program => programLines
  | .programSummary => programSummaryLines
  | .analyze => analyzeLines
  | .analyzeSummary => analyzeSummaryLines
  | .help => helpLines

def HelpPage.text (page : HelpPage) : String := String.join (page.lines.map (· ++ "\n"))

end ScriptTriage
