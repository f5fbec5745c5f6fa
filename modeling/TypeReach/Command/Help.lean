import TypeReach.Analysis.Report
import TypeReach.Command.Arguments

/-!
# Help on the command line

What is printed when the arguments lead to no command.
-/

namespace TypeReach.Command

/-- The commands and their options. -/
def helpText : String :=
  "\n".intercalate
    ["Reachability analysis over classpaths.",
      "",
      "Usage: classreach [-v|-q] analyze [OPTIONS]",
      "       classreach [-v|-q] describe [OPTIONS] TYPE",
      "",
      "Commands:",
      "  analyze, run  Evaluate the candidates of the index files and write artifacts",
      "  describe      Show the attributes, hints and stereotype of a type",
      "",
      "Options:",
      "  -c, --config PATH            Configuration file",
      "      --classpath, --cp PATHS  More classpath entries, separated by colons",
      "  -o, --output DIRECTORY       Where to write artifacts (analyze)",
      "  -f, --format FORMAT          pretty or json (analyze)",
      "      --strict                 Fail when a mandatory type is missing (analyze)",
      "  -v, --verbose                Accepted, but there is no log",
      "  -q, --quiet                  Accepted, but there is no log",
      "  -h, --help                   Print this help",
      "  -V, --version                Print the version",
      ""]

namespace Usage

/-- What was wrong with the arguments. -/
def fault : Usage → String
  | help => ""
  | version => ""
  | helpForNothing => "no arguments"
  | missingCommand => "a command is missing"
  | unknownCommand => "unknown command"
  | unknownArgument => "unknown argument"
  | missingArgument => "the type is missing"
  | invalidValue => "an option has no valid value"
  | conflict => "an option is repeated or excluded by another one"
  | surplusValue => "an option takes no value"

/-- The text for a reader. -/
def message : Usage → String
  | help => helpText
  | version => "classreach " ++ Analysis.Report.version ++ "\n"
  | helpForNothing => helpText
  | usage => "error: " ++ usage.fault ++ "\n\n" ++ helpText

end Usage

end TypeReach.Command
