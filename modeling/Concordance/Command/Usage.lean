import Concordance.Command.Request
import Concordance.Text.Blank
import Concordance.Text.Likeness

/-! # Usage

What is said about the command line: the explanation of its commands, and what is wrong
with a command line that cannot be understood.
-/

namespace Concordance

namespace Usage

def help : List String := [
  "Compile symbol graphs and markup into linked documentation",
  "",
  "Usage: docweave [OPTIONS] <COMMAND>",
  "",
  "Commands:",
  "  convert  Build every page and write the output directory",
  "  check    Verify the lockfile still matches the external references",
  "  resolve  Resolve one link and print its identifier and URL",
  "  help     Print this message or the help of the given subcommand(s)",
  "",
  "Options:",
  "  -v, --verbose...  Raise log verbosity (-v debug, -vv trace). `RUST_LOG` overrides",
  "  -h, --help        Print help"]

/-- The last line about a misuse. -/
def hint : String := "For more information, try '--help'."

/-- A switch with the name of the value it goes with. -/
def switchText (switch : Switch) : String :=
  let name := "--" ++ switch.name
  match switch with
  | .output => name ++ " <OUTPUT>"
  | .referrer => name ++ " <FROM>"
  | .verbose => name ++ "..."
  | _ => name

/-- How a command is called with the given switches, or with any. -/
def call (v : Vocabulary) (given : List Switch) : String :=
  let switches := if given.isEmpty then ["[OPTIONS]"] else given.map switchText
  "Usage: " ++ " ".intercalate (v.name :: switches ++ v.places)

/-- The hints to names that may have been meant. -/
def meant (kind : String) : List String → List String
  | [] => []
  | [name] => ["", s!"  tip: a similar {kind} exists: '{name}'"]
  | names =>
      let quoted := names.map fun name => s!"'{name}'"
      ["", s!"  tip: some similar {kind}s exist: " ++ ", ".intercalate quoted]

end Usage

namespace Misuse

open Usage

/-- What is said about an argument that a command does not understand. -/
def unknownLines (v : Vocabulary) (arg : String) : List String :=
  let like : List Switch := match Text.dropLead? "--" arg with
    | some name => v.switches.filter fun s => !(Text.alike name [s.name]).isEmpty
    | none => []
  let asValue :=
    if v.name != Request.general.name && !v.places.isEmpty && arg.toList.head? == some '-'
        && like.isEmpty then
      ["", s!"  tip: to pass '{arg}' as a value, use '-- {arg}'"]
    else []
  [s!"error: unexpected argument '{arg}' found"]
    ++ meant "argument" ((like.take 1).map fun s : Switch => "--" ++ s.name) ++ asValue
    ++ ["", call v (like.take 1)]

/-- What is said about a command line that cannot be understood. -/
def lines (m : Misuse) : List String :=
  match m with
  | .empty => Usage.help
  | m =>
      (match m with
      | .empty => []
      | .noCommand =>
          [s!"error: '{Request.general.name}' requires a subcommand but one was not provided",
            "  [subcommands: " ++ ", ".intercalate Request.names ++ "]", "",
            call Request.general []]
      | .unknownCommand name =>
          [s!"error: unrecognized subcommand '{name}'"]
            ++ meant "subcommand" (Text.alike name Request.names)
            ++ ["", call Request.general []]
      | .hiddenCommand name =>
          [s!"error: unexpected argument '{name}' found", "",
            s!"  tip: subcommand '{name}' exists; to use it, remove the '--' before it", "",
            call Request.general []]
      | .unknownArgument v arg => unknownLines v arg
      | .noValue switch =>
          [s!"error: a value is required for '{switchText switch}' but none was supplied"]
      | .surplusValue v switch value =>
          [s!"error: unexpected value '{value}' for '{switchText switch}' found; "
            ++ "no more were expected", "", call v []]
      | .repeated v switch =>
          [s!"error: the argument '{switchText switch}' cannot be used multiple times", "",
            call v []]
      | .conflict =>
          [s!"error: the argument '{switchText .asset}' cannot be used with "
            ++ s!"'{switchText .referrer}'", "", call Request.withLink [.asset]]
      | .noLink given =>
          ["error: the following required arguments were not provided:", "  <LINK>", "",
            if given.isEmpty then "Usage: docweave resolve <LINK>"
            else call Request.withLink given])
      ++ ["", hint]

end Misuse

end Concordance
