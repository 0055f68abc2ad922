import Concordance.Link.Outcome
import Concordance.Json.Basic

/-! # Problems

What a build reports about its input. Problems never stop a build.
-/

namespace Concordance

inductive Severity where
  /-- An input could not be used at all. -/
  | error
  /-- Something was left out or unresolved. -/
  | warning
  | information
  deriving Repr, DecidableEq

namespace Severity

/-- The name in data. -/
def name : Severity → String
  | error => "error"
  | warning => "warning"
  | information => "information"

/-- The name in reports. -/
def heading : Severity → String
  | error => "Error"
  | warning => "Warning"
  | information => "Note"

end Severity

/-- A problem found by a build. -/
structure Problem where
  /-- What happened. -/
  message : String
  note : Option String := none
  /-- The identifier of the page it was found on. -/
  page : Option String := none
  severity : Severity := .warning
  /-- The file it comes from. -/
  source : Option String := none
  suggestion : Option String := none
  deriving Repr, DecidableEq

namespace Problem

/-- A warning about an input file. -/
def warning (message source : String) : Problem where
  message := message
  source := some source

/-- The report of a link that failed, on the page that holds it. A failure with a remark is for
information only, for it is as intended. -/
def ofFailure (failure : Failure) (page : String) : Problem where
  message := failure.message
  note := failure.note
  page := some page
  severity :=
    match failure.kind, failure.note with
    | .unresolved, some _ => .information
    | _, _ => .warning
  suggestion := failure.suggestion

/-- A member of the JSON form, which is left out if there is no value. -/
def member (name : String) : Option String → List (String × Json)
  | none => []
  | some s => [(name, .string s)]

def json (p : Problem) : Json :=
  .object ([("message", .string p.message)] ++ member "note" p.note ++ member "page" p.page
    ++ [("severity", .string p.severity.name)] ++ member "source" p.source
    ++ member "suggestion" p.suggestion)

/-- The report for readers: a heading, where it happened, the remark, and the likely remedy. -/
def report (p : Problem) : String :=
  let heading := s!"# {p.severity.heading}: {p.message}\n"
  let gap := if p.source.isSome || p.page.isSome then "\n" else ""
  let source := match p.source with
    | some source => s!"In `{source}`.\n"
    | none => ""
  let page := match p.page with
    | some page => s!"On page `{page}`.\n"
    | none => ""
  let note := match p.note with
    | some note => s!"\n{note}\n"
    | none => ""
  let suggestion := match p.suggestion with
    | some s => s!"\n## Did you mean `{s}`?\n"
    | none => ""
  heading ++ gap ++ source ++ page ++ note ++ suggestion

end Problem

end Concordance
