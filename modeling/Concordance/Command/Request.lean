/-! # Requests

What a command line asks for. Switches may stand among the other arguments until
two hyphens end them; a switch that is not counted may stand only once.
-/

namespace Concordance

/-- What a command line can ask for. -/
inductive Request where
  | convert (output : Option String)
  /-- Compare the pages of other bundles that are linked to with those of the last time. -/
  | check (output : Option String)
  /-- Resolve one link, as it would be on a page. -/
  | resolve (link : String) (referrer : Option String)
  /-- Look a media file up. -/
  | asset (name : String)
  deriving Repr, DecidableEq

inductive Switch where
  /-- The directory for published files. -/
  | output
  /-- The page that a link stands on. -/
  | referrer
  /-- Whether a media file is looked up. -/
  | asset
  /-- How much is logged. -/
  | verbose
  | help
  deriving Repr, DecidableEq

namespace Switch

/-- The name after two hyphens. -/
def name : Switch → String
  | output => "output"
  | referrer => "from"
  | asset => "asset"
  | verbose => "verbose"
  | help => "help"

/-- The letter after one hyphen. -/
def letter? : Switch → Option Char
  | output => some 'o'
  | verbose => some 'v'
  | help => some 'h'
  | _ => none

/-- Whether the switch goes with a value. -/
def takesValue : Switch → Bool
  | output | referrer => true
  | _ => false

end Switch

/-- What a command understands. -/
structure Vocabulary where
  name : String
  switches : List Switch
  /-- The names of the other arguments that it takes. -/
  places : List String := []
  deriving Repr, DecidableEq

/-- What is wrong with a command line. -/
inductive Misuse where
  | empty
  | noCommand
  | unknownCommand (name : String)
  /-- It names a command behind two hyphens. -/
  | hiddenCommand (name : String)
  /-- A command does not understand an argument. -/
  | unknownArgument (vocabulary : Vocabulary) (arg : String)
  /-- A switch stands without the value it goes with. -/
  | noValue (switch : Switch)
  /-- A switch that stands alone is given a value. -/
  | surplusValue (vocabulary : Vocabulary) (switch : Switch) (value : String)
  | repeated (vocabulary : Vocabulary) (switch : Switch)
  /-- A media file is looked up on a page. -/
  | conflict
  /-- There is no link to resolve beside the given switches. -/
  | noLink (given : List Switch)
  deriving Repr, DecidableEq

/-- Why the reading of a command line ends without a request. -/
inductive Stop where
  | help
  | misuse (cause : Misuse)
  deriving Repr, DecidableEq

/-- What the arguments of a command say. -/
structure Arguments where
  /-- The directory for published files. -/
  output : Option String := none
  /-- The page that a link stands on. -/
  referrer : Option String := none
  /-- Whether a media file is looked up. -/
  asset : Bool := false
  /-- The arguments that are no switches. -/
  others : List String := []
  deriving Repr, DecidableEq

namespace Arguments

/-- Set a switch that goes with a value. A directory has to have a name. -/
def give (v : Vocabulary) (a : Arguments) (switch : Switch) (value : String) :
    Except Stop Arguments :=
  match switch with
  | .output =>
      if a.output.isSome then .error (.misuse (.repeated v switch))
      else if value.isEmpty then .error (.misuse (.noValue switch))
      else .ok { a with output := some value }
  | .referrer =>
      if a.referrer.isSome then .error (.misuse (.repeated v switch))
      else .ok { a with referrer := some value }
  | _ => .error (.misuse (.surplusValue v switch value))

/-- Set a switch that stands alone. -/
def flip (v : Vocabulary) (a : Arguments) (switch : Switch) : Except Stop Arguments :=
  match switch with
  | .asset =>
      if a.asset then .error (.misuse (.repeated v switch)) else .ok { a with asset := true }
  | .verbose => .ok a
  | .help => .error .help
  | _ => .error (.misuse (.noValue switch))

/-- Add an argument that is no switch, if there is a place for it. -/
def add (v : Vocabulary) (a : Arguments) (arg : String) : Except Stop Arguments :=
  if a.others.length < v.places.length then .ok { a with others := a.others ++ [arg] }
  else .error (.misuse (.unknownArgument v arg))

/-- Read letters after one hyphen. The rest after a letter that goes with a value is the value,
perhaps behind an equals sign; if there is no rest, the value is still to come. -/
def readLetters (v : Vocabulary) (a : Arguments) :
    List Char → Except Stop (Arguments × Option Switch)
  | [] => .ok (a, none)
  | c :: rest =>
      match v.switches.find? fun switch => switch.letter? == some c with
      | none => .error (.misuse (.unknownArgument v ("-" ++ c.toString)))
      | some switch =>
          if switch.takesValue then
            match rest with
            | [] => .ok (a, some switch)
            | '=' :: value => (give v a switch (String.ofList value)).map (·, none)
            | value => (give v a switch (String.ofList value)).map (·, none)
          else
            match flip v a switch with
            | .error stop => .error stop
            | .ok a => readLetters v a rest

/-- Read a name after two hyphens, perhaps with a value behind an equals sign. -/
def readName (v : Vocabulary) (a : Arguments) (text : List Char) :
    Except Stop (Arguments × Option Switch) :=
  let name := text.takeWhile (· != '=')
  let value := (text.dropWhile (· != '=')).tail?
  match v.switches.find? fun switch => switch.name.toList == name with
  | none => .error (.misuse (.unknownArgument v ("--" ++ String.ofList name)))
  | some switch =>
      match switch.takesValue, value with
      | true, some value => (give v a switch (String.ofList value)).map (·, none)
      | true, none => .ok (a, some switch)
      | false, some value =>
          .error (.misuse (.surplusValue v switch (String.ofList value)))
      | false, none => (flip v a switch).map (·, none)

/-- Whether an argument is a switch or ends the switches. A hyphen alone is neither. -/
def isSwitch (arg : String) : Bool :=
  arg != "-" && arg.toList.head? == some '-'

def readSwitch (v : Vocabulary) (a : Arguments) (arg : String) :
    Except Stop (Arguments × Option Switch) :=
  match arg.toList with
  | '-' :: '-' :: text => a.readName v text
  | '-' :: letters => a.readLetters v letters
  | _ => .error (.misuse (.unknownArgument v arg))

def read (v : Vocabulary) (a : Arguments) : List String → Except Stop Arguments
  | [] => .ok a
  | arg :: rest =>
      if arg == "--" then rest.foldlM (add v) a
      else if isSwitch arg then
        match a.readSwitch v arg with
        | .error stop => .error stop
        | .ok (a, none) => read v a rest
        | .ok (a, some switch) =>
            match rest with
            | [] => .error (.misuse (.noValue switch))
            | value :: rest =>
                if isSwitch value then .error (.misuse (.noValue switch))
                else match give v a switch value with
                  | .error stop => .error stop
                  | .ok a => read v a rest
      else match add v a arg with
        | .error stop => .error stop
        | .ok a => read v a rest

end Arguments

namespace Request

/-- What may stand before the name of a command. -/
def general : Vocabulary where
  name := "docweave"
  switches := [.verbose, .help]
  places := ["<COMMAND>"]

/-- What commands with a directory understand. -/
def withOutput (name : String) : Vocabulary where
  name := "docweave " ++ name
  switches := [.output, .verbose, .help]

/-- What the resolution of a link understands. -/
def withLink : Vocabulary where
  name := "docweave resolve"
  switches := [.asset, .referrer, .verbose, .help]
  places := ["<LINK>"]

/-- The request to resolve a link or to look a media file up. -/
def ofLink (a : Arguments) : Except Stop Request :=
  match a.asset, a.referrer, a.others with
  | true, some _, _ => .error (.misuse .conflict)
  | false, referrer, link :: _ => .ok (.resolve link referrer)
  | true, none, name :: _ => .ok (.asset name)
  | false, some _, [] => .error (.misuse (.noLink [.referrer]))
  | true, none, [] => .error (.misuse (.noLink [.asset]))
  | false, none, [] => .error (.misuse (.noLink []))

def names : List String := ["convert", "check", "resolve", "help"]

/-- What asking for help comes to: help, unless it is for something that is no command. -/
def helpFor : List String → Stop
  | [] => .help
  | name :: rest =>
      if !names.contains name then .misuse (.unknownCommand name)
      else match rest with
        | [] => .help
        | arg :: _ => .misuse (.unknownCommand arg)

/-- Read a command line up to the name of a command. -/
def parseFrom : List String → Except Stop Request
  | [] => .error (.misuse .noCommand)
  | arg :: rest =>
      if arg == "--" then
        match rest with
        | [] => .error (.misuse .noCommand)
        | name :: _ =>
            if names.contains name then .error (.misuse (.hiddenCommand name))
            else .error (.misuse (.unknownCommand name))
      else if Arguments.isSwitch arg then
        match Arguments.readSwitch general {} arg with
        | .error stop => .error stop
        | .ok _ => parseFrom rest
      else match arg with
        | "convert" => do return convert (← Arguments.read (withOutput arg) {} rest).output
        | "check" => do return check (← Arguments.read (withOutput arg) {} rest).output
        | "resolve" => do ofLink (← Arguments.read withLink {} rest)
        | "help" => .error (helpFor rest)
        | _ => .error (.misuse (.unknownCommand arg))

def parse : List String → Except Stop Request
  | [] => .error (.misuse .empty)
  | args => parseFrom args

end Request

end Concordance
