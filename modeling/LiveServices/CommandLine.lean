import LiveServices.Replay

/-!
# The command line

`tether replay FILE` replays a scenario, and `tether check FILE` checks an importer
configuration. The text of the file is given to a request, so what a command line prints is a
value and no effect.

Arguments are read one after the other, and the first that does not fit ends the reading. A
request for the version or for help ends it too, with success. Exit code 1 says that the command
failed, exit code 2 that it was not understood.
-/

namespace LiveServices.CommandLine

/-- The subcommands. -/
inductive Subcommand where
  | replay
  | check
  deriving DecidableEq

/-- The subcommand of a name. -/
def Subcommand.ofName? : String → Option Subcommand
  | "replay" => some replay
  | "check" => some check
  | _ => none

/-- The options without a value. -/
inductive Switch where
  | debug
  | json
  | parallel
  deriving DecidableEq

/-- What the arguments ask for. -/
inductive Request where
  /-- A subcommand for a file, with these options. -/
  | command (subcommand : Subcommand) (file : String) (switches : List Switch)
  | version
  | help
  deriving DecidableEq

/-- The end of a program: its exit code and what it printed. -/
structure Outcome where
  code : UInt32
  output : String
  deriving DecidableEq

/-! ## Reading arguments -/

/-- The arguments that were read so far. The switches are those that were given since the
subcommand. -/
structure Arguments where
  subcommand : Option Subcommand := none
  switches : List Switch := []
  file : Option String := none
  /-- Whether what follows is no option, whatever it looks like. -/
  isLiteral : Bool := false

/-- What an argument leads to: more arguments, the topics that help is asked for, or the end of
the reading. -/
inductive Progress where
  | more (a : Arguments)
  | topics
  | done (request : Option Request)

/-- Nothing fits. -/
def Progress.refused : Progress := .done none

namespace Arguments

/-- Whether a switch is understood after these arguments. -/
def knows (a : Arguments) : Switch → Bool
  | .debug => true
  | .json => a.subcommand.isSome
  | .parallel => a.subcommand = some .replay

/-- A switch, which may be given once. -/
def addSwitch (a : Arguments) (s : Switch) : Progress :=
  if a.knows s && !a.switches.contains s then .more { a with switches := s :: a.switches }
  else .refused

/-- A long option. -/
def addLong (a : Arguments) : String → Progress
  | "--debug" => a.addSwitch .debug
  | "--json" => a.addSwitch .json
  | "--parallel" => a.addSwitch .parallel
  | "--version" => .done (if a.subcommand.isNone then some .version else none)
  | "--help" => .done (some .help)
  | _ => .refused

/-- The letters of short options. -/
def addShorts (a : Arguments) : List Char → Progress
  | [] => .more a
  | 'd' :: letters =>
    match a.addSwitch .debug with
    | .more a => a.addShorts letters
    | ended => ended
  | 'V' :: _ => .done (if a.subcommand.isNone then some .version else none)
  | 'h' :: _ => .done (some .help)
  | _ => .refused

/-- An argument that is no option: the subcommand, then the file. -/
def addWord (a : Arguments) (w : String) : Progress :=
  match a.subcommand, a.file with
  | none, _ =>
    if a.isLiteral then .refused
    else if w = "help" then .topics
    else match Subcommand.ofName? w with
      | some s => .more { a with subcommand := some s, switches := [] }
      | none => .refused
  | some _, none => if w.isEmpty then .refused else .more { a with file := some w }
  | some _, some _ => .refused

/-- An argument. -/
def add (a : Arguments) (w : String) : Progress :=
  if a.isLiteral then a.addWord w
  else match w.toList with
    | ['-', '-'] => .more { a with isLiteral := true }
    | '-' :: '-' :: _ => a.addLong w
    | '-' :: c :: letters => a.addShorts (c :: letters)
    | _ => a.addWord w

/-- What complete arguments ask for. -/
def request? (a : Arguments) : Option Request :=
  match a.subcommand, a.file with
  | some s, some file => some (.command s file a.switches)
  | _, _ => none

/-- What a request for help on these topics comes to: there is help on everything, and on one
subcommand. -/
def helpOn? : List String → Option Request
  | [] => some .help
  | [topic] =>
    if topic = "help" || (Subcommand.ofName? topic).isSome then some .help else none
  | _ => none

/-- What these arguments, with more of them, ask for. -/
def read? (a : Arguments) : List String → Option Request
  | [] => a.request?
  | w :: ws =>
    match a.add w with
    | .more a => a.read? ws
    | .topics => helpOn? ws
    | .done request => request

end Arguments

/-- What arguments ask for. -/
def parse? (args : List String) : Option Request := ({} : Arguments).read? args

/-! ## Answering requests -/

/-- The output of a check. -/
def checkText (file : String) (c : ImporterConfig) : String :=
  let truth := fun (b : Bool) => if b then "true" else "false"
  "✓ " ++ file ++ " is valid\n" ++
    "  beanName:   " ++ c.beanName ++ "\n" ++
    "  filter:     " ++ c.filter ++ "\n" ++
    "  mandatory:  " ++ truth c.mandatory ++ "\n" ++
    "  collection: " ++ c.collection.name ++ "\n" ++
    (match c.sortBy with
      | some key => "  sortBy:     " ++ key ++ "\n"
      | none => "") ++
    "  proxies:    " ++ truth c.proxies ++ "\n"

/-- The output of a subcommand for a file of this text, if it succeeds. -/
def output? (s : Subcommand) (file : String) (switches : List Switch) (text : String) :
    Option String := do
  match s with
  | .check =>
    let c ← (ImporterConfig.ofToml text).toOption
    pure (if switches.contains .json then c.toJson.pretty ++ "\n" else checkText file c)
  | .replay =>
    let scenario ← (Scenario.ofToml text).toOption
    let result := if switches.contains .parallel then scenario.replayParallel id
      else scenario.replay
    let records ← result.toOption
    pure ((if switches.contains .json then (Transcript.toJson records).pretty
      else Transcript.text records) ++ "\n")

/-- The text that explains the arguments. -/
def usage : String :=
  "Usage: tether [--debug] replay FILE [--json] [--parallel]\n" ++
    "       tether [--debug] check FILE [--json]\n"

/-- The outcome of a request, given the text of its file if that can be read. -/
def Request.outcome (text : Option String) : Request → Outcome
  | version => ⟨0, "tether 0.1.0\n"⟩
  | help => ⟨0, usage⟩
  | command s file switches =>
    match text.bind (output? s file switches) with
    | some output => ⟨0, output⟩
    | none => ⟨1, ""⟩

/-- The file of a request. -/
def Request.file? : Request → Option String
  | command _ file _ => some file
  | _ => none

/-- The outcome of arguments that ask for nothing. -/
def Outcome.misused : Outcome := ⟨2, ""⟩

end LiveServices.CommandLine
