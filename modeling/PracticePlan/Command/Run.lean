import PracticePlan.Archive.Basic
import PracticePlan.Command.Config
import PracticePlan.Command.Invocation
import PracticePlan.Files.Name
import PracticePlan.Notation.Convert
import PracticePlan.Printout

namespace PracticePlan

/-!
# Running commands

A run reads files, prints to two channels and may fail.  What was printed
before a failure stays printed.  Warnings about a plan go to the second
channel before anything is done with the plan, and a timeline is printed before
the plan is committed to the archive.

A failure is reported by what went wrong, followed by its causes.
-/

/-- What has been printed. -/
structure Printed where
  output : String
  errors : String
deriving DecidableEq, Repr

/-- Why a command fails. -/
inductive CommandError where
  | reading (path : String) (fault : FileFault)
  | writing (path : String) (fault : FileFault)
  | config (path : String) (fault : ConfigFault)
  | noConfigFolder
  | unknownCategory (name : String)
  | format (error : Notation.FormatError)
  | build (error : BuildError)
  | archive (error : ArchiveError)

namespace CommandError

def configCause : ConfigFault → String
  | .json .endOfText => "unexpected end of the configuration"
  | .json .malformed => "malformed configuration"
  | .shape => "configuration of the wrong shape"

/-- What went wrong, followed by its causes. -/
def chain : CommandError → List String
  | reading path fault => ["reading " ++ path, fault.message]
  | writing path fault => ["writing " ++ path, fault.message]
  | config path fault => ["parsing " ++ path, configCause fault]
  | noConfigFolder => ["no config dir"]
  | unknownCategory name => [Printout.unknownCategory name]
  | format error => [error.message]
  | build error => match error.fault with
      | .arguments cause => [error.message, cause.message]
      | _ => [error.message]
  | archive error => error.chain

/-- A cause behind its mark, further lines indented as far. -/
def causeLine (mark : String) (cause : String) : String :=
  let margin := String.ofList (List.replicate mark.length ' ')
  "\n" ++ mark ++ Text.joined ("\n" ++ margin)
    ((Text.pieces '\n' cause.toList).map String.ofList)

def numberedCauses (number : Nat) : List String → List String
  | [] => []
  | cause :: rest =>
      let mark := String.ofList (Text.padLeft ' ' 5 (Text.digitsOf number)) ++ ": "
      causeLine mark cause :: numberedCauses (number + 1) rest

/-- The causes of a failure, numbered when there are several. -/
def causesText : List String → String
  | [] => ""
  | [cause] => "\n\nCaused by:" ++ causeLine "    " cause
  | causes => "\n\nCaused by:" ++ String.join (numberedCauses 0 causes)

def report (error : CommandError) : String :=
  match error.chain with
  | [] => ""
  | what :: causes => "Error: " ++ what ++ causesText causes ++ "\n"

end CommandError

/-- Where a program runs.  The folder of the user's configurations need not
exist. -/
structure Environment where
  configFolder : Option String

/-- What a run leaves behind. -/
structure Outcome where
  code : Nat
  printed : Printed

/-- Steps of a run, which print and may fail. -/
abbrev Run (m : Type → Type) : Type → Type :=
  ExceptT CommandError (StateT Printed m)

namespace Run

variable {m : Type → Type} [Monad m]

def print (text : String) : Run m Unit :=
  modifyThe Printed fun printed => { printed with output := printed.output ++ text }

/-- Print a line to the second channel. -/
def note (text : String) : Run m Unit :=
  modifyThe Printed fun printed => { printed with errors := printed.errors ++ text ++ "\n" }

def warn (warnings : List Notation.Warning) : Run m Unit :=
  warnings.forM fun warning => note ("warning: " ++ warning.toText)

/-- Take part in a step that may fail in its own way. -/
def attempt {ε α : Type} (wrap : ε → CommandError) (step : ExceptT ε m α) : Run m α :=
  ExceptT.mk do
    match ← (step.run : m (Except ε α)) with
    | .ok value => return .ok value
    | .error error => return .error (wrap error)

/-- Go on with a result, or fail. -/
def accept {ε α : Type} (wrap : ε → CommandError) (result : Except ε α) : Run m α :=
  match result with
  | .ok value => return value
  | .error error => throw (wrap error)

/-- The name of the program's folder among the user's configurations. -/
def folderName : String :=
  "woodshed"

/-- The program's own folder. -/
def homeFolder? (environment : Environment) : Option String :=
  environment.configFolder.map fun folder => Files.inside folder folderName

variable [Files m]

def readConfig (path : String) : Run m Config := do
  let text ← attempt (.reading path) (Files.read path)
  accept (.config path) (Config.ofText text)

/-- Read the configuration in its usual place, where it may be missing. -/
def usualConfig (path : String) : Run m Config :=
  tryCatch (readConfig path) fun error => match error with
    | .reading _ .missing => return .standard
    | other => throw other

/-- Read the configuration that is asked for, or the usual one. -/
def loadConfig (environment : Environment) (explicit : Option String) : Run m Config :=
  match explicit, homeFolder? environment with
  | some path, _ => readConfig path
  | none, some folder => usualConfig (Files.inside folder "config.json")
  | none, none => return .standard

def storeOf (environment : Environment) (config : Config) : Run m (Store m) :=
  match config.storeFolder, homeFolder? environment with
  | some folder, _ => return Store.inFolder folder
  | none, some folder => return Store.inFolder folder
  | none, none => throw .noConfigFolder

/-- Read a text and find out its notation. -/
def readInput (path : String) : Run m (String × Notation.Format) := do
  let text ← attempt (.reading path) (Files.read path)
  return (text, (Notation.Format.ofPath? path).getD (.detect text))

variable {σ φ : Type} [IntervalSettings σ] [Feature φ]

/-- Read a plan and print the warnings. -/
def readPlan (registry : Registry σ φ) (config : Config) (path : String) :
    Run m (Plan σ × Notation.Format) := do
  let (text, source) ← readInput path
  let codec ← accept .format (Notation.Codec.ofFormat registry config.defaultCategory source)
  let report ← accept .format (codec.readPlan registry text)
  warn report.warnings
  return (report.plan, source)

def writtenIn (registry : Registry σ φ) (config : Config) (target : Notation.Format)
    (plan : Plan σ) : Run m String := do
  let codec ← accept .format (Notation.Codec.ofFormat registry config.defaultCategory target)
  accept .format (codec.writePlan registry plan)

/-- Convert a plan, to the other notation unless one is named. -/
def convert (registry : Registry σ φ) (config : Config) (input : String)
    (target : Option Notation.Format) (output : Option String) : Run m Unit := do
  let (plan, source) ← readPlan registry config input
  let written ← writtenIn registry config (target.getD source.other) plan
  match output with
  | some path => attempt (.writing path) (Files.write path written)
  | none => print written

def outline (registry : Registry σ φ) (config : Config) (input : String) : Run m Unit := do
  let (plan, _) ← readPlan registry config input
  print (Printout.outline plan)

/-- The plan, called after its file when it has no name. -/
def named (plan : Plan σ) (path : String) : Plan σ :=
  if plan.name.isEmpty then
    { plan with name := String.ofList ((FileName.stem? path.toList).getD []) }
  else plan

/-- Build the timeline of a plan, print it, and commit the plan. -/
def build (openStore : Run m (Store m)) (registry : Registry σ φ) (config : Config)
    (input : String) (commits : Bool) : Run m Unit := do
  let (read, _) ← readPlan registry config input
  let plan := named read input
  let timeline ← accept .build
    (Timeline.ofPlan registry (.ofMinutes config.maxTotalMinutes) plan)
  print (Printout.timeline timeline)
  if commits then
    let store ← openStore
    attempt .archive (Archive.commit store plan)

def features (registry : Registry σ φ) (category : Option String) : Run m Unit :=
  match Printout.features? registry category with
  | some text => print text
  | none => throw (.unknownCategory (category.getD ""))

/-- Print the plan that was committed last. -/
def last (openStore : Run m (Store m)) (registry : Registry σ φ) (config : Config) :
    Run m Unit := do
  let store ← openStore
  match ← attempt .archive (Archive.restore store registry) with
  | none => note "no schedule has been committed yet"
  | some report =>
      warn report.warnings
      let written ← writtenIn registry config .text report.plan
      if !report.plan.name.isEmpty then note ("last schedule: " ++ report.plan.name)
      print written

/-- Run a command with a configuration.  The store is opened only by the commands
that use it. -/
def command (openStore : Run m (Store m)) (registry : Registry σ φ) (config : Config) :
    Command → Run m Unit
  | .convert input target output => convert registry config input target output
  | .outline input => outline registry config input
  | .build input commits => build openStore registry config input commits
  | .features category => features registry category
  | .last => last openStore registry config

def invocation (environment : Environment) (registry : Registry σ φ) (invoked : Invocation) :
    Run m Unit := do
  let config ← loadConfig environment invoked.config
  command (storeOf environment config) registry config invoked.command

/-- The outcome of a run, with the report of its failure. -/
def outcome (steps : Run m Unit) : m Outcome := do
  let (result, printed) ← steps.run.run ⟨"", ""⟩
  match result with
  | .ok () => return ⟨0, printed⟩
  | .error error => return ⟨1, { printed with errors := printed.errors ++ error.report }⟩

def usage : String :=
  Text.joined "\n"
    ["Plan and check practice schedules", "",
     "Usage: woodshed [--config <CONFIG>] <COMMAND>", "", "Commands:",
     "  convert <INPUT> [--to <TO>] [-o <OUTPUT>]", "  outline <INPUT>",
     "  build <INPUT> [--no-commit]", "  features [CATEGORY]", "  last", ""]

/-- Do what a command line asks for. -/
def request (environment : Environment) (registry : Registry σ φ) : Request → m Outcome
  | .run invoked => outcome (invocation environment registry invoked)
  | .help => return ⟨0, ⟨usage, ""⟩⟩
  | .version => return ⟨0, ⟨"woodshed-cli 0.1.0\n", ""⟩⟩
  | .misuse => return ⟨2, ⟨"", usage⟩⟩

end Run
end PracticePlan
