import PracticePlan.Notation.Format

namespace PracticePlan

/-!
# Command lines

A command line names one of five commands, with operands and options.  The
option for the configuration belongs to all of them and may stand in front of
the command as well.  When it is given in both places, the later one counts.

An option may be given once.  Its value is the next word, or follows an equals
sign, or directly the letter of a short option.  The next word is not taken for
a value when it starts with a hyphen, unless it is nothing but a hyphen.  After
a word of two hyphens all words are operands, and a command cannot be named any
more.

A command line that breaks these rules is misused, and nothing is run.
-/

/-- What is to be done. -/
inductive Command where
  | convert (input : String) (target : Option Notation.Format) (output : Option String)
  | outline (input : String)
  | build (input : String) (commits : Bool)
  | features (category : Option String)
  | last
deriving DecidableEq, Repr

/-- A command and the configuration to run it with. -/
structure Invocation where
  config : Option String
  command : Command
deriving DecidableEq, Repr

/-- What a command line asks for. -/
inductive Request where
  | run (invocation : Invocation)
  | help
  | version
  | misuse
deriving DecidableEq, Repr

namespace Request

/-- The options. -/
inductive Flag where
  | config
  | target
  | output
  | noCommit
  | help
  | version
deriving DecidableEq, Repr

namespace Flag

/-- The options by their long names. -/
def long : List (String × Flag) :=
  [("config", config), ("to", target), ("output", output), ("no-commit", noCommit),
   ("help", help), ("version", version)]

/-- The options by their letters. -/
def short : List (Char × Flag) :=
  [('o', output), ('h', help), ('V', version)]

def hasValue : Flag → Bool
  | config | target | output => true
  | noCommit | help | version => false

/-- Whether a text can be the value of an option. -/
def accepts : Flag → String → Bool
  | config, value | output, value => !value.isEmpty
  | target, value => (Notation.Format.ofName value).isOk
  | _, value => value.isEmpty

end Flag

/-- The commands by kind. -/
inductive Kind where
  | convert
  | outline
  | build
  | features
  | last
deriving DecidableEq, Repr

namespace Kind

def named : List (String × Kind) :=
  [("convert", convert), ("outline", outline), ("build", build), ("features", features),
   ("last", last)]

/-- The options that may follow a command, or stand in front of all commands. -/
def allows : Option Kind → Flag → Bool
  | _, .config | _, .help => true
  | none, .version => true
  | some convert, .target | some convert, .output => true
  | some build, .noCommit => true
  | _, _ => false

/-- How many operands a command may have. -/
def operands : Kind → Nat
  | last => 0
  | _ => 1

end Kind

/-- What has been read of a command line.  `outer` holds the options in front
of the command and `given` those behind it, each with its value.  An option
without a value has the empty text. -/
structure Progress where
  outer : List (Flag × String)
  kind : Option Kind
  given : List (Flag × String)
  operands : List String
  onlyOperands : Bool
deriving DecidableEq, Repr

namespace Progress

def begun : Progress :=
  ⟨[], none, [], [], false⟩

/-- Take an option with its value, unless it was given before. -/
def give (progress : Progress) (flag : Flag) (value : String) : Option Progress :=
  let before := if progress.kind.isNone then progress.outer else progress.given
  if !Kind.allows progress.kind flag || (before.lookup flag).isSome || !flag.accepts value then none
  else if progress.kind.isNone then some { progress with outer := (flag, value) :: progress.outer }
  else some { progress with given := (flag, value) :: progress.given }

/-- Take a word that is no option: the command, or an operand of it. -/
def take (progress : Progress) (word : String) : Option Progress :=
  match progress.kind with
  | none =>
      if progress.onlyOperands then none
      else (Kind.named.lookup word).map fun kind => { progress with kind := some kind }
  | some kind =>
      if progress.operands.length < kind.operands && (!word.isEmpty || kind = .features) then
        some { progress with operands := progress.operands ++ [word] }
      else none

/-- The command of a complete command line. -/
def command (progress : Progress) : Option Command :=
  match progress.kind, progress.operands with
  | some .convert, [input] =>
      some (.convert input
        ((progress.given.lookup .target).bind fun name => (Notation.Format.ofName name).toOption)
        (progress.given.lookup .output))
  | some .outline, [input] => some (.outline input)
  | some .build, [input] => some (.build input (progress.given.lookup .noCommit).isNone)
  | some .features, operands => some (.features operands.head?)
  | some .last, [] => some .last
  | _, _ => none

/-- What a complete command line asks for. -/
def request (progress : Progress) : Request :=
  match progress.command with
  | some command =>
      .run ⟨progress.given.lookup .config <|> progress.outer.lookup .config, command⟩
  | none => .misuse

end Progress

/-- An option in a word, with the value that the same word holds. -/
inductive Word where
  | separator
  | flag (flag : Flag) (value : Option String)
  | unknown
  | plain (word : String)
deriving DecidableEq, Repr

namespace Word

/-- A word that starts with two hyphens. -/
def ofLong (text : List Char) : Word :=
  let parts := (Text.cut? '=' text).getD (text, [])
  let value := (Text.cut? '=' text).map fun cut => String.ofList cut.2
  match Flag.long.lookup (String.ofList parts.1) with
  | some found => flag found value
  | none => unknown

/-- A word that starts with one hyphen. -/
def ofShort : List Char → Word
  | [] => plain "-"
  | letter :: rest => match Flag.short.lookup letter with
      | none => unknown
      | some found =>
          if !found.hasValue then flag found none
          else match rest with
            | [] => flag found none
            | '=' :: value => flag found (some (String.ofList value))
            | value => flag found (some (String.ofList value))

def ofText (word : String) : Word :=
  match word.toList with
  | ['-', '-'] => separator
  | '-' :: '-' :: text => ofLong text
  | '-' :: text => ofShort text
  | _ => plain word

/-- Whether a word can be the value of the option in front of it. -/
def isValue (word : String) : Bool :=
  word = "-" || word.toList.head? ≠ some '-'

end Word

/-- The request for help about a command, which may be left out. -/
def helpOn : List String → Request
  | [] => .help
  | [word] => if (Kind.named.lookup word).isSome || word = "help" then .help else .misuse
  | _ => .misuse

def readFrom (progress : Progress) : List String → Request
  | [] => progress.request
  | text :: rest =>
      if progress.onlyOperands then
        match progress.take text with
        | some next => readFrom next rest
        | none => .misuse
      else match Word.ofText text with
        | .separator => readFrom { progress with onlyOperands := true } rest
        | .unknown => .misuse
        | .plain word =>
            if progress.kind.isNone && word = "help" then helpOn rest
            else match progress.take word with
              | some next => readFrom next rest
              | none => .misuse
        | .flag flag value =>
            if !Kind.allows progress.kind flag then .misuse
            else match flag, value with
              | .help, none => .help
              | .version, none => .version
              | _, some value =>
                  if flag.hasValue then
                    match progress.give flag value with
                    | some next => readFrom next rest
                    | none => .misuse
                  else .misuse
              | _, none =>
                  if flag.hasValue then
                    match rest with
                    | [] => .misuse
                    | value :: others =>
                        if Word.isValue value then
                          match progress.give flag value with
                          | some next => readFrom next others
                          | none => .misuse
                        else .misuse
                  else match progress.give flag "" with
                    | some next => readFrom next rest
                    | none => .misuse

/-- What the words of a command line ask for. -/
def ofWords (words : List String) : Request :=
  readFrom .begun words

end Request
end PracticePlan
