/-!
# Reading options

A command line is read argument by argument. Options stand before a command or after it; a value
follows its option as the next argument, after `=`, or, for a short option, directly. An option is
given at most once on each side of the command, and a value does not begin with a dash unless it is
one. In place of the command may stand the word `help`, and after it the command to be told about.
-/

namespace WorkspaceSync.CommandLine

/-- An option: without a check it takes no value, else one that passes the check. -/
structure OptionSpec where
  name : String
  short : Option Char
  accepts : Option (String → Bool)

/-- A command and the options that it adds to the general ones. -/
structure CommandSpec where
  name : String
  options : List OptionSpec

structure ProgramSpec where
  general : List OptionSpec
  commands : List CommandSpec

/-- The options that were given, by name; those without a value have an empty one. -/
abbrev Given := List (String × String)

/-- Why the reading ends before the arguments do. -/
inductive Stop where
  | help
  | version
  | misuse
  deriving DecidableEq, Repr

/-- What help is asked for with the word `help`. -/
inductive Topic where
  | program
  | command
  deriving DecidableEq, Repr

/-- What has been read so far. -/
structure Progress where
  /-- The options before the command. -/
  outer : Given
  command : Option CommandSpec
  /-- The options after the command. -/
  inner : Given
  /-- An option that waits for its value. -/
  pending : Option OptionSpec
  /-- Whether a double dash has ended the options. -/
  closed : Bool
  /-- What to tell about, once the word `help` was read. -/
  topic : Option Topic

namespace Progress

def start : Progress := ⟨[], none, [], none, false, none⟩

/-- The options that may be given where the reading stands. -/
def options (p : Progress) (spec : ProgramSpec) : List OptionSpec :=
  spec.general ++ (p.command.map (·.options)).getD []

/-- The options given on this side of the command. -/
def side (p : Progress) : Given := if p.command.isNone then p.outer else p.inner

/-- Takes in an option with its value. -/
def give (p : Progress) (o : OptionSpec) (value : String) : Except Stop Progress :=
  if (p.side.lookup o.name).isSome then .error .misuse
  else if o.accepts.any fun accepts => !accepts value then .error .misuse
  else
    let entry := (o.name, value)
    .ok <| if p.command.isNone then { p with outer := p.outer ++ [entry], pending := none }
      else { p with inner := p.inner ++ [entry], pending := none }

/-- An option whose value, if it takes one, is the next argument. -/
def await (p : Progress) (o : OptionSpec) : Except Stop Progress :=
  if o.accepts.isNone then p.give o "" else .ok { p with pending := some o }

/-- An option by its name, perhaps with a value after `=`. -/
def long (spec : ProgramSpec) (p : Progress) (cs : List Char) : Except Stop Progress :=
  let name := String.ofList (cs.takeWhile (· ≠ '='))
  let value := cs.dropWhile (· ≠ '=')
  if name = "help" && value = [] then .error .help
  else if name = "version" && p.command.isNone && value = [] then .error .version
  else
    match (p.options spec).find? (·.name = name), value with
    | none, _ => .error .misuse
    | some o, [] => p.await o
    | some o, _ :: value =>
      if o.accepts.isNone then .error .misuse else p.give o (String.ofList value)

/-- Options by their letters, the last perhaps with a value. -/
def letters (spec : ProgramSpec) (p : Progress) : List Char → Except Stop Progress
  | [] => .ok p
  | c :: cs =>
    if c = 'h' then .error .help
    else if c = 'V' && p.command.isNone then .error .version
    else
      match (p.options spec).find? (·.short = some c) with
      | none => .error .misuse
      | some o =>
        if o.accepts.isNone then
          match p.give o "" with
          | .ok p => letters spec p cs
          | .error e => .error e
        else
          match cs with
          | [] => .ok { p with pending := some o }
          | '=' :: value => p.give o (String.ofList value)
          | value => p.give o (String.ofList value)

def helpWord : String := "help"

/-- A word that is no option must be the command. -/
def word (spec : ProgramSpec) (p : Progress) (arg : String) : Except Stop Progress :=
  if p.command.isSome then .error .misuse
  else if arg = helpWord then .ok { p with topic := some .program }
  else
    match spec.commands.find? (·.name = arg) with
    | some c => .ok { p with command := some c }
    | none => .error .misuse

/-- Help is given about the program, a command or the word `help`, and commands have no parts. -/
def narrow (spec : ProgramSpec) (p : Progress) (arg : String) : Topic → Except Stop Progress
  | .program =>
    if arg = helpWord || spec.commands.any (·.name = arg) then
      .ok { p with topic := some .command }
    else .error .misuse
  | .command => .error .misuse

/-- Takes in one argument. -/
def step (spec : ProgramSpec) (p : Progress) (arg : String) : Except Stop Progress :=
  if p.closed then .error .misuse
  else
    match p.topic, p.pending, arg.toList with
    | some t, _, _ => p.narrow spec arg t
    | none, some o, ['-'] => p.give o arg
    | none, some _, '-' :: _ => .error .misuse
    | none, some o, _ => p.give o arg
    | none, none, ['-', '-'] => .ok { p with closed := true }
    | none, none, '-' :: '-' :: cs => p.long spec cs
    | none, none, '-' :: c :: cs => p.letters spec (c :: cs)
    | none, none, _ => p.word spec arg

/-- The command with all options; those after it win. -/
def finish (p : Progress) : Except Stop (String × Given) :=
  match p.topic, p.pending, p.command with
  | some _, _, _ => .error .help
  | none, none, some c => .ok (c.name, p.inner ++ p.outer)
  | none, _, _ => .error .misuse

end Progress

/-- Reads a command and its options. -/
def ProgramSpec.read (spec : ProgramSpec) (args : List String) : Except Stop (String × Given) :=
  match args.foldlM (Progress.step spec) .start with
  | .error e => .error e
  | .ok p => p.finish

end WorkspaceSync.CommandLine
