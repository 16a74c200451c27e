import ReplDaemon.CommandLine.Basic

/-!
# Reading command lines

`--name` and `-n` name an option. A value follows as the next word, unless that begins with a hyphen,
or is attached: `--name=v`, `-n=v`, `-nv`. Letters can be combined. Behind `--` everything is an
argument. No option is given twice to one command.

The value that follows an option as a word of its own is checked when the next option or argument is
met, or at the end, and so behind everything that belongs to a command named after it.
-/

namespace ReplDaemon.CommandLine

/-- What the last option still needs: nothing, its value, or a look at the value it got. -/
inductive Due where
  | nothing
  | value (o : Opt)
  | check (o : Opt) (v : String)

/-- How far the reading of one command has come. -/
structure Progress where
  given : Given
  due : Due

namespace Progress

/-- Nothing is read yet. -/
def start : Progress where
  given := .nothing
  due := .nothing

/-- Whether an option accepts a value. -/
def accepts (o : Opt) (v : String) : Bool :=
  match o.purpose with
  | .value accepts => accepts v
  | .flag | .display => false

/-- Takes note of an option's value. -/
def addValue (given : Given) (o : Opt) (v : String) : Except Refusal Given :=
  if (given.values.lookup o.name).isSome || !accepts o v then .error .usage
  else .ok { given with values := given.values ++ [(o.name, v)] }

/-- Gives the last option what it still needs. -/
def settle (p : Progress) : Except Refusal Given :=
  match p.due with
  | .nothing => .ok p.given
  | .value _ => .error .usage
  | .check o v => addValue p.given o v

/-- Takes note of an option without a value. -/
def addFlag (p : Progress) (o : Opt) : Except Refusal Progress := do
  let given ← p.settle
  match o.purpose with
  | .display => throw .shown
  | .value _ => return { given, due := .value o }
  | .flag =>
    if given.flags.contains o.name then throw .usage
    return { given := { given with flags := given.flags ++ [o.name] }, due := .nothing }

/-- Takes note of an option with the value attached to it. -/
def addAttached (p : Progress) (o : Opt) (v : String) : Except Refusal Progress := do
  let given ← p.settle
  return { given := ← addValue given o v, due := .nothing }

/-- Takes note of an argument. -/
def addArgument (c : Command) (p : Progress) (word : String) : Except Refusal Progress := do
  let given ← p.settle
  if given.arguments.length < c.arguments then
    return { given := { given with arguments := given.arguments ++ [word] }, due := .nothing }
  throw .usage

/-- Reads an option by its name, with what follows an equals sign. -/
def readName (c : Command) (p : Progress) (name : String) (attached : Option String) :
    Except Refusal Progress :=
  match c.options.find? (·.name == name), attached with
  | none, _ => .error .usage
  | some o, none => p.addFlag o
  | some o, some v => p.addAttached o v

/-- A value attached to a letter, which may have an equals sign before it. -/
def attachedValue : List Char → String
  | '=' :: cs => .ofList cs
  | cs => .ofList cs

/-- Reads letters. The rest behind a letter whose option has a value is that value. -/
def readLetters (c : Command) (p : Progress) : List Char → Except Refusal Progress
  | [] => .ok p
  | l :: rest =>
    match c.options.find? (·.letter == some l) with
    | none => .error .usage
    | some o =>
      match o.purpose, rest with
      | .value _, _ :: _ => p.addAttached o (attachedValue rest)
      | _, _ => do readLetters c (← p.addFlag o) rest

/-- What a variable of the environment stands in for has to be acceptable too. -/
def checkVariables (environment : Environment) (c : Command) (given : Given) : Bool :=
  c.options.all fun o =>
    match o.fallback.bind fun name => environment.lookup name with
    | some v => (given.values.lookup o.name).isSome || accepts o v
    | none => true

/-- Ends the reading of one command. -/
def finish (environment : Environment) (c : Command) (p : Progress) : Except Refusal Given := do
  let given ← p.settle
  if checkVariables environment c given then return given
  throw .usage

end Progress

/-- A word: the end of the options, an option by name or by letters, or anything else. -/
inductive Word where
  | endOfOptions
  | name (name : String) (attached : Option String)
  | letters (letters : List Char)
  | plain

/-- Tells a word by its hyphens. -/
def Word.of (s : String) : Word :=
  match s.toList with
  | ['-', '-'] => .endOfOptions
  | '-' :: '-' :: cs =>
    let name := cs.takeWhile (· != '=')
    match cs.drop name.length with
    | [] => .name (.ofList name) none
    | _ :: value => .name (.ofList name) (some (.ofList value))
  | '-' :: c :: cs => .letters (c :: cs)
  | _ => .plain

/-- The name of the command that explains the others. -/
def helpName : String := "help"

/-- Whether words name a command inside another one, step by step. -/
def Command.leadsTo (c : Command) : List String → Bool
  | [] => true
  | word :: rest =>
    match c.commands.lookup word with
    | some inner => inner.leadsTo rest
    | none => word == helpName && !c.commands.isEmpty && rest.isEmpty

/-- Reads the words of a command from some point on. -/
def readFrom (environment : Environment) (c : Command) (p : Progress) :
    List String → Except Refusal Line
  | [] => do
    let given ← p.finish environment c
    if c.commands.isEmpty then return { commands := [], levels := [given] }
    throw .usage
  | word :: rest =>
    match Word.of word, p.due with
    | .endOfOptions, _ => do
      let p ← rest.foldlM (Progress.addArgument c) p
      let given ← p.finish environment c
      if c.commands.isEmpty then return { commands := [], levels := [given] }
      throw .usage
    | .name name attached, _ => do
      readFrom environment c (← p.readName c name attached) rest
    | .letters letters, _ => do
      readFrom environment c (← p.readLetters c letters) rest
    | .plain, .value o => readFrom environment c { p with due := .check o word } rest
    | .plain, _ =>
      match c.commands.lookup word with
      | some inner => do
        let line ← readFrom environment inner .start rest
        let given ← p.finish environment c
        return { commands := word :: line.commands, levels := line.levels ++ [given] }
      | none =>
        if word == helpName && !c.commands.isEmpty then
          .error (if c.leadsTo rest then .shown else .usage)
        else do readFrom environment c (← p.addArgument c word) rest

/-- Reads the words behind the name of a program. -/
def read (environment : Environment) (c : Command) (words : List String) : Except Refusal Line :=
  readFrom environment c .start words

end ReplDaemon.CommandLine
