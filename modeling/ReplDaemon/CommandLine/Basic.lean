/-!
# Command lines

What a program understands on its command line: options with a long name and perhaps a letter,
arguments, and commands with options and arguments of their own.
-/

namespace ReplDaemon.CommandLine

/-- What an option is for: it is set or not, it has a value, or it asks for a text about the program,
which is shown instead of running it. -/
inductive Purpose where
  | flag
  | value (accepts : String → Bool)
  | display

/-- An option. If it is not given, the variable of the environment that is its fallback stands in. -/
structure Opt where
  name : String
  letter : Option Char
  purpose : Purpose
  fallback : Option String

/-- A command: its options, the number of arguments it takes at most, and the commands inside it, of
which one has to be given if there are any. -/
structure Command where
  options : List Opt
  arguments : Nat
  commands : List (String × Command)

/-- Why a command line does not lead to a run: it makes no sense, or it asks for a text. -/
inductive Refusal where
  | usage
  | shown
  deriving Repr, DecidableEq

/-- The exit status of a program that does not run. -/
def Refusal.status : Refusal → Nat
  | .usage => 2
  | .shown => 0

/-- What is given to one command. -/
structure Given where
  flags : List String
  values : List (String × String)
  arguments : List String
  deriving Repr, DecidableEq

/-- Nothing at all. -/
def Given.nothing : Given where
  flags := []
  values := []
  arguments := []

/-- A command line: the commands named, outermost first, and what was given to each of them and to
the program, innermost first. -/
structure Line where
  commands : List String
  levels : List Given
  deriving Repr, DecidableEq

/-- The variables of the environment. -/
abbrev Environment := List (String × String)

namespace Line

/-- The value of an option. Of several the innermost counts. -/
def value? (l : Line) (name : String) : Option String :=
  l.levels.findSome? fun given => given.values.lookup name

/-- Whether a flag is set. -/
def flag (l : Line) (name : String) : Bool :=
  l.levels.any fun given => given.flags.contains name

/-- The first argument of the innermost command. -/
def argument? (l : Line) : Option String :=
  l.levels.head?.bind fun given => given.arguments.head?

end Line

/-- A flag. -/
def Opt.flag (name : String) (letter : Option Char) : Opt where
  name
  letter
  purpose := .flag
  fallback := none

/-- An option with a value. -/
def Opt.value (name : String) (letter : Option Char) (accepts : String → Bool) : Opt where
  name
  letter
  purpose := .value accepts
  fallback := none

/-- The request for a text about the command. -/
def Opt.help : Opt where
  name := "help"
  letter := some 'h'
  purpose := .display
  fallback := none

/-- The request for the version. -/
def Opt.version : Opt where
  name := "version"
  letter := some 'V'
  purpose := .display
  fallback := none

/-- Any text. -/
def anyText (_ : String) : Bool := true

/-- A text that can be a path. -/
def isPath (s : String) : Bool := !s.isEmpty

end ReplDaemon.CommandLine
