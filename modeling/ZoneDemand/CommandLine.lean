/-!
# The command line

The arguments name at most one command and give values to options, before or after
it.  An option before the command and the same option after it are two options, of
which the one after it counts; at either place it may be given only once.

The value of an option is the argument after it, or a text attached to it.  A value
that is an argument of its own is checked only when the next option begins or the
arguments end, so that a request for help may come first.
-/

namespace ZoneDemand

inductive Command where
  | run
  | build
  | fetch
deriving DecidableEq, Repr

namespace Command

def name : Command → String
  | .run => "run"
  | .build => "build"
  | .fetch => "fetch"

def ofName? (text : String) : Option Command :=
  [run, build, fetch].find? fun c => c.name = text

end Command

inductive Choice where
  | settings
  | sourceStem
  | stagingFile
  | outputDirectory
  | logLevel
deriving DecidableEq, Repr

namespace Choice

def all : List Choice := [.settings, .sourceStem, .stagingFile, .outputDirectory, .logLevel]

def longName : Choice → String
  | .settings => "config"
  | .sourceStem => "source-prefix"
  | .stagingFile => "staging-file"
  | .outputDirectory => "output-dir"
  | .logLevel => "log-level"

def shortName? : Choice → Option Char
  | .settings => some 'c'
  | .outputDirectory => some 'o'
  | .logLevel => some 'v'
  | _ => none

def ofLongName? (name : String) : Option Choice := all.find? fun c => c.longName = name

def ofShortName? (name : Char) : Option Choice := all.find? fun c => c.shortName? = some name

/-- The value is a path, which must not be empty. -/
def isPath : Choice → Bool
  | .settings | .stagingFile | .outputDirectory => true
  | .sourceStem | .logLevel => false

end Choice

inductive Stop where
  | help
  | version
  | usage
deriving DecidableEq, Repr

structure CommandLine where
  command : Option Command
  value? : Choice → Option String

namespace CommandLine

inductive Word where
  | plain (text : String)
  /-- The mark after which there are no options. -/
  | separator
  | long (name : String) (attached : Option String)
  | short (name : Char) (attached : Option String)
deriving DecidableEq, Repr

/-- What is attached to a short name, an equals sign before it being dropped. -/
def attachedText : List Char → Option String
  | [] => none
  | '=' :: text => some (String.ofList text)
  | text => some (String.ofList text)

def Word.ofText (text : String) : Word :=
  match text.toList with
  | ['-', '-'] => .separator
  | '-' :: '-' :: rest =>
      let name := String.ofList (rest.takeWhile (· ≠ '='))
      match rest.dropWhile (· ≠ '=') with
      | [] => .long name none
      | _ :: value => .long name (some (String.ofList value))
  | '-' :: name :: rest => .short name (attachedText rest)
  | _ => .plain text

/-- An option whose value has not been checked, or not even been seen. -/
structure Pending where
  choice : Choice
  value : Option String
deriving DecidableEq, Repr

/-- The options before the command, or those after it. -/
structure Level where
  given : List (Choice × String)
  pending : Option Pending
deriving DecidableEq, Repr

namespace Level

def empty : Level := ⟨[], none⟩

def keep (level : Level) (choice : Choice) (value : String) : Except Stop Level :=
  if (level.given.lookup choice).isSome ∨ (choice.isPath ∧ value = "") then .error .usage
  else .ok { level with given := level.given ++ [(choice, value)] }

def settle (level : Level) : Except Stop Level :=
  match level.pending with
  | none => .ok level
  | some ⟨choice, some value⟩ => keep { level with pending := none } choice value
  | some ⟨_, none⟩ => .error .usage

/-- Begins an option, or takes all of it. -/
def begin (level : Level) (choice : Choice) (attached : Option String) : Except Stop Level :=
  match level.settle with
  | .error stop => .error stop
  | .ok settled =>
      match attached with
      | some value => settled.keep choice value
      | none => .ok { settled with pending := some ⟨choice, none⟩ }

def waiting? (level : Level) : Option Choice :=
  match level.pending with
  | some ⟨choice, none⟩ => some choice
  | _ => none

/-- Stops once the option that is pending has been checked. -/
def stopWith (level : Level) (stop : Stop) : Except Stop Level :=
  match level.settle with
  | .error earlier => .error earlier
  | .ok _ => .error stop

/-- Takes an option.  The version is shown only before a command. -/
def take (level : Level) (root : Bool) (choice? : Option Choice) (help version : Bool)
    (attached : Option String) : Except Stop Level :=
  match choice? with
  | some choice => level.begin choice attached
  | none =>
      if help then level.stopWith .help
      else if version ∧ root then level.stopWith .version
      else .error .usage

end Level

/-- Whether the words after `help` are at most one that can be explained. -/
def explains : List String → Bool
  | [] => true
  | [name] => name = "help" || (Command.ofName? name).isSome
  | _ => false

/-- Reads arguments up to a command, which is answered with the arguments after it.
Only at the root there are commands; at the end all options have been checked. -/
def scan (root : Bool) (level : Level) :
    List String → Except Stop (Level × Option (Command × List String))
  | [] => level.settle.map fun settled => (settled, none)
  | argument :: rest =>
      match Word.ofText argument, level.waiting? with
      | .plain text, some choice =>
          scan root { level with pending := some ⟨choice, some text⟩ } rest
      | .plain text, none =>
          if !root then .error .usage
          else if text = "help" then .error (if explains rest then .help else .usage)
          else match Command.ofName? text with
            | some command => .ok (level, some (command, rest))
            | none => .error .usage
      | .separator, _ =>
          if rest = [] then level.settle.map fun settled => (settled, none)
          else .error .usage
      | .long name attached, _ =>
          let bare := attached.isNone
          match level.take root (Choice.ofLongName? name) (bare && name = "help")
              (bare && name = "version") attached with
          | .ok changed => scan root changed rest
          | .error stop => .error stop
      | .short name attached, _ =>
          match level.take root (Choice.ofShortName? name) (name = 'h') (name = 'V')
              attached with
          | .ok changed => scan root changed rest
          | .error stop => .error stop

def parse (arguments : List String) : Except Stop CommandLine :=
  match scan true .empty arguments with
  | .error stop => .error stop
  | .ok (level, none) => .ok ⟨none, fun choice => level.given.lookup choice⟩
  | .ok (level, some (command, rest)) =>
      match scan false .empty rest with
      | .error stop => .error stop
      | .ok (inner, _) =>
          match level.settle with
          | .error stop => .error stop
          | .ok outer =>
              .ok ⟨some command, fun choice =>
                inner.given.lookup choice <|> outer.given.lookup choice⟩

end CommandLine
end ZoneDemand
