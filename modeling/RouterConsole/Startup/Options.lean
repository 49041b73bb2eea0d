import RouterConsole.Config.Notation
import RouterConsole.Text.Split

/-!
# Program arguments

The options that the program takes. A long option may be shortened as long as it stays unambiguous,
and takes its value after an equals sign or as the next argument; a short option takes it directly
after the letter or as the next argument, and short options without values may be written together,
or with an equals sign after the first. Where an option is given twice the last one counts. An
argument that is no option, an option that there is not, a missing value and a value that is not
allowed all end the program. The sign that ends the options is no value, even where one is due: an
option whose value it takes the place of is set to nothing.
-/
namespace RouterConsole.Startup

open Config (Format)

inductive NamesFault where
  | none
  | duplicate (value : String)
  deriving DecidableEq, Repr

def NamesFault.message : NamesFault → String
  | .none => "at least one interface name is required"
  | .duplicate v => "duplicate interface names in '" ++ v ++ "'"

/-- Reads interface names with commas between them; blanks around a name do not count, and neither
do empty names. -/
def interfaceNames (value : String) : Except NamesFault (List String) :=
  let names := ((Text.splitAt ',' value.toList).map Text.trim).filter (· ≠ [])
  if names = [] then .error .none
  else if names.Nodup then .ok (names.map String.ofList)
  else .error (.duplicate value)

inductive FileChoice where
  | named (path : String)
  | nothing
  deriving DecidableEq, Repr

def FileChoice.path? : FileChoice → Option String
  | .named path => some path
  | .nothing => none

def defaultInterfaces : List String := ["eth0", "lo"]

structure Options where
  name : String := "vyos"
  interfaces : List String := defaultInterfaces
  config : Option FileChoice := none
  format : Option Format := none
  dump : Bool := false
  script : Option FileChoice := none
  verbose : Bool := false
  deriving DecidableEq, Repr

inductive Flag where
  | help
  | name
  | interfaces
  | config
  | format
  | dump
  | script
  | verbose
  deriving DecidableEq, Repr

namespace Flag

def takesValue : Flag → Bool
  | help | dump | verbose => false
  | _ => true

/-- Every spelling of every option. -/
def spellings : List (String × Flag) :=
  [("-h", help), ("--help", help), ("--name", name), ("--interfaces", interfaces), ("-c", config),
    ("--config", config), ("--format", format), ("--dump", dump), ("--script", script),
    ("-v", verbose), ("--verbose", verbose)]

def ofSpelling? (s : List Char) : Option Flag := spellings.lookup (String.ofList s)

end Flag

/-- How an argument reads on its own. -/
inductive Argument where
  /-- A value, or a word that belongs to no option. -/
  | plain
  /-- The sign after which every argument is plain. -/
  | separator
  /-- An option and the text that is written together with it, after an equals sign or directly.
  `short` says that it was written with one dash, so that the text may be further letters. -/
  | option (flag : Flag) (short : Bool) (attached : Option (List Char))
  | unknown
  deriving DecidableEq, Repr

/-- Whether a text is a number below zero, and so no option. -/
def isNegativeNumber : List Char → Bool
  | '-' :: cs =>
    let cs := if cs.getLast? = some '\n' then cs.dropLast else cs
    let isDigit (c : Char) : Bool := (Text.digitValue? c).isSome
    match Text.splitAt '.' cs with
    | [whole] => whole ≠ [] && whole.all isDigit
    | [whole, fraction] => whole.all isDigit && fraction ≠ [] && fraction.all isDigit
    | _ => false
  | _ => false

/-- The spelling before the first equals sign, and what is attached after it. -/
def splitValue (cs : List Char) : List Char × Option (List Char) :=
  match cs.dropWhile (· ≠ '=') with
  | [] => (cs, none)
  | _ :: value => (cs.takeWhile (· ≠ '='), some value)

def abbreviated (cs : List Char) : List Argument :=
  match cs with
  | '-' :: '-' :: _ =>
    let (spelling, attached) := splitValue cs
    Flag.spellings.filterMap fun (s, flag) =>
      if spelling.isPrefixOf s.toList then some (.option flag false attached) else none
  | '-' :: letter :: rest =>
    (Flag.ofSpelling? ['-', letter]).toList.map fun flag => .option flag true (some rest)
  | _ => []

/-- Reads an argument on its own; `none` if it is ambiguous. -/
def readArgument (s : String) : Option Argument :=
  let cs := s.toList
  if cs = ['-', '-'] then some .separator
  else if cs.head? ≠ some '-' ∨ cs = ['-'] then some .plain
  else match Flag.ofSpelling? cs with
    | some flag => some (.option flag (cs.length == 2) none)
    | none =>
      let (spelling, attached) := splitValue cs
      match attached, Flag.ofSpelling? spelling with
      | some a, some flag => some (.option flag (spelling.length == 2) (some a))
      | _, _ =>
        match abbreviated cs with
        | [a] => some a
        | _ :: _ :: _ => none
        | [] => some (if isNegativeNumber cs || cs.contains ' ' then .plain else .unknown)

def readArguments : List String → Option (List (String × Argument))
  | [] => some []
  | s :: rest => do
    let a ← readArgument s
    if a = .separator then return (s, a) :: rest.map (·, .plain)
    return (s, a) :: (← readArguments rest)

inductive Reading where
  | options (options : Options)
  | help
  | badUsage
  deriving DecidableEq, Repr

inductive OptionValue where
  | text (cs : List Char)
  /-- The sign that ends the options stands where the value should be. -/
  | nothing
  deriving DecidableEq, Repr

def OptionValue.ofChars (cs : List Char) : OptionValue :=
  if cs = ['-', '-'] then .nothing else .text cs

def OptionValue.file : OptionValue → FileChoice
  | .text cs => .named (String.ofList cs)
  | .nothing => .nothing

/-- The options with one more of them set; `none` if its value is not allowed. The name of a router
that is called nothing is a pair of brackets. -/
def Options.set (o : Options) (flag : Flag) (value : OptionValue) : Option Options :=
  match flag, value with
  | .help, _ => some o
  | .name, .text cs => some { o with name := String.ofList cs }
  | .name, .nothing => some { o with name := "[]" }
  | .interfaces, .text cs =>
    (interfaceNames (String.ofList cs)).toOption.map fun names => { o with interfaces := names }
  | .interfaces, .nothing => some { o with interfaces := defaultInterfaces }
  | .config, value => some { o with config := some value.file }
  | .format, .text cs =>
    ([Format.commands, .hierarchical].find? (·.name == String.ofList cs)).map fun f =>
      { o with format := some f }
  | .format, .nothing => some { o with format := none }
  | .dump, _ => some { o with dump := true }
  | .script, value => some { o with script := some value.file }
  | .verbose, _ => some { o with verbose := true }

/-- What one argument that starts with an option asks for: the options that it sets, in order, and
an option whose value is the next argument. -/
structure Expansion where
  settings : List (Flag × OptionValue) := []
  pending : Option Flag := none
  deriving DecidableEq, Repr

namespace Expansion

def bare (flag : Flag) : Expansion :=
  if flag.takesValue then { pending := some flag } else { settings := [(flag, .nothing)] }

def valued (flag : Flag) (cs : List Char) : Expansion := { settings := [(flag, .ofChars cs)] }

end Expansion

/-- Reads what is attached to an option that was written with one dash: its value, or further
letters; `none` if that is wrong. -/
def expandLetters (flag : Flag) : List Char → Option Expansion
  | [] => if flag.takesValue then some (.valued flag []) else none
  | c :: rest =>
    if flag.takesValue then some (.valued flag (c :: rest))
    else do
      let next ← Flag.ofSpelling? ['-', c]
      let tail ← if rest = [] then some (.bare next) else expandLetters next rest
      return { tail with settings := (flag, .nothing) :: tail.settings }

def expand (flag : Flag) (short : Bool) : Option (List Char) → Option Expansion
  | none => some (.bare flag)
  | some cs =>
    if short then expandLetters flag cs
    else if flag.takesValue then some (.valued flag cs)
    else none

/-- Sets options in order; the first that asks for help ends the reading. -/
def setAll (o : Options) : List (Flag × OptionValue) → Except Reading Options
  | [] => .ok o
  | (flag, value) :: rest =>
    if flag = .help then .error .help
    else match o.set flag value with
      | none => .error .badUsage
      | some o => setAll o rest

/-- Goes through arguments. `stray` says that something was met which belongs to no option. -/
def consume (o : Options) (stray : Bool) : List (String × Argument) → Reading
  | [] => if stray then .badUsage else .options o
  | (_, .option flag short attached) :: rest =>
    match expand flag short attached with
    | none => .badUsage
    | some e =>
      match e.pending, rest with
      | none, rest =>
        match setAll o e.settings with
        | .error ending => ending
        | .ok o => consume o stray rest
      | some last, (text, .plain) :: rest =>
        match setAll o (e.settings ++ [(last, .ofChars text.toList)]) with
        | .error ending => ending
        | .ok o => consume o stray rest
      | some _, _ => .badUsage
  | (_, _) :: rest => consume o true rest
termination_by args => args.length

def usage : String :=
  "usage: router-console [-h] [--name NAME] [--interfaces NAMES] [-c FILE] " ++
    "[--format commands|hierarchical] [--dump] [--script FILE] [-v]"

def Options.ofArguments (args : List String) : Reading :=
  match readArguments args with
  | none => .badUsage
  | some args => consume {} false args

end RouterConsole.Startup
