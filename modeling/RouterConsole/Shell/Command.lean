import RouterConsole.Config.Notation
import RouterConsole.Shell.RouteCommand

/-!
# The commands

Every command of the prompt: the pattern that calls it, what help says of it, the modes in which
completion offers it, and the configuration path that it is about.
-/
namespace RouterConsole.Shell

open Config (Format)

inductive Command where
  | showRoutes
  | showConfiguration (format : Format)
  | showInterfaces
  | configure
  | commit
  | discard
  | exit
  | exitDiscard
  | save
  | load
  | route (command : RouteCommand)
  | deleteAddress
  | enableInterface
  | disableInterface
  | setAddress
  | help
  deriving DecidableEq, Repr

namespace Command

def interfaceWords : List PatternWord :=
  [.keyword "interfaces", .keyword "ethernet", .slot "interface"]

/-- All commands, in the order in which lines are matched against them. -/
def all : List Command :=
  [showRoutes, showConfiguration .commands, showConfiguration .hierarchical, showInterfaces,
    configure, commit, discard, exit, exitDiscard, save, load] ++ RouteCommand.all.map route ++
    [deleteAddress, enableInterface, disableInterface, setAddress, help]

def patternWords : Command → List PatternWord
  | showRoutes => [.keyword "show", .keyword "ip", .keyword "route"]
  | showConfiguration .commands => [.keyword "show", .keyword "configuration", .keyword "commands"]
  | showConfiguration .hierarchical => [.keyword "show", .keyword "configuration"]
  | showInterfaces => [.keyword "show", .keyword "interfaces"]
  | configure => [.keyword "configure"]
  | commit => [.keyword "commit"]
  | discard => [.keyword "discard"]
  | exit => [.keyword "exit"]
  | exitDiscard => [.keyword "exit", .keyword "discard"]
  | save => [.keyword "save"]
  | load => [.keyword "load", .slot "file"]
  | route c => c.patternWords
  | deleteAddress => .keyword "delete" :: interfaceWords ++ [.keyword "address", .slot "address"]
  | enableInterface => .keyword "delete" :: interfaceWords ++ [.keyword "disable"]
  | disableInterface => .keyword "set" :: interfaceWords ++ [.keyword "disable"]
  | setAddress => .keyword "set" :: interfaceWords ++ [.keyword "address", .slot "address"]
  | help => [.keyword "help"]

def pattern (c : Command) : Pattern := .ofWords c.patternWords

def description : Command → String
  | showRoutes => "Display the routing table"
  | showConfiguration .commands => "Display the current configuration as set commands"
  | showConfiguration .hierarchical => "Display the current configuration"
  | showInterfaces => "Display information about interfaces"
  | configure => "Enter configuration mode"
  | commit => "Commit configuration changes"
  | discard => "Discard uncommitted changes and stay in configuration mode"
  | exit => "Exit configuration mode"
  | exitDiscard => "Exit configuration mode and forcibly discard changes"
  | save => "Save the running configuration (not supported)"
  | load => "Load and commit a configuration file"
  | route c => c.description
  | deleteAddress => "Remove IP address from an ethernet interface"
  | enableInterface => "Re-enable an administratively disabled ethernet interface"
  | disableInterface => "Administratively disable an ethernet interface"
  | setAddress => "Configure interface with one IP address"
  | help => "List available commands"

/-- The modes in which completion offers the command. -/
def modes : Command → List Mode
  | showRoutes | showInterfaces | configure => [.operational]
  | commit | discard | exitDiscard | route _ | deleteAddress | enableInterface | disableInterface
  | setAddress => [.configuration]
  | showConfiguration _ | exit | save | load | help => [.configuration, .operational]

def deletes : Command → Bool
  | route c => c.action == .delete
  | deleteAddress | enableInterface => true
  | _ => false

/-- The configuration path that the command is about, if it is about one. -/
def path (c : Command) (args : Arguments) : Option String :=
  match c with
  | route c => some (c.path args)
  | deleteAddress | setAddress =>
    some (Text.unwords ["interfaces", "ethernet", args.value "interface", "address",
      args.value "address"])
  | enableInterface | disableInterface =>
    some (Text.unwords ["interfaces", "ethernet", args.value "interface", "disable"])
  | _ => none

end Command

end RouterConsole.Shell
