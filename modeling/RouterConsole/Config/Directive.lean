import RouterConsole.Config.Token
import RouterConsole.Router.Edit

/-!
# Directives

What one path of a configuration text asks for. A directive is carried out as one or two edits, each
under the configuration path that reports name it by.
-/
namespace RouterConsole.Config

open IPv4 (InterfaceAddress)

/-- What a configuration path asks for, and the token that stands for it in messages. -/
inductive Directive where
  | address (interface : String) (address : InterfaceAddress) (token : Token)
  | disable (interface : String) (token : Token)
  | route (route : StaticRoute) (disable : Bool) (token : Token)
  deriving DecidableEq

def addressWords (interface : String) (address : InterfaceAddress) : List String :=
  ["interfaces", "ethernet", interface, "address", address.text]

def disableWords (interface : String) : List String :=
  ["interfaces", "ethernet", interface, "disable"]

def disableRouteWords (route : StaticRoute) : List String := route.pathWords ++ ["disable"]

namespace Directive

def token : Directive → Token
  | address _ _ t | disable _ t | route _ _ t => t

/-- The words of the path that says the same as the directive. -/
def pathWords : Directive → List String
  | address i a _ => addressWords i a
  | disable i _ => disableWords i
  | route r d _ => if d then disableRouteWords r else r.pathWords

def configPath (d : Directive) : String := Text.unwords d.pathWords

/-- The edits that carry the directive out, each with its path. A route is added and then, if the
directive says so, switched off. -/
def edits : Directive → List (String × Edit)
  | address i a _ => [(Text.unwords (addressWords i a), .setAddress i a)]
  | disable i _ => [(Text.unwords (disableWords i), .disableInterface i)]
  | route r d _ =>
    (r.configPath, .addRoute r) ::
      if d then [(Text.unwords (disableRouteWords r), .disableRoute r)] else []

end Directive

end RouterConsole.Config
