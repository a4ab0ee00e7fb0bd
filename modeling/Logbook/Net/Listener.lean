import Logbook.Net.SocketAddress
import Logbook.Text.CharClass

/-!
# Listeners

A service listens at the socket address a text stands for. A text that stands for none is taken as
the name of a host and a port behind the last colon; names are not looked up here, so that a
well-formed one is an error of its own (`ListenError.unknownHost`).
-/

set_option autoImplicit false
set_option relaxedAutoImplicit false

namespace Logbook

/-- Why a service cannot listen at an address. -/
inductive ListenError where
  | notAnAddress
  | badPort
  | unknownHost
  | addressInUse
  | addressNotAvailable
  | notPermitted
  deriving DecidableEq, Repr

namespace ListenError

/-- The error with all its parts, as the program reports it. -/
def detail : ListenError → String
  | notAnAddress =>
    "Error \x7b kind: InvalidInput, message: " ++ Text.quoted "invalid socket address" ++ " \x7d"
  | badPort =>
    "Error \x7b kind: InvalidInput, message: " ++ Text.quoted "invalid port value" ++ " \x7d"
  | unknownHost =>
    "Custom \x7b kind: Uncategorized, error: " ++ Text.quoted
      "failed to lookup address information: Temporary failure in name resolution" ++ " \x7d"
  | addressInUse =>
    "Os \x7b code: 98, kind: AddrInUse, message: " ++
      Text.quoted "Address already in use" ++ " \x7d"
  | addressNotAvailable =>
    "Os \x7b code: 99, kind: AddrNotAvailable, message: " ++
      Text.quoted "Cannot assign requested address" ++ " \x7d"
  | notPermitted =>
    "Os \x7b code: 13, kind: PermissionDenied, message: " ++
      Text.quoted "Permission denied" ++ " \x7d"

end ListenError

namespace SocketAddress

/-- A port on its own, possibly behind a plus sign. -/
def isPort (cs : List Char) : Bool :=
  let ds := match cs with
    | '+' :: ds => ds
    | ds => ds
  match decimal? UInt16.size ds with
  | some (_, []) => true
  | _ => false

/-- The address to listen at, from a text. -/
def ofText (text : String) : Except ListenError SocketAddress :=
  match read? text with
  | some a => .ok a
  | none =>
    let cs := text.toList
    if !cs.contains ':' then .error .notAnAddress
    else if isPort (cs.reverse.takeWhile (· != ':')).reverse then .error .unknownHost
    else .error .badPort

end SocketAddress

end Logbook
