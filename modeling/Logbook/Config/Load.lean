import Logbook.Config.Settings
import Logbook.FileTree
import Logbook.Net.SocketAddress
import Logbook.Text.Utf8
import Logbook.Toml.Reader

/-!
# Loading a configuration

A configuration is a TOML document that holds settings (`parse`), which must then also make sense
(`Invalid`): the address must be that of a socket, and a log file needs a path. All problems of
that last kind are reported together.
-/

set_option autoImplicit false
set_option relaxedAutoImplicit false

namespace Logbook

/-- A setting that makes no sense. -/
inductive Invalid where
  | bindAddress (address : String)
  | emptyLogPath
  deriving DecidableEq, Repr

/-- The text of the problem. -/
def Invalid.message : Invalid → String
  | bindAddress address => "listener.bind_address '" ++ address ++ "' is not a socket address"
  | emptyLogPath => "logging.file.path must be set when file logging is enabled"

/-- All settings that make no sense, in a fixed order. -/
def ServiceSettings.problems (s : ServiceSettings) : List Invalid :=
  (if (SocketAddress.read? s.listener.bindAddress).isNone then
    [.bindAddress s.listener.bindAddress] else []) ++
  (if s.logging.file.enabled && Text.allBlank s.logging.file.path.toList then
    [.emptyLogPath] else [])

namespace Config

/-- Why a configuration was not loaded. -/
inductive Error where
  | io (path : String) (e : IoError)
  /-- The text is not TOML. -/
  | malformed
  | shape (e : ShapeError)
  | invalid (problems : List Invalid)
  deriving DecidableEq, Repr

/-- The text of the error, where it has one of its own. -/
def Error.message? : Error → Option String
  | io path e => some ("cannot read " ++ path ++ ": " ++ e.message)
  | malformed => none
  | shape e => some e.message
  | invalid problems =>
    some ("validation failed: " ++ ", ".intercalate (problems.map Invalid.message))

/-- The configuration a text holds. -/
def parse (text : String) : Except Error ServiceSettings :=
  match Toml.read? text with
  | none => .error .malformed
  | some document =>
    match ServiceSettings.ofToml document with
    | .error e => .error (.shape e)
    | .ok s => if s.problems.isEmpty then .ok s else .error (.invalid s.problems)

/-- The configuration in a file. -/
def load (t : FileTree) (path : FilePath) : Except Error ServiceSettings :=
  match t.readFile path with
  | .error e => .error (.io path.text e)
  | .ok bytes =>
    match Text.Utf8.decode? bytes with
    | none => .error (.io path.text .notText)
    | some text => parse text

end Config

end Logbook
