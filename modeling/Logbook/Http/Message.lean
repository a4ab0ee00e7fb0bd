import Logbook.Http.Uri

/-!
# Requests and responses

A request is built from a method, a target and headers, each of which must have its form; the first
that does not is the error (`Request.build`). The names of headers are kept in lower case, and
their values are bytes, which need not be text. Of several headers with one name the first counts.
-/

set_option autoImplicit false
set_option relaxedAutoImplicit false

namespace Logbook

namespace Http

/-- A character of a method or of the name of a header. -/
def isTokenChar (c : Char) : Bool :=
  c.isAlphanum || "!#$%&'*+-.^_`|~".toList.contains c

/-- Whether a text is a token: not empty, and made of token characters. -/
def isToken (s : String) : Bool :=
  !s.isEmpty && s.toList.all isTokenChar

/-- Whether a byte is part of readable text: visible ASCII, the space or the tab. -/
def isVisible (b : UInt8) : Bool :=
  (32 ≤ b.toNat && b.toNat < 127) || b.toNat == 9

/-- Whether a byte may stand in the value of a header: no control character but the tab. -/
def isValueByte (b : UInt8) : Bool :=
  (32 ≤ b.toNat && b.toNat != 127) || b.toNat == 9

/-- The most bytes of the name of a header. -/
def nameLimit : Nat := 65535

/-- A header: its name in lower case, and its value. -/
structure Header where
  name : String
  value : List UInt8
  deriving DecidableEq, Repr

namespace Header

/-- The value as text, if all of it is readable. -/
def text? (h : Header) : Option String :=
  if h.value.all isVisible then some (String.ofList (h.value.map fun b ↦ Char.ofNat b.toNat))
  else none

/-- A header with a text in the ASCII range as its value. -/
def ofText (name value : String) : Header :=
  ⟨name, value.toList.map fun c ↦ c.toNat.toUInt8⟩

end Header

/-- The first header of a name. -/
def header? (headers : List Header) (name : String) : Option Header :=
  headers.find? (·.name == name)

/-- Why a request could not be built. -/
inductive RequestError where
  | method
  | uri
  | headerName
  | headerValue
  deriving DecidableEq, Repr

/-- A request. -/
structure Request where
  method : String
  uri : Uri
  headers : List Header
  deriving DecidableEq, Repr

/-- The header that carries the identifier of a request. -/
def idHeader : String := "x-request-id"

namespace Request

/-- A header from its parts. -/
def buildHeader (name : String) (value : List UInt8) : Except RequestError Header :=
  if !isToken name || nameLimit < name.length then .error .headerName
  else if !value.all isValueByte then .error .headerValue
  else .ok ⟨String.ofList (name.toList.map Char.toLower), value⟩

/-- A request from its parts. -/
def build (method target : String) (headers : List (String × List UInt8)) :
    Except RequestError Request :=
  if !isToken method then .error .method
  else match Uri.read? target with
    | none => .error .uri
    | some uri => do
      let headers ← headers.mapM fun (name, value) ↦ buildHeader name value
      .ok ⟨method, uri, headers⟩

/-- The identifier a request carries, if it can be read. -/
def id? (r : Request) : Option String :=
  (header? r.headers idHeader).bind Header.text?

end Request

/-- A response. -/
structure Response where
  status : Nat
  headers : List Header
  body : String
  deriving DecidableEq, Repr

end Http

end Logbook
