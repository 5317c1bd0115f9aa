import Opaal.Operational.Standard
import Opaal.Operational.Url

/-!
# Endpoints of a project

The manifest checks the URL of an endpoint with a parser of its own.  A request parses it again, settles
what TLS it needs, and the adapter connects to the address that the host of that URL is.
-/

namespace Opaal.Project

open Opaal.Net
open Opaal.Number (parseUnsigned)
open Opaal.Operational
open Opaal.Text

/-! ## The manifest -/

structure ParsedHttpUrl where
  scheme : List Char
  host : List Char
deriving DecidableEq

def asciiHexValue (character : Char) : Nat :=
  if '0' ≤ character ∧ character ≤ '9' then character.toNat - '0'.toNat
  else if 'A' ≤ character ∧ character ≤ 'F' then character.toNat - 'A'.toNat + 10
  else 0

/-- What may not even be escaped. -/
def forbiddenEscape (decoded : Nat) : Bool :=
  decoded < 0x20 || decoded = 0x7f || [0x20, 0x22, 0x3c, 0x3e, 0x5c, 0x5e, 0x60, 0x7b, 0x7c, 0x7d].contains decoded

def validUrlRemainder : List Char → Bool
  | [] => true
  | character :: text =>
    if 128 ≤ character.toNat || isUnsafe character then false
    else if character = '%' then
      match text with
      | high :: low :: text =>
        isHexDigit high && isHexDigit low && !high.isLower && !low.isLower &&
          !forbiddenEscape (asciiHexValue high * 16 + asciiHexValue low) && validUrlRemainder text
      | _ => false
    else validUrlRemainder text

def isDnsName (name : List Char) : Bool :=
  name ≠ [] && !(name.all fun character => character.isDigit || character == '.') && width name ≤ 253 &&
    name.getLast? ≠ some '.' && (name.all fun character => Operational.isHostChar character || character == '.') &&
    (name.splitOn '.').all fun label =>
      label ≠ [] && width label ≤ 63 && label.head? ≠ some '-' && label.getLast? ≠ some '-'

def validUrlHost (host : List Char) : Bool :=
  (Ipv4Addr.parse host).isSome || (Ipv6Addr.parse host).isSome || isDnsName host

def validPort (port : List Char) : Bool :=
  port ≠ [] && port.all Char.isDigit && (parseUnsigned 65536 port).any fun port => port ≠ 0

/-- The host and the text of the port, when there is one. -/
def splitAuthority : List Char → Option (List Char × Option (List Char))
  | '[' :: bracketed => do
    let (host, suffix) ← splitOnce [']'] bracketed
    if (Ipv6Addr.parse host).isNone then none
    else match suffix with
      | [] => return (host, none)
      | ':' :: port => return (host, some port)
      | _ => none
  | authority =>
    match rsplitOnce ':' authority with
    | some (host, port) => if ':' ∈ host then none else some (host, some port)
    | none => some (authority, none)

def parseHttpUrl (url : List Char) : Option ParsedHttpUrl := do
  if (url.any fun character => isAsciiControl character || character == ' ') || '#' ∈ url then none
  else do
    let (scheme, remainder) ← splitOnce "://".toList url
    if scheme ≠ "http".toList ∧ scheme ≠ "https".toList then none
    else if !validUrlRemainder remainder then none
    else do
      let authority := remainder.takeWhile isAuthorityChar
      if authority = [] ∨ '@' ∈ authority then none
      else do
        let (host, port) ← splitAuthority authority
        if host = [] || !validUrlHost host || port.any (!validPort ·) then none
        else return { scheme, host }

/-- The check of the manifest: a plain URL of an address of the machine itself. -/
def isLiteralLoopback (url : List Char) : Bool :=
  (parseHttpUrl url).any fun parsed =>
    parsed.scheme = "http".toList &&
      ((Ipv4Addr.parse parsed.host).any Ipv4Addr.isLoopback || (Ipv6Addr.parse parsed.host).any Ipv6Addr.isLoopback)

structure EndpointDeclaration where
  id : String
  url : List Char
  tls : Bool
  tlsServerName : Option (List Char)
  ca : Option String
deriving DecidableEq

structure ProjectError where
  code : String
  message : String
deriving DecidableEq

/-- The rules of TLS that the table of an endpoint has to keep. -/
def checkEndpoint (endpoint : EndpointDeclaration) : Except ProjectError EndpointDeclaration :=
  if endpoint.tls && (endpoint.tlsServerName.isNone || endpoint.ca.isNone) then
    .error ⟨"PROJECT016", "TLS endpoint \x60" ++ endpoint.id ++ "\x60 requires tls_server_name and ca"⟩
  else if endpoint.tls && (((parseHttpUrl endpoint.url).all fun parsed => parsed.scheme ≠ "https".toList) ||
      endpoint.tlsServerName.all fun name => !isDnsName name) then
    .error ⟨"PROJECT016", "TLS endpoint \x60" ++ endpoint.id ++ "\x60 requires a valid HTTPS URL and DNS server name"⟩
  else if !endpoint.tls && (!isLiteralLoopback endpoint.url || endpoint.tlsServerName.isSome || endpoint.ca.isSome) then
    .error ⟨"PROJECT017", "non-TLS endpoint \x60" ++ endpoint.id ++ "\x60 must be literal loopback without TLS fields"⟩
  else .ok endpoint

/-! ## The request -/

def maxHttpBodyBytes : Nat := 8 * 1024 * 1024

/-- The policy that fits the scheme of a URL. -/
def completePolicy (url : Url) (endpoint : EndpointDeclaration) (caPem : Option (List UInt8)) : Bool :=
  match url.scheme, endpoint.tls, endpoint.tlsServerName, caPem with
  | .https, true, some _, some ca => ca ≠ [] && ca.length ≤ maxHttpBodyBytes
  | .http, false, none, none => url.isLiteralLoopback
  | _, _, _, _ => false

/-- The URL that a request to an endpoint is sent to. -/
def requestUrl (endpoint : EndpointDeclaration) (caPem : Option (List UInt8)) : Except ModuleError Url :=
  match Url.parse endpoint.url with
  | .error error => .error (.invalid "HTTP009" error.message)
  | .ok url =>
    if completePolicy url endpoint caPem then .ok url else .error (.invalid "HTTP010" "endpoint TLS/CA policy is incomplete or unsafe")

/-- The adapter connects to an address, and to nothing that would have to be looked up. -/
def connectAddress (url : Url) : Option IpAddr :=
  if validConnectHost url.host && validPathAndQuery url.pathAndQuery then IpAddr.parse url.host else none

end Opaal.Project
