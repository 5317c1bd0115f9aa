import Opaal.Net.AddressText
import Opaal.Text.Split
import Opaal.Text.Utf8

/-!
# URLs

Closed HTTP and HTTPS URLs: parsing, which normalises, rendering, and what the adapter asks of a host
and of a path before it connects.  Texts are lists of characters.
-/

namespace Opaal.Operational

open Opaal.Net
open Opaal.Number
open Opaal.Text

inductive Scheme where
  | http
  | https
deriving DecidableEq

structure UrlError where
  message : String
deriving DecidableEq

structure Url where
  scheme : Scheme
  host : List Char
  port : UInt16
  pathAndQuery : List Char
deriving DecidableEq

/-! ## Characters -/

def isAsciiControl (character : Char) : Bool := character.toNat < 0x20 || character.toNat = 0x7f

/-- What may not stand in a path as it is. -/
def isUnsafe (character : Char) : Bool :=
  isAsciiControl character || [' ', '\\', '"', '<', '>', '\x60'].contains character

def isHexDigit (character : Char) : Bool := isDigitOf 16 character

def hexValue (character : Char) : Nat := (toDigit 16 character).getD 0

/-- The byte that an escape stands for. -/
def decodedByte (high low : Char) : Nat := hexValue high * 16 + hexValue low

/-- Neither a slash nor a question mark: what an authority is made of. -/
def isAuthorityChar (character : Char) : Bool := character != '/' && character != '?'

def isHostChar (character : Char) : Bool := character.isLower || character.isDigit || character == '-'

/-! ## Hosts -/

def validLabel (label : List Char) : Bool :=
  label ≠ [] && width label ≤ 63 && label.all isHostChar && label.head?.any Char.isAlphanum &&
    label.getLast?.any Char.isAlphanum

/-- The shape of a name that is no address. -/
def validName (name : List Char) : Bool :=
  width name ≤ 253 && name.getLast? ≠ some '.' && (name.splitOn '.').all validLabel

def onlyDigitsAndDots (host : List Char) : Bool := host.all fun character => character.isDigit || character == '.'

def parsePort (text : List Char) : Except UrlError UInt16 :=
  match parseUnsigned 65536 text with
  | none => .error ⟨"invalid URL port"⟩
  | some port => if port = 0 then .error ⟨"URL port cannot be zero"⟩ else .ok (UInt16.ofNat port)

/-- The host and the port of what follows a bracket. -/
def parseBracketed (rest : List Char) (defaultPort : UInt16) : Except UrlError (List Char × UInt16) :=
  if ']' ∉ rest then .error ⟨"invalid bracketed IPv6 host"⟩
  else
    let suffix := (rest.dropWhile (· ≠ ']')).tail
    match Ipv6Addr.parse (rest.takeWhile (· ≠ ']')) with
    | none => .error ⟨"invalid IPv6 host"⟩
    | some host => do
      let port ← match suffix with
        | [] => .ok defaultPort
        | ':' :: text => parsePort text
        | _ => .error ⟨"invalid IPv6 authority"⟩
      return (host.toText, port)

/-- A colon that is the only one separates the port. -/
def splitPort (authority : List Char) (defaultPort : UInt16) : Except UrlError (List Char × UInt16) :=
  match rsplitOnce ':' authority with
  | some (host, port) => if ':' ∉ host then (parsePort port).map fun port => (host, port) else .ok (authority, defaultPort)
  | none => .ok (authority, defaultPort)

def parseHost (host : List Char) : Except UrlError (List Char) :=
  if host = [] then .error ⟨"invalid DNS or IPv4 host"⟩
  else match Ipv4Addr.parse host with
    | some address => .ok address.toText
    | none =>
      if onlyDigitsAndDots host then .error ⟨"invalid IPv4 host"⟩
      else
        let host := host.map Char.toLower
        if validName host then .ok host else .error ⟨"invalid DNS or IPv4 host"⟩

def parseAuthority (authority : List Char) (defaultPort : UInt16) : Except UrlError (List Char × UInt16) :=
  match authority with
  | '[' :: rest => parseBracketed rest defaultPort
  | authority => do
    let (host, port) ← splitPort authority defaultPort
    let host ← parseHost host
    return (host, port)

/-! ## Paths -/

def incompleteEscape : UrlError := ⟨"URL contains an incomplete percent escape"⟩

def invalidEscape : UrlError := ⟨"URL contains an invalid percent escape"⟩

/-- A scalar of more than one byte is no hexadecimal digit, whatever follows it. -/
def normalizePathAndQuery : List Char → Except UrlError (List Char)
  | [] => .ok []
  | character :: text =>
    if isUnsafe character then .error ⟨"URL path/query contains an unsafe unescaped byte"⟩
    else if character = '%' then
      match text with
      | [] => .error incompleteEscape
      | [high] => .error (if high.utf8Size = 1 then incompleteEscape else invalidEscape)
      | high :: low :: text =>
        if !isHexDigit high || !isHexDigit low then .error invalidEscape
        else if isUnsafe (Char.ofNat (decodedByte high low)) then .error ⟨"URL contains a percent-encoded unsafe byte"⟩
        else (normalizePathAndQuery text).map fun output => '%' :: high.toUpper :: low.toUpper :: output
    else (normalizePathAndQuery text).map fun output => character :: output

/-! ## URLs -/

namespace Url

/-- The scheme with its default port, and what follows it. -/
def splitScheme (input : List Char) : Option (Scheme × List Char × UInt16) :=
  match "https://".toList.isPrefixOf? input with
  | some rest => some (.https, rest, 443)
  | none => ("http://".toList.isPrefixOf? input).map fun rest => (.http, rest, 80)

/-- A path starts with a slash. -/
def rootedPath : List Char → List Char
  | [] => ['/']
  | '?' :: query => '/' :: '?' :: query
  | path => path

def parse (input : List Char) : Except UrlError Url :=
  if '#' ∈ input then .error ⟨"URL fragments are unsupported"⟩
  else match splitScheme input with
    | none => .error ⟨"URL scheme must be http or https"⟩
    | some (scheme, rest, defaultPort) => do
      let authority := rest.takeWhile isAuthorityChar
      if authority = [] ∨ '@' ∈ authority then .error ⟨"URL authority is missing or contains credentials"⟩
      else do
        let (host, port) ← parseAuthority authority defaultPort
        let pathAndQuery ← normalizePathAndQuery (rootedPath (rest.dropWhile isAuthorityChar))
        return { scheme, host, port, pathAndQuery }

/-- Whether a text is an address of the machine itself. -/
def isLoopbackText (host : List Char) : Bool :=
  (Ipv4Addr.parse host).any Ipv4Addr.isLoopback || (Ipv6Addr.parse host).any Ipv6Addr.isLoopback

def isLiteralLoopback (url : Url) : Bool := isLoopbackText url.host

def defaultPort : Scheme → UInt16
  | .http => 80
  | .https => 443

def schemeText : Scheme → List Char
  | .http => "http".toList
  | .https => "https".toList

/-- The host, in brackets when it has a colon, and the port when it is not the default one. -/
def authorityText (url : Url) : List Char :=
  let host := if ':' ∈ url.host then '[' :: (url.host ++ [']']) else url.host
  if url.port = defaultPort url.scheme then host else host ++ ':' :: Nat.toDigits 10 url.port.toNat

def render (url : Url) : List Char :=
  schemeText url.scheme ++ "://".toList ++ url.authorityText ++ url.pathAndQuery

end Url

/-! ## The adapter -/

def validConnectHost (host : List Char) : Bool :=
  if (IpAddr.parse host).isSome then true
  else if onlyDigitsAndDots host then false
  else host ≠ [] && validName host

def validPathAndQuery (path : List Char) : Bool := path.head? = some '/' && path.all fun character => !isUnsafe character

end Opaal.Operational
