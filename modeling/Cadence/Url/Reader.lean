import Cadence.Url

/-!
# Reading URLs

Reads an absolute URL as the WHATWG standard does: blanks and controls at its ends are dropped, tabs
and line breaks everywhere; under special schemes a backslash is a slash.
-/

namespace Cadence.Url

def isSlash (special : Bool) (c : Char) : Bool := c == '/' || (special && c == '\\')

def endsAuthority (special : Bool) (c : Char) : Bool := isSlash special c || c == '?' || c == '#'

/-- The text of a URL without what does not count. -/
def clean (s : List Char) : List Char :=
  let isEdge (c : Char) : Bool := c.toNat ≤ 0x20
  ((s.dropWhile isEdge).reverse.dropWhile isEdge).reverse.filter (!isDropped ·)

/-- The scheme at the front, in lower case, and what follows its colon. -/
def scheme? (s : List Char) : Option (String × List Char) :=
  let isSchemeChar (c : Char) : Bool := c.isAlphanum || c == '+' || c == '-' || c == '.'
  let (front, rest) := s.span isSchemeChar
  match front, rest with
  | c :: _, ':' :: rest =>
    if c.isAlpha then some (String.ofList (front.map Char.toLower), rest) else none
  | _, _ => none

/-- Cuts a text at the last sign between user and host. -/
def cutCredentials (s : List Char) : Option (List Char × List Char) :=
  let (host, user) := s.reverse.span (· != '@')
  match user with
  | [] => none
  | _ :: user => some (user.reverse, host.reverse)

/-- The user and the password, encoded. -/
def readCredentials (s : List Char) : List Char × List Char :=
  let (user, rest) := s.span (· != ':')
  (encode .userinfo user, encode .userinfo (rest.drop 1))

/-- Cuts a text at the first colon outside of brackets. -/
def cutPort (inside : Bool) : List Char → List Char × Option (List Char)
  | [] => ([], none)
  | c :: rest =>
    if c = ':' ∧ !inside then ([], some rest)
    else
      let (host, port) := cutPort (if c = '[' then true else if c = ']' then false else inside) rest
      (c :: host, port)

/-- Reads a port; without digits there is none, and the one that belongs to the scheme counts as
none. -/
def readPort (scheme : String) (s : List Char) : Except UrlFault (Option Nat) :=
  let n := s.foldl (fun n c => 10 * n + (c.toNat - 0x30)) 0
  if !s.all Char.isDigit || 65535 < n then .error .port
  else if s.isEmpty || defaultPort? scheme = some n then .ok none
  else .ok (some n)

/-- What stands between the slashes at the front and the path. -/
structure Authority where
  username : List Char
  password : List Char
  host : Host
  port : Option Nat

/-- Reads an authority. A host is needed under special schemes, and wherever there is a user or a
port. -/
def readAuthority (scheme : String) (s : List Char) : Except UrlFault Authority := do
  let special := isSpecialScheme scheme
  let (credentials, place) := match cutCredentials s with
    | none => (none, s)
    | some (credentials, place) => (some credentials, place)
  if credentials.any (!·.isEmpty) && place.isEmpty then .error .emptyHost
  else
    let (name, port) := cutPort false place
    if special && name.isEmpty then .error .emptyHost
    else
      let host ← Host.parse special name
      if name.isEmpty && port.isSome then .error .emptyHost
      else
        let (username, password) := readCredentials (credentials.getD [])
        .ok ⟨username, password, host, ← readPort scheme (port.getD [])⟩

/-- A segment that means the directory itself. -/
def isSingleDot (s : List Char) : Bool :=
  [".", "%2e"].contains (String.ofList (s.map Char.toLower))

/-- A segment that means the directory above. -/
def isDoubleDot (s : List Char) : Bool :=
  ["..", ".%2e", "%2e.", "%2e%2e"].contains (String.ofList (s.map Char.toLower))

/-- Cuts a path at its slashes. -/
def cutPath (special : Bool) : List Char → List (List Char)
  | [] => [[]]
  | c :: rest =>
    if isSlash special c then [] :: cutPath special rest
    else match cutPath special rest with
      | [] => [[c]]
      | first :: others => (c :: first) :: others

/-- Follows the segments of a path from those in front. At its end, a segment for a directory
leaves an empty one. -/
def follow (front : List (List Char)) : List (List Char) → List (List Char)
  | [] => front
  | segment :: rest =>
    let closed (front : List (List Char)) := if rest.isEmpty then front ++ [[]] else front
    if isDoubleDot segment then follow (closed front.dropLast) rest
    else if isSingleDot segment then follow (closed front) rest
    else follow (front ++ [encode .path segment]) rest

/-- Reads a path behind an authority or a slash. -/
def readPath (special : Bool) (s : List Char) : UrlPath :=
  match s with
  | [] => .segments (if special then [[]] else [])
  | c :: rest =>
    let names := if isSlash special c then rest else c :: rest
    .segments (follow [] (cutPath special names))

/-- A URL with nothing behind its scheme. -/
def bare (scheme : String) : Url :=
  { scheme, username := [], password := [], host := none, port := none, path := .segments []
    query := none, fragment := none }

/-- Reads an authority and the path behind it. -/
def readPlace (scheme : String) (s : List Char) : Except UrlFault Url := do
  let special := isSpecialScheme scheme
  let (front, path) := s.span (!endsAuthority special ·)
  let authority ← readAuthority scheme front
  .ok { bare scheme with
    username := authority.username
    password := authority.password
    host := some authority.host
    port := authority.port
    path := readPath special path }

/-- Reads the host and the path of a file, of which the host may be missing. -/
def readFile (scheme : String) (s : List Char) : Except UrlFault Url := do
  let here : Url := { bare scheme with host := some (.named []), path := readPath true s }
  match s with
  | a :: b :: rest =>
    if isSlash true a && isSlash true b then
      let (name, path) := rest.span (!endsAuthority true ·)
      let host ← if name.isEmpty then .ok (.named []) else Host.parse true name
      .ok { bare scheme with host := some host, path := readPath true path }
    else .ok here
  | _ => .ok here

/-- A URL behind its scheme, without query and fragment. -/
def readFront (scheme : String) (s : List Char) : Except UrlFault Url :=
  if scheme = "file" then readFile scheme s
  else if isSpecialScheme scheme then readPlace scheme (s.dropWhile (isSlash true))
  else match s with
    | '/' :: '/' :: rest => readPlace scheme rest
    | '/' :: _ => .ok { bare scheme with path := readPath false s }
    | s => .ok { bare scheme with path := .plain (encode .control s) }

/-- Reads a URL. -/
def parse (text : String) : Except UrlFault Url := do
  match scheme? (clean text.toList) with
  | none => .error .noBase
  | some (scheme, rest) =>
    let (rest, fragment) := rest.span (· != '#')
    let (front, query) := rest.span (· != '?')
    let url ← readFront scheme front
    let set : CharSet := if isSpecialScheme scheme then .specialQuery else .query
    let part (set : CharSet) : List Char → Option (List Char)
      | [] => none
      | _ :: text => some (encode set text)
    .ok { url with query := part set query, fragment := part .fragment fragment }

end Cadence.Url
