import Cadence.Url.Host

/-!
# URLs

URLs in the parts of the WHATWG standard. All parts are kept in the form in which they are written,
so that printing a URL only puts them together. Segments can be added to its path.
-/

namespace Cadence

/-- The path of a URL: segments behind slashes, or a text that is no path of a hierarchy. -/
inductive UrlPath where
  | segments (segments : List (List Char))
  | plain (text : List Char)
  deriving Repr, DecidableEq

/-- A path as it is written. -/
def UrlPath.chars : UrlPath → List Char
  | .segments names => names.flatMap ('/' :: ·)
  | .plain text => text

structure Url where
  scheme : String
  username : List Char
  password : List Char
  host : Option Url.Host
  /-- Absent where it is the one that belongs to the scheme. -/
  port : Option Nat
  path : UrlPath
  query : Option (List Char)
  fragment : Option (List Char)
  deriving Repr, DecidableEq

namespace Url

/-- The schemes that the standard treats in a way of its own, with their ports. -/
def specialSchemes : List (String × Option Nat) :=
  [("http", some 80), ("https", some 443), ("ws", some 80), ("wss", some 443), ("ftp", some 21),
    ("file", none)]

def isSpecialScheme (scheme : String) : Bool := (specialSchemes.lookup scheme).isSome

/-- The port that belongs to a scheme. -/
def defaultPort? (scheme : String) : Option Nat := (specialSchemes.lookup scheme).bind id

/-- A text behind a mark, if it is there. -/
def behind (mark : Char) : Option (List Char) → List Char
  | none => []
  | some text => mark :: text

/-- The host with its port. -/
def authority (url : Url) : List Char :=
  match url.host with
  | none => []
  | some host => host.chars ++ behind ':' (url.port.map (Nat.toDigits 10))

/-- The user with the password, and the sign that divides them from the host. -/
def credentials (url : Url) : List Char :=
  if url.username.isEmpty && url.password.isEmpty then []
  else
    url.username ++ (if url.password.isEmpty then [] else ':' :: url.password) ++ ['@']

/-- The URL without its fragment. -/
def target (url : Url) : String :=
  let front := match url.host with
    | none => []
    | some _ => "//".toList ++ url.credentials ++ url.authority
  String.ofList (url.scheme.toList ++ ':' :: front ++ url.path.chars ++ behind '?' url.query)

/-- The URL as it is written. -/
def text (url : Url) : String := url.target ++ String.ofList (behind '#' url.fragment)

/-- The class of characters that stand for themselves neither in a segment that is added. -/
def segmentSet (url : Url) : CharSet :=
  if isSpecialScheme url.scheme then .specialSegment else .segment

/-- Tabs and line breaks do not count in URLs. -/
def isDropped (c : Char) : Bool := c == '\t' || c == '\n' || c == '\r'

/-- A text as one segment. -/
def segment (url : Url) (text : String) : List Char :=
  encode url.segmentSet (text.toList.filter (!isDropped ·))

/-- The segments with one more. A single empty segment is only the slash that the others go
behind. -/
def pushSegment (segments : List (List Char)) (segment : List Char) : List (List Char) :=
  if segments = [[]] then [segment] else segments ++ [segment]

/-- The segments without an empty one at their end, unless it is the only one. -/
def popEmpty (segments : List (List Char)) : List (List Char) :=
  if 1 < segments.length ∧ segments.getLast? = some [] then segments.dropLast else segments

/-- The URL with texts as further segments of its path; those that mean the same directory or the
one above are left out. -/
def extend (url : Url) (texts : List String) : Url :=
  match url.path with
  | .plain _ => url
  | .segments segments =>
    let added := (texts.filter fun text => !(text == "." || text == "..")).map url.segment
    { url with path := .segments (added.foldl pushSegment (popEmpty segments)) }

end Url

end Cadence
