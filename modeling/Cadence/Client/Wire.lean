import Cadence.Client

/-!
# HTTP messages

Requests as the text that is sent, and the status of an answer in the bytes that come back. One
connection serves one request, so an answer may end where the connection does. An answer counts only
if its body is complete.
-/

namespace Cadence

namespace HttpRequest

/-- The path that is asked for, with the query. -/
def place (request : HttpRequest) : String :=
  String.ofList (request.url.path.chars ++ Url.behind '?' request.url.query)

/-- The header lines, each with a name and a value. -/
def headers (request : HttpRequest) : List (String × String) :=
  [("accept", "*/*"), ("host", String.ofList request.url.authority), ("connection", "close")] ++
    (request.authorization.map fun value => ("authorization", value)).toList ++
    match request.body with
    | none => []
    | some (kind, text) =>
      [("content-type", kind), ("content-length", Nat.repr text.utf8ByteSize)]

/-- The text that is sent. -/
def text (request : HttpRequest) : String :=
  let lines := (request.method ++ " " ++ request.place ++ " HTTP/1.1") ::
    request.headers.map fun (name, value) => name ++ ": " ++ value
  String.join (lines.map (· ++ "\r\n")) ++ "\r\n" ++ (request.body.map (·.2)).getD ""

end HttpRequest

/-- What is wrong with an answer. -/
inductive AnswerFault where
  | notHttp
  /-- The connection was closed before the end. -/
  | incomplete
  deriving Repr, DecidableEq

def AnswerFault.message : AnswerFault → String
  | notHttp => "the answer is not HTTP"
  | incomplete => "the connection was closed before the answer was complete"

namespace HttpAnswer

/-- The first line and what follows its line break, if it has one. -/
def line? : List UInt8 → Option (List UInt8 × List UInt8)
  | [] => none
  | [_] => none
  | a :: b :: rest =>
    if a = 13 ∧ b = 10 then some ([], rest)
    else (line? (b :: rest)).map fun (line, rest) => (a :: line, rest)

theorem line?_length {bytes line rest : List UInt8} (h : line? bytes = some (line, rest)) :
    rest.length < bytes.length := by
  fun_induction line? bytes generalizing line with
  | case1 => simp at h
  | case2 => simp at h
  | case3 a b tail =>
    simp only [Option.some.injEq, Prod.mk.injEq] at h
    simp only [List.length_cons, ← h.2]
    omega
  | case4 a b tail hne ih =>
    obtain ⟨⟨next, behind⟩, hnext, heq⟩ := Option.map_eq_some_iff.1 h
    simp only [Prod.mk.injEq] at heq
    have := ih (heq.2 ▸ hnext)
    simp only [List.length_cons] at this ⊢
    omega

/-- A line as text, whose bytes are taken as the first 256 characters. -/
def lineText (line : List UInt8) : String :=
  String.ofList (line.map fun byte => Char.ofNat byte.toNat)

/-- The status in the first line of an answer. -/
def status? (line : List UInt8) : Option Nat :=
  match (lineText line).splitOn " " with
  | version :: code :: _ =>
    if version.startsWith "HTTP/1." && code.length == 3 then code.toNat? else none
  | _ => none

/-- A header line: its name in lower case, and its value. -/
def header? (line : List UInt8) : Option (String × String) :=
  match (lineText line).splitOn ":" with
  | [] | [_] => none
  | name :: rest => some (name.map Char.toLower, (":".intercalate rest).trimAscii.toString)

/-- The header lines up to the empty one, and what follows it. -/
def headers? (bytes : List UInt8) : Option (List (String × String) × List UInt8) :=
  match h : line? bytes with
  | none => none
  | some ([], rest) => some ([], rest)
  | some (line, rest) =>
    have := line?_length h
    match header? line, headers? rest with
    | some header, some (headers, rest) => some (header :: headers, rest)
    | _, _ => none
termination_by bytes.length

/-- The size of a chunk, in hexadecimal digits up to a semicolon. -/
def chunkSize? (line : List UInt8) : Option Nat :=
  let digits := (lineText line).toList.takeWhile (· != ';')
  let digits := digits.filter (· != ' ')
  if digits.isEmpty then none
  else (digits.mapM Url.hexValue?).map (·.foldl (fun n digit => 16 * n + digit) 0)

/-- Whether chunks go on up to the empty one that ends a body. -/
def chunksEnd (bytes : List UInt8) : Bool :=
  match h : line? bytes with
  | none => false
  | some (line, rest) =>
    match chunkSize? line with
    | none => false
    | some 0 => (headers? rest).isSome
    | some size =>
      have := line?_length h
      if rest.length < size + 2 then false else chunksEnd (rest.drop (size + 2))
termination_by bytes.length
decreasing_by simp only [List.length_drop]; omega

/-- Whether the body that follows header lines is complete. -/
def isComplete (status : Nat) (headers : List (String × String)) (body : List UInt8) : Bool :=
  if status = 204 ∨ status = 304 then true
  else if (headers.lookup "transfer-encoding").any (·.toLower == "chunked") then chunksEnd body
  else match (headers.lookup "content-length").bind (·.toNat?) with
    | some length => length ≤ body.length
    | none => true

/-- The status of an answer. What a gateway says in between, before it answers, is skipped. -/
def read (bytes : List UInt8) : Except AnswerFault Nat :=
  match line? bytes with
  | none => .error (if bytes.isEmpty then .incomplete else .notHttp)
  | some (first, rest) =>
    match status? first with
    | none => .error .notHttp
    | some status =>
      match headers? rest with
      | none => .error .incomplete
      | some (headers, body) =>
        if 100 ≤ status ∧ status < 200 then
          if body.length < bytes.length then read body else .error .notHttp
        else if isComplete status headers body then .ok status
        else .error .incomplete
termination_by bytes.length

end HttpAnswer

end Cadence
