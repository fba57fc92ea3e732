import TestbedReport.Request
import TestbedReport.Decimal.Whole
import TestbedReport.Text.Split

/-!
# Messages on the Wire

A request is sent as a head of lines and a body, over a connection that is
closed after one answer. The answer has the same form. Its head says how much of
the rest is the body: a number of bytes, or chunks that each say their own size,
or everything up to the end of the connection.

A body that ends before it should is no body. An answer that has no proper head
is no answer.

## Main definitions

* `Http.writeRequest`: The bytes of a request.
* `Http.readReply`: The answer in the bytes of a connection.
-/

namespace TestbedReport

namespace Http

/-- The characters that name a host in a head: the port follows if the scheme
    does not imply it. -/
def hostText (authority : Authority) : List Char :=
  let port := match authority.port with
    | some port => ':' :: Decimal.ofNat port
    | none => []
  authority.host.write ++ port

/-- The word for a method. -/
def methodWord : Method → String
  | .get => "GET"
  | .post => "POST"
  | .delete => "DELETE"

/-- The line that proves a user, if the URL names one. -/
def userLines (authority : Authority) : List String :=
  if authority.user.isEmpty ∧ authority.password.isNone then []
  else
    let plain (text : String) := Percent.decode (Utf8.encode text)
    let proof := plain authority.user ++ Utf8.encode ":" ++ plain (authority.password.getD "")
    ["Authorization: Basic " ++ String.ofList (Base64.encode proof)]

/-- The lines of the head of a request. The size of a body is told for a method
    that has one. -/
def headLines (request : Request) : List String :=
  let authority := request.url.authority.getD ⟨"", none, .domain "", none⟩
  let size := match request.method with
    | .post => ["Content-Length: " ++ toString request.body.utf8ByteSize]
    | _ => []
  [methodWord request.method ++ " " ++ request.url.target ++ " HTTP/1.1",
    "Host: " ++ String.ofList (hostText authority), "Content-Type: " ++ contentType,
    "Accept: */*", "Connection: close"] ++ userLines authority ++ size

/-- The bytes of a request. -/
def writeRequest (request : Request) : List UInt8 :=
  let head := (headLines request).map fun line => line ++ "\r\n"
  Utf8.encode (String.join head ++ "\r\n" ++ request.body)

/-- The bytes of the head and of what follows the empty line behind it. -/
def splitHead? : List UInt8 → Option (List UInt8 × List UInt8)
  | 13 :: 10 :: 13 :: 10 :: rest => some ([], rest)
  | byte :: rest => (splitHead? rest).map fun (head, body) => (byte :: head, body)
  | [] => none

/-- The lines of a head. Its characters are bytes. -/
def linesOf (head : List UInt8) : List (List Char) :=
  (Text.splitOn '\n' (head.map fun byte => Char.ofNat byte.toNat)).map fun line =>
    line.filter (· ≠ '\r')

/-- The status in the first line of an answer. -/
def status? (line : List Char) : Option Nat :=
  match Text.splitOn ' ' line with
  | version :: code :: _ =>
    if "HTTP/".toList.isPrefixOf version ∧ code.length = 3 then Decimal.toNat? code else none
  | _ => none

/-- A line of a head behind the first: a name in lower case and a value. -/
def field (line : List Char) : List Char × List Char :=
  let value := (line.dropWhile (· ≠ ':')).drop 1
  let isGap (c : Char) : Bool := c = ' ' || c = '\t'
  ((line.takeWhile (· ≠ ':')).map Char.toLower,
    ((value.dropWhile isGap).reverse.dropWhile isGap).reverse)

/-- The value under a name. -/
def field? (name : String) (fields : List (List Char × List Char)) : Option (List Char) :=
  fields.lookup name.toList

/-- The body in chunks. The first number bounds the chunks. -/
def joinChunks? : Nat → List UInt8 → Option (List UInt8)
  | 0, _ => none
  | bound + 1, bytes =>
    let line := bytes.takeWhile (· ≠ 10)
    let digits := (line.map fun byte => Char.ofNat byte.toNat).takeWhile fun c =>
      (Text.hexValue? c).isSome
    match Text.valueIn? 16 digits with
    | none => none
    | some size =>
      let rest := bytes.drop (line.length + 1)
      if digits.isEmpty ∨ line.length = bytes.length then none
      else if size = 0 then some []
      else if rest.length < size + 2 then none
      else (joinChunks? bound (rest.drop (size + 2))).map (rest.take size ++ ·)

/-- The body of an answer with its head read. -/
def bodyOf (status : Nat) (fields : List (List Char × List Char)) (rest : List UInt8) :
    Except TransportFault (List UInt8) :=
  let whole : Option (List UInt8) → Except TransportFault (List UInt8)
    | some body => .ok body
    | none => .error .bodyCut
  if status = 204 ∨ status = 304 then .ok []
  else if field? "transfer-encoding" fields = some "chunked".toList then
    whole (joinChunks? (rest.length + 1) rest)
  else match (field? "content-length" fields).map Decimal.toNat? with
    | none => .ok rest
    | some none => .error .bodyCut
    | some (some size) => whole (if rest.length < size then none else some (rest.take size))

/-- The answer in the bytes of a connection. -/
def readReply (bytes : List UInt8) : Answer :=
  match splitHead? bytes with
  | none => .error .notSent
  | some (head, rest) =>
    match linesOf head with
    | [] => .error .notSent
    | first :: others =>
      match status? first with
      | none => .error .notSent
      | some status => .ok ⟨status, bodyOf status (others.map field) rest⟩

end Http

end TestbedReport
