import RowSync.Http.Failure
import RowSync.Http.MediaType
import RowSync.Scope
import RowSync.Text.Percent
import RowSync.Text.Quoted
import RowSync.Text.Unsigned

/-!
# Requests

The parts of a request, and how they are read: names in the path are percent-decoded, contents have
to be JSON of the wanted shape, and times are written as decimal numbers.

Two things are left out. A content is given as text, so that one that is not UTF-8 cannot be
expressed (`Request.content`). Of a content that cannot be read it is told whether it is no JSON or
JSON of another shape, but not where and why the reader stopped (`RequestFault.detail`). Neither has
to do with the backend, which a request with such a content does not reach.
-/

namespace RowSync.Http

/-- The methods of requests. -/
inductive Method where
  | get
  | head
  | post
  | delete
  | options
  /-- A method that the service has no use for. -/
  | other
deriving DecidableEq, Repr

/-- The method with a name. -/
def Method.ofName (name : String) : Method :=
  if name = "GET" then get
  else if name = "HEAD" then head
  else if name = "POST" then post
  else if name = "DELETE" then delete
  else if name = "OPTIONS" then options
  else other

/-- A request. -/
structure Request where
  /-- What is to be done. -/
  method : Method
  /-- The path of the resource, with the query, or a location that has this path. -/
  target : String
  /-- The media type of the content. -/
  contentType : Option String
  /-- The content, as text. Bytes that are not UTF-8 cannot be given: where a content is read they
  are refused with status 400 before the backend is reached, elsewhere nothing depends on them. -/
  content : String
deriving DecidableEq, Repr

/-- The longest content that is read, in bytes. -/
def maxContentLength : Nat := 2097152

/-- Why a content or a time in a request cannot be understood. -/
inductive RequestFault where
  /-- The content is not declared as JSON. -/
  | contentType
  /-- The content is too long. -/
  | contentLength
  /-- The content is not JSON. -/
  | malformed
  /-- The content is JSON of another shape. -/
  | mismatch
  /-- A time is not a number. -/
  | millisFormat (text : String)
  /-- A time is larger than any timestamp assigned. -/
  | millisRange (text : String)
deriving DecidableEq, Repr

namespace RequestFault

/-- The particulars of a fault. For a content that is malformed or of another shape these are only
the beginning of what the service tells: the reason and the place that the JSON reader gives follow
there after a colon, and are left out. -/
def detail : RequestFault → String
  | contentType => "Expected request with `Content-Type: application/json`"
  | contentLength => "Failed to buffer the request body: length limit exceeded"
  | malformed => "Failed to parse the request body as JSON"
  | mismatch => "Failed to deserialize the JSON body into the target type"
  | millisFormat text => "invalid millis: " ++ Text.quoted text
  | millisRange text => "millis out of range: " ++ text

/-- The failure of a request with this fault. -/
def failure (fault : RequestFault) : Failure := .invalid fault.detail

end RequestFault

/-- A time in a request. -/
def readMillis (text : String) : Except RequestFault Timestamp :=
  match Text.unsigned? UInt64.size text with
  | none => .error (.millisFormat text)
  | some millis =>
    if maxTimestamp.toNat < millis then .error (.millisRange text)
    else .ok (UInt64.ofNat millis)

/-- A name in a path, which has to be UTF-8. -/
def readName (parameter written : String) : Except Failure String :=
  match Text.percentDecode? written with
  | some name => .ok name
  | none => .error (.encoding parameter)

/-- A scope in a request. -/
def readScope (table user : String) : Except Failure Scope :=
  (Scope.ofNames table user).mapError fun cause => .refused cause.report

/-- The content of a request, which has to be declared as JSON. -/
def Request.readContent {α : Type} (request : Request) (decoder : Json.Decoder α) :
    Except RequestFault α :=
  if !(request.contentType.bind MediaType.ofHeader?).any MediaType.isJson then .error .contentType
  else if maxContentLength < request.content.utf8ByteSize then .error .contentLength
  else
    (Json.Decoder.ofText decoder request.content).mapError fun
      | .malformed => .malformed
      | .mismatch | .surplus => .mismatch

end RowSync.Http
