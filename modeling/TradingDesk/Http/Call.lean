import TradingDesk.Fault
import TradingDesk.Http.Status
/-!
# HTTP calls

A call is a request together with the way its answer is read. How the request travels, and whether
an answer comes back, is left to the caller.
-/

namespace TradingDesk.Http

inductive Method where
  | get
  | post
  | delete
deriving DecidableEq, Repr

def Method.name : Method → String
  | get => "GET"
  | post => "POST"
  | delete => "DELETE"

/-- Headers by name. The case of a name does not matter, and the blanks around a value are not part
of it. -/
abbrev Headers := List (String × String)

namespace Headers

def isGap (c : Char) : Bool := c == ' ' || c == '\t'

def trimmed (value : String) : String :=
  String.ofList ((value.toList.dropWhile isGap).reverse.dropWhile isGap).reverse

def get? (hs : Headers) (name : String) : Option String :=
  (hs.find? fun (n, _) => n.toLower == name.toLower).map fun (_, value) => trimmed value

end Headers

def userAgent : String := "coinbase_alpha/0.1.0"

structure Request where
  method : Method
  address : String
  headers : Headers := [("User-Agent", userAgent)]
  body : String := ""
deriving DecidableEq, Repr

namespace Request

def withHeader (r : Request) (name value : String) : Request :=
  { r with headers := r.headers ++ [(name, value)] }

def withJson (r : Request) (body : String) : Request :=
  { r.withHeader "Content-Type" "application/json" with body }

def isHeaderChar (c : Char) : Bool := c == '\t' || (0x20 ≤ c.toNat && c.toNat != 0x7F)

def isSound (r : Request) : Bool := r.headers.all fun (_, value) => value.toList.all isHeaderChar

end Request

structure Response where
  status : Status
  headers : Headers := []
  body : String := ""
deriving DecidableEq, Repr

namespace Response

/-- The body as it arrives. -/
def content (r : Response) : String := if r.status.isBodiless then "" else r.body

/-- The body as text, without a byte order mark. -/
def text (r : Response) : String :=
  match r.content.toList with
  | '\uFEFF' :: cs => String.ofList cs
  | _ => r.content

end Response

/-- A request, and what is made of its answer or of the lack of one. -/
structure Call (α : Type) where
  request : Request
  read : Except HttpFault Response → Except Fault α

namespace Call

def of {α : Type} (request : Request) (read : Response → Except Fault α) : Call α :=
  { request
    read := fun answer => match answer with
      | .ok response => read response
      | .error cause => .error (.http cause) }

def map {α β : Type} (f : Except Fault α → Except Fault β) (c : Call α) : Call β :=
  { request := c.request, read := fun answer => f (c.read answer) }

/-- Makes the call; `send` carries a request to its address. -/
def perform {α : Type} (send : Request → Except HttpFault Response) (c : Call α) : Except Fault α :=
  c.read (if c.request.isSound then send c.request else .error .unwritable)

end Call

end TradingDesk.Http
