import ShardedGraph.Transport.InProcess

/-!
# Shards over HTTP

A shard has two routes: `/rpc` takes a request as octets and answers with a reply as
octets, and `/health` answers that the shard is there. A body that is no request is
refused without asking the service; an error of the service is answered with its wording.

The service answers in a task of its own. A stop of the service ends only this task, and what
the runtime reports of the task is answered; how it reports a stop is a parameter.

A client reaches the shards through a network, which takes a location and octets and
gives a response or is unable to reach anything. A response without success is an error
that shows the status and the text of the shard.
-/

set_option autoImplicit false

namespace ShardedGraph.Http

/-! ## Responses -/

/-- The statuses of a shard. -/
inductive Status where
  | ok
  | badRequest
  | notFound
  | methodNotAllowed
  | tooLarge
  | internalError
  /-- Another status with its number. -/
  | other (code : Nat)
  deriving DecidableEq, Repr

namespace Status

/-- The number of a status. -/
def code : Status → Nat
  | ok => 200
  | badRequest => 400
  | notFound => 404
  | methodNotAllowed => 405
  | tooLarge => 413
  | internalError => 500
  | other code => code

/-- The words for a status. -/
def reason : Status → String
  | ok => "OK"
  | badRequest => "Bad Request"
  | notFound => "Not Found"
  | methodNotAllowed => "Method Not Allowed"
  | tooLarge => "Payload Too Large"
  | internalError => "Internal Server Error"
  | other _ => "<unknown status code>"

/-- A status as text. -/
def text (status : Status) : String := s!"{status.code} " ++ status.reason

/-- Whether a status means success. -/
def isSuccess (status : Status) : Bool := status.code / 100 == 2

end Status

/-- A response. -/
structure Response where
  status : Status
  body : List UInt8
  deriving DecidableEq, Repr

namespace Response

/-- A response with a text. -/
def ofText (status : Status) (text : String) : Response := ⟨status, Text.writeUtf8 text⟩

/-- A response without a body. -/
def empty (status : Status) : Response := ⟨status, []⟩

end Response

/-! ## Targets -/

/-- Whether a character may stand in the name of a scheme. -/
def isSchemeCharacter (c : Char) : Bool :=
  c.isAlphanum || c == '+' || c == '-' || c == '.' || c == '~'

/-- Whether a path goes on after a character: a query or a fragment ends it. -/
def isPathCharacter (c : Char) : Bool := c != '?' && c != '#'

/-- What follows the scheme and the authority of a target that names both. -/
def afterAuthority (target : List Char) : Option (List Char) :=
  match target.dropWhile isSchemeCharacter with
  | ':' :: '/' :: '/' :: rest => some (rest.dropWhile fun c => c != '/' && isPathCharacter c)
  | _ => none

/-- The path of a target. A target that starts with a slash starts with its path; one with
a scheme and an authority has its path after them, at least a slash; any other has none. -/
def pathOf (target : String) : String :=
  match target.toList with
  | '/' :: rest => String.ofList ('/' :: rest.takeWhile isPathCharacter)
  | characters =>
      match (afterAuthority characters).map fun rest => rest.takeWhile isPathCharacter with
      | none => ""
      | some [] => "/"
      | some path => String.ofList path

/-! ## Routes -/

/-- How many octets a body may have. -/
def bodyLimit : Nat := 256 * 1024 * 1024

/-- The text for an error of a service; `report` is what the runtime says of a task that has
stopped. -/
def errorText (report : Error → String) (error : Error) : String :=
  if error.stops then "handler panicked: " ++ report error else error.message

/-- Answers the octets of a request. -/
def answer (report : Error → String) (service : Service) (body : List UInt8) : Draw Response := do
  if bodyLimit < body.length then
    return .ofText .tooLarge "Failed to buffer the request body: length limit exceeded"
  match Wire.request.decode body with
  | .error fault => return .ofText .badRequest ("bad request body: " ++ fault.message)
  | .ok (request, _) =>
      match ← (service request).run with
      | .ok reply => return ⟨.ok, Wire.reply.encode reply⟩
      | .error error => return .ofText .internalError (errorText report error)

/-- Answers a request for a route. -/
def route (report : Error → String) (service : Service) (method target : String)
    (body : List UInt8) : Draw Response :=
  match pathOf target with
  | "/rpc" =>
      if method = "POST" then answer report service body else return .empty .methodNotAllowed
  | "/health" =>
      if method = "GET" then return .ofText .ok "ok"
      else if method = "HEAD" then return .empty .ok
      else return .empty .methodNotAllowed
  | _ => return .empty .notFound

/-! ## Transport -/

/-- Posts octets to a location. A network that reaches nothing gives no response. -/
abbrev Network (σ : Type) : Type := String → List UInt8 → StateM σ (Option Response)

/-- The text without slashes at its end. -/
def dropSlashes (text : String) : String :=
  String.ofList (text.toList.reverse.dropWhile (· == '/')).reverse

/-- The location of the requests for a shard. -/
def location (address : String) : String :=
  if address.startsWith "http://" || address.startsWith "https://" then
    dropSlashes address ++ "/rpc"
  else "http://" ++ address ++ "/rpc"

/-- What a client takes a response of a shard for. -/
def readResponse (shard : Nat) : Option Response → Except Error Reply
  | none => .error .http
  | some response =>
      if response.status.isSuccess then Wire.read Wire.reply response.body
      else
        .error (.refused shard response.status.text
          (String.ofList (Text.readUtf8Lossy response.body)))

/-- The transport to the shards at the given addresses. -/
def transport {σ : Type} (network : Network σ) (addresses : List String) : Transport σ where
  shards := addresses.length
  call shard request :=
    match addresses[shard]? with
    | none => return .now (.error (.unknownShard shard addresses.length))
    | some address => do
        let response ← network (location address) (Wire.request.encode request)
        return .now (readResponse shard response)

/-- The transport to the shards at the given addresses, of which there is at least one. -/
def connect {σ : Type} (network : Network σ) (addresses : List String) :
    Except Error (Transport σ) :=
  if addresses.isEmpty then .error .noAddresses else .ok (transport network addresses)

/-- The network that reaches nothing. -/
def unreachable {σ : Type} : Network σ := fun _ _ => return none

/-- The network in which each location is served by a service. -/
def serving (report : Error → String) (services : List (String × Service)) :
    Network WordStream := fun target body =>
  match services.find? fun entry => entry.1 == target with
  | none => return none
  | some (_, service) => do return some (← answer report service body)

end ShardedGraph.Http
