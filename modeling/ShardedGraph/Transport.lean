import ShardedGraph.Random.Attempt

/-!
# Transports

A transport carries requests to the shards of a cluster and their answers back. A call
has an outcome: a reply or an error, and the time at which it arrives. A client that waits
with a deadline reports a call that arrives later, or never, as timed out.

**Time.** Moments are numbered, and what is known in moment 0 is known at once, without
waiting. A wait takes one moment more than it has milliseconds, so that it ends in a later
moment even when it has none. What is never known comes after every moment.

**Fan-out.** The requests for several shards are issued together, in the order of the
shards, before any answer counts. The fan-out is over when its last call is; it succeeds
when every shard that was asked gave a reply of the expected form, and otherwise fails
with the error of the lowest shard that did not.
-/

set_option autoImplicit false

namespace ShardedGraph

/-! ## Moments -/

/-- When something is known. -/
inductive Moment where
  | numbered (number : Nat)
  | never
  deriving DecidableEq, Repr

namespace Moment

/-- The moment of what is known at once. -/
def now : Moment := numbered 0

/-- The end of a wait that begins in a moment. -/
def afterWait (milliseconds : Nat) : Moment → Moment
  | numbered number => numbered (number + milliseconds + 1)
  | never => never

/-- The later one of two moments. -/
def later : Moment → Moment → Moment
  | numbered first, numbered second => numbered (max first second)
  | _, _ => never

/-- Whether a moment comes before another one. -/
def isBefore : Moment → Moment → Bool
  | numbered first, numbered second => first < second
  | numbered _, never => true
  | never, _ => false

end Moment

/-- A value and the moment in which it is known. -/
structure Timed (α : Type) where
  value : α
  time : Moment
  deriving DecidableEq, Repr

/-! ## Calls -/

/-- What comes of a call. -/
structure Outcome where
  answer : Except Error Reply
  arrival : Moment

namespace Outcome

/-- An answer that arrives at once. -/
def now (answer : Except Error Reply) : Outcome := ⟨answer, .now⟩

end Outcome

/-- A way to call the shards of a cluster. Its state may change with every call. -/
structure Transport (σ : Type) where
  /-- The number of shards. -/
  shards : Nat
  call : Nat → Request → StateM σ Outcome

/-- A transport, and how many milliseconds a client waits for a call. -/
structure Link (σ : Type) where
  transport : Transport σ
  deadline : Option Nat

namespace Link

variable {σ α : Type}

/-- What a client that waits until a deadline knows of a call. An answer that arrives in
the very moment of the deadline counts. -/
def settle (deadline : Option Nat) (shard : Nat) (outcome : Outcome) :
    Timed (Except Error Reply) :=
  match deadline with
  | none => ⟨outcome.answer, outcome.arrival⟩
  | some limit =>
      let last := Moment.now.afterWait limit
      if last.isBefore outcome.arrival then ⟨.error (.timedOut shard limit), last⟩
      else ⟨outcome.answer, outcome.arrival⟩

/-- Takes from a reply what was asked for; a reply of another form is an error. -/
def accept (take : Reply → Option α) (request : Request) (reply : Reply) : Except Error α :=
  match take reply with
  | some value => .ok value
  | none => .error (.mismatched request.label reply)

/-- Asks one shard. -/
def ask (link : Link σ) (take : Reply → Option α) (shard : Nat) (request : Request) :
    StateM σ (Timed (Except Error α)) := do
  let settled := settle link.deadline shard (← link.transport.call shard request)
  return ⟨settled.value.bind (accept take request), settled.time⟩

/-! ## Fan-out -/

/-- Asks the shards that have a request, in order. -/
def askEach (link : Link σ) (take : Reply → Option α) (requests : List (Option Request)) :
    StateM σ (List (Option (Timed (Except Error α)))) :=
  requests.zipIdx.mapM fun (request, shard) =>
    match request with
    | none => return none
    | some request => some <$> link.ask take shard request

/-- The answers of all asked shards, or the error of the lowest one that failed. -/
def joinAnswers (answers : List (Option (Timed (Except Error α)))) :
    Timed (Except Error (List (Option α))) where
  value := answers.mapM fun answer =>
    match answer with
    | none => .ok none
    | some answer => some <$> answer.value
  time := answers.foldl (fun time answer => time.later ((answer.map Timed.time).getD .now)) .now

/-- Asks every shard that has a request and waits for all of them. There is one place for
each shard among the requests and among the answers. -/
def fanOutTimed (link : Link σ) (take : Reply → Option α) (requests : List (Option Request)) :
    StateM σ (Timed (Except Error (List (Option α)))) := do
  if requests.length = link.transport.shards then
    return joinAnswers (← link.askEach take requests)
  else
    return ⟨.error (.requestCount requests.length link.transport.shards), .now⟩

end Link

/-! ## Clients in the world -/

/-- What a client acts on: the state of its transport, and its own chance. -/
structure World (σ : Type) where
  network : σ
  stream : WordStream

/-- A computation of a client that may fail. -/
abbrev Exchange (σ α : Type) : Type := ExceptT Error (StateM (World σ)) α

namespace Exchange

variable {σ α : Type}

/-- Acts on the transport alone. -/
def onNetwork (act : StateM σ α) : StateM (World σ) α := fun world =>
  let (value, network) := act world.network
  (value, { world with network })

/-- Draws from the client's own chance. -/
def onStream (draw : Draw α) : StateM (World σ) α := fun world =>
  let (value, stream) := draw world.stream
  (value, { world with stream })

end Exchange

namespace Link

variable {σ α : Type}

/-- Asks every shard that has a request and waits for all of them. -/
def fanOut (link : Link σ) (take : Reply → Option α) (requests : List (Option Request)) :
    Exchange σ (List (Option α)) := do
  let timed ← ExceptT.lift (Exchange.onNetwork (link.fanOutTimed take requests))
  let answers ← timed.value
  return answers

/-- Asks every shard the same. -/
def broadcast (link : Link σ) (take : Reply → Option α) (request : Request) :
    Exchange σ (List α) := do
  let answers ← link.fanOut take (List.replicate link.transport.shards (some request))
  answers.zipIdx.mapM fun (answer, shard) =>
    match answer with
    | some value => return value
    | none => throw (.unanswered shard)

end Link

end ShardedGraph
