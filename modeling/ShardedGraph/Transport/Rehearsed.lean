import ShardedGraph.Transport

/-!
# Rehearsed transports

A rehearsed transport follows a script before it asks another transport, and records every
call in order. Each rule of the script says which calls it is for and what happens to
them: another reply, a failure, a delay or silence.

**Choice of a rule.** Rules are tried in order. A rule that fits and has calls to skip
skips this one and leaves it to the rules after it; a rule that was used as often as it
may be fits no longer. A call that no rule takes is carried out.
-/

set_option autoImplicit false

namespace ShardedGraph

/-- What a rule does to a call. -/
inductive Direction where
  | respond (reply : Reply)
  | fail (text : String)
  /-- The true answer arrives later by this many milliseconds. -/
  | delay (milliseconds : Nat)
  /-- Nothing ever arrives. -/
  | silence
  deriving DecidableEq, Repr

/-- A rule of a script. A condition that is missing always holds. -/
structure Rule where
  shard : Option Nat
  operation : Option String
  key : Option String
  /-- How many fitting calls the rule lets pass first. -/
  skip : Nat
  /-- How often the rule may still be used; without a number, always. -/
  times : Option Nat
  direction : Direction
  deriving DecidableEq, Repr

/-- The key of a request for a value. -/
def Request.key? : Request → Option String
  | .metaValue key => some key
  | _ => none

namespace Rule

/-- Whether a rule is for a call and may still be used. -/
def fits (rule : Rule) (shard : Nat) (request : Request) : Bool :=
  rule.shard.all (· == shard) && rule.operation.all (· == request.operation)
    && rule.key.all (fun key => request.key? == some key) && rule.times != some 0

/-- The rule after it was used. -/
def spend (rule : Rule) : Rule := { rule with times := rule.times.map (· - 1) }

/-- The direction for a call, if a rule has one, and the rules afterwards. -/
def choose (shard : Nat) (request : Request) : List Rule → Option Direction × List Rule
  | [] => (none, [])
  | rule :: rules =>
      if rule.fits shard request then
        if rule.skip = 0 then (some rule.direction, rule.spend :: rules)
        else
          let (direction, after) := choose shard request rules
          (direction, { rule with skip := rule.skip - 1 } :: after)
      else
        let (direction, after) := choose shard request rules
        (direction, rule :: after)

end Rule

/-- The state of a rehearsed transport around another one. -/
structure Rehearsal (σ : Type) where
  script : List Rule
  /-- The calls so far, the last one first. -/
  calls : List (Nat × Request)
  inner : σ

namespace Transport

variable {σ : Type}

/-- Carries out a call with the inner transport. -/
def passOn (transport : Transport σ) (shard : Nat) (request : Request) :
    StateM (Rehearsal σ) Outcome := fun rehearsal =>
  let (outcome, inner) := transport.call shard request rehearsal.inner
  (outcome, { rehearsal with inner })

/-- The transport that follows a script and records its calls. -/
def rehearsed (transport : Transport σ) : Transport (Rehearsal σ) where
  shards := transport.shards
  call shard request := do
    let (direction, script) := Rule.choose shard request (← get).script
    modify fun rehearsal =>
      { rehearsal with script, calls := (shard, request) :: rehearsal.calls }
    match direction with
    | none => transport.passOn shard request
    | some (.respond reply) => return .now (.ok reply)
    | some (.fail text) => return .now (.error (.failed text))
    | some (.delay milliseconds) => do
        let outcome ← transport.passOn shard request
        return { outcome with arrival := outcome.arrival.afterWait milliseconds }
    | some .silence => return ⟨.error (.unanswered shard), .never⟩

end Transport

end ShardedGraph
