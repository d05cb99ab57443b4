import ShardedGraph.Proofs.Routing
import ShardedGraph.Transport.Rehearsed

/-!
# Fan-out

A fan-out with one place for each shard asks the shards that have a request, in order, and
joins what it gets. When it succeeds, every shard that was asked has given the value at its
place and every other place is empty (`Link.Joined`, `Link.joined_of_fanOut`). When every
shard that is asked answers whatever state it finds, it succeeds (`Link.fanOut_eq_ok`).

**Calls.** Which calls a fan-out makes depends on its requests alone and not on what comes
back. A client whose transport records its calls sees what any client sees; on the record,
every request is one call to its shard, in the order of the shards, and there are no others
(`Link.fanOut_recording`). For a routed batch this is one call to every owner of kept items,
about these items in order (`callsTo`).
-/

set_option autoImplicit false

namespace ShardedGraph

/-- The calls that requests ask for, in the order of the shards. -/
def callsOf (requests : List (Option Request)) : List (Nat × Request) :=
  requests.zipIdx.filterMap fun (request, shard) => request.map fun request => (shard, request)

/-- The calls for the kept items of a list: one to every shard that owns some of them, about
these items in order. -/
def callsTo {α : Type} (owner : α → Nat) (keep : α → Bool) (make : List α → Request) (shards : Nat)
    (items : List α) : List (Nat × Request) :=
  (List.range shards).filterMap fun shard =>
    let mine := items.filter fun item => keep item && owner item == shard
    if mine.isEmpty then none else some (shard, make mine)

section CallsTo

variable {α : Type} {owner : α → Nat} {keep : α → Bool} {items : List α}

/-- There is no call for a list of which nothing is kept. -/
theorem callsTo_eq_nil (make : List α → Request) (shards : Nat)
    (nothing : items.filter keep = []) : callsTo owner keep make shards items = [] := by
  refine List.filterMap_eq_nil_iff.mpr fun shard _ => if_pos ?_
  refine List.isEmpty_iff.mpr (List.filter_eq_nil_iff.mpr fun item member mine => ?_)
  exact List.filter_eq_nil_iff.mp nothing item member (Bool.and_eq_true_iff.mp mine).1

theorem zipIdx_map_range {β : Type} (f : Nat → β) (count : Nat) :
    ((List.range count).map f).zipIdx = (List.range count).map fun index => (f index, index) := by
  refine List.ext_getElem (by simp) fun index _ _ => ?_
  simp

theorem callsOf_forOwners (make : List α → Request) (shards : Nat) :
    callsOf (forOwners owner keep items shards fun _ => make) =
      callsTo owner keep make shards items := by
  rw [callsOf, forOwners, zipIdx_map_range, List.filterMap_map, callsTo]
  refine List.filterMap_congr fun shard _ => ?_
  simp only [Function.comp_apply]
  split
  · rfl
  · rfl

end CallsTo

namespace Link

variable {σ α : Type}

/-- Whatever state it finds, a shard answers a request in time with this value. -/
def Answers (link : Link σ) (take : Reply → Option α) (shard : Nat) (request : Request)
    (value : α) : Prop :=
  ∀ state, ((link.ask take shard request).run state).1.value = .ok value

/-- Every shard that was asked has given, in some state, the value at its place, and the
places of the other shards are empty. -/
structure Joined (link : Link σ) (take : Reply → Option α) (requests : List (Option Request))
    (answers : List (Option α)) : Prop where
  counts : requests.length = link.transport.shards
  length : answers.length = requests.length
  asked : ∀ (shard : Nat) request, requests[shard]? = some (some request) →
    ∃ value state, answers[shard]? = some (some value) ∧
      ((link.ask take shard request).run state).1.value = .ok value
  silent : ∀ shard : Nat, requests[shard]? = some none → answers[shard]? = some none

/-! ## What comes back -/

/-- What is done on the network leaves the client's own chance alone. -/
theorem runFrom_onNetwork (act : StateM σ α) (world : World σ) :
    runFrom (ExceptT.lift (Exchange.onNetwork act)) world =
      (.ok (act.run world.network).1, { world with network := (act.run world.network).2 }) := rfl

/-- A fan-out is the wait for all calls, whatever its time. -/
theorem runFrom_fanOut_eq_timed (link : Link σ) (take : Reply → Option α)
    (requests : List (Option Request)) (world : World σ) :
    runFrom (link.fanOut take requests) world =
      (((link.fanOutTimed take requests).run world.network).1.value,
        { world with network := ((link.fanOutTimed take requests).run world.network).2 }) := by
  rw [fanOut, runFrom_bind_of_ok (runFrom_onNetwork _ world)]
  exact runFrom_liftM _ _

theorem runFrom_fanOut (link : Link σ) (take : Reply → Option α)
    {requests : List (Option Request)} (counts : requests.length = link.transport.shards)
    (world : World σ) :
    runFrom (link.fanOut take requests) world =
      ((joinAnswers ((link.askEach take requests).run world.network).1).value,
        { world with network := ((link.askEach take requests).run world.network).2 }) := by
  rw [runFrom_fanOut_eq_timed, fanOutTimed, if_pos counts]
  rfl

/-- A fan-out that does not have one place for each shard asks nobody. -/
theorem runFrom_fanOut_of_ne (link : Link σ) (take : Reply → Option α)
    {requests : List (Option Request)} (counts : requests.length ≠ link.transport.shards)
    (world : World σ) :
    runFrom (link.fanOut take requests) world =
      (.error (.requestCount requests.length link.transport.shards), world) := by
  rw [runFrom_fanOut_eq_timed, fanOutTimed, if_neg counts]
  rfl

/-- Each place is the answer to its request. -/
theorem forall₂_askEach (link : Link σ) (take : Reply → Option α)
    (requests : List (Option Request)) (state : σ) :
    List.Forall₂
      (fun entry answer => match entry.1 with
        | none => answer = none
        | some request => ∃ state, answer = some ((link.ask take entry.2 request).run state).1)
      requests.zipIdx ((link.askEach take requests).run state).1 := by
  refine List.Forall₂.imp ?_ (forall₂_run_mapM _ requests.zipIdx state)
  rintro ⟨request, shard⟩ answer ⟨before, rfl⟩
  cases request with
  | none => rfl
  | some request => exact ⟨before, rfl⟩

/-- The join of answers succeeds when every answer does. -/
theorem joinAnswers_eq_ok_iff {answers : List (Option (Timed (Except Error α)))}
    {values : List (Option α)} :
    (joinAnswers answers).value = .ok values ↔
      List.Forall₂
        (fun answer value => match answer with
          | none => value = none
          | some answer => ∃ given, answer.value = .ok given ∧ value = some given)
        answers values := by
  rw [joinAnswers, mapM_eq_ok_iff]
  have same : ∀ (answer : Option (Timed (Except Error α))) (value : Option α),
      (match answer with
        | none => .ok none
        | some answer => some <$> answer.value : Except Error (Option α)) = .ok value ↔
      match answer with
        | none => value = none
        | some answer => ∃ given, answer.value = .ok given ∧ value = some given := by
    intro answer value
    cases answer with
    | none => exact ⟨fun equal => by cases equal; rfl, fun empty => by rw [empty]⟩
    | some answer =>
        constructor
        · intro equal
          obtain ⟨given, here, rfl⟩ := except_map_eq_ok.mp equal
          exact ⟨given, here, rfl⟩
        · rintro ⟨given, here, rfl⟩
          exact except_map_eq_ok.mpr ⟨given, here, rfl⟩
  exact ⟨List.Forall₂.imp fun answer value => (same answer value).mp,
    List.Forall₂.imp fun answer value => (same answer value).mpr⟩

/-- A fan-out that succeeds has joined the answers of the shards that were asked. -/
theorem joined_of_fanOut {link : Link σ} {take : Reply → Option α}
    {requests : List (Option Request)} {world later : World σ} {answers : List (Option α)}
    (run : runFrom (link.fanOut take requests) world = (.ok answers, later)) :
    link.Joined take requests answers := by
  by_cases counts : requests.length = link.transport.shards
  · rw [runFrom_fanOut link take counts] at run
    obtain ⟨joined, _⟩ := Prod.mk.inj run
    obtain ⟨length, values⟩ := forall₂_iff_getElem?.mp (joinAnswers_eq_ok_iff.mp joined)
    obtain ⟨length', places⟩ :=
      forall₂_iff_getElem?.mp (link.forall₂_askEach take requests world.network)
    rw [List.length_zipIdx] at length'
    -- A place of a request is a place of what was heard, and of what was joined.
    have place : ∀ (shard : Nat) request, requests[shard]? = some request →
        ∃ heard value, ((link.askEach take requests).run world.network).1[shard]? = some heard ∧
          requests.zipIdx[shard]? = some (request, shard) ∧ answers[shard]? = some value := by
      intro shard request there
      obtain ⟨inside, _⟩ := List.getElem?_eq_some_iff.mp there
      refine ⟨_, _, List.getElem?_eq_getElem (by omega), ?_, List.getElem?_eq_getElem (by omega)⟩
      rw [List.getElem?_zipIdx, there, Option.map_some, Nat.zero_add]
    refine ⟨counts, by omega, fun shard request there => ?_, fun shard there => ?_⟩
    · obtain ⟨heard, value, given, entry, joined⟩ := place shard _ there
      obtain ⟨state, rfl⟩ := places shard _ heard entry given
      obtain ⟨found, equal, rfl⟩ := values shard _ value given joined
      exact ⟨found, state, joined, equal⟩
    · obtain ⟨heard, value, given, entry, joined⟩ := place shard _ there
      have nothing : heard = none := places shard _ heard entry given
      subst nothing
      have empty : value = none := values shard _ value given joined
      rw [joined, empty]
  · rw [runFrom_fanOut_of_ne link take counts] at run
    cases run

/-- A fan-out succeeds when every shard that is asked answers whatever state it finds. -/
theorem fanOut_eq_ok {link : Link σ} {take : Reply → Option α}
    {requests : List (Option Request)} {answers : List (Option α)}
    (counts : requests.length = link.transport.shards)
    (length : answers.length = requests.length)
    (asked : ∀ (shard : Nat) request, requests[shard]? = some (some request) →
      ∃ value, answers[shard]? = some (some value) ∧ link.Answers take shard request value)
    (silent : ∀ shard : Nat, requests[shard]? = some none → answers[shard]? = some none)
    (world : World σ) :
    (runFrom (link.fanOut take requests) world).1 = .ok answers := by
  rw [runFrom_fanOut link take counts, joinAnswers_eq_ok_iff, forall₂_iff_getElem?]
  obtain ⟨length', places⟩ :=
    forall₂_iff_getElem?.mp (link.forall₂_askEach take requests world.network)
  rw [List.length_zipIdx] at length'
  refine ⟨by omega, fun shard heard value given joined => ?_⟩
  obtain ⟨inside, _⟩ := List.getElem?_eq_some_iff.mp given
  obtain ⟨request, there⟩ : ∃ request, requests[shard]? = some request :=
    ⟨_, List.getElem?_eq_getElem (by omega)⟩
  have entry : requests.zipIdx[shard]? = some (request, shard) := by
    rw [List.getElem?_zipIdx, there, Option.map_some, Nat.zero_add]
  have heardFrom := places shard _ heard entry given
  cases request with
  | none =>
      have nothing : heard = none := heardFrom
      subst nothing
      exact Option.some.inj (joined.symm.trans (silent shard there))
  | some request =>
      obtain ⟨state, rfl⟩ := heardFrom
      obtain ⟨found, expected, answered⟩ := asked shard request there
      exact ⟨found, answered state, Option.some.inj (joined.symm.trans expected)⟩

/-- A fan-out to the owners of the kept items of a list succeeds when each of them answers
whatever it may be asked about the items that it owns. -/
theorem fanOut_forOwners (link : Link σ) {β : Type} (owner : β → Nat) (keep : β → Bool)
    {make : List β → Request} {take : Reply → Option α} (reply : Nat → List β → α)
    {items : List β}
    (answers : ∀ shard, shard < link.transport.shards → ∀ part : List β,
      part.Sublist items → (∀ item ∈ part, owner item = shard) → part ≠ [] →
        link.Answers take shard (make part) (reply shard part))
    (world : World σ) :
    (runFrom (link.fanOut take
        (forOwners owner keep items link.transport.shards fun _ => make)) world).1 =
      .ok (forOwners owner keep items link.transport.shards reply) := by
  refine fanOut_eq_ok (length_forOwners _ _) ?_ ?_ ?_ world
  · rw [length_forOwners, length_forOwners]
  · intro shard request there
    obtain ⟨inside, occupied, rfl⟩ := getElem?_forOwners_eq_some.mp there
    have mine : ∀ item ∈ items.filter fun item => keep item && owner item == shard,
        owner item = shard := fun item member =>
      eq_of_beq (Bool.and_eq_true_iff.mp (List.mem_filter.mp member).2).2
    exact ⟨_, getElem?_forOwners_eq_some.mpr ⟨inside, occupied, rfl⟩,
      answers shard inside _ List.filter_sublist mine occupied⟩
  · intro shard there
    exact getElem?_forOwners_eq_none.mpr (getElem?_forOwners_eq_none.mp there)

section Joined

variable {link : Link σ} {β : Type} {owner : β → Nat} {keep : β → Bool} {make : List β → Request}
  {take : Reply → Option α} {items : List β} {shards shard : Nat} {answers : List (Option α)}

/-- A place that holds a value is that of a shard that was asked. -/
theorem Joined.exists_request {requests : List (Option Request)} {value : α}
    (joined : link.Joined take requests answers) (there : answers[shard]? = some (some value)) :
    ∃ request state, requests[shard]? = some (some request) ∧
      ((link.ask take shard request).run state).1.value = .ok value := by
  obtain ⟨inside, _⟩ := List.getElem?_eq_some_iff.mp there
  rw [joined.length] at inside
  have place := List.getElem?_eq_getElem inside
  cases asked : requests[shard] with
  | none =>
      rw [joined.silent shard (place.trans (congrArg some asked))] at there
      cases there
  | some request =>
      obtain ⟨found, state, given, heard⟩ :=
        joined.asked shard request (place.trans (congrArg some asked))
      cases given.symm.trans there
      exact ⟨request, state, place.trans (congrArg some asked), heard⟩

/-- A shard whose place holds a value was asked about the kept items that it owns. -/
theorem Joined.sent {value : α}
    (joined : link.Joined take (forOwners owner keep items shards fun _ => make) answers)
    (there : answers[shard]? = some (some value)) :
    ∃ state, ((link.ask take shard
      (make (items.filter fun item => keep item && owner item == shard))).run state).1.value =
        .ok value := by
  obtain ⟨request, state, asked, heard⟩ := joined.exists_request there
  obtain ⟨_, _, rfl⟩ := getElem?_forOwners_eq_some.mp asked
  exact ⟨state, heard⟩

/-- A shard whose place is empty owns no kept items. -/
theorem Joined.nothing
    (joined : link.Joined take (forOwners owner keep items shards fun _ => make) answers)
    (there : answers[shard]? = some none) :
    (items.filter fun item => keep item && owner item == shard) = [] := by
  obtain ⟨inside, _⟩ := List.getElem?_eq_some_iff.mp there
  rw [joined.length] at inside
  have place := List.getElem?_eq_getElem inside
  cases request : (forOwners owner keep items shards fun _ => make)[shard] with
  | none => exact (getElem?_forOwners_eq_none.mp (place.trans (congrArg some request))).2
  | some message =>
      obtain ⟨found, state, there', sent⟩ :=
        joined.asked shard _ (place.trans (congrArg some request))
      cases there.symm.trans there'

end Joined

/-! ## Calls -/

/-- The link whose transport records every call. -/
def recording (link : Link σ) : Link (Rehearsal σ) :=
  ⟨Transport.rehearsed link.transport, link.deadline⟩

end Link

/-- The world of a client whose transport has recorded these calls, the last one first. -/
def World.recorded {σ : Type} (world : World σ) (calls : List (Nat × Request)) :
    World (Rehearsal σ) :=
  ⟨⟨[], calls, world.network⟩, world.stream⟩

namespace Link

variable {σ α : Type}

/-- Shards that are asked on the record answer the same, and there is one call for each request
and no other. -/
theorem askEach_recording (link : Link σ) (take : Reply → Option α)
    (requests : List (Option Request)) (state : σ) (calls : List (Nat × Request)) :
    (link.recording.askEach take requests).run ⟨[], calls, state⟩ =
      (((link.askEach take requests).run state).1,
        ⟨[], (callsOf requests).reverse ++ calls,
          ((link.askEach take requests).run state).2⟩) := by
  have each : ∀ (entries : List (Option Request × Nat)) (state : σ) calls,
      ((entries.mapM fun (request, shard) =>
          match request with
          | none => (return none : StateM (Rehearsal σ) _)
          | some request => some <$> link.recording.ask take shard request).run
            ⟨[], calls, state⟩) =
        (((entries.mapM fun (request, shard) =>
          match request with
          | none => (return none : StateM σ _)
          | some request => some <$> link.ask take shard request).run state).1,
        ⟨[], (entries.filterMap fun (request, shard) =>
            request.map fun request => (shard, request)).reverse ++ calls,
          ((entries.mapM fun (request, shard) =>
            match request with
            | none => (return none : StateM σ _)
            | some request => some <$> link.ask take shard request).run state).2⟩) := by
    intro entries
    induction entries with
    | nil => exact fun _ _ => rfl
    | cons entry entries ih =>
        intro state calls
        rw [List.mapM_cons, List.mapM_cons]
        rcases entry with ⟨_ | request, shard⟩
        · exact congrArg (fun run => (none :: run.1, run.2)) (ih state calls)
        · have rest := ih ((link.ask take shard request).run state).2 ((shard, request) :: calls)
          refine (congrArg (fun run => (some ((link.ask take shard request).run state).1 :: run.1,
            run.2)) rest).trans ?_
          rw [List.append_cons, ← List.reverse_cons]
          rfl
  exact each requests.zipIdx state calls

/-- The same for waiting for all of them. -/
theorem fanOutTimed_recording (link : Link σ) (take : Reply → Option α)
    {requests : List (Option Request)} (counts : requests.length = link.transport.shards)
    (state : σ) (calls : List (Nat × Request)) :
    (link.recording.fanOutTimed take requests).run ⟨[], calls, state⟩ =
      (((link.fanOutTimed take requests).run state).1,
        ⟨[], (callsOf requests).reverse ++ calls,
          ((link.fanOutTimed take requests).run state).2⟩) := by
  have counts' : requests.length = link.recording.transport.shards := counts
  rw [fanOutTimed, fanOutTimed, if_pos counts, if_pos counts']
  exact congrArg (fun run => (joinAnswers run.1, run.2))
    (link.askEach_recording take requests state calls)

/-- A recording client sees what the client sees, and has recorded one call for each
request and no other. -/
theorem fanOut_recording (link : Link σ) (take : Reply → Option α)
    {requests : List (Option Request)} (counts : requests.length = link.transport.shards)
    (world : World σ) (calls : List (Nat × Request)) :
    runFrom (link.recording.fanOut take requests) (world.recorded calls) =
      ((runFrom (link.fanOut take requests) world).1,
        (runFrom (link.fanOut take requests) world).2.recorded
          ((callsOf requests).reverse ++ calls)) := by
  have heard := link.fanOutTimed_recording take counts world.network calls
  rw [runFrom_fanOut_eq_timed, runFrom_fanOut_eq_timed]
  refine Prod.ext ?_ ?_
  · exact congrArg (fun run => run.1.value) heard
  · exact congrArg (fun run : _ × Rehearsal σ => World.mk run.2 world.stream) heard

/-- The same for a fan-out whose answers are worked in afterwards. -/
theorem fanOut_bind_recording (link : Link σ) {β : Type} (take : Reply → Option α)
    {requests : List (Option Request)} (counts : requests.length = link.transport.shards)
    (work : List (Option α) → Except Error β) (world : World σ) (calls : List (Nat × Request)) :
    runFrom (link.recording.fanOut take requests >>= fun answers => liftM (work answers))
        (world.recorded calls) =
      ((runFrom (link.fanOut take requests >>= fun answers => liftM (work answers)) world).1,
        (runFrom (link.fanOut take requests >>= fun answers => liftM (work answers)) world).2.recorded
          ((callsOf requests).reverse ++ calls)) := by
  have heard := link.fanOut_recording take counts world calls
  rcases fetched : runFrom (link.fanOut take requests) world with ⟨result, later⟩
  rw [fetched] at heard
  cases result with
  | error error =>
      rw [runFrom_bind_of_error fetched]
      exact runFrom_bind_of_error heard
  | ok answers =>
      rw [runFrom_bind_of_ok fetched]
      exact runFrom_bind_of_ok heard

end Link

end ShardedGraph
