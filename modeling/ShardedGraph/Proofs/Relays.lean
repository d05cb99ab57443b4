import ShardedGraph.Proofs.Connections

/-!
# Relays

A transport relays another one within a limit when, over both, all is known at once, and a shard
gives a reply over the one exactly when it gives this reply over the other one and the request keeps
the limit (`Transport.Relays`). What errors say is left open, so a client may hear of a failure in
other words. It does hear of it, though: what a client does over the one succeeds exactly when it
succeeds over the other one and every call that it makes keeps the limit, and then with the same
value (`Relayed`, `Cluster.relayedOver`).

**One after the other.** A fan-out makes all its calls before any answer counts, and the rounds of a
shared sample end at a failure that is known at once. Where all goes well, this makes no difference:
a fan-out succeeds as the same calls do when each waits for the one before (`Link.fanOut_alike`),
and a shared sample as its rounds do (`Cluster.sharedNegatives_alike`). So it is enough to know of a
single call that it is relayed (`Link.relayed_askPlace`), and of acts in a row that they are when
each of them is (`Relayed.bind`).
-/

set_option autoImplicit false

namespace ShardedGraph

variable {σ α β : Type}

/-! ## Acts that are relayed -/

/-- An act is relayed within a limit: an act that does the same by other means succeeds exactly when
this one does and all requests of its calls keep the limit; then the values are the same, and so are
the worlds that they leave. -/
structure Relayed (within : Request → Prop) (act : Exchange σ α)
    (recorded : Exchange (Rehearsal σ) α) (other : Exchange σ α) : Prop where
  yields : ∀ world value later, runFrom act world = (.ok value, later) →
    ∃ calls, Yields act recorded world later value calls
  succeeds_iff : ∀ world value later, runFrom other world = (.ok value, later) ↔
    ∃ calls, Yields act recorded world later value calls ∧ ∀ call ∈ calls, within call.2

namespace Relayed

variable {within : Request → Prop} {act : Exchange σ α} {recorded : Exchange (Rehearsal σ) α}
  {other : Exchange σ α}

theorem pure (value : α) :
    Relayed (σ := σ) within (Pure.pure value) (Pure.pure value) (Pure.pure value) where
  yields world found later run := by
    cases run
    exact ⟨[], .pure value⟩
  succeeds_iff world found later := by
    constructor
    · intro run
      cases run
      exact ⟨[], .pure value, nofun⟩
    · rintro ⟨calls, yields, -⟩
      exact yields.run

/-- An act that succeeds does so by other means when the calls on its record keep the limit. -/
theorem succeeds (relayed : Relayed within act recorded other) {world later : World σ} {value : α}
    (run : runFrom act world = (.ok value, later))
    (kept : ∀ call ∈ (runFrom recorded (world.recorded [])).2.network.calls, within call.2) :
    runFrom other world = (.ok value, later) := by
  obtain ⟨calls, yields⟩ := relayed.yields world value later run
  refine (relayed.succeeds_iff world value later).mpr
    ⟨calls, yields, fun call member => kept call ?_⟩
  rw [yields.recording [], List.append_nil]
  exact List.mem_reverse.mpr member

/-- An act that fails by all means is relayed. -/
theorem of_fails (fails : ∀ world value later, runFrom act world ≠ (.ok value, later))
    (fails' : ∀ world value later, runFrom other world ≠ (.ok value, later)) :
    Relayed within act recorded other where
  yields world value later run := absurd run (fails world value later)
  succeeds_iff world value later := by
    refine iff_of_false (fails' world value later) ?_
    rintro ⟨calls, yields, -⟩
    exact fails world value later yields.run

theorem throw (error error' : Error) : Relayed (σ := σ) (α := α) within
    (MonadExcept.throw error) recorded (MonadExcept.throw error') :=
  of_fails (fun _ _ _ run => nomatch run) fun _ _ _ run => nomatch run

theorem liftM (result : Except Error α) : Relayed (σ := σ) within (liftM result) (liftM result)
    (liftM result) := by
  cases result with
  | ok value => exact pure value
  | error error => exact throw error error

/-- Acts that follow one another are relayed when each of them is. -/
theorem bind {next : α → Exchange σ β} {recordedNext : α → Exchange (Rehearsal σ) β}
    {otherNext : α → Exchange σ β} (first : Relayed within act recorded other)
    (second : ∀ value, Relayed within (next value) (recordedNext value) (otherNext value)) :
    Relayed within (act >>= next) (recorded >>= recordedNext) (other >>= otherNext) where
  yields world value later run := by
    obtain ⟨found, between, head, rest⟩ := runFrom_bind_eq_ok run
    obtain ⟨calls, yields⟩ := first.yields world found between head
    obtain ⟨calls', yields'⟩ := (second found).yields between value later rest
    exact ⟨calls ++ calls', yields.bind yields'⟩
  succeeds_iff world value later := by
    constructor
    · intro run
      obtain ⟨found, between, head, rest⟩ := runFrom_bind_eq_ok run
      obtain ⟨calls, yields, kept⟩ := (first.succeeds_iff world found between).mp head
      obtain ⟨calls', yields', kept'⟩ := ((second found).succeeds_iff between value later).mp rest
      exact ⟨calls ++ calls', yields.bind yields', List.forall_mem_append.mpr ⟨kept, kept'⟩⟩
    · rintro ⟨all, whole, kept⟩
      obtain ⟨found, between, head, rest⟩ := runFrom_bind_eq_ok whole.run
      obtain ⟨calls, yields⟩ := first.yields world found between head
      obtain ⟨calls', yields'⟩ := (second found).yields between value later rest
      obtain ⟨-, -, rfl⟩ := whole.unique (yields.bind yields')
      obtain ⟨here, there⟩ := List.forall_mem_append.mp kept
      rw [runFrom_bind_of_ok ((first.succeeds_iff world found between).mpr ⟨calls, yields, here⟩)]
      exact ((second found).succeeds_iff between value later).mpr ⟨calls', yields', there⟩

theorem mapM {items : List α} {f : α → Exchange σ β} {recordedF : α → Exchange (Rehearsal σ) β}
    {otherF : α → Exchange σ β}
    (each : ∀ item, Relayed within (f item) (recordedF item) (otherF item)) :
    Relayed within (items.mapM f) (items.mapM recordedF) (items.mapM otherF) := by
  induction items with
  | nil => exact pure []
  | cons item items ih =>
      simp only [List.mapM_cons]
      exact (each item).bind fun _ => ih.bind fun _ => pure _

theorem foldlM {items : List α} {step : β → α → Exchange σ β}
    {recordedStep : β → α → Exchange (Rehearsal σ) β} {otherStep : β → α → Exchange σ β}
    (each : ∀ before item,
      Relayed within (step before item) (recordedStep before item) (otherStep before item))
    (first : β) : Relayed within (items.foldlM step first) (items.foldlM recordedStep first)
      (items.foldlM otherStep first) := by
  induction items generalizing first with
  | nil => exact pure first
  | cons item items ih =>
      simp only [List.foldlM_cons]
      exact (each first item).bind ih

end Relayed

/-! ## Acts that succeed alike -/

/-- Two acts succeed alike: in the same worlds, with the same values, leaving the same worlds. -/
def SucceedAlike (act act' : Exchange σ α) : Prop :=
  ∀ world value later,
    runFrom act world = (.ok value, later) ↔ runFrom act' world = (.ok value, later)

/-- What is relayed for acts is relayed for acts that succeed alike. -/
theorem Relayed.of_alike {within : Request → Prop} {act act' other other' : Exchange σ α}
    {recorded recorded' : Exchange (Rehearsal σ) α} (alike : SucceedAlike act act')
    (recordedAlike : SucceedAlike recorded recorded') (otherAlike : SucceedAlike other other')
    (relayed : Relayed within act' recorded' other') : Relayed within act recorded other := by
  have same : ∀ {world later : World σ} {value : α} {calls : List (Nat × Request)},
      Yields act recorded world later value calls ↔ Yields act' recorded' world later value calls :=
    fun {world later value calls} =>
      ⟨fun yields => ⟨(alike _ _ _).mp yields.run, fun earlier =>
        (recordedAlike _ _ _).mp (yields.recording earlier)⟩,
      fun yields => ⟨(alike _ _ _).mpr yields.run, fun earlier =>
        (recordedAlike _ _ _).mpr (yields.recording earlier)⟩⟩
  refine ⟨fun world value later run => ?_, fun world value later => ?_⟩
  · obtain ⟨calls, yields⟩ := relayed.yields world value later ((alike _ _ _).mp run)
    exact ⟨calls, same.mpr yields⟩
  · rw [otherAlike, relayed.succeeds_iff]
    simp only [same]

/-! ## Calls one after the other -/

namespace Link

/-- Asks a shard if there is a request for it. -/
def askIfAny (link : Link σ) (take : Reply → Option α) (place : Option Request × Nat) :
    StateM σ (Option (Timed (Except Error α))) :=
  match place.1 with
  | none => return none
  | some request => some <$> link.ask take place.2 request

/-- What is joined of the answer for a place. -/
def placeValue (answer : Option (Timed (Except Error α))) : Except Error (Option α) :=
  match answer with
  | none => .ok none
  | some answer => some <$> answer.value

/-- Asks a shard if there is a request for it, and goes on only with a value. -/
def askPlace (link : Link σ) (take : Reply → Option α) (place : Option Request × Nat) :
    Exchange σ (Option α) :=
  ExceptT.mk (Exchange.onNetwork (placeValue <$> link.askIfAny take place))

theorem runFrom_askPlace (link : Link σ) (take : Reply → Option α)
    (place : Option Request × Nat) (world : World σ) :
    runFrom (link.askPlace take place) world =
      (placeValue ((link.askIfAny take place).run world.network).1,
        { world with network := ((link.askIfAny take place).run world.network).2 }) := rfl

/-- All answers are values exactly when each of them is one on its turn. -/
theorem runFrom_mapM_askPlace (link : Link σ) (take : Reply → Option α)
    (places : List (Option Request × Nat)) (world later : World σ) (values : List (Option α)) :
    runFrom (places.mapM (link.askPlace take)) world = (.ok values, later) ↔
      ((places.mapM (link.askIfAny take)).run world.network).1.mapM placeValue = .ok values ∧
        { world with network := ((places.mapM (link.askIfAny take)).run world.network).2 } =
          later := by
  induction places generalizing world values with
  | nil => exact Prod.mk_inj
  | cons place places ih =>
      rcases heard : (link.askIfAny take place).run world.network with ⟨answer, between⟩
      have first : runFrom (link.askPlace take place) world =
          (placeValue answer, { world with network := between }) := by
        rw [runFrom_askPlace, heard]
      have whole : ((place :: places).mapM (link.askIfAny take)).run world.network =
          (answer :: ((places.mapM (link.askIfAny take)).run between).1,
            ((places.mapM (link.askIfAny take)).run between).2) := by
        rw [List.mapM_cons, StateT.run_bind, heard]
        rfl
      rw [List.mapM_cons, whole, List.mapM_cons]
      cases known : placeValue answer with
      | error error =>
          rw [known] at first
          rw [runFrom_bind_of_error first]
          exact iff_of_false nofun nofun
      | ok value =>
          rw [known] at first
          rw [runFrom_bind_of_ok first]
          constructor
          · intro run
            obtain ⟨others, between, rest, same⟩ := runFrom_bind_eq_ok run
            cases same
            obtain ⟨joined, left⟩ := (ih _ _).mp rest
            exact ⟨except_bind_eq_ok.mpr ⟨value, rfl, except_bind_eq_ok.mpr ⟨others, joined, rfl⟩⟩,
              left⟩
          · rintro ⟨run, left⟩
            obtain ⟨_, same, rest⟩ := except_bind_eq_ok.mp run
            cases same
            obtain ⟨others, joined, same⟩ := except_bind_eq_ok.mp rest
            cases same
            rw [runFrom_bind_of_ok ((ih _ _).mpr ⟨joined, left⟩)]
            rfl

/-- A fan-out succeeds as the same calls do when they are made one after the other. -/
theorem fanOut_alike (link : Link σ) (take : Reply → Option α) {requests : List (Option Request)}
    (counts : requests.length = link.transport.shards) :
    SucceedAlike (link.fanOut take requests) (requests.zipIdx.mapM (link.askPlace take)) := by
  intro world values later
  rw [runFrom_mapM_askPlace, runFrom_fanOut link take counts, Prod.mk.injEq]
  rfl

end Link

/-! ## Transports that relay -/

/-- Whatever shards answer over a transport is known at once. -/
def Transport.IsPrompt (transport : Transport σ) : Prop :=
  ∀ shard request state, ∃ answer later,
    (transport.call shard request).run state = (.now answer, later)

/-- A transport relays another one within a limit: both are prompt, and a shard gives a reply over
the one exactly when it gives this reply over the other one and the request keeps the limit. -/
structure Transport.Relays (other transport : Transport σ) (within : Request → Prop) : Prop where
  shards : other.shards = transport.shards
  prompt : transport.IsPrompt
  prompt_other : other.IsPrompt
  replies_iff : ∀ shard request state reply later,
    (other.call shard request).run state = (.now (.ok reply), later) ↔
      (transport.call shard request).run state = (.now (.ok reply), later) ∧ within request

namespace Link

/-- Over a prompt transport, a place gets a value exactly when its shard replies with what the
request takes. -/
theorem askPlace_eq_ok_iff {transport : Transport σ} (prompt : transport.IsPrompt)
    (deadline : Option Nat) (take : Reply → Option α) (shard : Nat) (request : Request)
    {world later : World σ} {value : Option α} :
    runFrom (askPlace ⟨transport, deadline⟩ take (some request, shard)) world = (.ok value, later) ↔
      ∃ reply state given, (transport.call shard request).run world.network =
          (.now (.ok reply), state) ∧ accept take request reply = .ok given ∧
        value = some given ∧ later = { world with network := state } := by
  obtain ⟨answer, state, called⟩ := prompt shard request world.network
  have heard := value_ask_of_now called deadline take
  have left : ((ask ⟨transport, deadline⟩ take shard request).run world.network).2 = state :=
    congrArg Prod.snd called
  have run : runFrom (askPlace ⟨transport, deadline⟩ take (some request, shard)) world =
      (some <$> answer.bind (accept take request), { world with network := state }) := by
    rw [← heard, ← left]
    rfl
  rw [run, called, Prod.mk_inj, except_map_eq_ok]
  constructor
  · rintro ⟨⟨given, taken, rfl⟩, rfl⟩
    obtain ⟨reply, rfl, taken⟩ := except_bind_eq_ok.mp taken
    exact ⟨reply, state, given, rfl, taken, rfl, rfl⟩
  · rintro ⟨reply, _, given, same, taken, rfl, rfl⟩
    cases same
    exact ⟨⟨given, taken, rfl⟩, rfl⟩

section Places

variable {within : Request → Prop} {transport other : Transport σ}
  (relays : other.Relays transport within) (deadline deadline' : Option Nat)

include relays

theorem relayed_askPlace (take : Reply → Option α) (place : Option Request × Nat) :
    Relayed within (askPlace ⟨transport, deadline⟩ take place)
      (askPlace (recording ⟨transport, deadline⟩) take place)
      (askPlace ⟨other, deadline'⟩ take place) := by
  rcases place with ⟨_ | request, shard⟩
  · exact .pure none
  have yields : ∀ {world value later},
      runFrom (askPlace ⟨transport, deadline⟩ take (some request, shard)) world =
        (.ok value, later) →
      Yields (askPlace ⟨transport, deadline⟩ take (some request, shard))
        (askPlace (recording ⟨transport, deadline⟩) take (some request, shard)) world later value
          [(shard, request)] := by
    intro world value later run
    refine ⟨run, fun earlier => ?_⟩
    change ((runFrom (askPlace ⟨transport, deadline⟩ take (some request, shard)) world).1,
      (runFrom (askPlace ⟨transport, deadline⟩ take (some request, shard)) world).2.recorded
        ((shard, request) :: earlier)) = _
    rw [run]
    rfl
  refine ⟨fun world value later run => ⟨_, yields run⟩, fun world value later => ?_⟩
  rw [askPlace_eq_ok_iff relays.prompt_other]
  simp only [relays.replies_iff]
  constructor
  · rintro ⟨reply, state, given, ⟨called, kept⟩, taken⟩
    refine ⟨_, yields ((askPlace_eq_ok_iff relays.prompt deadline take shard request).mpr
      ⟨reply, state, given, called, taken⟩), ?_⟩
    rintro call member
    cases List.mem_singleton.mp member
    exact kept
  · rintro ⟨calls, made, kept⟩
    obtain ⟨-, -, rfl⟩ := made.unique (yields made.run)
    obtain ⟨reply, state, given, called, taken⟩ :=
      (askPlace_eq_ok_iff relays.prompt deadline take shard request).mp made.run
    exact ⟨reply, state, given, ⟨called, kept _ List.mem_cons_self⟩, taken⟩

end Places

/-! ## Acts over links -/

/-- A link relays another one within a limit: so do its fan-outs. -/
structure Relays (other link : Link σ) (within : Request → Prop) : Prop where
  shards : other.transport.shards = link.transport.shards
  fanOut : ∀ {α : Type} (take : Reply → Option α) (requests : List (Option Request)),
    Relayed within (link.fanOut take requests) (link.recording.fanOut take requests)
      (other.fanOut take requests)

/-- Links over transports that relay each other do so, whatever their deadlines. -/
theorem relays_of_transports {within : Request → Prop} {transport other : Transport σ}
    (relays : other.Relays transport within) (deadline deadline' : Option Nat) :
    Relays ⟨other, deadline'⟩ ⟨transport, deadline⟩ within := by
  refine ⟨relays.shards, fun take requests => ?_⟩
  by_cases counts : requests.length = transport.shards
  · exact .of_alike (fanOut_alike _ take counts) (fanOut_alike _ take counts)
      (fanOut_alike _ take (counts.trans relays.shards.symm))
      (.mapM fun place => relayed_askPlace relays deadline deadline' take place)
  · have counts' : requests.length ≠ other.shards := fun same => counts (same.trans relays.shards)
    refine .of_fails (fun world value later run => ?_) fun world value later run => ?_
    · rw [runFrom_fanOut_of_ne ⟨transport, deadline⟩ take counts] at run
      cases run
    · rw [runFrom_fanOut_of_ne ⟨other, deadline'⟩ take counts'] at run
      cases run

variable {within : Request → Prop} {link other : Link σ} (relays : other.Relays link within)

include relays

theorem relayed_broadcast (take : Reply → Option α) (request : Request) :
    Relayed within (link.broadcast take request) (link.recording.broadcast take request)
      (other.broadcast take request) := by
  unfold broadcast
  simp only [shards_recording, relays.shards]
  refine (relays.fanOut take _).bind fun answers => .mapM fun answer => ?_
  rcases answer with ⟨_ | value, shard⟩
  · exact .throw _ _
  · exact .pure value

theorem relayed_lookup [Inhabited α] (known : NodeId → Option α) (make : List NodeId → Request)
    (take : Reply → Option (List α)) (nodes : List NodeId) :
    Relayed within (link.lookup known make take nodes) (link.recording.lookup known make take nodes)
      (other.lookup known make take nodes) := by
  unfold lookup
  simp only [shards_recording, relays.shards]
  refine (Relayed.liftM _).bind fun batch => ?_
  split
  · exact .pure _
  · exact (relays.fanOut take _).bind fun answers => .liftM _

theorem relayed_lookupFeatures (cache : Cache) (nodes : List NodeId) :
    Relayed within (link.lookupFeatures cache nodes) (link.recording.lookupFeatures cache nodes)
      (other.lookupFeatures cache nodes) := by
  unfold lookupFeatures
  simp only [shards_recording, relays.shards]
  refine (Relayed.liftM _).bind fun batch => ?_
  split
  · exact .pure _
  · exact (relays.fanOut Reply.features? _).bind fun answers => .liftM _

theorem relayed_scanRounds (page limit : Nat) (scan : Scan) :
    Relayed within (link.scanRounds page limit scan) (link.recording.scanRounds page limit scan)
      (other.scanRounds page limit scan) := by
  induction limit generalizing scan with
  | zero => exact .pure scan
  | succ limit ih =>
      unfold scanRounds
      split
      · exact .pure scan
      · exact (relays.fanOut Reply.hotNodes? _).bind fun answers =>
          (Relayed.liftM _).bind fun next => ih next

theorem relayed_scanHotNodes (page : Nat) :
    Relayed within (link.scanHotNodes page) (link.recording.scanHotNodes page)
      (other.scanHotNodes page) := by
  unfold scanHotNodes
  simp only [shards_recording, relays.shards]
  exact (relayed_scanRounds relays page _ _).bind fun scan => .pure scan.seen

theorem relayed_fetchCache (page : Nat) :
    Relayed within (link.fetchCache page) (link.recording.fetchCache page)
      (other.fetchCache page) := by
  refine (relayed_scanHotNodes relays page).bind fun nodes => .foldlM (fun cache slice => ?_) _
  refine Relayed.bind ?_ fun _ => .pure _
  exact (relayed_lookup relays _ _ _ slice).bind fun _ =>
    (relayed_lookupFeatures relays _ slice).bind fun _ => .pure _

theorem relayed_learn : Relayed within link.learn link.recording.learn other.learn :=
  (relayed_broadcast relays _ _).bind fun _ => (Relayed.liftM _).bind fun _ =>
    (relayed_broadcast relays _ _).bind fun _ => (Relayed.liftM _).bind fun _ =>
      (Relayed.liftM _).bind fun _ => (Relayed.liftM _).bind fun _ =>
        (relayed_fetchCache relays _).bind fun _ => .pure _

theorem relayed_growRounds (path : List NamespaceId) (limit : Nat) (trails : List Trail) :
    Relayed within (link.growRounds path limit trails) (link.recording.growRounds path limit trails)
      (other.growRounds path limit trails) := by
  induction limit generalizing trails with
  | zero => exact .pure trails
  | succ limit ih =>
      unfold growRounds growOnce
      simp only [shards_recording, relays.shards]
      split
      · refine Relayed.bind ?_ ih
        exact (Relayed.liftM _).bind fun batch => (relays.fanOut Reply.walks? _).bind fun answers =>
          .liftM _
      · exact .pure trails

theorem relayed_walk (starts : List NodeId) (lengths : List UInt64) (path : List NamespaceId) :
    Relayed within (link.walk starts lengths path) (link.recording.walk starts lengths path)
      (other.walk starts lengths path) := by
  unfold walk
  split
  · exact (relayed_growRounds relays path _ _).bind fun grown => .pure _
  · exact .throw _ _

end Link

/-! ## Shared samples -/

/-- Draws by a client are relayed. -/
theorem Relayed.onStream {within : Request → Prop} (draw : Draw α) :
    Relayed (σ := σ) within (ExceptT.lift (Exchange.onStream draw))
      (ExceptT.lift (Exchange.onStream draw)) (ExceptT.lift (Exchange.onStream draw)) where
  yields world value later run := by
    cases run
    exact ⟨[], rfl, fun _ => rfl⟩
  succeeds_iff world value later := by
    constructor
    · intro run
      cases run
      exact ⟨[], ⟨rfl, fun _ => rfl⟩, nofun⟩
    · rintro ⟨calls, yields, -⟩
      exact yields.run

namespace Cluster

variable {cluster : Cluster σ} {query : NegativeQuery}

/-- Draws the pool of a namespace, and goes on only with a pool. -/
def poolAlone (cluster : Cluster σ) (query : NegativeQuery) (entry : NamespaceId × NodeId) :
    Exchange σ (List NodeId) :=
  match cluster.shares.getD entry.1.toNat none with
  | none => throw (.emptyNamespace entry.1)
  | some table => do
      let split ← ExceptT.lift (Exchange.onStream (cluster.drawSplit query table))
      let answers ← cluster.link.fanOut Reply.pools? (shareRequests split entry.2 query.excluded)
      liftM (gatherShares entry.1 query.count.toNat split answers)

theorem runFrom_poolAlone (cluster : Cluster σ) (query : NegativeQuery)
    (entry : NamespaceId × NodeId) (world : World σ) :
    runFrom (cluster.poolAlone query entry) world =
      (((cluster.poolRound query entry.1 entry.2).run world).1.value,
        ((cluster.poolRound query entry.1 entry.2).run world).2) := by
  unfold poolAlone
  cases there : cluster.shares.getD entry.1.toNat none with
  | none =>
      rw [cluster.run_poolRound_of_none query entry.2 there world]
      rfl
  | some table =>
      rw [cluster.run_poolRound_of_some query entry.2 there world]
      have drawn : runFrom (ExceptT.lift (Exchange.onStream (cluster.drawSplit query table)))
          world = (.ok (cluster.drawSplit query table world.stream).1,
            { world with stream := (cluster.drawSplit query table world.stream).2 }) := rfl
      dsimp only
      rw [runFrom_bind_of_ok drawn, runFrom_bind, Link.runFrom_fanOut_eq_timed, joinHeard]
      dsimp only
      generalize cluster.drawSplit query table world.stream = split
      rcases (cluster.link.fanOutTimed Reply.pools? (shareRequests split.1 entry.2
        query.excluded)).run world.network with ⟨⟨_ | answers, time⟩, network⟩
      · rfl
      · rfl

/-- All rounds give a pool exactly when each of them does on its turn. -/
theorem runFrom_mapM_poolAlone (inOrder : Bool) (known : Moment)
    (touched : List (NamespaceId × NodeId)) (world later : World σ) (pools : List (List NodeId)) :
    runFrom (touched.mapM (cluster.poolAlone query)) world = (.ok pools, later) ↔
      List.Forall₂ (fun round pool => round.value = .ok pool)
        ((cluster.poolRounds query inOrder known touched).run world).1 pools ∧
      ((cluster.poolRounds query inOrder known touched).run world).2 = later := by
  induction touched generalizing known world pools with
  | nil =>
      change (Except.ok [], world) = _ ↔ List.Forall₂ _ [] pools ∧ world = later
      rw [Prod.mk_inj, List.forall₂_nil_left_iff, Except.ok.injEq, eq_comm (b := pools)]
  | cons entry touched ih =>
      have first := cluster.runFrom_poolAlone query entry world
      rw [List.mapM_cons, run_poolRounds_cons]
      dsimp only
      cases made : ((cluster.poolRound query entry.1 entry.2).run world).1.value with
      | error error =>
          rw [made] at first
          rw [runFrom_bind_of_error first]
          refine iff_of_false nofun ?_
          rintro ⟨given, -⟩
          split at given
          · cases given with
            | cons head _ => exact nomatch made.symm.trans head
          · cases given with
            | cons head _ => exact nomatch made.symm.trans head
      | ok pool =>
          rw [made] at first
          rw [runFrom_bind_of_ok first]
          have going : (((cluster.poolRound query entry.1 entry.2).run world).1.delayedTill
              known).failsAtOnce = false := by rw [Timed.failsAtOnce, Timed.delayedTill, made]
          rw [going, if_neg Bool.false_ne_true]
          constructor
          · intro run
            obtain ⟨others, between, rest, same⟩ := runFrom_bind_eq_ok run
            cases same
            obtain ⟨joined, left⟩ := (ih _ _ _).mp rest
            exact ⟨.cons made joined, left⟩
          · rintro ⟨given, left⟩
            cases given with
            | cons head rest =>
                cases made.symm.trans head
                rw [runFrom_bind_of_ok ((ih _ _ _).mpr ⟨rest, left⟩)]
                rfl

/-- Draws the pools of all touched namespaces, one after the other. -/
def poolsInTurn (cluster : Cluster σ) (query : NegativeQuery) :
    Exchange σ (List (List NodeId)) := do
  let touched ← touchedNamespaces cluster.slots query.nodes
  let pools ← touched.mapM (cluster.poolAlone query)
  return placed cluster.slots (touched.zip pools)

/-- A shared sample succeeds as its rounds do when they are made one after the other. -/
theorem sharedNegatives_alike (cluster : Cluster σ) (query : NegativeQuery) :
    SucceedAlike (cluster.sharedNegatives query) (cluster.poolsInTurn query) := by
  intro world pools later
  cases found : touchedNamespaces cluster.slots query.nodes with
  | error error =>
      rw [sharedNegatives, poolsInTurn, found, runFrom_bind_of_error (runFrom_liftM _ world),
        runFrom_bind_of_error (runFrom_liftM _ world)]
  | ok touched =>
      rw [cluster.runFrom_sharedNegatives found, poolsInTurn, found,
        runFrom_bind_of_ok (runFrom_liftM _ world)]
      dsimp only
      rw [Prod.mk_inj, joinRounds_eq_ok_iff]
      constructor
      · rintro ⟨⟨given, made, rfl⟩, left⟩
        rw [runFrom_bind_of_ok ((runFrom_mapM_poolAlone _ _ touched world later given).mpr
          ⟨made, left⟩)]
        rfl
      · intro run
        obtain ⟨given, between, made, same⟩ := runFrom_bind_eq_ok run
        cases same
        obtain ⟨made, left⟩ := (runFrom_mapM_poolAlone _ _ touched world later given).mp made
        exact ⟨⟨given, made, rfl⟩, left⟩

end Cluster

/-! ## All acts -/

namespace Cluster

/-- The same client over another transport. -/
def movedTo {τ : Type} (cluster : Cluster τ) (other : Transport σ) : Cluster σ where
  link := ⟨other, cluster.link.deadline⟩
  pageSize := cluster.pageSize
  slots := cluster.slots
  shares := cluster.shares
  cache := cluster.cache

/-- What a client does is relayed over another transport. -/
def RelaysAct (cluster : Cluster σ) (other : Transport σ) (within : Request → Prop)
    (act : ∀ τ, Cluster τ → Exchange τ α) : Prop :=
  Relayed within (act σ cluster) (act (Rehearsal σ) cluster.recording)
    (act σ (cluster.movedTo other))

/-- Everything that a client does is relayed over another transport. -/
structure RelayedOver (cluster : Cluster σ) (other : Transport σ) (within : Request → Prop) :
    Prop where
  metaValues : ∀ key, cluster.RelaysAct other within fun _ client => client.metaValues key
  sharedNegatives : ∀ query,
    cluster.RelaysAct other within fun _ client => client.sharedNegatives query
  independentNegatives : ∀ query,
    cluster.RelaysAct other within fun _ client => client.independentNegatives query
  neighbors : ∀ query, cluster.RelaysAct other within fun _ client => client.neighbors query
  walk : ∀ starts lengths path,
    cluster.RelaysAct other within fun _ client => client.walk starts lengths path
  features : ∀ nodes, cluster.RelaysAct other within fun _ client => client.features nodes
  nodeFeatures : ∀ nodes, cluster.RelaysAct other within fun _ client => client.nodeFeatures nodes
  neighborFeatures : ∀ nodes,
    cluster.RelaysAct other within fun _ client => client.neighborFeatures nodes
  contexts : ∀ nodes, cluster.RelaysAct other within fun _ client => client.contexts nodes
  scanHotNodes : cluster.RelaysAct other within fun _ client => client.scanHotNodes

variable {within : Request → Prop} {transport other : Transport σ}

theorem relayed_poolsInTurn {cluster : Cluster σ}
    (relays : other.Relays cluster.link.transport within) (query : NegativeQuery) :
    cluster.RelaysAct other within fun _ client => client.poolsInTurn query := by
  have links := Link.relays_of_transports relays cluster.link.deadline cluster.link.deadline
  have shards : (cluster.movedTo other).shards = cluster.shards := relays.shards
  have same : (cluster.movedTo other).drawSplit query = cluster.drawSplit query := by
    funext table stream
    rw [drawSplit, drawSplit, shards]
  refine (Relayed.liftM _).bind fun touched => Relayed.bind (.mapM fun entry => ?_) fun _ => .pure _
  unfold poolAlone
  rw [same, show (cluster.movedTo other).shares = cluster.shares from rfl,
    show cluster.recording.shares = cluster.shares from rfl]
  cases cluster.shares.getD entry.1.toNat none with
  | none => exact .throw _ _
  | some table =>
      exact (Relayed.onStream _).bind fun split => (links.fanOut Reply.pools? _).bind fun answers =>
        .liftM _

/-- Over a transport that relays another one, everything that a client does is relayed. -/
theorem relayedOver {cluster : Cluster σ} (relays : other.Relays cluster.link.transport within) :
    cluster.RelayedOver other within := by
  have links := Link.relays_of_transports relays cluster.link.deadline cluster.link.deadline
  exact {
    metaValues := fun key => Link.relayed_broadcast links _ _
    sharedNegatives := fun query => .of_alike (sharedNegatives_alike _ _)
      (sharedNegatives_alike _ _) (sharedNegatives_alike _ _) (relayed_poolsInTurn relays query)
    independentNegatives := fun query => Link.relayed_lookup links _ _ _ _
    neighbors := fun query => (Link.relayed_lookup links _ _ _ _).bind fun lists =>
      (Relayed.liftM _).bind fun _ => .pure lists
    walk := fun starts lengths path => Link.relayed_walk links starts lengths path
    features := fun nodes => Link.relayed_lookupFeatures links _ nodes
    nodeFeatures := fun nodes => Link.relayed_lookup links _ _ _ nodes
    neighborFeatures := fun nodes => Link.relayed_lookup links _ _ _ nodes
    contexts := fun nodes => (Link.relayed_lookup links _ _ _ nodes).bind fun found =>
      (Relayed.liftM _).bind fun _ => .pure found
    scanHotNodes := Link.relayed_scanHotNodes links _ }

/-- So is connecting: what a client learns over the one transport it learns over the other one. -/
theorem relayed_connect (relays : other.Relays transport within) (config : Config) :
    Relayed within ((fun cluster => cluster.movedTo other) <$> connect transport config)
      ((fun cluster => cluster.movedTo other) <$> connect (Transport.rehearsed transport) config)
      (connect other config) := by
  rcases Nat.eq_zero_or_pos transport.shards with none | positive
  · refine .of_fails (fun world cluster later run => ?_) fun world cluster later run => ?_
    · rw [connect, if_pos none] at run
      cases run
    · exact absurd (spec_of_connect run).1 (by rw [relays.shards, none]; exact Nat.lt_irrefl 0)
  · have links := Link.relays_of_transports relays config.deadline? config.deadline?
    rw [connect_eq positive, @connect_eq _ (Transport.rehearsed transport) positive,
      connect_eq (relays.shards ▸ positive), map_bind, map_bind]
    exact (Link.relayed_learn links).bind fun knowledge => .pure _

end Cluster

end ShardedGraph
