import ShardedGraph.Proofs.Filling
import ShardedGraph.Proofs.Honest

/-!
# Truthful transports and shards in one process

What a client does to connect asks only for what partitions answer without any chance. So over a
truthful transport, it learns nothing that it would not learn from the same partitions in its own
process: an act that succeeds over the one succeeds over the other, with the same value and the same
calls (`Mirrors`). Calls may be late over a transport, or fail; then nothing is learned at all.

A request is answered without chance when each partition gives the same result for it, whatever it
could draw (`Steady`).
-/

set_option autoImplicit false

namespace ShardedGraph

/-! ## Acts that mirror each other -/

section Mirrors

variable {σ σ' α β : Type}

/-- Whenever an act succeeds, so does another one, wherever it begins, with the same value; and on
the record both make the same calls. -/
def Mirrors (act : Exchange σ α) (recorded : Exchange (Rehearsal σ) α) (other : Exchange σ' α)
    (otherRecorded : Exchange (Rehearsal σ') α) : Prop :=
  ∀ world value later, runFrom act world = (.ok value, later) →
    ∃ calls, Yields act recorded world later value calls ∧
      ∀ world', ∃ later', Yields other otherRecorded world' later' value calls

namespace Mirrors

variable {act : Exchange σ α} {recorded : Exchange (Rehearsal σ) α} {other : Exchange σ' α}
  {otherRecorded : Exchange (Rehearsal σ') α}

theorem pure (value : α) : Mirrors (σ := σ) (Pure.pure value) (Pure.pure value)
    (Pure.pure value : Exchange σ' α) (Pure.pure value) := by
  intro world found later run
  cases run
  exact ⟨[], .pure value, fun world' => ⟨world', .pure value⟩⟩

theorem liftM (result : Except Error α) : Mirrors (liftM result : Exchange σ α) (liftM result)
    (liftM result : Exchange σ' α) (liftM result) := by
  cases result with
  | ok value => exact pure value
  | error error =>
      intro world found later run
      cases run

theorem bind {next : α → Exchange σ β} {recordedNext : α → Exchange (Rehearsal σ) β}
    {otherNext : α → Exchange σ' β} {otherRecordedNext : α → Exchange (Rehearsal σ') β}
    (first : Mirrors act recorded other otherRecorded)
    (second : ∀ world value later, runFrom act world = (.ok value, later) →
      Mirrors (next value) (recordedNext value) (otherNext value) (otherRecordedNext value)) :
    Mirrors (act >>= next) (recorded >>= recordedNext) (other >>= otherNext)
      (otherRecorded >>= otherRecordedNext) := by
  intro world value later run
  obtain ⟨found, between, run, rest⟩ := runFrom_bind_eq_ok run
  obtain ⟨calls, yields, others⟩ := first world found between run
  obtain ⟨calls', yields', others'⟩ := second world found between run between value later rest
  refine ⟨calls ++ calls', yields.bind yields', fun world' => ?_⟩
  obtain ⟨between', here⟩ := others world'
  obtain ⟨later', there⟩ := others' between'
  exact ⟨later', here.bind there⟩

theorem mapM {items : List α} {f : α → Exchange σ β} {recordedF : α → Exchange (Rehearsal σ) β}
    {otherF : α → Exchange σ' β} {otherRecordedF : α → Exchange (Rehearsal σ') β}
    (each : ∀ item ∈ items, Mirrors (f item) (recordedF item) (otherF item) (otherRecordedF item)) :
    Mirrors (items.mapM f) (items.mapM recordedF) (items.mapM otherF)
      (items.mapM otherRecordedF) := by
  induction items with
  | nil => exact pure []
  | cons item items ih =>
      obtain ⟨here, others⟩ := List.forall_mem_cons.mp each
      simp only [List.mapM_cons]
      exact here.bind fun _ _ _ _ => (ih others).bind fun _ _ _ _ => pure _

theorem foldlM {items : List α} {step : β → α → Exchange σ β}
    {recordedStep : β → α → Exchange (Rehearsal σ) β} {otherStep : β → α → Exchange σ' β}
    {otherRecordedStep : β → α → Exchange (Rehearsal σ') β}
    (each : ∀ item ∈ items, ∀ before, Mirrors (step before item) (recordedStep before item)
      (otherStep before item) (otherRecordedStep before item)) (first : β) :
    Mirrors (items.foldlM step first) (items.foldlM recordedStep first)
      (items.foldlM otherStep first) (items.foldlM otherRecordedStep first) := by
  induction items generalizing first with
  | nil => exact pure first
  | cons item items ih =>
      obtain ⟨here, others⟩ := List.forall_mem_cons.mp each
      simp only [List.foldlM_cons]
      exact (here first).bind fun _ after _ _ => ih others after

end Mirrors

end Mirrors

/-! ## Requests that leave nothing to chance -/

/-- A request that can be sent, and to which each partition answers the same whatever it could
draw. -/
structure Steady (partitions : List Partition) (request : Request) : Prop where
  sent : LengthsFit request.lengths
  same : ∀ partition ∈ partitions, ∀ stream other,
    (runFrom (partition.answer request) stream).1 = (runFrom (partition.answer request) other).1

namespace Steady

/-- A result that is worked on without chance does not depend on any. -/
theorem fst_runFrom_return {S α β : Type} (result : Except Error α) (f : α → β) (state other : S) :
    (runFrom (do return f (← (liftM result : ExceptT Error (StateM S) α))) state).1 =
      (runFrom (do return f (← (liftM result : ExceptT Error (StateM S) α))) other).1 := by
  cases result with
  | ok value => rfl
  | error error => rfl

variable (partitions : List Partition)

theorem metaValue {key : String} (short : (Text.writeUtf8 key).length < UInt64.size) :
    Steady partitions (.metaValue key) where
  sent := by simpa [Request.lengths] using short
  same partition _ := fst_runFrom_return (partition.metaValue key) Reply.metaValue

theorem contexts {nodes : List NodeId} (short : nodes.length < UInt64.size) :
    Steady partitions (.contexts nodes) where
  sent := by simpa [Request.lengths] using short
  same _ _ _ _ := rfl

theorem features {nodes : List NodeId} (short : nodes.length < UInt64.size) :
    Steady partitions (.features nodes) where
  sent := by simpa [Request.lengths] using short
  same _ _ _ _ := rfl

theorem hotNodes (query : PageQuery) : Steady partitions (.hotNodes query) where
  sent := by simp [Request.lengths]
  same partition _ :=
    fst_runFrom_return (partition.hotPage query.cursor.toNat query.count.toNat)
      Reply.hotNodes

end Steady

/-! ## What a client asks -/

namespace Link

variable {σ σ' α β : Type} {partitions : List Partition}

/-- What is heard over a link in answer to steady requests is heard over another one. -/
structure MirroredBy (link : Link σ) (other : Link σ') (partitions : List Partition) : Prop where
  shards : other.transport.shards = link.transport.shards
  fanOut : ∀ {α : Type} (take : Reply → Option α) (requests : List (Option Request)),
    requests.length = link.transport.shards →
    (∀ (shard : Nat) request, requests[shard]? = some (some request) → Steady partitions request) →
      Mirrors (link.fanOut take requests) (link.recording.fanOut take requests)
        (other.fanOut take requests) (other.recording.fanOut take requests)

/-- What is heard over a truthful transport is heard in one process. -/
theorem mirroredBy_toPartitions {transport : Transport σ}
    (truthful : transport.IsTruthful partitions)
    (built : ∀ partition ∈ partitions, partition.IsBuilt) (deadline other : Option Nat) :
    MirroredBy ⟨transport, deadline⟩ (toPartitions partitions other) partitions := by
  have shards : (toPartitions partitions other).transport.shards = transport.shards :=
    (shards_toPartitions partitions other).trans truthful.shards.symm
  refine ⟨shards, fun take requests counts steady world answers later run => ?_⟩
  have joined := joined_of_fanOut run
  have counts' : requests.length = (toPartitions partitions other).transport.shards :=
    counts.trans shards.symm
  have answers' : ∀ world', (runFrom (Link.fanOut (toPartitions partitions other) take requests)
      world').1 = .ok answers := by
    refine fanOut_eq_ok counts' joined.length (fun shard request asked => ?_) joined.silent
    obtain ⟨sent, same⟩ := steady shard request asked
    obtain ⟨value, state, given, heard⟩ := joined.asked shard request asked
    obtain ⟨partition, chance, reply, after, there, answered, took⟩ :=
      exists_reply_of_heard deadline sent truthful heard
    have member := List.mem_of_getElem? there
    refine ⟨value, given, answers_inProcess (getElem?_services there) other
      (Wire.isExact_request.reads _ sent) (fun stream => ?_) (Wire.isExact_reply.reads _
        ((built partition member).lengthsFit_of_answer sent answered)) took⟩
    rw [same partition member stream chance, answered]
  exact ⟨callsOf requests, fanOut_yields counts run, fun world' =>
    ⟨_, fanOut_yields counts' (Prod.ext (answers' world') rfl)⟩⟩

theorem shards_recording (link : Link σ) :
    link.recording.transport.shards = link.transport.shards := rfl

variable {link : Link σ} {other : Link σ'} (mirrored : link.MirroredBy other partitions)

include mirrored

theorem mirrors_broadcast {take : Reply → Option α} {request : Request}
    (steady : Steady partitions request) :
    Mirrors (link.broadcast take request) (link.recording.broadcast take request)
      (other.broadcast take request) (other.recording.broadcast take request) := by
  unfold broadcast
  simp only [shards_recording, mirrored.shards]
  refine .bind (mirrored.fanOut take _ List.length_replicate ?_) ?_
  · intro shard asked there
    cases List.eq_of_mem_replicate (List.mem_of_getElem? there)
    exact steady
  · intro _ answers _ _
    refine .mapM ?_
    rintro ⟨answer, shard⟩ _
    cases answer with
    | some value => exact .pure value
    | none => exact .liftM (.error (.unanswered shard))

theorem mirrors_lookup [Inhabited β] (positive : 0 < link.transport.shards)
    (known : NodeId → Option β) {make : List NodeId → Request} {take : Reply → Option (List β)}
    {nodes : List NodeId}
    (steady : ∀ part : List NodeId, part.length ≤ nodes.length → Steady partitions (make part)) :
    Mirrors (link.lookup known make take nodes) (link.recording.lookup known make take nodes)
      (other.lookup known make take nodes) (other.recording.lookup known make take nodes) := by
  unfold lookup
  simp only [shards_recording, mirrored.shards, unknownNodes_eq known positive]
  refine .bind (.liftM _) fun _ batch _ made => ?_
  cases made
  split
  · exact .pure _
  · rw [requests_parcelsOf]
    refine .bind (mirrored.fanOut take _ (length_forOwners _ _) ?_)
      fun _ answers _ _ => .liftM _
    intro shard request asked
    obtain ⟨_, _, rfl⟩ := getElem?_forOwners_eq_some.mp asked
    exact steady _ (List.length_filter_le _ _)

theorem mirrors_lookupFeatures (positive : 0 < link.transport.shards) (cache : Cache)
    {nodes : List NodeId} (short : nodes.length < UInt64.size) :
    Mirrors (link.lookupFeatures cache nodes) (link.recording.lookupFeatures cache nodes)
      (other.lookupFeatures cache nodes) (other.recording.lookupFeatures cache nodes) := by
  unfold lookupFeatures
  simp only [shards_recording, mirrored.shards, unknownNodes_eq cache.features? positive]
  refine .bind (.liftM _) fun _ batch _ made => ?_
  cases made
  split
  · exact .pure _
  · rw [requests_parcelsOf]
    refine .bind (mirrored.fanOut Reply.features? _ (length_forOwners _ _) ?_)
      fun _ answers _ _ => .liftM _
    intro shard request asked
    obtain ⟨_, _, rfl⟩ := getElem?_forOwners_eq_some.mp asked
    exact .features partitions (Nat.lt_of_le_of_lt (List.length_filter_le _ _) short)

theorem mirrors_scanRounds (page limit : Nat) {scan : Scan}
    (counts : scan.active.length = link.transport.shards) :
    Mirrors (link.scanRounds page limit scan) (link.recording.scanRounds page limit scan)
      (other.scanRounds page limit scan) (other.recording.scanRounds page limit scan) := by
  induction limit generalizing scan with
  | zero => exact .pure scan
  | succ limit ih =>
      unfold scanRounds
      split
      · exact .pure scan
      refine .bind (mirrored.fanOut Reply.hotNodes? _ ?_ ?_) fun _ answers _ _ =>
        .bind (.liftM _) fun _ next _ taken => ih ?_
      · rw [Scan.requests, List.length_map, counts]
      · intro shard request asked
        cases Scan.eq_of_getElem?_requests asked
        exact .hotNodes partitions _
      · rw [runFrom_liftM] at taken
        exact (Scan.length_active_of_takeAll (congrArg Prod.fst taken)).trans counts

theorem mirrors_fetchCache (positive : 0 < link.transport.shards) {page : Nat}
    (small : page < UInt64.size) :
    Mirrors (link.fetchCache page) (link.recording.fetchCache page) (other.fetchCache page)
      (other.recording.fetchCache page) := by
  unfold fetchCache scanHotNodes
  simp only [shards_recording, mirrored.shards]
  refine .bind (.bind (mirrors_scanRounds mirrored page _ List.length_replicate)
    fun _ _ _ _ => .pure _) fun _ nodes _ _ => .foldlM (fun slice member cache => ?_) _
  have short := Nat.lt_of_le_of_lt (length_le_of_mem_slicesOf member) small
  refine .bind ?_ fun _ _ _ _ => .pure _
  exact .bind (mirrors_lookup mirrored positive _ fun part few =>
      .contexts partitions (Nat.lt_of_le_of_lt few short))
    fun _ _ _ _ => .bind (mirrors_lookupFeatures mirrored positive _ short)
      fun _ _ _ _ => .pure _

end Link

end ShardedGraph
