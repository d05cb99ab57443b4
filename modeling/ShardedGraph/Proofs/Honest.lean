import ShardedGraph.Proofs.Acceptance
import ShardedGraph.Proofs.Blame
import ShardedGraph.Proofs.Failures
import ShardedGraph.Proofs.Scans
import ShardedGraph.Proofs.Shapes

/-!
# Clients of honest shards

A transport is truthful when all that it brings from shards is what their partitions answer; it may
also fail (`Transport.IsTruthful`). It is honest when it fails for reasons of its own
(`Transport.IsHonest`). Built partitions in the same process are behind such a transport
(`Transport.isHonest_inProcess`).

**Misfits.** A client checks that replies have the form and the sizes that it asked for, and that
there is one place for each shard (`Error.isMisfit`). Replies of partitions suit the requests, so
these checks never fail in front of honest shards, whatever else may go wrong: an act that fails
does so fairly (`ActsFairly`), and acts that follow one another fail fairly when each of them does.
-/

set_option autoImplicit false

namespace ShardedGraph

/-- Errors of a client that finds fault with a reply, or with the places of replies. -/
def Error.isMisfit : Error → Bool
  | mismatched _ _ | requestCount _ _ | unanswered _ | entryCount _ _ _ | badPosition _ _ _
  | walkCount _ _ _ | poolCount _ _ _ _ | overfullPage _ _ _ => true
  | _ => false

/-- Whatever stops is no misfit. -/
theorem Error.isMisfit_of_stops {error : Error} (stops : error.stops = true) :
    error.isMisfit = false := by
  cases error with
  | mismatched | requestCount | unanswered | entryCount | badPosition | walkCount | poolCount
  | overfullPage => cases stops
  | _ => rfl

/-! ## Fair results -/

/-- A result that is no misfit. -/
def IsFair {α : Type} (result : Except Error α) : Prop :=
  ∀ error, result = .error error → error.isMisfit = false

namespace IsFair

variable {α β : Type} {items : List α}

theorem ok (value : α) : IsFair (.ok value) := FailsWithin.ok value

theorem error {error : Error} (fair : error.isMisfit = false) :
    IsFair (.error error : Except Error α) := FailsWithin.error fair

theorem bind {result : Except Error α} {next : α → Except Error β} (first : IsFair result)
    (second : ∀ value, result = .ok value → IsFair (next value)) : IsFair (result >>= next) :=
  FailsWithin.bind first second

theorem map {result : Except Error α} (fair : IsFair result) (f : α → β) : IsFair (f <$> result) :=
  FailsWithin.map fair f

theorem mapM {f : α → Except Error β} (each : ∀ item ∈ items, IsFair (f item)) :
    IsFair (items.mapM f) :=
  FailsWithin.mapM each

theorem foldlM {step : β → α → Except Error β}
    (each : ∀ item ∈ items, ∀ before, IsFair (step before item)) (first : β) :
    IsFair (items.foldlM step first) :=
  FailsWithin.foldlM each first

/-- Answers are worked in fairly when the answer of each shard is. -/
theorem eachAnswer {positions : List (List Nat)} {answers : List (Option α)} {first : β}
    {write : Nat → List Nat → α → β → Except Error β}
    (each : ∀ (shard : Nat) slice answer before, positions[shard]? = some slice →
      answers[shard]? = some (some answer) → IsFair (write shard slice answer before)) :
    IsFair (eachAnswer positions answers first write) := by
  rw [eachAnswer_eq_foldlM]
  refine foldlM ?_ first
  rintro ⟨⟨slice, answer⟩, shard⟩ member before
  obtain ⟨there, given⟩ :=
    List.getElem?_zip_eq_some.mp (List.mk_mem_zipIdx_iff_getElem?.mp member)
  cases answer with
  | none => exact ok _
  | some answer => exact each shard slice answer before there given

end IsFair

/-- An act that fails, if it does, for some reason other than a misfit. -/
def ActsFairly {S α : Type} (act : ExceptT Error (StateM S) α) : Prop :=
  ∀ state, IsFair (runFrom act state).1

namespace ActsFairly

variable {S α β : Type} {items : List α}

theorem pure (value : α) : ActsFairly (S := S) (Pure.pure value) := ActsWithin.pure value

theorem throw {error : Error} (fair : error.isMisfit = false) :
    ActsFairly (throw error : ExceptT Error (StateM S) α) := ActsWithin.throw fair

theorem liftM {result : Except Error α} (fair : IsFair result) :
    ActsFairly (liftM result : ExceptT Error (StateM S) α) := ActsWithin.liftM fair

theorem bind {act : ExceptT Error (StateM S) α} {next : α → ExceptT Error (StateM S) β}
    (first : ActsFairly act)
    (second : ∀ state value later, runFrom act state = (.ok value, later) →
      ActsFairly (next value)) : ActsFairly (act >>= next) :=
  ActsWithin.bind first second

theorem mapM {f : α → ExceptT Error (StateM S) β} (each : ∀ item ∈ items, ActsFairly (f item)) :
    ActsFairly (items.mapM f) :=
  ActsWithin.mapM each

theorem foldlM {step : β → α → ExceptT Error (StateM S) β}
    (each : ∀ item ∈ items, ∀ before, ActsFairly (step before item)) (first : β) :
    ActsFairly (items.foldlM step first) :=
  ActsWithin.foldlM each first

end ActsFairly

/-! ## Honest transports -/

/-- A transport over which partitions answer. A call may also fail. -/
structure Transport.IsTruthful {σ : Type} (transport : Transport σ) (partitions : List Partition) :
    Prop where
  shards : transport.shards = partitions.length
  answered : ∀ (shard : Nat) request state reply, LengthsFit request.lengths →
    ((transport.call shard request).run state).1.answer = .ok reply →
      ∃ partition chance later, partitions[shard]? = some partition ∧
        runFrom (partition.answer request) chance = (.ok reply, later)

/-- A truthful transport whose calls do not fail as misfits. -/
structure Transport.IsHonest {σ : Type} (transport : Transport σ) (partitions : List Partition) :
    Prop extends transport.IsTruthful partitions where
  failed : ∀ (shard : Nat) request state, LengthsFit request.lengths →
    IsFair ((transport.call shard request).run state).1.answer

/-- Built partitions in the same process are honest. -/
theorem Transport.isHonest_inProcess {partitions : List Partition}
    (built : ∀ partition ∈ partitions, partition.IsBuilt) :
    (inProcess (partitions.map Partition.answer)).IsHonest partitions := by
  have called : ∀ (shard : Nat) request state, LengthsFit request.lengths →
      let answer := (((inProcess (partitions.map Partition.answer)).call shard request).run
        state).1.answer
      IsFair answer ∧ ∀ reply, answer = .ok reply →
        ∃ partition chance later, partitions[shard]? = some partition ∧
          runFrom (partition.answer request) chance = (.ok reply, later) := by
    intro shard request state fits
    dsimp only [inProcess]
    rw [List.getElem?_map]
    cases there : partitions[shard]? with
    | none => exact ⟨.error rfl, nofun⟩
    | some partition =>
        change IsFair (runFrom (serve partition.answer shard request) state).1 ∧ ∀ reply,
          (runFrom (serve partition.answer shard request) state).1 = .ok reply → _
        rw [runFrom_serve _ _ (Wire.isExact_request.reads _ fits)]
        rcases run : runFrom (partition.answer request) state with ⟨result, later⟩
        cases result with
        | error error =>
            refine ⟨.error ?_, nofun⟩
            rcases Error.ofShard_splits shard error with ⟨stops, same⟩ | same
            · rw [same]
              exact Error.isMisfit_of_stops stops
            · rw [same]
              rfl
        | ok answer =>
            have here := built partition (List.mem_of_getElem? there)
            dsimp only
            rw [throughWire_eq_ok (Wire.isExact_reply.reads _ (here.lengthsFit_of_answer fits run))]
            refine ⟨.ok _, fun reply same => ?_⟩
            cases same
            exact ⟨partition, state, later, rfl, run⟩
  exact ⟨⟨List.length_map _, fun shard request state reply fits =>
    (called shard request state fits).2 reply⟩, fun shard request state fits =>
      (called shard request state fits).1⟩

/-! ## Questions about nodes -/

/-- A question about nodes: it can be sent when the nodes can, a reply of the right form is
understood, and a reply that suits has one entry for each node. -/
structure AsksEntries {β : Type} (make : List NodeId → Request) (take : Reply → Option (List β)) :
    Prop where
  sent : ∀ part : List NodeId, part.length < UInt64.size → LengthsFit (make part).lengths
  taken : ∀ part reply, reply.fits (make part) = true → (take reply).isSome = true
  sized : ∀ (partition : Partition) part reply values, partition.Suits (make part) reply →
    take reply = some values → values.length = part.length

namespace AsksEntries

theorem contexts : AsksEntries .contexts Reply.contexts? where
  sent part short := by simpa [Request.lengths] using short
  taken part reply fits := fits
  sized partition part reply values suits took := by
    cases reply with
    | contexts found =>
        cases took
        exact suits
    | _ => cases took

theorem nodeFeatures : AsksEntries .nodeFeatures Reply.nodeFeatures? where
  sent part short := by simpa [Request.lengths] using short
  taken part reply fits := fits
  sized partition part reply values suits took := by
    cases reply with
    | nodeFeatures found =>
        cases took
        exact suits
    | _ => cases took

theorem neighborFeatures : AsksEntries .neighborFeatures Reply.neighborFeatures? where
  sent part short := by simpa [Request.lengths] using short
  taken part reply fits := fits
  sized partition part reply values suits took := by
    cases reply with
    | neighborFeatures found =>
        cases took
        exact suits
    | _ => cases took

theorem neighbors (query : NeighborQuery) :
    AsksEntries (fun nodes => .neighbors { query with nodes }) Reply.neighbors? where
  sent part short := by simpa [Request.lengths] using short
  taken part reply fits := fits
  sized partition part reply values suits took := by
    cases reply with
    | neighbors lists =>
        cases took
        exact suits
    | _ => cases took

theorem independentNegatives {query : NegativeQuery} (few : query.excluded.length < UInt64.size) :
    AsksEntries (fun nodes => .independentNegatives { query with nodes }) Reply.pools? where
  sent part short := by simpa [Request.lengths] using ⟨short, few⟩
  taken part reply fits := fits
  sized partition part reply values suits took := by
    cases reply with
    | negatives pools =>
        cases took
        exact suits
    | _ => cases took

end AsksEntries

/-! ## What clients hear -/

namespace Link

variable {σ α β : Type} {transport : Transport σ} {partitions : List Partition}
  {take : Reply → Option α} {shard : Nat} {request : Request}

section Heard

variable (deadline : Option Nat) (sent : LengthsFit request.lengths)

include sent

/-- What is heard of a shard is in a reply of its partition. -/
theorem exists_reply_of_heard (truthful : transport.IsTruthful partitions) {state : σ} {value : α}
    (heard : ((ask ⟨transport, deadline⟩ take shard request).run state).1.value = .ok value) :
    ∃ partition chance reply later, partitions[shard]? = some partition ∧
      runFrom (partition.answer request) chance = (.ok reply, later) ∧ take reply = some value := by
  obtain ⟨-, reply, answered, taken⟩ :=
    (@hear_eq_ok_iff σ α ⟨transport, deadline⟩ take shard request _ value).mp heard
  obtain ⟨partition, chance, later, there, run⟩ :=
    truthful.answered shard request state reply sent answered
  exact ⟨partition, chance, reply, later, there, run, taken⟩

variable (honest : transport.IsHonest partitions)
  (built : ∀ partition ∈ partitions, partition.IsBuilt)
  (taken : ∀ reply, reply.fits request = true → (take reply).isSome = true)

include honest built taken

/-- A shard is heard to fail only for reasons that are no misfits. -/
theorem isFair_ask (state : σ) :
    IsFair ((ask ⟨transport, deadline⟩ take shard request).run state).1.value := by
  intro error failed
  have fails := (@hear_eq_error_iff σ α ⟨transport, deadline⟩ take shard request
    ((transport.call shard request).run state).1 error).mp failed
  cases fails with
  | late _ => rfl
  | refused _ refused => exact honest.failed shard request state sent error refused
  | @mismatched reply _ answered other =>
      obtain ⟨partition, chance, later, there, run⟩ :=
        honest.answered shard request state reply sent answered
      have suits := (built partition (List.mem_of_getElem? there)).suits_of_answer run
      have some := taken reply suits.fits
      rw [other] at some
      cases some

end Heard

section Fair

variable (honest : transport.IsHonest partitions) (deadline : Option Nat)
  (built : ∀ partition ∈ partitions, partition.IsBuilt)

include honest built

/-- A fan-out is fair when its requests can be sent and it takes what they ask for. -/
theorem actsFairly_fanOut {requests : List (Option Request)}
    (counts : requests.length = transport.shards)
    (each : ∀ (shard : Nat) request, requests[shard]? = some (some request) →
      LengthsFit request.lengths ∧
        ∀ reply, reply.fits request = true → (take reply).isSome = true) :
    ActsFairly (fanOut ⟨transport, deadline⟩ take requests) := by
  intro world error failed
  obtain ⟨shard, request, state, asked, heard⟩ := exists_of_fanOut_eq_error counts
    (Prod.ext failed rfl)
  obtain ⟨sent, taken⟩ := each shard request asked
  exact isFair_ask deadline sent honest built taken state error heard

/-! ### Broadcasts -/

/-- Asking every shard the same is fair. -/
theorem actsFairly_broadcast {request : Request} (sent : LengthsFit request.lengths)
    (taken : ∀ reply, reply.fits request = true → (take reply).isSome = true) :
    ActsFairly (broadcast ⟨transport, deadline⟩ take request) := by
  have asks : ∀ (shard : Nat) asked,
      (List.replicate transport.shards (some request))[shard]? = some asked →
        asked = some request := by
    intro shard asked there
    exact List.eq_of_mem_replicate (List.mem_of_getElem? there)
  refine (actsFairly_fanOut honest deadline built List.length_replicate ?_).bind ?_
  · intro shard other asked
    cases asks shard _ asked
    exact ⟨sent, taken⟩
  · intro world answers later run
    have joined := joined_of_fanOut run
    refine .mapM ?_
    rintro ⟨answer, shard⟩ member
    have there := List.mk_mem_zipIdx_iff_getElem?.mp member
    obtain ⟨inside, _⟩ := List.getElem?_eq_some_iff.mp there
    rw [joined.length] at inside
    have asked := List.getElem?_eq_getElem inside
    rw [asks shard _ asked] at asked
    obtain ⟨value, _, given, _⟩ := joined.asked shard request asked
    cases given.symm.trans there
    exact .pure value

/-! ### Lookups -/

omit honest built in
/-- What comes of a call that was issued comes of it in some state. -/
theorem exists_call_of_issue (link : Link σ) {requests : List (Option Request)} {before : σ}
    {outcome : Outcome}
    (here : ((link.issue requests).run before).1[shard]? = some (some outcome)) :
    ∃ request state, requests[shard]? = some (some request) ∧
      outcome = ((link.transport.call shard request).run state).1 := by
  obtain ⟨⟨request, number⟩, entry, state, same⟩ := exists_getElem?_of_forall₂
    (forall₂_run_mapM link.callAt requests.zipIdx before).flip here
  obtain ⟨there, rfl⟩ : requests[shard]? = some request ∧ shard = number := by
    simpa [List.getElem?_zipIdx] using entry
  cases request with
  | none => cases same
  | some request => exact ⟨request, state, there, (Option.some.inj same).symm⟩

/-- Asking about nodes is fair when it is all or nothing, the requests can be sent, and what is taken
from a reply has the sizes of a reply that suits. -/
theorem AllOrNothing.actsFairly {γ : Type} {recorded : Exchange (Rehearsal σ) γ}
    {act : Exchange σ γ} {sizes : α → List Nat} {keep : NodeId → Bool}
    {make : List NodeId → Request} {nodes : List NodeId}
    (all : ∀ world, AllOrNothing ⟨transport, deadline⟩ recorded act take sizes keep make nodes world)
    (sent : ∀ part : List NodeId, part.length ≤ nodes.length → LengthsFit (make part).lengths)
    (taken : ∀ part reply, reply.fits (make part) = true → (take reply).isSome = true)
    (sized : ∀ (partition : Partition) part reply value, partition.Suits (make part) reply →
      take reply = some value → ∀ size ∈ sizes value, size = part.length) : ActsFairly act := by
  have short : ∀ keep : NodeId → Bool, LengthsFit (make (nodes.filter keep)).lengths :=
    fun keep => sent _ (List.length_filter_le _ _)
  intro world error failed
  cases ((all world).fails error).mp failed with
  | @call shard _ fails _ =>
      obtain ⟨_, outcome, asked, here, fails⟩ := fails
      obtain ⟨request, state, asked', rfl⟩ := exists_call_of_issue _ here
      obtain ⟨_, _, rfl⟩ := getElem?_forOwners_eq_some.mp asked
      cases asked.symm.trans asked'
      have heard : ((ask ⟨transport, deadline⟩ take shard _).run state).1.value = .error error :=
        hear_eq_error_iff.mpr fails
      exact isFair_ask deadline (short _) honest built (taken _) state error heard
  | @count shard value size _ gives wrong _ =>
      obtain ⟨outcome, here, gives⟩ := gives
      obtain ⟨request, state, asked, rfl⟩ := exists_call_of_issue _ here
      obtain ⟨_, _, rfl⟩ := getElem?_forOwners_eq_some.mp asked
      have heard : ((ask ⟨transport, deadline⟩ take shard _).run state).1.value = .ok value :=
        hear_eq_ok_iff.mpr gives
      obtain ⟨partition, chance, reply, later, there, run, took⟩ :=
        exists_reply_of_heard deadline (short _) honest.toIsTruthful heard
      have suits := (built partition (List.mem_of_getElem? there)).suits_of_answer run
      have right := sized partition _ reply value suits took size (List.mem_of_find?_eq_some wrong)
      exact absurd right (by simpa using List.find?_some wrong)

/-- Looking one entry up for each node is fair. -/
theorem actsFairly_lookup [Inhabited β] {make : List NodeId → Request}
    {take : Reply → Option (List β)} (positive : 0 < transport.shards) (known : NodeId → Option β)
    (asks : AsksEntries make take) {nodes : List NodeId} (short : nodes.length < UInt64.size) :
    ActsFairly (lookup ⟨transport, deadline⟩ known make take nodes) :=
  AllOrNothing.actsFairly honest deadline built
    (fun world => @allOrNothing_lookup σ β ⟨transport, deadline⟩ nodes world _ positive known make
      take)
    (fun part few => asks.sent part (Nat.lt_of_le_of_lt few short)) asks.taken
    (fun partition part reply values suits took size member => by
      rw [List.mem_singleton.mp member]
      exact asks.sized partition part reply values suits took)

/-- Looking both features up is fair. -/
theorem actsFairly_lookupFeatures (positive : 0 < transport.shards) (cache : Cache)
    {nodes : List NodeId} (short : nodes.length < UInt64.size) :
    ActsFairly (lookupFeatures ⟨transport, deadline⟩ cache nodes) := by
  refine AllOrNothing.actsFairly honest deadline built
    (fun world => allOrNothing_lookupFeatures positive cache)
    (fun part few => ?_) (fun part reply fits => fits) ?_
  · simpa [Request.lengths] using Nat.lt_of_le_of_lt few short
  · rintro partition part reply ⟨ofNodes, ofNeighbors⟩ suits took size member
    cases reply with
    | features first second =>
        cases took
        obtain ⟨length, length'⟩ := suits
        rcases List.mem_pair.mp member with rfl | rfl
        · exact length
        · exact length'
    | _ => cases took

/-! ### Scans -/

/-- A scan is fair from any point on. -/
theorem actsFairly_scanRounds {page : Nat} (small : page < UInt64.size) (limit : Nat) {scan : Scan}
    (counts : scan.active.length = transport.shards) :
    ActsFairly (scanRounds ⟨transport, deadline⟩ page limit scan) := by
  induction limit generalizing scan with
  | zero => exact .pure scan
  | succ limit ih =>
      rw [scanRounds]
      split
      · exact .pure scan
      refine (actsFairly_fanOut honest deadline built ?_ ?_).bind fun world answers later run =>
        .bind (.liftM ?_) fun state next _ taken => ih ?_
      · rw [Scan.requests, List.length_map, counts]
      · intro shard request there
        cases Scan.eq_of_getElem?_requests there
        exact ⟨by simp [Request.lengths], fun reply fits => fits⟩
      · refine .bind (.foldlM ?_ scan) fun _ _ => .ok _
        rintro ⟨answer, shard⟩ member before
        have there := List.mk_mem_zipIdx_iff_getElem?.mp member
        cases answer with
        | none => exact .ok _
        | some nodes =>
            obtain ⟨request, state, asked, heard⟩ := (joined_of_fanOut run).exists_request there
            cases Scan.eq_of_getElem?_requests asked
            obtain ⟨partition, chance, reply, _, here, answered, took⟩ :=
              exists_reply_of_heard deadline (by simp [Request.lengths])
                honest.toIsTruthful heard
            have suits := (built partition (List.mem_of_getElem? here)).suits_of_answer answered
            obtain ⟨drawn, _, _, made⟩ := runFrom_bind_eq_ok answered
            cases made
            cases took
            have most : nodes.length ≤ page := by
              have same : (UInt64.ofNat page).toNat = page := UInt64.toNat_ofNat_of_lt small
              exact same ▸ Nat.le_trans (Nat.le_of_eq suits) (Nat.min_le_left _ _)
            dsimp only
            rw [Scan.take, if_neg (Nat.not_lt.mpr most)]
            exact .ok _
      · rw [runFrom_liftM] at taken
        exact (Scan.length_active_of_takeAll (congrArg Prod.fst taken)).trans counts

/-- A scan is fair. -/
theorem actsFairly_scanHotNodes {page : Nat} (small : page < UInt64.size) :
    ActsFairly (scanHotNodes ⟨transport, deadline⟩ page) :=
  (actsFairly_scanRounds honest deadline built small _ List.length_replicate).bind
    fun _ _ _ _ => .pure _

/-! ### Walks -/

omit honest built in
/-- A path that takes hops fails only for want of hops at its start. -/
theorem isFair_extendAt (trails : List Trail) (position : Nat) (hops : List NodeId) :
    IsFair (Trail.extendAt trails position hops) := by
  have extended : ∀ trail : Trail, IsFair (trail.extend hops) := by
    intro trail
    unfold Trail.extend
    split
    · split
      · exact .error rfl
      · exact .ok _
    · dsimp only
      split
      · exact .ok _
      · exact .ok _
  unfold Trail.extendAt
  split
  · next trail _ => exact (extended trail).map _
  · exact .ok _

variable {starts : List NodeId} {lengths : List UInt64} {trails : List Trail}
  {path : List NamespaceId} (positive : 0 < transport.shards) (few : starts.length < UInt64.size)
  (short : path.length < UInt64.size)

include positive few short

/-- A round of walks is fair. -/
theorem actsFairly_growOnce (on : Trail.AllOn starts lengths trails) :
    ActsFairly (growOnce ⟨transport, deadline⟩ path trails) := by
  have small : ∀ keep : Trail → Bool, (trails.filter keep).length < UInt64.size := by
    intro keep
    have length := on.length_eq
    have fewer := List.length_filter_le keep trails
    rw [List.length_zip] at length
    omega
  have sent : ∀ keep : Trail → Bool, LengthsFit (Trail.request path (trails.filter keep)).lengths :=
    fun keep => by simp [Trail.request, Request.lengths, small keep, short]
  intro world
  rw [runFrom_growOnce _ path positive]
  refine (actsFairly_fanOut honest deadline built (length_forOwners _ _) ?_).bind ?_ world
  · intro shard request asked
    obtain ⟨_, _, rfl⟩ := getElem?_forOwners_eq_some.mp asked
    exact ⟨sent _, fun reply fits => fits⟩
  · intro world answers later run
    refine .liftM (.eachAnswer fun shard slice lists before there given => ?_)
    obtain ⟨state, heard⟩ := (joined_of_fanOut run).sent given
    obtain ⟨partition, chance, reply, _, here, answered, took⟩ :=
      exists_reply_of_heard deadline (sent _) honest.toIsTruthful heard
    have suits := (built partition (List.mem_of_getElem? here)).suits_of_answer answered
    obtain ⟨drawn, _, _, made⟩ := runFrom_bind_eq_ok answered
    cases made
    cases took
    have counts : lists.length = slice.length := by
      rw [(slice_spec there).1, suits.1, List.length_map]
    rw [Trail.extendAll, if_pos counts]
    exact .foldlM (fun _ _ before => isFair_extendAt before _ _) before

theorem actsFairly_growRounds (limit : Nat) (on : Trail.AllOn starts lengths trails) :
    ActsFairly (growRounds ⟨transport, deadline⟩ path limit trails) := by
  induction limit generalizing trails with
  | zero => exact .pure trails
  | succ limit ih =>
      rw [growRounds]
      split
      · next grows =>
        refine (actsFairly_growOnce honest deadline built positive few short on).bind ?_
        intro world longer later run
        exact ih (allOn_growOnce on grows run)
      · exact .pure trails

/-- A walk is fair. -/
theorem actsFairly_walk : ActsFairly (walk ⟨transport, deadline⟩ starts lengths path) := by
  unfold walk
  split
  · exact (actsFairly_growRounds honest deadline built positive few short _
      (Trail.allOn_ofStart starts lengths)).bind fun _ _ _ _ => .pure _
  · exact .throw rfl

end Fair

end Link

/-! ### Shared samples -/

/-- A search for namespaces fails only at a node outside of them. -/
theorem isFair_touchedNamespaces (slots : Nat) (nodes : List NodeId) :
    IsFair (touchedNamespaces slots nodes) := by
  intro error failed
  obtain ⟨_, _, rfl⟩ := touchedNamespaces_eq_error_iff.mp failed
  rfl

namespace Cluster

variable {σ : Type} {cluster : Cluster σ} {partitions : List Partition} {query : NegativeQuery}

section Rounds

variable (honest : cluster.link.transport.IsHonest partitions)
  (built : ∀ partition ∈ partitions, partition.IsBuilt) (draws : cluster.DrawsShards)
  (few : query.excluded.length < UInt64.size)

include honest built draws few

/-- A round for a namespace is fair. -/
theorem isFair_poolRound {entry : NamespaceId × NodeId} (own : entry.1 = namespaceOf entry.2)
    (world : World σ) : IsFair ((cluster.poolRound query entry.1 entry.2).run world).1.value := by
  cases there : cluster.shares.getD entry.1.toNat none with
  | none =>
      rw [cluster.run_poolRound_of_none query entry.2 there world]
      exact .error rfl
  | some table =>
      rw [cluster.run_poolRound_of_some query entry.2 there world]
      have isSplit := isSplit_drawSplit draws query there world.stream
      generalize cluster.drawSplit query table world.stream = drawn at isSplit ⊢
      have counts := (length_shareRequests drawn.1 entry.2 query.excluded).trans isSplit.counts
      have sent : ∀ share : Nat, LengthsFit (Request.sharedNegatives
          ⟨UInt64.ofNat share, [entry.2], query.excluded⟩).lengths := fun share => by
        simp [Request.lengths, few]
      have asked := Link.actsFairly_fanOut honest cluster.link.deadline built counts
        (fun shard request there => by
          rw [shareRequests, List.getElem?_map, Option.map_eq_some_iff] at there
          obtain ⟨share, _, there⟩ := there
          split at there
          · cases there
          · cases there
            exact ⟨sent share, fun reply fits => fits⟩) world
      rw [Link.runFrom_fanOut_eq_timed] at asked
      refine IsFair.bind asked fun answers heard => ?_
      have joined := Link.joined_of_fanOut
        ((Link.runFrom_fanOut_eq_timed _ _ _ world).trans (Prod.ext heard rfl))
      obtain ⟨pool, made⟩ : ∃ pool, joinShares entry.1 drawn.1 answers = .ok pool := by
        refine exists_joinShares fun shard share lists there given => ?_
        obtain ⟨share', there', ⟨_, nothing⟩ | ⟨lists', state, same, said⟩⟩ := joined.share given
        · cases nothing
        cases same
        cases there.symm.trans there'
        obtain ⟨partition, chance, reply, _, here, answered, took⟩ :=
          Link.exists_reply_of_heard cluster.link.deadline (sent share) honest.toIsTruthful said
        obtain ⟨_, _, run, made⟩ := runFrom_bind_eq_ok answered
        cases made
        cases took
        obtain ⟨_, _, _, _, _, _, _, _, _, made⟩ := built partition (List.mem_of_getElem? here)
        obtain ⟨sample, isSample, room, rfl⟩ :=
          NegativePools.sampleShared_singleton (Partition.negatives_of_build made).2 run
        have exactly : (UInt64.ofNat share).toNat = share := by
          refine UInt64.toNat_ofNat_of_lt (Nat.lt_of_le_of_lt ?_ query.count.toNat_lt)
          exact isSplit.share_le (List.mem_of_getElem? there)
        rw [own]
        simpa [partOf, List.getD_eq_getElem?_getD, room, exactly] using isSample.length
      exact failsWithin_gatherShares rfl (made ▸ .ok pool)

/-- Shared samples are fair. -/
theorem actsFairly_sharedNegatives : ActsFairly (cluster.sharedNegatives query) := by
  intro world
  cases found : touchedNamespaces cluster.slots query.nodes with
  | error error =>
      have fair := isFair_touchedNamespaces cluster.slots query.nodes error found
      rw [sharedNegatives, found, runFrom_bind_of_error (runFrom_liftM _ world)]
      exact .error fair
  | ok touched =>
      rw [runFrom_sharedNegatives cluster found]
      have touches := firstSeen_of_touchedNamespaces found
      exact failsWithin_joinRounds (forall_poolRounds (fun entry member world =>
        isFair_poolRound honest built draws few (touches.spec entry member).2.1 world) _ _ world)

end Rounds

/-! ## Connecting -/

omit σ in
/-- Page sizes are read fairly. -/
theorem isFair_agreedPageSize (texts : List String) : IsFair (agreedPageSize texts) := by
  refine .bind (.foldlM ?_ none) fun agreed _ => ?_
  · rintro ⟨text, shard⟩ _ agreed
    refine .bind ?_ fun size _ => ?_
    · unfold readPageSize
      split
      · exact .error rfl
      · split
        · exact .error rfl
        · exact .ok _
    · unfold agreeOn
      split
      · exact .ok _
      · split
        · exact .ok _
        · exact .error rfl
  · cases agreed with
    | none => exact .error rfl
    | some size => exact .ok size

/-- Totals are read fairly. -/
theorem isFair_readReports (texts : List String) : IsFair (readReports texts) := by
  refine .mapM ?_
  rintro ⟨text, shard⟩ _
  dsimp only
  unfold readTotals
  dsimp only
  split
  · exact .ok _
  · exact .error rfl

theorem isFair_checkSlots (reports : List (List Number.Double)) : IsFair (checkSlots reports) := by
  unfold checkSlots
  dsimp only
  split
  · exact .error rfl
  · split
    · exact .error rfl
    · exact .ok _

/-- Slots are spread fairly. -/
theorem isFair_sharesOf (reports : List (List Number.Double)) (slots : Nat) :
    IsFair (sharesOf reports slots) := by
  refine .mapM fun slot _ => ?_
  unfold shareOf
  dsimp only
  split
  · refine IsFair.map (.bind ?_ fun _ _ => ?_) _
    · unfold Kernel.checkWeights
      split
      · exact .error rfl
      · split
        · exact .error rfl
        · exact .ok _
    · refine .bind ?_ fun _ _ => ?_
      · unfold Kernel.checkSize
        split
        · exact .error rfl
        · exact .ok _
      · dsimp only
        split
        · exact .ok _
        · exact .error rfl
  · exact .ok _

section Connect

variable {transport : Transport σ} (honest : transport.IsHonest partitions)
  (built : ∀ partition ∈ partitions, partition.IsBuilt)

include honest built

/-- The cache is filled fairly. -/
theorem actsFairly_fetchCache (positive : 0 < transport.shards) (deadline : Option Nat) {page : Nat}
    (small : page < UInt64.size) : ActsFairly (Link.fetchCache ⟨transport, deadline⟩ page) := by
  refine (Link.actsFairly_scanHotNodes honest deadline built small).bind fun _ nodes _ _ =>
    .foldlM (fun slice member cache => ?_) _
  have short := Nat.lt_of_le_of_lt (Link.length_le_of_mem_slicesOf member) small
  have contexts := Link.actsFairly_lookup honest deadline built positive (fun _ => none)
    AsksEntries.contexts short
  exact .bind (contexts.bind fun _ _ _ _ =>
    (Link.actsFairly_lookupFeatures honest deadline built positive .empty short).bind
      fun _ _ _ _ => .pure _) fun _ _ _ _ => .pure _

/-- A client connects fairly. -/
theorem actsFairly_connect (config : Config) : ActsFairly (connect transport config) := by
  have asked : ∀ {key : String}, (Text.writeUtf8 key).length < UInt64.size →
      ActsFairly (Link.broadcast ⟨transport, config.deadline?⟩ Reply.metaValue? (.metaValue key)) :=
    fun short => Link.actsFairly_broadcast honest config.deadline? built
      (by simpa [Request.lengths] using short) fun reply fits => fits
  unfold connect
  split
  · exact (ActsFairly.throw rfl).bind fun _ _ _ run => by cases run
  · next some =>
    refine (asked (by decide +kernel)).bind fun _ _ _ _ => ?_
    refine (ActsFairly.liftM (isFair_agreedPageSize _)).bind fun _ pageSize _ agreed => ?_
    rw [runFrom_liftM] at agreed
    have small := agreedPageSize_lt (congrArg Prod.fst agreed)
    refine (asked (by decide +kernel)).bind fun _ _ _ _ => ?_
    refine (ActsFairly.liftM (isFair_readReports _)).bind fun _ _ _ _ => ?_
    refine (ActsFairly.liftM (isFair_checkSlots _)).bind fun _ _ _ _ => ?_
    refine (ActsFairly.liftM (isFair_sharesOf _ _)).bind fun _ _ _ _ => ?_
    exact (actsFairly_fetchCache honest built (Nat.pos_of_ne_zero some) _ small).bind
      fun _ _ _ _ => .pure _

end Connect

/-! ## All acts -/

/-- Nothing that a client does fails as a misfit, as long as what it asks can be sent. -/
structure FindsNoFault (cluster : Cluster σ) : Prop where
  metaValues : ∀ key, (Text.writeUtf8 key).length < UInt64.size →
    ActsFairly (cluster.metaValues key)
  sharedNegatives : ∀ query : NegativeQuery, query.excluded.length < UInt64.size →
    ActsFairly (cluster.sharedNegatives query)
  independentNegatives : ∀ query : NegativeQuery, query.nodes.length < UInt64.size →
    query.excluded.length < UInt64.size → ActsFairly (cluster.independentNegatives query)
  neighbors : ∀ query : NeighborQuery, query.nodes.length < UInt64.size →
    ActsFairly (cluster.neighbors query)
  walk : ∀ (starts : List NodeId) (lengths : List UInt64) (path : List NamespaceId),
    starts.length < UInt64.size → path.length < UInt64.size →
      ActsFairly (cluster.walk starts lengths path)
  features : ∀ nodes : List NodeId, nodes.length < UInt64.size → ActsFairly (cluster.features nodes)
  nodeFeatures : ∀ nodes : List NodeId, nodes.length < UInt64.size →
    ActsFairly (cluster.nodeFeatures nodes)
  neighborFeatures : ∀ nodes : List NodeId, nodes.length < UInt64.size →
    ActsFairly (cluster.neighborFeatures nodes)
  contexts : ∀ nodes : List NodeId, nodes.length < UInt64.size → ActsFairly (cluster.contexts nodes)
  scanHotNodes : ActsFairly cluster.scanHotNodes

section Faultless

variable (honest : cluster.link.transport.IsHonest partitions)
  (built : ∀ partition ∈ partitions, partition.IsBuilt)

include honest built

/-- A client with a page size that fits a word, whose tables draw shards, finds no fault. -/
theorem findsNoFault (positive : 0 < cluster.link.transport.shards)
    (small : cluster.pageSize < UInt64.size) (draws : cluster.DrawsShards) :
    cluster.FindsNoFault where
  metaValues key short := Link.actsFairly_broadcast honest cluster.link.deadline built
    (by simpa [Request.lengths] using short) fun reply fits => fits
  sharedNegatives query few := actsFairly_sharedNegatives honest built draws few
  independentNegatives query short few :=
    Link.actsFairly_lookup honest cluster.link.deadline built positive _
      (.independentNegatives few) short
  neighbors query short := by
    refine (Link.actsFairly_lookup honest cluster.link.deadline built positive _
      (.neighbors query) short).bind fun _ lists _ _ => ?_
    refine (ActsFairly.liftM ?_).bind fun _ _ _ _ => .pure _
    unfold requireNeighbors
    split
    · exact .error rfl
    · exact .ok _
  walk starts lengths path few short :=
    Link.actsFairly_walk honest cluster.link.deadline built positive few short
  features nodes short :=
    Link.actsFairly_lookupFeatures honest cluster.link.deadline built positive cluster.cache short
  nodeFeatures nodes short :=
    Link.actsFairly_lookup honest cluster.link.deadline built positive _ .nodeFeatures short
  neighborFeatures nodes short :=
    Link.actsFairly_lookup honest cluster.link.deadline built positive _ .neighborFeatures short
  contexts nodes short := by
    refine (Link.actsFairly_lookup honest cluster.link.deadline built positive _ .contexts
      short).bind fun _ found _ _ => ?_
    refine (ActsFairly.liftM ?_).bind fun _ _ _ _ => .pure _
    unfold requireContexts
    split
    · exact .error rfl
    · exact .ok _
  scanHotNodes := Link.actsFairly_scanHotNodes honest cluster.link.deadline built small

end Faultless

/-- **Replies have the shape that clients check for.** Whatever a built partition is asked, and
whatever it draws, a reply has the form that the request asks for, and suits it: it has one entry for
each node in every list of features, contexts, neighbors or independent samples; for each start of a
walk one list of hops, none longer than was wanted; in the slot of each namespace that the query
nodes touch as many nodes as were asked for, and none in the others; and as many hot nodes as were
asked for or are left. So no check of a reply ever fails for a client of built partitions behind a
transport that is honest: neither while it connects, nor once it is connected, in anything that it
does. What it asks can be sent. -/
theorem replies_suit :
    (∀ graph config chance partition, Partition.build graph config chance = .ok partition →
      ∀ request stream reply later,
        runFrom (partition.answer request) stream = (.ok reply, later) →
          reply.fits request = true ∧ partition.Suits request reply) ∧
    ∀ (σ : Type) (transport : Transport σ) (partitions : List Partition),
      (∀ partition ∈ partitions, partition.IsBuilt) → transport.IsHonest partitions →
        ∀ config, ActsFairly (connect transport config) ∧
          ∀ cluster before after,
            runFrom (connect transport config) before = (.ok cluster, after) →
              cluster.FindsNoFault := by
  constructor
  · intro graph config chance partition made request stream reply later run
    have suits := Partition.suits_of_answer (Partition.slots_of_build made) run
    exact ⟨suits.fits, suits⟩
  · intro σ transport partitions built honest config
    refine ⟨actsFairly_connect honest built config, fun cluster before after connected => ?_⟩
    obtain ⟨positive, link, small, _⟩ := spec_of_connect connected
    have draws := drawsShards_of_connect connected
    obtain ⟨_, _, _, _, _⟩ := cluster
    cases link
    exact findsNoFault honest built positive small draws

/-- Two partitions in the same process: the one of odd nodes answers a walk with one list of hops,
and walks of the client find no fault. -/
theorem replies_suit_mixed :
    (∃ reply later,
      runFrom (oddPartition.answer (.walks ⟨[3], [1], [], []⟩)) (.cycle #[]) = (.ok reply, later) ∧
        oddPartition.Suits (.walks ⟨[3], [1], [], []⟩) reply) ∧
    ∃ cluster later,
      runFrom (connect (.inProcess [evenPartition.answer, oddPartition.answer]) uniformConfig)
        ⟨.cycle #[], .cycle #[]⟩ = (.ok cluster, later) ∧
      ActsFairly (cluster.walk [3, 2] [2, 2] []) := by
  obtain ⟨shapes, fair⟩ := replies_suit
  constructor
  · obtain ⟨graph, _, made⟩ := build_of_mixed (show [evenPartition, oddPartition][1]? = _ from rfl)
    obtain ⟨reply, later, run⟩ := exists_of_isOk (show
      (runFrom (oddPartition.answer (.walks ⟨[3], [1], [], []⟩)) (.cycle #[])).1.isOk = true by
        decide +kernel)
    exact ⟨reply, later, run, (shapes _ _ _ _ made _ _ _ _ run).2⟩
  · obtain ⟨cluster, later, connected⟩ := connects_mixed
    have honest := Transport.isHonest_inProcess isBuilt_mixed
    have faultless := (fair _ _ _ isBuilt_mixed honest uniformConfig).2 cluster _ _ connected
    exact ⟨cluster, later, connected, faultless.walk _ _ _ (by decide) (by decide)⟩

end Cluster

end ShardedGraph
