import ShardedGraph.Proofs.Caches

/-!
# Which shard is blamed

A lookup issues all of its calls before any answer counts, so what comes of the calls is a list
of outcomes, one for each shard that was asked (`Link.issue`). An outcome may be an error, a
reply of any form and size, or late; when the calls arrive, and in which order, is left open.

**The verdict.** A lookup gives something exactly when every shard that was asked has given, in
time, a reply of the expected form with one entry for each node (`Link.AllGive`). Otherwise there
is one error, and the outcomes alone decide which (`Link.Blames`): that of the lowest shard whose
call failed, or if no call failed, the wrong number of entries of the lowest shard that has one.

**Two stages.** The fan-out settles the calls (`Link.fanOut_splits`), and writing the answers back
settles the numbers of entries, since nothing else can go wrong there (`gather_splits`). Both are
first failures in a list. A lookup of one list of entries and the lookup of both features differ
only in the lists that a reply holds, so one argument serves for both (`Link.allOrNothing_of_work`).
-/

set_option autoImplicit false

namespace ShardedGraph

variable {σ α β : Type}

namespace Link

/-! ## Calls and their outcomes -/

/-- Calls a shard when there is a request for it. -/
def callAt (link : Link σ) : Option Request × Nat → StateM σ (Option Outcome)
  | (none, _) => return none
  | (some request, shard) => some <$> link.transport.call shard request

/-- Issues requests in the order of the shards, and lists what comes of each call. -/
def issue (link : Link σ) (requests : List (Option Request)) : StateM σ (List (Option Outcome)) :=
  requests.zipIdx.mapM link.callAt

/-- An outcome arrives after the deadline. -/
def IsLate (link : Link σ) (outcome : Outcome) (limit : Nat) : Prop :=
  link.deadline = some limit ∧ (Moment.now.afterWait limit).isBefore outcome.arrival = true

/-- Why a call has failed: it is late, the shard reports an error, or the reply is not of the
expected form. -/
inductive Fails (link : Link σ) (take : Reply → Option α) (shard : Nat) (request : Request)
    (outcome : Outcome) : Error → Prop
  | late {limit} (late : link.IsLate outcome limit) :
      Fails link take shard request outcome (.timedOut shard limit)
  | refused {error} (inTime : ∀ limit, ¬link.IsLate outcome limit)
      (refused : outcome.answer = .error error) : Fails link take shard request outcome error
  | mismatched {reply} (inTime : ∀ limit, ¬link.IsLate outcome limit)
      (answered : outcome.answer = .ok reply) (other : take reply = none) :
      Fails link take shard request outcome (.mismatched request.label reply)

/-- A call has given a value: in time, in a reply of the expected form. -/
structure Gives (link : Link σ) (take : Reply → Option α) (outcome : Outcome) (value : α) :
    Prop where
  inTime : ∀ limit, ¬link.IsLate outcome limit
  reply : ∃ reply, outcome.answer = .ok reply ∧ take reply = some value

/-- The call to a shard has failed with an error. -/
def FailsAt (link : Link σ) (take : Reply → Option α) (requests : List (Option Request))
    (outcomes : List (Option Outcome)) (shard : Nat) (error : Error) : Prop :=
  ∃ request outcome, requests[shard]? = some (some request) ∧
    outcomes[shard]? = some (some outcome) ∧ link.Fails take shard request outcome error

/-- The call to a shard has given a value. -/
def GivesAt (link : Link σ) (take : Reply → Option α) (outcomes : List (Option Outcome))
    (shard : Nat) (value : α) : Prop :=
  ∃ outcome, outcomes[shard]? = some (some outcome) ∧ link.Gives take outcome value

/-- Every shard that was asked has given a value all of whose lists have as many entries as the
shard was asked for. -/
def AllGive (link : Link σ) (take : Reply → Option α) (sizes : α → List Nat) (asked : Nat → Nat)
    (requests : List (Option Request)) (outcomes : List (Option Outcome)) : Prop :=
  ∀ (shard : Nat) request, requests[shard]? = some (some request) →
    ∃ value, link.GivesAt take outcomes shard value ∧ ∀ size ∈ sizes value, size = asked shard

/-- The error that the outcomes call for: that of the lowest shard whose call has failed; if no
call has failed, the first wrong number of entries of the lowest shard that has given one. -/
inductive Blames (link : Link σ) (take : Reply → Option α) (sizes : α → List Nat)
    (asked : Nat → Nat) (requests : List (Option Request)) (outcomes : List (Option Outcome)) :
    Error → Prop
  | call {shard error} (fails : link.FailsAt take requests outcomes shard error)
      (lowest : ∀ lower < shard, ∀ error, ¬link.FailsAt take requests outcomes lower error) :
      Blames link take sizes asked requests outcomes error
  | count {shard value size} (fine : ∀ shard error, ¬link.FailsAt take requests outcomes shard error)
      (gives : link.GivesAt take outcomes shard value)
      (wrong : (sizes value).find? (fun size => size != asked shard) = some size)
      (lowest : ∀ lower < shard, ∀ value, link.GivesAt take outcomes lower value →
        ∀ size ∈ sizes value, size = asked lower) :
      Blames link take sizes asked requests outcomes (.entryCount shard size (asked shard))

/-! ### What a client makes of an outcome -/

/-- What a client makes of the outcome of a call. -/
def hear (link : Link σ) (take : Reply → Option α) (shard : Nat) (request : Request)
    (outcome : Outcome) : Timed (Except Error α) :=
  let settled := settle link.deadline shard outcome
  ⟨settled.value.bind (accept take request), settled.time⟩

section Hear

variable {link : Link σ} {take : Reply → Option α} {shard : Nat} {request : Request}
  {outcome : Outcome}

theorem settle_of_late {limit : Nat} (late : link.IsLate outcome limit) :
    (settle link.deadline shard outcome).value = .error (.timedOut shard limit) := by
  obtain ⟨deadline, late⟩ := late
  simp [settle, deadline, late]

theorem settle_of_inTime (inTime : ∀ limit, ¬link.IsLate outcome limit) :
    (settle link.deadline shard outcome).value = outcome.answer := by
  cases deadline : link.deadline with
  | none => rfl
  | some limit =>
      have early : (Moment.now.afterWait limit).isBefore outcome.arrival = false :=
        Bool.eq_false_iff.mpr fun late => inTime limit ⟨deadline, late⟩
      simp [settle, early]

/-- A late outcome is late for one deadline; any other one is in time. -/
theorem late_or_inTime (link : Link σ) (outcome : Outcome) :
    (∃ limit, link.IsLate outcome limit) ∨ ∀ limit, ¬link.IsLate outcome limit := by
  rw [← not_exists]
  exact Classical.em _

theorem hear_eq_error_iff {error : Error} :
    (link.hear take shard request outcome).value = .error error ↔
      link.Fails take shard request outcome error := by
  constructor
  · intro heard
    rw [hear] at heard
    rcases link.late_or_inTime outcome with ⟨limit, late⟩ | inTime
    · rw [settle_of_late late] at heard
      cases heard
      exact .late late
    · rw [settle_of_inTime inTime] at heard
      cases answer : outcome.answer with
      | error error =>
          rw [answer] at heard
          cases heard
          exact .refused inTime answer
      | ok reply =>
          rw [answer] at heard
          change accept take request reply = _ at heard
          unfold accept at heard
          split at heard
          · cases heard
          · next other =>
            cases heard
            exact .mismatched inTime answer other
  · intro fails
    rw [hear]
    cases fails with
    | late late =>
        rw [settle_of_late late]
        rfl
    | refused inTime refused =>
        rw [settle_of_inTime inTime, refused]
        rfl
    | mismatched inTime answered other =>
        rw [settle_of_inTime inTime, answered]
        change accept take request _ = _
        rw [accept, other]

theorem hear_eq_ok_iff {value : α} :
    (link.hear take shard request outcome).value = .ok value ↔ link.Gives take outcome value := by
  constructor
  · intro heard
    rw [hear] at heard
    rcases link.late_or_inTime outcome with ⟨limit, late⟩ | inTime
    · rw [settle_of_late late] at heard
      cases heard
    · rw [settle_of_inTime inTime] at heard
      cases answer : outcome.answer with
      | error error =>
          rw [answer] at heard
          cases heard
      | ok reply =>
          rw [answer] at heard
          change accept take request reply = _ at heard
          unfold accept at heard
          split at heard
          · next taken =>
            cases heard
            exact ⟨inTime, reply, answer, taken⟩
          · cases heard
  · rintro ⟨inTime, reply, answered, taken⟩
    rw [hear, settle_of_inTime inTime, answered]
    change accept take request reply = _
    rw [accept, taken]

end Hear

/-! ### Places -/

section Places

variable {link : Link σ} {take : Reply → Option α} {requests : List (Option Request)}
  {outcomes : List (Option Outcome)} {shard : Nat}

/-- Work whose results are seen through a function is the same work, seen so in the end. -/
theorem run_mapM_map {S γ : Type} (act : α → StateM S β) (see : α → β → γ) (items : List α)
    (state : S) :
    (items.mapM fun item => see item <$> act item).run state =
      (List.zipWith see items ((items.mapM act).run state).1, ((items.mapM act).run state).2) := by
  induction items generalizing state with
  | nil => rfl
  | cons item items ih =>
      rw [List.mapM_cons, List.mapM_cons]
      exact congrArg (fun rest => (see item ((act item).run state).1 :: rest.1, rest.2)) (ih _)

/-- What a client hears at all places. -/
def heardAll (link : Link σ) (take : Reply → Option α) (requests : List (Option Request))
    (outcomes : List (Option Outcome)) : List (Option (Timed (Except Error α))) :=
  List.zipWith
    (fun entry outcome => entry.1.bind fun request => outcome.map (link.hear take entry.2 request))
    requests.zipIdx outcomes

/-- Asking is issuing the requests and hearing what comes of them. -/
theorem run_askEach (link : Link σ) (take : Reply → Option α) (requests : List (Option Request))
    (state : σ) :
    (link.askEach take requests).run state =
      (link.heardAll take requests ((link.issue requests).run state).1,
        ((link.issue requests).run state).2) := by
  refine Eq.trans ?_ (run_mapM_map _ _ requests.zipIdx state)
  rw [askEach]
  congr 2
  funext ⟨request, shard⟩
  cases request with
  | none => rfl
  | some request => rfl

/-- There is an outcome at the place of every request, and at no other one. -/
theorem exists_request_iff (link : Link σ) (state : σ) :
    (∃ request, requests[shard]? = some (some request)) ↔
      ∃ outcome, ((link.issue requests).run state).1[shard]? = some (some outcome) := by
  obtain ⟨length, places⟩ :=
    forall₂_iff_getElem?.mp (forall₂_run_mapM link.callAt requests.zipIdx state)
  rw [List.length_zipIdx] at length
  have place : ∀ request outcome, requests[shard]? = some request →
      ((link.issue requests).run state).1[shard]? = some outcome →
        (request.isSome ↔ outcome.isSome) := by
    intro request outcome there here
    have entry : requests.zipIdx[shard]? = some (request, shard) := by simp [there]
    obtain ⟨before, rfl⟩ := places shard _ outcome entry here
    cases request with
    | none => exact Iff.rfl
    | some request => exact Iff.rfl
  constructor
  · rintro ⟨request, there⟩
    obtain ⟨inside, _⟩ := List.getElem?_eq_some_iff.mp there
    have here := List.getElem?_eq_getElem (Nat.lt_of_lt_of_eq inside length)
    obtain ⟨outcome, some⟩ := Option.isSome_iff_exists.mp ((place _ _ there here).mp rfl)
    exact ⟨outcome, here.trans (congrArg _ some)⟩
  · rintro ⟨outcome, here⟩
    obtain ⟨inside, _⟩ := List.getElem?_eq_some_iff.mp here
    have there := List.getElem?_eq_getElem (Nat.lt_of_lt_of_eq inside length.symm)
    obtain ⟨request, some⟩ := Option.isSome_iff_exists.mp ((place _ _ there here).mpr rfl)
    exact ⟨request, there.trans (congrArg _ some)⟩

/-- What is heard at a place is made of its request and its outcome. -/
theorem getElem?_heardAll (link : Link σ) (take : Reply → Option α)
    {heard : Timed (Except Error α)} :
    (link.heardAll take requests outcomes)[shard]? = some (some heard) ↔
      ∃ request outcome, requests[shard]? = some (some request) ∧
        outcomes[shard]? = some (some outcome) ∧ link.hear take shard request outcome = heard := by
  simp only [heardAll, List.getElem?_zipWith_eq_some, List.getElem?_zipIdx, Nat.zero_add,
    Option.map_eq_some_iff, Option.bind_eq_some_iff]
  constructor
  · rintro ⟨_, outcome, ⟨_, there, rfl⟩, here, request, rfl, found, rfl, made⟩
    exact ⟨request, found, there, here, made⟩
  · rintro ⟨request, outcome, there, here, made⟩
    exact ⟨_, _, ⟨_, there, rfl⟩, here, request, rfl, outcome, rfl, made⟩

theorem failsAt_iff {error : Error} :
    link.FailsAt take requests outcomes shard error ↔
      ∃ heard, (link.heardAll take requests outcomes)[shard]? = some (some heard) ∧
        heard.value = .error error := by
  constructor
  · rintro ⟨request, outcome, there, here, fails⟩
    exact ⟨_, (link.getElem?_heardAll take).mpr ⟨request, outcome, there, here, rfl⟩,
      hear_eq_error_iff.mpr fails⟩
  · rintro ⟨heard, place, fails⟩
    obtain ⟨request, outcome, there, here, rfl⟩ := (link.getElem?_heardAll take).mp place
    exact ⟨request, outcome, there, here, hear_eq_error_iff.mp fails⟩

/-- The call to a shard that was asked gives what is heard of it. -/
theorem givesAt_iff {value : α} (state : σ) :
    link.GivesAt take ((link.issue requests).run state).1 shard value ↔
      ∃ heard, (link.heardAll take requests ((link.issue requests).run state).1)[shard]? =
        some (some heard) ∧ heard.value = .ok value := by
  constructor
  · rintro ⟨outcome, here, gives⟩
    obtain ⟨request, there⟩ := (link.exists_request_iff state).mpr ⟨outcome, here⟩
    exact ⟨_, (link.getElem?_heardAll take).mpr ⟨request, outcome, there, here, rfl⟩,
      hear_eq_ok_iff.mpr gives⟩
  · rintro ⟨heard, place, gives⟩
    obtain ⟨request, outcome, there, here, rfl⟩ := (link.getElem?_heardAll take).mp place
    exact ⟨outcome, here, hear_eq_ok_iff.mp gives⟩

theorem not_failsAt_of_givesAt {value : α} {error : Error}
    (gives : link.GivesAt take outcomes shard value) :
    ¬link.FailsAt take requests outcomes shard error := by
  rintro ⟨request, outcome, there, here, fails⟩
  obtain ⟨outcome', here', gives⟩ := gives
  cases here.symm.trans here'
  have heard := hear_eq_error_iff.mpr fails
  rw [hear_eq_ok_iff.mpr gives] at heard
  cases heard

theorem GivesAt.unique {value value' : α} (gives : link.GivesAt take outcomes shard value)
    (gives' : link.GivesAt take outcomes shard value') : value = value' := by
  obtain ⟨outcome, here, _, reply, answered, taken⟩ := gives
  obtain ⟨outcome', here', _, reply', answered', taken'⟩ := gives'
  cases here.symm.trans here'
  cases answered.symm.trans answered'
  cases taken.symm.trans taken'
  rfl

theorem FailsAt.unique {error error' : Error}
    (fails : link.FailsAt take requests outcomes shard error)
    (fails' : link.FailsAt take requests outcomes shard error') : error = error' := by
  obtain ⟨heard, place, fails⟩ := failsAt_iff.mp fails
  obtain ⟨heard', place', fails'⟩ := failsAt_iff.mp fails'
  cases place.symm.trans place'
  cases fails.symm.trans fails'
  rfl

end Places

/-! ## One verdict -/

section Verdict

variable {link : Link σ} {take : Reply → Option α} {sizes : α → List Nat} {asked : Nat → Nat}
  {requests : List (Option Request)} {outcomes : List (Option Outcome)}

/-- At most one error is called for. -/
theorem Blames.unique {error error' : Error}
    (blames : link.Blames take sizes asked requests outcomes error)
    (blames' : link.Blames take sizes asked requests outcomes error') : error = error' := by
  cases blames with
  | @call shard _ fails lowest =>
      cases blames' with
      | @call shard' _ fails' lowest' =>
          rcases Nat.lt_trichotomy shard shard' with below | rfl | above
          · exact absurd fails (lowest' shard below error)
          · exact fails.unique fails'
          · exact absurd fails' (lowest shard' above error')
      | count fine => exact absurd fails (fine shard error)
  | @count shard value size fine gives wrong lowest =>
      cases blames' with
      | @call shard' _ fails' => exact absurd fails' (fine shard' error')
      | @count shard' value' size' _ gives' wrong' lowest' =>
          have differs : size ≠ asked shard := by simpa using List.find?_some wrong
          have differs' : size' ≠ asked shard' := by simpa using List.find?_some wrong'
          rcases Nat.lt_trichotomy shard shard' with below | rfl | above
          · exact absurd (lowest' shard below value gives size (List.mem_of_find?_eq_some wrong))
              differs
          · obtain rfl := gives.unique gives'
            cases wrong.symm.trans wrong'
            rfl
          · exact absurd (lowest shard' above value' gives' size' (List.mem_of_find?_eq_some wrong'))
              differs'

/-- When every shard gives what it was asked for, no error is called for. -/
theorem AllGive.not_blames {state : σ}
    (all : link.AllGive take sizes asked requests ((link.issue requests).run state).1)
    (error : Error) :
    ¬link.Blames take sizes asked requests ((link.issue requests).run state).1 error := by
  intro blames
  cases blames with
  | call fails =>
      have ⟨request, _, there, _⟩ := fails
      obtain ⟨value, gives, _⟩ := all _ request there
      exact not_failsAt_of_givesAt gives fails
  | @count shard value size fine gives wrong =>
      have ⟨outcome, here, _⟩ := gives
      obtain ⟨request, there⟩ := (link.exists_request_iff state).mpr ⟨outcome, here⟩
      obtain ⟨value', gives', right⟩ := all shard request there
      obtain rfl := gives.unique gives'
      have differs : size ≠ asked shard := by simpa using List.find?_some wrong
      exact differs (right size (List.mem_of_find?_eq_some wrong))

end Verdict

/-! ## Fan-out -/

theorem value_joinAnswers (heard : List (Option (Timed (Except Error α)))) :
    (joinAnswers heard).value =
      heard.mapM fun answer => answer.elim (.ok none) fun answer => some <$> answer.value := by
  unfold joinAnswers
  dsimp only
  congr 1
  funext answer
  cases answer with
  | none => rfl
  | some answer => rfl

/-- Answers join when each of them is a value, and otherwise fail with the lowest error. -/
theorem joinAnswers_splits (heard : List (Option (Timed (Except Error α)))) :
    (∃ answers, (joinAnswers heard).value = .ok answers ∧
      (∀ (shard : Nat) value, answers[shard]? = some (some value) ↔
        ∃ given, heard[shard]? = some (some given) ∧ given.value = .ok value) ∧
      ∀ (shard : Nat) given, heard[shard]? = some (some given) → ∃ value, given.value = .ok value) ∨
    ∃ (shard : Nat) (given : Timed (Except Error α)) (error : Error),
      heard[shard]? = some (some given) ∧ given.value = .error error ∧
      (joinAnswers heard).value = .error error ∧
      ∀ lower < shard, ∀ given : Timed (Except Error α), heard[lower]? = some (some given) →
        ∃ value, given.value = .ok value := by
  have opened := value_joinAnswers heard
  rcases mapM_splits (fun answer : Option (Timed (Except Error α)) =>
      answer.elim (.ok none) fun answer => some <$> answer.value) heard with
    ⟨answers, joined⟩ | ⟨shard, answer, error, there, fails, joined, before⟩
  · replace joined := opened.trans joined
    refine .inl ⟨answers, joined, ?_⟩
    have pairs := joinAnswers_eq_ok_iff.mp joined
    have given : ∀ (shard : Nat) given, heard[shard]? = some (some given) →
        ∃ value, given.value = .ok value ∧ answers[shard]? = some (some value) := by
      intro shard given there
      obtain ⟨_, here, value, fine, rfl⟩ := exists_getElem?_of_forall₂ pairs there
      exact ⟨value, fine, here⟩
    refine ⟨fun shard value => ⟨?_, ?_⟩, fun shard answer there => ?_⟩
    · intro here
      obtain ⟨answer, there, same⟩ := exists_getElem?_of_forall₂ pairs.flip here
      cases answer with
      | none => cases same
      | some answer =>
          obtain ⟨found, fine, equal⟩ := same
          cases equal
          exact ⟨answer, there, fine⟩
    · rintro ⟨answer, there, fine⟩
      obtain ⟨found, fine', here⟩ := given shard answer there
      cases fine.symm.trans fine'
      exact here
    · obtain ⟨value, fine, _⟩ := given shard answer there
      exact ⟨value, fine⟩
  · cases answer with
    | none => cases fails
    | some answer =>
        refine .inr ⟨shard, answer, error, there, ?_, opened.trans joined, ?_⟩
        · rw [Option.elim_some] at fails
          cases result : answer.value with
          | ok value =>
              rw [result] at fails
              cases fails
          | error other =>
              rw [result] at fails
              cases fails
              rfl
        · intro lower below given here
          obtain ⟨value, fine⟩ := before lower below _ here
          obtain ⟨value, fine, _⟩ := except_map_eq_ok.mp fine
          exact ⟨value, fine⟩

/-- A fan-out gives what all calls have given, or fails with the lowest call that has failed. -/
theorem fanOut_splits (link : Link σ) (take : Reply → Option α)
    {requests : List (Option Request)} (counts : requests.length = link.transport.shards)
    (world : World σ) :
    (∃ answers later, runFrom (link.fanOut take requests) world = (.ok answers, later) ∧
      (∀ (shard : Nat) value, answers[shard]? = some (some value) ↔
        link.GivesAt take ((link.issue requests).run world.network).1 shard value) ∧
      ∀ (shard : Nat) request, requests[shard]? = some (some request) →
        ∃ value, link.GivesAt take ((link.issue requests).run world.network).1 shard value) ∨
    ∃ shard error later, runFrom (link.fanOut take requests) world = (.error error, later) ∧
      link.FailsAt take requests ((link.issue requests).run world.network).1 shard error ∧
      ∀ lower < shard, ∀ error,
        ¬link.FailsAt take requests ((link.issue requests).run world.network).1 lower error := by
  have run := runFrom_fanOut link take counts world
  rw [run_askEach] at run
  rcases joinAnswers_splits
      (link.heardAll take requests ((link.issue requests).run world.network).1) with
    ⟨answers, joined, places, given⟩ | ⟨shard, heard, error, there, fails, joined, before⟩
  · refine .inl ⟨answers, _, run.trans (congrArg (·, _) joined), ?_, ?_⟩
    · intro shard value
      rw [givesAt_iff]
      exact places shard value
    · intro shard request there
      obtain ⟨outcome, here⟩ :=
        (link.exists_request_iff world.network).mp ⟨request, there⟩
      have heard := (link.getElem?_heardAll take).mpr
        ⟨request, outcome, there, here, rfl⟩
      obtain ⟨value, fine⟩ := given shard _ heard
      exact ⟨value, (givesAt_iff world.network).mpr ⟨_, heard, fine⟩⟩
  · refine .inr ⟨shard, error, _, run.trans (congrArg (·, _) joined),
      failsAt_iff.mpr ⟨heard, there, fails⟩, ?_⟩
    intro lower below other failsBelow
    obtain ⟨heard, there, failed⟩ := failsAt_iff.mp failsBelow
    obtain ⟨value, fine⟩ := before lower below _ there
    rw [failed] at fine
    cases fine

/-- A fan-out that fails does so because of a shard that was asked. -/
theorem exists_of_fanOut_eq_error {link : Link σ} {take : Reply → Option α}
    {requests : List (Option Request)}
    (counts : requests.length = link.transport.shards) {world later : World σ} {error : Error}
    (run : runFrom (link.fanOut take requests) world = (.error error, later)) :
    ∃ (shard : Nat) (request : Request) (state : σ), requests[shard]? = some (some request) ∧
      ((link.ask take shard request).run state).1.value = .error error := by
  rw [runFrom_fanOut link take counts] at run
  have joined := congrArg Prod.fst run
  rcases joinAnswers_splits ((link.askEach take requests).run world.network).1 with
    ⟨answers, fine, _⟩ | ⟨shard, heard, other, there, fails, failed, _⟩
  · cases fine.symm.trans joined
  · cases failed.symm.trans joined
    obtain ⟨⟨request, number⟩, entry, asked⟩ := exists_getElem?_of_forall₂
      (link.forall₂_askEach take requests world.network).flip there
    obtain ⟨here, rfl⟩ : requests[shard]? = some request ∧ shard = number := by
      simpa [List.getElem?_zipIdx] using entry
    cases request with
    | none => cases asked
    | some request =>
        obtain ⟨state, same⟩ := asked
        exact ⟨shard, request, state, here, Option.some.inj same ▸ fails⟩

/-- A fan-out succeeds when every shard that is asked gives something in every state. -/
theorem exists_fanOut (link : Link σ) (take : Reply → Option α)
    {requests : List (Option Request)} (counts : requests.length = link.transport.shards)
    (gives : ∀ (shard : Nat) request, requests[shard]? = some (some request) → ∀ state,
      ∃ value, ((link.ask take shard request).run state).1.value = .ok value) (world : World σ) :
    ∃ answers later, runFrom (link.fanOut take requests) world = (.ok answers, later) := by
  rcases run : runFrom (link.fanOut take requests) world with ⟨result, later⟩
  cases result with
  | ok answers => exact ⟨answers, later, rfl⟩
  | error error =>
      obtain ⟨shard, request, state, asked, failed⟩ := exists_of_fanOut_eq_error counts run
      obtain ⟨value, given⟩ := gives shard request asked state
      cases given.symm.trans failed

end Link

/-! ## Writing back -/

/-- Values can be written to positions inside a list. -/
theorem writeAll_of_lt (shard : Nat) {entries : List (Nat × α)} {out : List α}
    (inside : ∀ entry ∈ entries, entry.1 < out.length) :
    ∃ written, writeAll shard out entries = (.ok (), written) ∧ written.length = out.length := by
  induction entries generalizing out with
  | nil => exact ⟨out, rfl, rfl⟩
  | cons entry entries ih =>
      have small : ∀ other ∈ entries, other.1 < (out.set entry.1 entry.2).length := by
        intro other member
        rw [List.length_set]
        exact inside other (List.mem_cons_of_mem _ member)
      obtain ⟨written, run, length⟩ := ih small
      refine ⟨written, ?_, length.trans List.length_set⟩
      rw [writeAll, if_pos (inside entry List.mem_cons_self), run]

/-- Writing the answers of a shard back goes wrong only when there are too few or too many. -/
theorem gather_splits (shard : Nat) {positions : List Nat} {out : List α}
    (inside : ∀ position ∈ positions, position < out.length) (values : List α) :
    (values.length = positions.length ∧
      ∃ written, gather shard positions values out = (.ok (), written) ∧
        written.length = out.length) ∨
    (values.length ≠ positions.length ∧
      (gather shard positions values out).1 =
        .error (.entryCount shard values.length positions.length)) := by
  by_cases counts : positions.length = values.length
  · refine .inl ⟨counts.symm, ?_⟩
    rw [gather, if_pos counts]
    refine writeAll_of_lt shard fun entry member => inside entry.1 ?_
    exact (List.of_mem_zip (show (entry.1, entry.2) ∈ positions.zip values from member)).1
  · refine .inr ⟨Ne.symm counts, ?_⟩
    rw [gather, if_neg counts]

/-- The slice of a shard has a position, inside the list, for each kept item that it owns. -/
theorem slice_spec {owner : α → Nat} {keep : α → Bool} {items : List α} {shards shard : Nat}
    {slice : List Nat}
    (there : (Batch.mk shards (parcelsOf owner keep items)).positions[shard]? = some slice) :
    slice.length = (items.filter fun item => keep item && owner item == shard).length ∧
      ∀ position ∈ slice, position < items.length := by
  rw [positions_parcelsOf, List.getElem?_map, Option.map_eq_some_iff] at there
  obtain ⟨number, there, rfl⟩ := there
  obtain ⟨inside, rfl⟩ := List.getElem?_eq_some_iff.mp there
  rw [List.getElem_range]
  refine ⟨?_, fun position member => ?_⟩
  · rw [← map_item_parcelsOf owner, List.length_map, List.length_map]
  · obtain ⟨parcel, among, rfl⟩ := List.mem_map.mp member
    exact (List.getElem?_eq_some_iff.mp (mem_parcelsOf.mp among).1).1

theorem exists_slice (owner : α → Nat) (keep : α → Bool) (items : List α) {shards shard : Nat}
    (inside : shard < shards) :
    ∃ slice, (Batch.mk shards (parcelsOf owner keep items)).positions[shard]? = some slice := by
  refine ⟨_, List.getElem?_eq_getElem ?_⟩
  rwa [positions_parcelsOf, List.length_map, List.length_range]

namespace Link

/-! ## All or nothing -/

/-- How many of the nodes of a list a shard is asked about. -/
abbrev askedOf (shards : Nat) (keep : NodeId → Bool) (nodes : List NodeId) (shard : Nat) : Nat :=
  (nodes.filter fun node => keep node && ownerOf shards node == shard).length

/-- The requests about the kept nodes of a list, one for each shard that owns some of them. -/
abbrev requestsFor (shards : Nat) (keep : NodeId → Bool) (make : List NodeId → Request)
    (nodes : List NodeId) : List (Option Request) :=
  forOwners (ownerOf shards) keep nodes shards fun _ => make

/-- Asking for the kept nodes of a list is all or nothing. On the record, each shard that owns
some of them is called once, about these in order, and nobody else is, whatever comes of the
calls. Something is given exactly when every shard that was asked gives, in time and in the
expected form, as many entries as it was asked for; otherwise the outcomes call for one error,
and it is this one. -/
structure AllOrNothing {γ : Type} (link : Link σ) (recorded : Exchange (Rehearsal σ) γ)
    (act : Exchange σ γ) (take : Reply → Option α) (sizes : α → List Nat) (keep : NodeId → Bool)
    (make : List NodeId → Request) (nodes : List NodeId) (world : World σ) : Prop where
  calls : ∀ calls, runFrom recorded (world.recorded calls) =
    ((runFrom act world).1, (runFrom act world).2.recorded
      ((callsTo (ownerOf link.transport.shards) keep make link.transport.shards nodes).reverse ++
        calls))
  succeeds : (∃ value, (runFrom act world).1 = .ok value) ↔
    link.AllGive take sizes (askedOf link.transport.shards keep nodes)
      (requestsFor link.transport.shards keep make nodes)
      ((link.issue (requestsFor link.transport.shards keep make nodes)).run world.network).1
  fails : ∀ error, (runFrom act world).1 = .error error ↔
    link.Blames take sizes (askedOf link.transport.shards keep nodes)
      (requestsFor link.transport.shards keep make nodes)
      ((link.issue (requestsFor link.transport.shards keep make nodes)).run world.network).1 error

section AllOrNothing

variable {γ : Type} {link : Link σ} {recorded : Exchange (Rehearsal σ) γ} {act : Exchange σ γ}
  {take : Reply → Option α} {sizes : α → List Nat} {keep : NodeId → Bool}
  {make : List NodeId → Request} {nodes : List NodeId} {world : World σ}

/-- A result that is given when all shards give, and is otherwise an error that is called for, is
all or nothing, because only one verdict is called for. -/
theorem allOrNothing_of_verdict
    (calls : ∀ calls, runFrom recorded (world.recorded calls) =
      ((runFrom act world).1, (runFrom act world).2.recorded
        ((callsTo (ownerOf link.transport.shards) keep make link.transport.shards nodes).reverse ++
          calls)))
    (verdict : ((∃ value, (runFrom act world).1 = .ok value) ∧
        link.AllGive take sizes (askedOf link.transport.shards keep nodes)
          (requestsFor link.transport.shards keep make nodes)
          ((link.issue (requestsFor link.transport.shards keep make nodes)).run world.network).1) ∨
      ∃ error, (runFrom act world).1 = .error error ∧
        link.Blames take sizes (askedOf link.transport.shards keep nodes)
          (requestsFor link.transport.shards keep make nodes)
          ((link.issue (requestsFor link.transport.shards keep make nodes)).run world.network).1
          error) :
    link.AllOrNothing recorded act take sizes keep make nodes world := by
  rcases verdict with ⟨⟨value, given⟩, all⟩ | ⟨error, failed, blames⟩
  · refine ⟨calls, iff_of_true ⟨value, given⟩ all, fun error => ?_⟩
    refine iff_of_false ?_ (all.not_blames error)
    rw [given]
    exact nofun
  · refine ⟨calls, iff_of_false ?_ ?_, fun other => ⟨?_, ?_⟩⟩
    · rintro ⟨value, given⟩
      rw [failed] at given
      cases given
    · intro all
      exact all.not_blames error blames
    · intro same
      cases failed.symm.trans same
      exact blames
    · intro blames'
      rw [failed, blames.unique blames']

/-- Nobody is asked about a list of which nothing is kept. -/
theorem allOrNothing_of_nothing {value : γ} (nothing : nodes.filter keep = [])
    (run : ∀ world, runFrom act world = (.ok value, world))
    (recordedRun : ∀ world, runFrom recorded world = (.ok value, world)) :
    link.AllOrNothing recorded act take sizes keep make nodes world := by
  refine allOrNothing_of_verdict (fun calls => ?_) (.inl ⟨⟨value, by rw [run]⟩, ?_⟩)
  · rw [callsTo_eq_nil _ _ nothing, run, recordedRun]
    rfl
  · intro shard request there
    obtain ⟨_, occupied, _⟩ := getElem?_forOwners_eq_some.mp there
    refine absurd (List.filter_eq_nil_iff.mpr fun node member mine => ?_) occupied
    exact List.filter_eq_nil_iff.mp nothing node member (Bool.and_eq_true_iff.mp mine).1

/-- A fan-out whose answers are written back is all or nothing, when writing goes wrong only at
an answer with a wrong number of entries. -/
theorem allOrNothing_of_work {first : γ} {write : Nat → List Nat → α → γ → Except Error γ}
    (fits : γ → Prop) (initially : fits first)
    (run : ∀ world, runFrom act world = runFrom (do
      let answers ← link.fanOut take (requestsFor link.transport.shards keep make nodes)
      liftM (eachAnswer (Batch.mk link.transport.shards
        (parcelsOf (ownerOf link.transport.shards) keep nodes)).positions answers first write))
      world)
    (recordedRun : ∀ world, runFrom recorded world = runFrom (do
      let answers ← link.recording.fanOut take
        (requestsFor link.transport.shards keep make nodes)
      liftM (eachAnswer (Batch.mk link.transport.shards
        (parcelsOf (ownerOf link.transport.shards) keep nodes)).positions answers first write))
      world)
    (writes : ∀ shard slice answer before, (∀ position ∈ slice, position < nodes.length) →
      fits before →
      ((∀ size ∈ sizes answer, size = slice.length) ∧
        ∃ after, write shard slice answer before = .ok after ∧ fits after) ∨
      ∃ size, (sizes answer).find? (fun size => size != slice.length) = some size ∧
        write shard slice answer before = .error (.entryCount shard size slice.length)) :
    link.AllOrNothing recorded act take sizes keep make nodes world := by
  refine allOrNothing_of_verdict (fun calls => ?_) ?_
  · rw [run, recordedRun, ← callsOf_forOwners]
    exact link.fanOut_bind_recording take (length_forOwners _ _) _ world calls
  rw [run]
  rcases link.fanOut_splits take
      (length_forOwners _ _ : (requestsFor link.transport.shards keep make nodes).length = _) world with
    ⟨answers, later, fetched, places, given⟩ | ⟨shard, error, later, fetched, fails, lowest⟩
  · rw [runFrom_bind_of_ok fetched, runFrom_liftM]
    rcases eachAnswer_splits answers fits
        (fun _ slice answer => ∀ size ∈ sizes answer, size = slice.length)
        (fun shard slice answer => .entryCount shard
          (((sizes answer).find? fun size => size != slice.length).getD 0) slice.length)
        (fun shard slice answer before there fit => by
          rcases writes shard slice answer before (slice_spec there).2 fit with
            fine | ⟨size, wrong, failed⟩
          · exact .inl fine
          · refine .inr ⟨fun right => ?_, by rw [failed, wrong]; rfl⟩
            have differs : size ≠ slice.length := by simpa using List.find?_some wrong
            exact differs (right size (List.mem_of_find?_eq_some wrong)))
        initially with ⟨right, done⟩ | ⟨shard, slice, answer, there, here, wrong, failed, before⟩
    · refine .inl ⟨done, ?_⟩
      intro shard request asked
      obtain ⟨value, gives⟩ := given shard request asked
      obtain ⟨inside, _⟩ := getElem?_forOwners_eq_some.mp asked
      obtain ⟨slice, there⟩ := exists_slice (ownerOf link.transport.shards) keep nodes inside
      have length : slice.length = askedOf link.transport.shards keep nodes shard :=
        (slice_spec there).1
      refine ⟨value, gives, ?_⟩
      rw [← length]
      exact right shard slice value there ((places shard value).mpr gives)
    · obtain ⟨size, bad⟩ : ∃ size,
          (sizes answer).find? (fun size => size != slice.length) = some size := by
        rw [← Option.isSome_iff_exists, List.find?_isSome]
        simpa using wrong
      have length : slice.length = askedOf link.transport.shards keep nodes shard :=
        (slice_spec there).1
      refine .inr ⟨_, failed, ?_⟩
      rw [length] at bad ⊢
      rw [bad, Option.getD_some]
      refine .count ?_ ((places shard answer).mp here) bad ?_
      · intro other error fails
        have ⟨request, _, asked, _⟩ := fails
        obtain ⟨value, gives⟩ := given other request asked
        exact not_failsAt_of_givesAt gives fails
      · intro lower below value gives
        have found := (places lower value).mpr gives
        obtain ⟨inside, _⟩ := List.getElem?_eq_some_iff.mp there
        obtain ⟨slice', there'⟩ : ∃ slice', (Batch.mk link.transport.shards
            (parcelsOf (ownerOf link.transport.shards) keep nodes)).positions[lower]? =
              some slice' := ⟨_, List.getElem?_eq_getElem (Nat.lt_trans below inside)⟩
        have length : slice'.length = askedOf link.transport.shards keep nodes lower :=
          (slice_spec there').1
        rw [← length]
        exact before lower below slice' value there' found
  · rw [runFrom_bind_of_error fetched]
    exact .inr ⟨error, rfl, .call fails lowest⟩

end AllOrNothing

/-! ## Lookups -/

section Lookups

variable {link : Link σ} {nodes : List NodeId} {world : World σ}

/-- A lookup of one entry for each node is all or nothing. -/
theorem allOrNothing_lookup [Inhabited α] (positive : 0 < link.transport.shards)
    (known : NodeId → Option α) (make : List NodeId → Request) (take : Reply → Option (List α)) :
    link.AllOrNothing (link.recording.lookup known make take nodes)
      (link.lookup known make take nodes) take (fun values => [values.length])
      (fun node => (known node).isNone) make nodes world := by
  by_cases hits : (nodes.filter fun node => (known node).isNone) = []
  · exact allOrNothing_of_nothing hits (link.runFrom_lookup_of_known positive hits)
      (link.recording.runFrom_lookup_of_known positive hits)
  · refine allOrNothing_of_work (fun out => out.length = nodes.length)
      (by simp [knownEntries]) (link.runFrom_lookup_of_unknown positive hits)
      (link.recording.runFrom_lookup_of_unknown positive hits) ?_
    intro shard slice values before inside fit
    rcases gather_splits shard (fit.symm ▸ inside) values with
      ⟨right, written, run, length⟩ | ⟨wrong, failed⟩
    · refine .inl ⟨by simpa using right, written, ?_, length.trans fit⟩
      rw [run]
      rfl
    · refine .inr ⟨values.length, by simpa using wrong, ?_⟩
      change (gather shard slice values before).1.map _ = _
      rw [failed]
      rfl

/-- A lookup of both features of each node is all or nothing, and both lists are checked. -/
theorem allOrNothing_lookupFeatures (positive : 0 < link.transport.shards) (cache : Cache) :
    link.AllOrNothing (link.recording.lookupFeatures cache nodes)
      (link.lookupFeatures cache nodes) Reply.features?
      (fun both => [both.1.length, both.2.length])
      (fun node => (cache.features? node).isNone) .features nodes world := by
  by_cases hits : (nodes.filter fun node => (cache.features? node).isNone) = []
  · exact allOrNothing_of_nothing hits (link.runFrom_lookupFeatures_of_known positive hits)
      (link.recording.runFrom_lookupFeatures_of_known positive hits)
  · refine allOrNothing_of_work
      (fun out => out.1.length = nodes.length ∧ out.2.length = nodes.length)
      (by simp [knownEntries]) (link.runFrom_lookupFeatures_of_unknown positive hits)
      (link.recording.runFrom_lookupFeatures_of_unknown positive hits) ?_
    rintro shard slice ⟨ofNodes, ofNeighbors⟩ ⟨first, second⟩ inside ⟨fit, fit'⟩
    rcases gather_splits shard (fit.symm ▸ inside) ofNodes with
      ⟨right, written, run, length⟩ | ⟨wrong, failed⟩
    · rcases gather_splits shard (fit'.symm ▸ inside) ofNeighbors with
        ⟨right', written', run', length'⟩ | ⟨wrong', failed'⟩
      · refine .inl ⟨by simp [right, right'], (written, written'), ?_, length.trans fit,
          length'.trans fit'⟩
        dsimp only
        rw [run, run']
        rfl
      · refine .inr ⟨ofNeighbors.length, by simp [right, wrong'], ?_⟩
        dsimp only
        rw [run]
        change (gather shard slice ofNeighbors second).1 >>= _ = _
        rw [failed']
        rfl
    · refine .inr ⟨ofNodes.length, by simp [wrong], ?_⟩
      dsimp only
      rw [failed]
      rfl

end Lookups

/-- **Lookups are all or nothing and blame the lowest shard.** Let a client look entries up, of
any kind and with any cache, or both features at once, and let anything come of its calls: replies
of any form and size, errors, and late answers, arriving in any order. Then each shard that owns
unknown nodes is called once, about these nodes in order, and nobody else is. The lookup gives
something exactly when every such shard gives, in time and in the expected form, one entry for
each of its nodes in each list of its reply. Otherwise it fails with the error of the lowest shard
whose call failed, and if there is none, with the wrong number of entries of the lowest shard that
gave one. -/
theorem lookups_allOrNothing (link : Link σ) (positive : 0 < link.transport.shards)
    (nodes : List NodeId) (world : World σ) :
    (∀ (α : Type) [Inhabited α] (known : NodeId → Option α) (make : List NodeId → Request)
      (take : Reply → Option (List α)),
      link.AllOrNothing (link.recording.lookup known make take nodes)
        (link.lookup known make take nodes) take (fun values => [values.length])
        (fun node => (known node).isNone) make nodes world) ∧
    ∀ cache : Cache,
      link.AllOrNothing (link.recording.lookupFeatures cache nodes)
        (link.lookupFeatures cache nodes) Reply.features?
        (fun both => [both.1.length, both.2.length])
        (fun node => (cache.features? node).isNone) .features nodes world :=
  ⟨fun _ _ known make take => allOrNothing_lookup positive known make take,
    fun cache => allOrNothing_lookupFeatures positive cache⟩

/-- Three shards: the first gives an entry too much, the second reports an error before that,
and the third is never heard of. -/
def quarreling : Link Unit where
  transport := {
    shards := 3
    call := fun shard _ => return match shard with
      | 0 => ⟨.ok (.nodeFeatures [[], [], []]), .numbered 3⟩
      | 1 => ⟨.error (.failed "worn out"), .numbered 2⟩
      | _ => ⟨.ok (.nodeFeatures [[]]), .never⟩ }
  deadline := some 5

/-- The second shard is blamed: it is the lowest one whose call has failed. -/
theorem lookups_allOrNothing_quarreling :
    0 < quarreling.transport.shards ∧
    (runFrom (quarreling.lookup (fun _ => none) .nodeFeatures Reply.nodeFeatures? [4, 9, 5, 3, 1])
      ⟨(), .cycle #[]⟩).1 = .error (.failed "worn out") ∧
    runFrom (quarreling.recording.lookup (fun _ => none) .nodeFeatures Reply.nodeFeatures?
        [4, 9, 5, 3, 1]) (World.recorded ⟨(), .cycle #[]⟩ []) =
      (.error (.failed "worn out"), World.recorded ⟨(), .cycle #[]⟩
        [(2, .nodeFeatures [5]), (1, .nodeFeatures [4, 1]), (0, .nodeFeatures [9, 3])]) := by
  have verdict := (lookups_allOrNothing quarreling (by decide) [4, 9, 5, 3, 1]
    ⟨(), .cycle #[]⟩).1 Feature (fun _ => none) .nodeFeatures Reply.nodeFeatures?
  have inTime : ∀ outcome : Outcome,
      (Moment.now.afterWait 5).isBefore outcome.arrival = false →
        ∀ limit, ¬quarreling.IsLate outcome limit := by
    rintro outcome early limit ⟨same, late⟩
    cases same
    rw [early] at late
    cases late
  have failed := (verdict.fails (.failed "worn out")).mpr (.call
    (⟨_, _, rfl, rfl, .refused (inTime _ rfl) rfl⟩ : quarreling.FailsAt _ _ _ 1 _) (by
      intro lower below error
      obtain rfl := Nat.lt_one_iff.mp below
      exact not_failsAt_of_givesAt
        (⟨_, rfl, inTime _ rfl, _, rfl, rfl⟩ : quarreling.GivesAt _ _ 0 [[], [], []])))
  refine ⟨by decide, failed, ?_⟩
  have calls := verdict.calls []
  rw [failed] at calls
  exact calls

end Link

end ShardedGraph
