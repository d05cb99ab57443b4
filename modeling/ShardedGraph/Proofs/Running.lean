import Mathlib.Data.List.Forall2
import ShardedGraph.Error

/-!
# Running computations that may fail

A computation that may fail reads and changes a state: the word stream of a draw, or the
world of a client. Run from a state it gives a value or an error, and the state it leaves
(`runFrom`). A run of two computations in a row is a run of the first, followed by a run of
the second from the state that the first one left; after an error there is no second run.

**Lists.** Doing something for every item of a list succeeds exactly when it succeeds for
each item (`mapM_eq_ok_iff`). With a state in between, every item has met some state
(`forall₂_of_runFrom_mapM`, `forall₂_run_mapM`). A fold that succeeds keeps what each of its
steps keeps (`foldlM_keeps`), and a fold whose steps all succeed is one that succeeds
(`foldlM_reaches`); both speak of the items that are still to come.

**First failures.** Work on a list that does not succeed fails with the error of the first item
that fails (`mapM_splits`, `foldlM_splits`).
-/

set_option autoImplicit false

namespace ShardedGraph

variable {S α β : Type}

/-! ## Runs -/

/-- What a computation that may fail gives from a state, and the state it leaves. -/
def runFrom (act : ExceptT Error (StateM S) α) (state : S) : Except Error α × S :=
  act.run.run state

@[simp]
theorem runFrom_pure (value : α) (state : S) :
    runFrom (pure value) state = (.ok value, state) := rfl

@[simp]
theorem runFrom_throw (error : Error) (state : S) :
    runFrom (throw error : ExceptT Error (StateM S) α) state = (.error error, state) := rfl

/-- A result that is already there leaves the state alone. -/
@[simp]
theorem runFrom_liftM (result : Except Error α) (state : S) :
    runFrom (liftM result) state = (result, state) := rfl

/-- A computation that cannot fail gives its value. -/
@[simp]
theorem runFrom_lift (act : StateM S α) (state : S) :
    runFrom (ExceptT.lift act) state = (.ok (act.run state).1, (act.run state).2) := rfl

theorem runFrom_adapt (f : Error → Error) (act : ExceptT Error (StateM S) α) (state : S) :
    runFrom (ExceptT.adapt f act) state =
      ((runFrom act state).1.mapError f, (runFrom act state).2) := rfl

theorem runFrom_bind (act : ExceptT Error (StateM S) α)
    (next : α → ExceptT Error (StateM S) β) (state : S) :
    runFrom (act >>= next) state =
      match runFrom act state with
      | (.ok value, later) => runFrom (next value) later
      | (.error error, later) => (.error error, later) := by
  have opened : runFrom (act >>= next) state =
      match runFrom act state with
      | (result, later) => (ExceptT.bindCont next result).run later := rfl
  rw [opened]
  rcases runFrom act state with ⟨result, later⟩
  cases result with
  | ok value => rfl
  | error error => rfl

/-- Two computations in a row succeed only when both do. -/
theorem runFrom_bind_eq_ok {act : ExceptT Error (StateM S) α}
    {next : α → ExceptT Error (StateM S) β} {state later : S} {value : β}
    (run : runFrom (act >>= next) state = (.ok value, later)) :
    ∃ first between, runFrom act state = (.ok first, between) ∧
      runFrom (next first) between = (.ok value, later) := by
  rw [runFrom_bind] at run
  rcases first : runFrom act state with ⟨result, between⟩
  rw [first] at run
  cases result with
  | ok value => exact ⟨value, between, rfl, run⟩
  | error error => cases run

/-- A computation goes on with the value of the one before. -/
theorem runFrom_bind_of_ok {act : ExceptT Error (StateM S) α}
    {next : α → ExceptT Error (StateM S) β} {state between : S} {value : α}
    (run : runFrom act state = (.ok value, between)) :
    runFrom (act >>= next) state = runFrom (next value) between := by
  rw [runFrom_bind, run]

/-- Nothing goes on after an error. -/
theorem runFrom_bind_of_error {act : ExceptT Error (StateM S) α}
    {next : α → ExceptT Error (StateM S) β} {state between : S} {error : Error}
    (run : runFrom act state = (.error error, between)) :
    runFrom (act >>= next) state = (.error error, between) := by
  rw [runFrom_bind, run]

/-- A run whose result is not an error gives a value. -/
theorem exists_of_isOk {run : Except Error α × S} (ok : run.1.isOk = true) :
    ∃ value later, run = (.ok value, later) := by
  rcases run with ⟨_ | value, later⟩
  · cases ok
  · exact ⟨value, later, rfl⟩

/-- A run whose result is a value gives this value. -/
theorem exists_of_toOption_eq_some {run : Except Error α × S} {value : α}
    (ok : run.1.toOption = some value) : ∃ later, run = (.ok value, later) := by
  rcases run with ⟨_ | found, later⟩
  · cases ok
  · cases ok
    exact ⟨later, rfl⟩

/-! ## Lists -/

theorem except_bind_eq_ok {ε : Type} {result : Except ε α} {next : α → Except ε β} {value : β} :
    (result >>= next) = .ok value ↔ ∃ first, result = .ok first ∧ next first = .ok value := by
  cases result with
  | ok first =>
      refine ⟨fun equal => ⟨first, rfl, equal⟩, ?_⟩
      rintro ⟨_, same, equal⟩
      cases same
      exact equal
  | error error =>
      constructor
      · intro equal
        cases equal
      · rintro ⟨_, same, _⟩
        cases same

theorem except_toOption_eq_some {ε : Type} {result : Except ε α} {value : α} :
    result.toOption = some value ↔ result = .ok value := by
  cases result with
  | ok first => exact ⟨fun equal => congrArg Except.ok (Option.some.inj equal), fun equal => by
      cases equal; rfl⟩
  | error error => exact iff_of_false nofun nofun

theorem except_map_eq_ok {ε : Type} {result : Except ε α} {f : α → β} {value : β} :
    f <$> result = .ok value ↔ ∃ first, result = .ok first ∧ f first = value := by
  cases result with
  | ok first =>
      constructor
      · intro equal
        cases equal
        exact ⟨first, rfl, rfl⟩
      · rintro ⟨_, same, rfl⟩
        cases same
        rfl
  | error error =>
      constructor
      · intro equal
        cases equal
      · rintro ⟨_, same, _⟩
        cases same

/-- Doing something for every item succeeds exactly when it succeeds for each. -/
theorem mapM_eq_ok_iff {ε : Type} {f : α → Except ε β} {items : List α} {values : List β} :
    items.mapM f = .ok values ↔
      List.Forall₂ (fun item value => f item = .ok value) items values := by
  induction items generalizing values with
  | nil =>
      rw [List.mapM_nil, List.forall₂_nil_left_iff]
      exact ⟨fun equal => by cases equal; rfl, fun same => by subst same; rfl⟩
  | cons item items ih =>
      rw [List.mapM_cons, except_bind_eq_ok, List.forall₂_cons_left_iff]
      constructor
      · rintro ⟨value, first, rest⟩
        obtain ⟨values, others, equal⟩ := except_bind_eq_ok.mp rest
        cases equal
        exact ⟨value, values, first, ih.mp others, rfl⟩
      · rintro ⟨value, values, first, others, rfl⟩
        exact ⟨value, first, except_bind_eq_ok.mpr ⟨values, ih.mpr others, rfl⟩⟩

/-- Two lists are related when they are as long as each other and position by position. -/
theorem forall₂_iff_getElem? {related : α → β → Prop} {items : List α} {values : List β} :
    List.Forall₂ related items values ↔ items.length = values.length ∧
      ∀ (position : Nat) item value, items[position]? = some item →
        values[position]? = some value → related item value := by
  rw [List.forall₂_iff_get]
  refine and_congr_right fun _ => ⟨fun pairs position item value here there => ?_,
    fun pairs position inside inside' => ?_⟩
  · obtain ⟨inside, rfl⟩ := List.getElem?_eq_some_iff.mp here
    obtain ⟨inside', rfl⟩ := List.getElem?_eq_some_iff.mp there
    exact pairs position inside inside'
  · exact pairs position _ _ (List.getElem?_eq_getElem inside) (List.getElem?_eq_getElem inside')

/-- An item of the first of two related lists has a related value at its position. -/
theorem exists_getElem?_of_forall₂ {related : α → β → Prop} {items : List α} {values : List β}
    (pairs : List.Forall₂ related items values) {position : Nat} {item : α}
    (here : items[position]? = some item) :
    ∃ value, values[position]? = some value ∧ related item value := by
  obtain ⟨length, places⟩ := forall₂_iff_getElem?.mp pairs
  obtain ⟨inside, _⟩ := List.getElem?_eq_some_iff.mp here
  have there := List.getElem?_eq_getElem (Nat.lt_of_lt_of_eq inside length)
  exact ⟨_, there, places position item _ here there⟩

/-- A member of the second of two related lists is related to a member of the first. -/
theorem exists_of_forall₂_of_mem {related : α → β → Prop} {items : List α} {values : List β}
    (pairs : List.Forall₂ related items values) {value : β} (member : value ∈ values) :
    ∃ item ∈ items, related item value := by
  induction pairs with
  | nil => cases member
  | cons first _ ih =>
      rcases List.mem_cons.mp member with rfl | later
      · exact ⟨_, List.mem_cons_self, first⟩
      · obtain ⟨item, among, pair⟩ := ih later
        exact ⟨item, List.mem_cons_of_mem _ among, pair⟩

/-- Taking results that are already there, one by one, leaves the state alone. -/
theorem runFrom_mapM_liftM (f : α → Except Error β) (items : List α) (state : S) :
    runFrom (items.mapM fun item => (liftM (f item) : ExceptT Error (StateM S) β)) state =
      (items.mapM f, state) := by
  induction items with
  | nil => rfl
  | cons item items ih =>
      rw [List.mapM_cons, List.mapM_cons]
      cases first : f item with
      | error error => rfl
      | ok value =>
          rw [runFrom_bind_of_ok (runFrom_liftM _ state), runFrom_bind, ih]
          cases items.mapM f with
          | error error => rfl
          | ok values => rfl

/-- Every item of a list that was worked through has met some state. -/
theorem forall₂_of_runFrom_mapM {f : α → ExceptT Error (StateM S) β} {items : List α}
    {state later : S} {values : List β}
    (run : runFrom (items.mapM f) state = (.ok values, later)) :
    List.Forall₂ (fun item value => ∃ before after, runFrom (f item) before = (.ok value, after))
      items values := by
  induction items generalizing state values with
  | nil =>
      rw [List.mapM_nil] at run
      cases run
      exact .nil
  | cons item items ih =>
      rw [List.mapM_cons] at run
      obtain ⟨value, between, first, rest⟩ := runFrom_bind_eq_ok run
      obtain ⟨values, after, others, equal⟩ := runFrom_bind_eq_ok rest
      cases equal
      exact .cons ⟨state, between, first⟩ (ih others)

/-- The same for work that cannot fail. -/
theorem forall₂_run_mapM (f : α → StateM S β) (items : List α) (state : S) :
    List.Forall₂ (fun item value => ∃ before, ((f item).run before).1 = value) items
      ((items.mapM f).run state).1 := by
  induction items generalizing state with
  | nil => exact .nil
  | cons item items ih =>
      rw [List.mapM_cons]
      exact .cons ⟨state, rfl⟩ (ih _)

/-- A fold with a state in between that succeeds keeps what each of its steps keeps. -/
theorem runFrom_foldlM_keeps {step : β → α → ExceptT Error (StateM S) β} (keeps : β → Prop)
    {items : List α}
    (kept : ∀ item ∈ items, ∀ before state after later, keeps before →
      runFrom (step before item) state = (.ok after, later) → keeps after)
    {first last : β} {state later : S} (initially : keeps first)
    (run : runFrom (items.foldlM step first) state = (.ok last, later)) : keeps last := by
  induction items generalizing first state with
  | nil =>
      rw [List.foldlM_nil] at run
      cases run
      exact initially
  | cons item items ih =>
      rw [List.foldlM_cons] at run
      obtain ⟨next, between, head, rest⟩ := runFrom_bind_eq_ok run
      refine ih (fun item member => kept item (List.mem_cons_of_mem _ member)) ?_ rest
      exact kept item List.mem_cons_self first state next between initially head

/-- A fold that succeeds keeps what each of its steps keeps. -/
theorem foldlM_keeps {ε : Type} {step : β → α → Except ε β} (keeps : List α → β → Prop)
    (kept : ∀ item items before after, keeps (item :: items) before →
      step before item = .ok after → keeps items after)
    {items : List α} {first last : β} (initially : keeps items first)
    (run : items.foldlM step first = .ok last) : keeps [] last := by
  induction items generalizing first with
  | nil =>
      cases run
      exact initially
  | cons item items ih =>
      rw [List.foldlM_cons] at run
      obtain ⟨next, head, rest⟩ := except_bind_eq_ok.mp run
      exact ih (kept item items first next initially head) rest

/-- A fold succeeds when every step does, and keeps what each of them keeps. -/
theorem foldlM_reaches {ε : Type} (step : β → α → Except ε β) (keeps : List α → β → Prop)
    (moves : ∀ item items before, keeps (item :: items) before →
      ∃ after, step before item = .ok after ∧ keeps items after)
    {items : List α} (first : β) (initially : keeps items first) :
    ∃ last, items.foldlM step first = .ok last ∧ keeps [] last := by
  induction items generalizing first with
  | nil => exact ⟨first, rfl, initially⟩
  | cons item items ih =>
      obtain ⟨next, head, kept⟩ := moves item items first initially
      obtain ⟨last, rest, final⟩ := ih next kept
      exact ⟨last, by rw [List.foldlM_cons, head]; exact rest, final⟩

/-! ## First failures -/

/-- Work on a list succeeds for every item, or fails with the error of the first item that
fails. -/
theorem mapM_splits {ε : Type} (f : α → Except ε β) (items : List α) :
    (∃ values, items.mapM f = .ok values) ∨
      ∃ (position : Nat) (item : α) (error : ε), items[position]? = some item ∧
        f item = .error error ∧ items.mapM f = .error error ∧
        ∀ lower < position, ∀ other, items[lower]? = some other → ∃ value, f other = .ok value := by
  induction items with
  | nil => exact .inl ⟨[], rfl⟩
  | cons item items ih =>
      rw [List.mapM_cons]
      cases first : f item with
      | error error =>
          refine .inr ⟨0, item, error, rfl, first, rfl, ?_⟩
          intro lower below
          exact absurd below (Nat.not_lt_zero lower)
      | ok value =>
          rcases ih with ⟨values, rest⟩ | ⟨position, bad, error, there, fails, rest, before⟩
          · exact .inl ⟨value :: values, by rw [rest]; rfl⟩
          · refine .inr ⟨position + 1, bad, error, there, fails, by rw [rest]; rfl, ?_⟩
            intro lower below other here
            cases lower with
            | zero =>
                cases here
                exact ⟨value, first⟩
            | succ lower => exact before lower (Nat.lt_of_succ_lt_succ below) other here

/-- A fold each of whose items is good or makes its step fail, whatever was folded before, succeeds
over good items, or fails with the error of the first bad one. -/
theorem foldlM_splits {ε : Type} (step : β → α → Except ε β) (fits : β → Prop) (good : α → Prop)
    (blame : α → ε) (items : List α)
    (steps : ∀ item ∈ items, ∀ before, fits before →
      (good item ∧ ∃ after, step before item = .ok after ∧ fits after) ∨
        (¬good item ∧ step before item = .error (blame item)))
    {first : β} (initially : fits first) :
    ((∀ item ∈ items, good item) ∧ ∃ last, items.foldlM step first = .ok last ∧ fits last) ∨
      ∃ (position : Nat) (item : α), items[position]? = some item ∧ ¬good item ∧
        items.foldlM step first = .error (blame item) ∧
        ∀ lower < position, ∀ other, items[lower]? = some other → good other := by
  induction items generalizing first with
  | nil => exact .inl ⟨by simp, first, rfl, initially⟩
  | cons item items ih =>
      rw [List.foldlM_cons]
      rcases steps item List.mem_cons_self first initially with ⟨fine, after, step, fit⟩ | ⟨bad, step⟩
      · rw [step]
        rcases ih (fun other member => steps other (List.mem_cons_of_mem _ member)) fit with
          ⟨all, last, rest, fit'⟩ | ⟨position, bad, there, wrong, rest, before⟩
        · refine .inl ⟨?_, last, rest, fit'⟩
          intro other member
          rcases List.mem_cons.mp member with rfl | later
          · exact fine
          · exact all other later
        · refine .inr ⟨position + 1, bad, there, wrong, rest, ?_⟩
          intro lower below other here
          cases lower with
          | zero =>
              cases here
              exact fine
          | succ lower => exact before lower (Nat.lt_of_succ_lt_succ below) other here
      · refine .inr ⟨0, item, rfl, bad, by rw [step]; rfl, ?_⟩
        intro lower below
        exact absurd below (Nat.not_lt_zero lower)

end ShardedGraph
