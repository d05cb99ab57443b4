import ShardedGraph.Proofs.Running

/-!
# Failures of a kind

A result may fail only in ways that are expected (`FailsWithin`), and so may an act, whatever state
it finds (`ActsWithin`). Both are kept by everything that results and acts are put together with: an
act made of acts fails in no other way than they do. So to say how a whole request may fail it is
enough to look at each place where an error is thrown.
-/

set_option autoImplicit false

namespace ShardedGraph

/-- A result that fails, if it does, in an expected way. -/
def FailsWithin {α : Type} (expected : Error → Prop) (result : Except Error α) : Prop :=
  ∀ error, result = .error error → expected error

namespace FailsWithin

variable {α β : Type} {expected : Error → Prop} {items : List α}

theorem ok (value : α) : FailsWithin expected (.ok value) := nofun

theorem error {error : Error} (fine : expected error) :
    FailsWithin expected (.error error : Except Error α) :=
  fun _ same => Except.error.inj same ▸ fine

theorem bind {result : Except Error α} {next : α → Except Error β}
    (first : FailsWithin expected result)
    (second : ∀ value, result = .ok value → FailsWithin expected (next value)) :
    FailsWithin expected (result >>= next) := by
  cases result with
  | error error => exact FailsWithin.error (first error rfl)
  | ok value => exact second value rfl

theorem map {result : Except Error α} (within : FailsWithin expected result) (f : α → β) :
    FailsWithin expected (f <$> result) := by
  cases result with
  | error error => exact FailsWithin.error (within error rfl)
  | ok value => exact ok _

/-- What is expected of a result may be said in a weaker way. -/
theorem mono {wider : Error → Prop} {result : Except Error α} (within : FailsWithin expected result)
    (weaker : ∀ error, expected error → wider error) : FailsWithin wider result :=
  fun error failed => weaker error (within error failed)

theorem mapM {f : α → Except Error β} (each : ∀ item ∈ items, FailsWithin expected (f item)) :
    FailsWithin expected (items.mapM f) := by
  rcases mapM_splits f items with ⟨_, run⟩ | ⟨_, item, error, there, failed, run, _⟩
  · rw [run]
    exact ok _
  · rw [run]
    exact .error (each item (List.mem_of_getElem? there) error failed)

theorem foldlM {step : β → α → Except Error β}
    (each : ∀ item ∈ items, ∀ before, FailsWithin expected (step before item)) (first : β) :
    FailsWithin expected (items.foldlM step first) := by
  induction items generalizing first with
  | nil => exact ok _
  | cons item items ih =>
      obtain ⟨here, others⟩ := List.forall_mem_cons.mp each
      rw [List.foldlM_cons]
      exact (here first).bind fun after _ => ih others after

theorem filterM {test : α → Except Error Bool}
    (each : ∀ item ∈ items, FailsWithin expected (test item)) :
    FailsWithin expected (items.filterM test) := by
  have kept : ∀ {items : List α} (kept : List α),
      (∀ item ∈ items, FailsWithin expected (test item)) →
        FailsWithin expected (items.filterAuxM test kept) := by
    intro items
    induction items with
    | nil => exact fun kept _ => ok kept
    | cons item items ih =>
        intro kept each
        obtain ⟨here, others⟩ := List.forall_mem_cons.mp each
        exact here.bind fun keep _ => ih (bif keep then item :: kept else kept) others
  exact (kept [] each).bind fun _ _ => ok _

end FailsWithin

/-- An act that fails, if it does, in an expected way. -/
def ActsWithin {S α : Type} (expected : Error → Prop) (act : ExceptT Error (StateM S) α) : Prop :=
  ∀ state, FailsWithin expected (runFrom act state).1

namespace ActsWithin

variable {S α β : Type} {expected : Error → Prop} {items : List α}

theorem pure (value : α) : ActsWithin (S := S) expected (Pure.pure value) :=
  fun _ => FailsWithin.ok value

theorem throw {error : Error} (fine : expected error) :
    ActsWithin expected (throw error : ExceptT Error (StateM S) α) :=
  fun _ => FailsWithin.error fine

theorem liftM {result : Except Error α} (within : FailsWithin expected result) :
    ActsWithin expected (liftM result : ExceptT Error (StateM S) α) := fun state => by
  rw [runFrom_liftM]
  exact within

theorem mono {wider : Error → Prop} {act : ExceptT Error (StateM S) α}
    (within : ActsWithin expected act) (weaker : ∀ error, expected error → wider error) :
    ActsWithin wider act :=
  fun state => (within state).mono weaker

theorem bind {act : ExceptT Error (StateM S) α} {next : α → ExceptT Error (StateM S) β}
    (first : ActsWithin expected act)
    (second : ∀ state value later, runFrom act state = (.ok value, later) →
      ActsWithin expected (next value)) : ActsWithin expected (act >>= next) := fun state => by
  rcases run : runFrom act state with ⟨result, later⟩
  cases result with
  | error error =>
      rw [runFrom_bind_of_error run]
      exact .error (first state error (congrArg Prod.fst run))
  | ok value =>
      rw [runFrom_bind_of_ok run]
      exact second state value later run later

theorem mapM {f : α → ExceptT Error (StateM S) β}
    (each : ∀ item ∈ items, ActsWithin expected (f item)) :
    ActsWithin expected (items.mapM f) := by
  induction items with
  | nil => exact pure []
  | cons item items ih =>
      obtain ⟨here, others⟩ := List.forall_mem_cons.mp each
      rw [List.mapM_cons]
      exact here.bind fun _ _ _ _ => (ih others).bind fun _ _ _ _ => pure _

theorem foldlM {step : β → α → ExceptT Error (StateM S) β}
    (each : ∀ item ∈ items, ∀ before, ActsWithin expected (step before item)) (first : β) :
    ActsWithin expected (items.foldlM step first) := by
  induction items generalizing first with
  | nil => exact pure first
  | cons item items ih =>
      obtain ⟨here, others⟩ := List.forall_mem_cons.mp each
      rw [List.foldlM_cons]
      exact (here first).bind fun _ after _ _ => ih others after

end ActsWithin

end ShardedGraph
