import ShardedGraph.Proofs.RangedDraws

/-!
# Walks that are cut and continued

A walk can be cut after any number of hops. The part after the cut is a walk of its own: it starts at
the last node of the first part, counts the hops of the first part as taken before, and draws from
what the first part left of the stream. This is how a walk goes on at another shard without losing
its phase in a cycle of namespaces.

Hops in two parts are the same hops (`Walker.hopsFrom_add`), by induction on the length of the first
part. A first part that ended early has come to a node without a way on, and nothing is drawn after
it. **Main result**: `Walker.traverse_cut` says this of whole walks, for any walker, with all that
can go wrong on the way.

**Room.** A list has to have room for both parts together before the first hop is drawn. A walk can
therefore be too long although neither of its parts is, and then it stops even where its first part
ends early (`Walker.traverse_tooLong_mixed`).
-/

set_option autoImplicit false

namespace ShardedGraph.Walker

variable {tables : NeighborTables} {path : List NamespaceId}

/-- Hops in two parts. The second part goes on from the last node of the first, unless the first part
ended early. -/
def hopsInParts (tables : NeighborTables) (path : List NamespaceId) (first second taken : Nat)
    (node : NodeId) : Attempt (List NodeId) := do
  let hops ← hopsFrom tables path first taken node
  if hops.length < first then return hops
  else return hops ++ (← hopsFrom tables path second (taken + first) (hops.getLastD node))

/-- **Hops can be cut anywhere.** -/
theorem hopsFrom_add (first second taken : Nat) (node : NodeId) :
    hopsFrom tables path (first + second) taken node =
      hopsInParts tables path first second taken node := by
  induction first generalizing taken node with
  | zero => simp [hopsInParts, hopsFrom]
  | succ first ih =>
      rw [Nat.succ_add]
      unfold hopsInParts
      simp only [hopsFrom, bind_assoc]
      congr 1
      funext drawn
      cases drawn with
      | none => simp
      | some next =>
          dsimp only
          rw [ih, hopsInParts]
          simp only [bind_assoc, pure_bind]
          congr 1
          funext hops
          rw [List.length_cons, List.getLastD_cons, Nat.add_right_comm taken 1 first]
          by_cases short : hops.length < first
          · rw [if_pos short, if_pos (Nat.succ_lt_succ short), pure_bind]
          · rw [if_neg short, if_neg fun less => short (Nat.lt_of_succ_lt_succ less)]
            simp only [bind_assoc, pure_bind, List.cons_append]
            rfl

/-! ## Whole walks -/

/-- A walk from one start lists its hops, unless it must follow namespaces and does not, or has no
room for them. -/
theorem runFrom_traverse_single (walker : Walker) (start : NodeId) (length offset : Nat)
    (path : List NamespaceId) (stream : WordStream) :
    runFrom (walker.traverse [start] [length] [offset] path) stream =
      if path ≠ [] ∧ walker.followsPaths = false then (.error .freeWalksOnly, stream)
      else if listLimit < length then (.error (.walkTooLong length), stream)
      else runFrom (hopsFrom walker.tables path length offset start >>= fun hops => pure [hops])
        stream := by
  rw [runFrom_traverse, if_neg (by simp)]
  split
  · rfl
  · rw [show ([start].zip [length]).zipIdx = [((start, length), 0)] from rfl, List.mapM_cons]
    simp only [List.mapM_nil, pure_bind, List.getD_cons_zero]
    rw [runFrom_bind, runFrom_walkFrom]
    by_cases long : listLimit < length
    · rw [if_pos long, if_pos long]
    · rw [if_neg long, if_neg long, runFrom_bind]

/-- **Walks can be cut anywhere, where there is room for them.** Take a walk of `first + second` hops
from a start, and a walk of `first` hops from the same start and stream, and let a list have room for
all hops of the longer one. When the shorter walk fails, the longer one fails in the same way.
Otherwise the shorter walk gives some hops, at most `first`. When there are fewer, the walk has ended,
and the longer one gives the same hops and takes no other word. When there are `first`, the longer
walk gives these hops followed by those of a walk that goes on from the last node with what is left
of the stream, its offset being that many hops larger; and it fails as that walk fails. Without room
for its hops the longer walk stops and takes no word, unless it is refused because it must follow
namespaces and does not. -/
theorem traverse_cut (walker : Walker) (path : List NamespaceId) (start : NodeId)
    (offset first second : Nat) (stream : WordStream) :
    (first + second ≤ listLimit →
      (∃ error later,
        runFrom (walker.traverse [start] [first] [offset] path) stream = (.error error, later) ∧
        runFrom (walker.traverse [start] [first + second] [offset] path) stream =
          (.error error, later)) ∨
      ∃ hops later,
        runFrom (walker.traverse [start] [first] [offset] path) stream = (.ok [hops], later) ∧
        hops.length ≤ first ∧
        runFrom (walker.traverse [start] [first + second] [offset] path) stream =
          if hops.length < first then (.ok [hops], later)
          else match runFrom
              (walker.traverse [hops.getLastD start] [second] [offset + first] path) later with
            | (.ok further, after) => (.ok (further.map (hops ++ ·)), after)
            | (.error error, after) => (.error error, after)) ∧
    (listLimit < first + second →
      runFrom (walker.traverse [start] [first + second] [offset] path) stream =
        (.error (if path ≠ [] ∧ walker.followsPaths = false then .freeWalksOnly
          else .walkTooLong (first + second)), stream)) := by
  simp only [runFrom_traverse_single, hopsFrom_add, hopsInParts]
  by_cases still : path ≠ [] ∧ walker.followsPaths = false
  · exact ⟨fun _ => .inl ⟨_, _, if_pos still, if_pos still⟩, fun _ => by simp only [if_pos still]⟩
  refine ⟨fun room => ?_, fun long => by simp only [if_neg still, if_pos long]⟩
  have fits : ¬listLimit < first := by omega
  have fits' : ¬listLimit < second := by omega
  simp only [if_neg still, if_neg fits, if_neg fits', if_neg (Nat.not_lt_of_le room), runFrom_bind]
  rcases drawn : runFrom (hopsFrom walker.tables path first offset start) stream with
    ⟨error | hops, later⟩
  · exact .inl ⟨error, later, rfl, rfl⟩
  · refine .inr ⟨hops, later, rfl, length_le_of_hopsFrom drawn, ?_⟩
    dsimp only
    by_cases short : hops.length < first
    · rw [if_pos short, if_pos short]
      rfl
    · rw [if_neg short, if_neg short, runFrom_bind]
      rcases runFrom (hopsFrom walker.tables path second (offset + first) (hops.getLastD start))
        later with ⟨error | further, after⟩
      · rfl
      · rfl

/-! ### One edge -/

/-- From the node of the even shard there is one hop. -/
theorem hop_mixed : ∃ later,
    runFrom (evenPartition.walker.traverse [2] [2] [0] []) (.cycle #[]) = (.ok [[1]], later) :=
  exists_of_toOption_eq_some (by decide +kernel)

/-- A walk of two hops ends after one. A walk of one more hop gives the same; a walk for which no list
has room stops. -/
theorem traverse_cut_mixed :
    2 + 1 ≤ listLimit ∧ listLimit < 2 + listLimit ∧
    ∃ later,
      runFrom (evenPartition.walker.traverse [2] [2] [0] []) (.cycle #[]) = (.ok [[1]], later) ∧
      runFrom (evenPartition.walker.traverse [2] [2 + 1] [0] []) (.cycle #[]) = (.ok [[1]], later) ∧
      runFrom (evenPartition.walker.traverse [2] [2 + listLimit] [0] []) (.cycle #[]) =
        (.error (.walkTooLong (2 + listLimit)), .cycle #[]) := by
  obtain ⟨later, ends⟩ := hop_mixed
  have room : 2 + 1 ≤ listLimit := by decide
  have long : listLimit < 2 + listLimit := by decide
  refine ⟨room, long, later, ends, ?_, ?_⟩
  · obtain ⟨cut, -⟩ := traverse_cut evenPartition.walker [] 2 0 2 1 (.cycle #[])
    obtain ⟨error, _, failed, -⟩ | ⟨hops, _, given, -, whole⟩ := cut room
    · cases ends.symm.trans failed
    · cases ends.symm.trans given
      exact whole
  · exact (traverse_cut evenPartition.walker [] 2 0 2 listLimit (.cycle #[])).2 long

/-- The walk of two hops has ended after one, but with more hops than a list has room for after
these two it gives nothing: not every walk can be cut. -/
theorem traverse_tooLong_mixed :
    (∃ graph, Graph.build .single (Graph.ownedInsertions 2 0 mixedInsertions) = .ok graph ∧
      NeighborTables.build graph.source .uniform = .ok evenPartition.walker.tables) ∧
    0 + 2 + listLimit < UInt64.size ∧
    (∃ later,
      runFrom (evenPartition.walker.traverse [2] [2] [0] []) (.cycle #[]) = (.ok [[1]], later)) ∧
    ∀ hops later, runFrom (evenPartition.walker.traverse [2] [2 + listLimit] [0] []) (.cycle #[]) ≠
      (.ok hops, later) := by
  obtain ⟨graph, built, made⟩ := build_of_mixed (show [evenPartition, oddPartition][0]? = _ from rfl)
  obtain ⟨-, tables, same⟩ := Partition.spec_of_build made
  refine ⟨⟨graph, built, ?_⟩, by decide, hop_mixed, fun hops later run => ?_⟩
  · rw [same]
    exact tables
  · have long : listLimit < 2 + listLimit := by decide
    rw [runFrom_traverse_single, if_neg (by simp), if_pos long] at run
    cases run

end ShardedGraph.Walker
