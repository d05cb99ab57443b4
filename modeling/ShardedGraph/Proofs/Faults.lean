import ShardedGraph.Negative.Sample
import ShardedGraph.Proofs.Failures

/-!
# Faults of samples

A sample of negative nodes for one node fails because of the candidates of its namespace
(`Error.isSampleFault`): they are not configured, there are none, they cannot be drawn, too few of
them are left, there is no list for so many, or chance does not find them. Whatever puts such
samples together fails in no other way, but a shared sample may find a node whose namespace has no
slot before it takes any sample.
-/

set_option autoImplicit false

namespace ShardedGraph

/-! ## Samples -/

/-- What may be wrong with a sample of negative nodes for one node. -/
def Error.isSampleFault : Error → Bool
  | unconfiguredNamespace _ | noCandidates _ | noTable _ | tooFewCandidates _ _ _
  | poolTooLong _ | drawsExhausted _ _ _ _ => true
  | _ => false

/-- What may be wrong with a sample of negative nodes for one node. -/
abbrev IsSampleFault (error : Error) : Prop := error.isSampleFault = true

namespace NegativePools

variable (pools : NegativePools)

theorem candidates_within (ns : NamespaceId) : FailsWithin IsSampleFault (pools.candidates ns) := by
  unfold candidates
  split
  · split
    · exact .error rfl
    · exact .ok _
  · exact .error rfl

theorem table_within (ns : NamespaceId) : FailsWithin IsSampleFault (pools.table ns) := by
  unfold table
  split
  · exact .ok _
  · split
    · exact .ok _
    · exact .error rfl

theorem support_within (ns : NamespaceId) : FailsWithin IsSampleFault (pools.support ns) := by
  refine (pools.candidates_within ns).bind fun candidates _ => ?_
  refine (pools.table_within ns).bind fun table _ => ?_
  cases table with
  | none => exact .ok _
  | some kernel => exact .ok _

theorem isDrawable_within (ns : NamespaceId) (index : Nat) :
    FailsWithin IsSampleFault (pools.isDrawable ns index) := by
  refine (pools.candidates_within ns).bind fun candidates _ => ?_
  refine (pools.table_within ns).bind fun table _ => ?_
  cases table with
  | none => exact .ok _
  | some kernel => exact .ok _

theorem requireCandidates_within (ns : NamespaceId) (candidates : List NodeId) (count : Nat)
    (excluded : List NodeId) :
    FailsWithin IsSampleFault (pools.requireCandidates ns candidates count excluded) := by
  have counted : FailsWithin IsSampleFault (pools.countAdmissible ns candidates excluded) := by
    refine (FailsWithin.filterM ?_).bind fun _ _ => .ok _
    rintro ⟨candidate, index⟩ _
    dsimp only
    split
    · exact .ok _
    · exact pools.isDrawable_within ns index
  refine (pools.support_within ns).bind fun support _ => ?_
  split
  · refine counted.bind fun admissible _ => ?_
    split
    · exact .error rfl
    · exact .ok _
  · exact .ok _

theorem draw_within (node : NodeId) : ActsWithin IsSampleFault (pools.draw node) := by
  refine (ActsWithin.liftM (pools.candidates_within _)).bind fun _ candidates _ _ => ?_
  refine (ActsWithin.liftM (pools.table_within _)).bind fun _ table _ _ => ?_
  cases table with
  | none => exact fun _ => .ok _
  | some kernel => exact fun _ => .ok _

/-- Draws for a sample fail only when one of them does. -/
theorem collect_within {draw : Attempt NodeId} (within : ActsWithin IsSampleFault draw)
    (count : Nat) (excluded : List NodeId) (budget : Nat) (found : List NodeId) :
    ActsWithin IsSampleFault (collect draw count excluded budget found) := by
  induction budget generalizing found with
  | zero => exact fun _ => .ok _
  | succ budget ih =>
      intro stream
      rcases run : runFrom draw stream with ⟨result, later⟩
      change FailsWithin IsSampleFault (collect draw count excluded (budget + 1) found stream).1
      rw [collect]
      dsimp only
      rw [show draw stream = (result, later) from run]
      cases result with
      | error error => exact .error (within stream error (congrArg Prod.fst run))
      | ok node =>
          dsimp only
          split
          · exact ih found later
          · split
            · exact .ok _
            · exact ih _ later

/-- A sample for a node fails because of the candidates of its namespace. -/
theorem sampleFor_within (count : Nat) (excluded : List NodeId) (node : NodeId) :
    ActsWithin IsSampleFault (pools.sampleFor count excluded node) := by
  refine (ActsWithin.liftM (pools.candidates_within _)).bind fun _ candidates _ _ => ?_
  split
  · exact .pure []
  · refine (ActsWithin.liftM (pools.requireCandidates_within _ _ _ _)).bind fun _ _ _ _ => ?_
    split
    · exact .throw rfl
    refine (collect_within (pools.draw_within node) _ _ _ _).bind fun _ found _ _ => ?_
    split
    · exact .pure _
    · exact .throw rfl

theorem sampleIndependent_within (count : Nat) (nodes excluded : List NodeId) :
    ActsWithin IsSampleFault (pools.sampleIndependent count nodes excluded) :=
  .mapM fun node _ => pools.sampleFor_within count excluded node

/-- What a shared sample does once the touched namespaces are known. -/
def sampleTouched (count : Nat) (excluded : List NodeId) (touched : List (NamespaceId × NodeId)) :
    Attempt (List (List NodeId)) :=
  touched.foldlM
    (fun out entry => do
      let found ← pools.sampleFor count excluded entry.2
      return out.set entry.1.toNat found)
    (List.replicate pools.source.slots [])

theorem sampleTouched_within (count : Nat) (excluded : List NodeId)
    (touched : List (NamespaceId × NodeId)) :
    ActsWithin IsSampleFault (pools.sampleTouched count excluded touched) :=
  .foldlM (fun entry _ _ => (pools.sampleFor_within count excluded entry.2).bind
    fun _ _ _ _ => .pure _) _

end NegativePools

end ShardedGraph
