import Mathlib.Data.List.Nodup
import ShardedGraph.Cluster.Scan
import ShardedGraph.Proofs.Agreement
import ShardedGraph.Proofs.Messages

/-!
# Scans of hot nodes

A scan asks all shards that are not done for their next page, with one cursor for all, until every
shard has given a page that is not full.

**Shards that serve their pages.** Let every shard answer with the pages of its list. After a
number of rounds, the shards that are not done are those whose lists reach to the cursor, and the
nodes seen are those of the pages so far (`Scan.afterRounds`). So the scan ends when the cursor is
beyond the longest list, every shard is asked for as many pages as begin within its list, and a
page beyond the end of a list is never asked for (`Link.ScansAll`).

**Any replies.** What a scan lists it lists once, whatever the shards answer; and a page with too
many nodes in a round that is made ends the scan with an error (`Link.ScanHears`). Both parts
together are `Link.scanHotNodes_complete`.
-/

set_option autoImplicit false

namespace ShardedGraph

/-! ## The calls to a shard -/

theorem mem_callsOf {requests : List (Option Request)} {shard : Nat} {request : Request} :
    (shard, request) ∈ callsOf requests ↔ requests[shard]? = some (some request) := by
  rw [callsOf, List.mem_filterMap]
  constructor
  · rintro ⟨⟨asked, index⟩, member, same⟩
    obtain ⟨_, rfl, same⟩ := Option.map_eq_some_iff.mp same
    cases same
    exact List.mk_mem_zipIdx_iff_getElem?.mp member
  · intro there
    exact ⟨(some request, shard), List.mk_mem_zipIdx_iff_getElem?.mpr there, rfl⟩

/-- Among the calls that requests ask for, that to a shard is its request. -/
theorem filter_callsOf {requests : List (Option Request)} {shard : Nat} {asked : Option Request}
    (there : requests[shard]? = some asked) :
    (callsOf requests).filter (fun call => call.1 == shard) =
      (asked.map fun request => (shard, request)).toList := by
  have each (start : Nat) :
      ((requests.zipIdx start).filterMap fun entry =>
          entry.1.map fun request => (entry.2, request)).filter
          (fun call => call.1 == start + shard) =
        (asked.map fun request => (start + shard, request)).toList := by
    induction requests generalizing shard start with
    | nil => cases there
    | cons first requests ih =>
        rw [List.zipIdx_cons, List.filterMap_cons]
        cases shard with
        | zero =>
            cases there
            have others : ((requests.zipIdx (start + 1)).filterMap fun entry =>
                entry.1.map fun request => (entry.2, request)).filter
                (fun call => call.1 == start + 0) = [] := by
              rw [List.filter_eq_nil_iff]
              intro call member same
              obtain ⟨entry, inner, made⟩ := List.mem_filterMap.mp member
              obtain ⟨request, -, rfl⟩ := Option.map_eq_some_iff.mp made
              have above := List.le_snd_of_mem_zipIdx inner
              have equal : entry.2 = start := eq_of_beq same
              omega
            cases asked with
            | none => exact others
            | some request => simpa using others
        | succ shard =>
            have others := ih there (start + 1)
            rw [Nat.add_right_comm, Nat.add_assoc] at others
            cases first with
            | none => exact others
            | some request =>
                have different : (start == start + (shard + 1)) = false := by simp
                simp only [Option.map_some, List.filter_cons, different]
                exact others
  have all := each 0
  rw [Nat.zero_add] at all
  exact all

namespace Scan

/-! ## Nodes that are seen once -/

theorem addNew_append (seen nodes nodes' : List NodeId) :
    addNew seen (nodes ++ nodes') = addNew (addNew seen nodes) nodes' :=
  List.foldl_append

theorem mem_addNew {seen nodes : List NodeId} {node : NodeId} :
    node ∈ addNew seen nodes ↔ node ∈ seen ∨ node ∈ nodes := by
  induction nodes generalizing seen with
  | nil => simp [addNew]
  | cons first nodes ih =>
      change node ∈ addNew (if seen.contains first then seen else seen ++ [first]) nodes ↔ _
      rw [ih, List.mem_cons]
      split
      · next known =>
        have there : first ∈ seen := List.contains_iff_mem.mp known
        constructor
        · exact fun either => either.imp_right .inr
        · rintro (old | rfl | new)
          · exact .inl old
          · exact .inl there
          · exact .inr new
      · simp [or_assoc]

theorem nodup_addNew {seen : List NodeId} (distinct : seen.Nodup) (nodes : List NodeId) :
    (addNew seen nodes).Nodup := by
  induction nodes generalizing seen with
  | nil => exact distinct
  | cons first nodes ih =>
      change (addNew (if seen.contains first then seen else seen ++ [first]) nodes).Nodup
      apply ih
      split
      · exact distinct
      · next fresh =>
        apply distinct.append (List.nodup_singleton first)
        intro node old new
        cases List.mem_singleton.mp new
        exact fresh (List.contains_iff_mem.mpr old)

/-! ## One round -/

/-- A page that is not full is the last one of its shard. -/
def isLast (page : Nat) : Option (List NodeId) → Bool
  | some nodes => decide (nodes.length < page)
  | none => false

/-- The nodes of the pages of a round, in the order of the shards. -/
def nodesOf (answers : List (Option (List NodeId))) : List NodeId :=
  answers.flatMap fun answer => answer.getD []

/-- Where a scan stands after the pages of a round. -/
def after (page : Nat) (scan : Scan) (answers : List (Option (List NodeId))) : Scan where
  active := List.zipWith (fun active answer => active && !isLast page answer) scan.active answers
  cursor := scan.cursor + page
  seen := addNew scan.seen (nodesOf answers)

/-- No page has too many nodes. -/
def Within (page : Nat) (answers : List (Option (List NodeId))) : Prop :=
  ∀ nodes, some nodes ∈ answers → nodes.length ≤ page

/-- Takes the page of a shard that was asked. -/
def takeAt (page : Nat) (scan : Scan) (entry : Option (List NodeId) × Nat) : Except Error Scan :=
  match entry.1 with
  | some nodes => take page scan entry.2 nodes
  | none => .ok scan

theorem takeAll_eq (page : Nat) (scan : Scan) (answers : List (Option (List NodeId))) :
    takeAll page scan answers =
      (answers.zipIdx.foldlM (takeAt page) scan >>= fun scan =>
        .ok { scan with cursor := scan.cursor + page }) := rfl

/-- A page that is not too long adds its nodes, and closes its shard when it is the last one. -/
theorem takeAt_eq_ok {page : Nat} {answer : Option (List NodeId)}
    (within : ∀ nodes, answer = some nodes → nodes.length ≤ page) (front back : List Bool)
    (active : Bool) (cursor : Nat) (seen : List NodeId) :
    takeAt page ⟨front ++ active :: back, cursor, seen⟩ (answer, front.length) =
      .ok ⟨front ++ (active && !isLast page answer) :: back, cursor,
        addNew seen (answer.getD [])⟩ := by
  cases answer with
  | none => simp [takeAt, isLast, addNew]
  | some nodes =>
      have short : ¬page < nodes.length := Nat.not_lt.mpr (within nodes rfl)
      simp only [takeAt, take, if_neg short, isLast, Option.getD_some]
      by_cases last : nodes.length < page
      · simp [last]
      · simp [last]

/-- Pages are taken one after the other, each at the place of its own shard. -/
theorem takeEach_eq_ok {page : Nat} {answers : List (Option (List NodeId))}
    (within : Within page answers) (front : List Bool) {back : List Bool}
    (counts : answers.length = back.length) (cursor : Nat) (seen : List NodeId) :
    (answers.zipIdx front.length).foldlM (takeAt page) ⟨front ++ back, cursor, seen⟩ =
      .ok ⟨front ++ List.zipWith (fun active answer => active && !isLast page answer) back answers,
        cursor, addNew seen (nodesOf answers)⟩ := by
  induction answers generalizing front back seen with
  | nil =>
      rw [List.length_eq_zero_iff.mp counts.symm]
      rfl
  | cons answer answers ih =>
      obtain ⟨active, back, rfl⟩ := List.exists_cons_of_length_eq_add_one counts.symm
      have first := takeAt_eq_ok (fun nodes same => within nodes (same ▸ List.mem_cons_self))
        front back active cursor seen
      have others := ih (fun nodes member => within nodes (List.mem_cons_of_mem _ member))
        (front ++ [active && !isLast page answer]) (Nat.succ.inj counts)
        (addNew seen (answer.getD []))
      rw [List.zipIdx_cons, List.foldlM_cons, first]
      rw [List.length_append, List.append_assoc] at others
      refine others.trans ?_
      rw [← addNew_append, List.append_assoc]
      rfl

/-- A round whose pages are not too long brings the scan forward. -/
theorem takeAll_eq_ok {page : Nat} {scan : Scan} {answers : List (Option (List NodeId))}
    (within : Within page answers) (counts : answers.length = scan.active.length) :
    takeAll page scan answers = .ok (scan.after page answers) := by
  have taken := takeEach_eq_ok within [] counts scan.cursor scan.seen
  rw [takeAll_eq]
  exact congrArg (· >>= fun scan => Except.ok { scan with cursor := scan.cursor + page }) taken

/-- The error of a page that is too long. -/
def overfull (page : Nat) (entry : Option (List NodeId) × Nat) : Error :=
  .overfullPage entry.2 (entry.1.getD []).length page

/-- Pages are all taken when none is too long, and else the first one that is counts. -/
theorem takeEach_splits (page : Nat) (scan : Scan) (answers : List (Option (List NodeId))) :
    ((∀ entry ∈ answers.zipIdx, Within page [entry.1]) ∧
      ∃ next, answers.zipIdx.foldlM (takeAt page) scan = .ok next ∧ True) ∨
      ∃ (shard : Nat) (entry : Option (List NodeId) × Nat), answers.zipIdx[shard]? = some entry ∧
        ¬Within page [entry.1] ∧
        answers.zipIdx.foldlM (takeAt page) scan = .error (overfull page entry) ∧
        ∀ lower < shard, ∀ other, answers.zipIdx[lower]? = some other →
          Within page [other.1] := by
  refine foldlM_splits (takeAt page) (fun _ => True) (fun entry => Within page [entry.1])
    (overfull page) answers.zipIdx ?_ trivial
  rintro ⟨answer, shard⟩ - before -
  cases answer with
  | none => exact .inl ⟨by simp [Within], before, rfl, trivial⟩
  | some nodes =>
      by_cases long : page < nodes.length
      · refine .inr ⟨fun fits => absurd (fits nodes (by simp)) (Nat.not_le.mpr long), ?_⟩
        exact if_pos long
      · refine .inl ⟨?_, _, if_neg long, trivial⟩
        simpa [Within] using Nat.le_of_not_lt long

/-- A round brings the scan forward, or fails with the lowest shard whose page is too long. -/
theorem takeAll_splits (page : Nat) (scan : Scan) (answers : List (Option (List NodeId))) :
    (Within page answers ∧ ∃ next, takeAll page scan answers = .ok next) ∨
      ∃ (shard : Nat) (nodes : List NodeId), answers[shard]? = some (some nodes) ∧
        page < nodes.length ∧
        takeAll page scan answers = .error (.overfullPage shard nodes.length page) ∧
        ∀ lower < shard, ∀ others, answers[lower]? = some (some others) →
          others.length ≤ page := by
  have place (shard : Nat) (answer : Option (List NodeId)) (there : answers[shard]? = some answer) :
      answers.zipIdx[shard]? = some (answer, shard) := by
    rw [List.getElem?_zipIdx, there, Option.map_some, Nat.zero_add]
  rcases takeEach_splits page scan answers with
    ⟨all, next, run, -⟩ | ⟨shard, ⟨answer, index⟩, there, bad, run, before⟩
  · refine .inl ⟨?_, _, by rw [takeAll_eq, run]; rfl⟩
    intro nodes member
    obtain ⟨shard, here⟩ := List.getElem?_of_mem member
    exact all _ (List.mem_of_getElem? (place shard _ here)) nodes List.mem_cons_self
  · obtain ⟨answer', here, same⟩ := Option.map_eq_some_iff.mp (List.getElem?_zipIdx ▸ there)
    cases answer with
    | none => exact absurd (by simp [Within]) bad
    | some nodes =>
        cases same
        refine .inr ⟨shard, nodes, here, ?_, ?_, ?_⟩
        · exact Nat.lt_of_not_le fun fits => bad (by simpa [Within] using fits)
        · rw [takeAll_eq, run, overfull, Nat.zero_add]
          rfl
        · intro lower below others found
          exact before lower below _ (place lower _ found) others List.mem_cons_self

/-- A round keeps what taking a page keeps, and moves the cursor. -/
theorem takeAll_keeps {page : Nat} (keeps : Scan → Prop)
    (kept : ∀ shard nodes before after, keeps before → take page before shard nodes = .ok after →
      keeps after) {scan next : Scan} {answers : List (Option (List NodeId))}
    (initially : keeps scan) (run : takeAll page scan answers = .ok next) :
    ∃ last, keeps last ∧ next = { last with cursor := last.cursor + page } := by
  rw [takeAll_eq] at run
  obtain ⟨last, folded, same⟩ := except_bind_eq_ok.mp run
  cases same
  refine ⟨last, foldlM_keeps (fun _ scan => keeps scan) ?_ initially folded, rfl⟩
  rintro ⟨answer, shard⟩ - before after holds step
  cases answer with
  | none =>
      cases step
      exact holds
  | some nodes => exact kept shard nodes before after holds step

/-- What has been seen is still seen once after a round. -/
theorem nodup_of_takeAll {page : Nat} {scan next : Scan} {answers : List (Option (List NodeId))}
    (distinct : scan.seen.Nodup) (run : takeAll page scan answers = .ok next) :
    next.seen.Nodup := by
  obtain ⟨last, kept, rfl⟩ := takeAll_keeps (fun scan => scan.seen.Nodup) (by
    intro shard nodes before after holds step
    unfold take at step
    split at step
    · cases step
    · cases step
      exact nodup_addNew holds nodes) distinct run
  exact kept

/-- A round moves the cursor by a page. -/
theorem cursor_of_takeAll {page : Nat} {scan next : Scan} {answers : List (Option (List NodeId))}
    (run : takeAll page scan answers = .ok next) : next.cursor = scan.cursor + page := by
  obtain ⟨last, kept, rfl⟩ := takeAll_keeps (fun later => later.cursor = scan.cursor) (by
    intro shard nodes before after holds step
    unfold take at step
    split at step
    · cases step
    · cases step
      exact holds) rfl run
  exact congrArg (· + page) kept

/-- A round is about the same shards as the one before it. -/
theorem length_active_of_takeAll {page : Nat} {scan next : Scan}
    {answers : List (Option (List NodeId))} (run : takeAll page scan answers = .ok next) :
    next.active.length = scan.active.length := by
  obtain ⟨last, kept, rfl⟩ := takeAll_keeps
    (fun later => later.active.length = scan.active.length) (by
      intro shard nodes before after kept step
      unfold take at step
      split at step
      · cases step
      · cases step
        dsimp only
        split
        · rwa [List.length_set]
        · exact kept) rfl run
  exact kept

/-- A round asks for the pages at its cursor. -/
theorem eq_of_getElem?_requests {scan : Scan} {page shard : Nat} {request : Request}
    (there : (scan.requests page)[shard]? = some (some request)) :
    request = .hotNodes ⟨UInt64.ofNat scan.cursor, UInt64.ofNat page⟩ := by
  rw [requests, List.getElem?_map, Option.map_eq_some_iff] at there
  obtain ⟨active, _, there⟩ := there
  split at there
  · exact (Option.some.inj there).symm
  · cases there

/-! ## Rounds over lists that are served -/

section Served

variable (page : Nat) (lists : List (List NodeId))

/-- Where a scan of lists stands after a number of rounds. -/
def afterRounds (rounds : Nat) : Scan where
  active := lists.map fun list => decide (rounds * page ≤ list.length)
  cursor := rounds * page
  seen := addNew [] ((List.range rounds).flatMap fun round =>
    lists.flatMap fun list => (list.drop (round * page)).take page)

/-- What the shards that are not done answer in a round. -/
def pagesAt (round : Nat) : List (Option (List NodeId)) :=
  lists.map fun list =>
    if round * page ≤ list.length then some ((list.drop (round * page)).take page) else none

/-- As many rounds as pages begin within the longest list. -/
def roundsOf : List (List NodeId) → Nat
  | [] => 0
  | list :: lists => max (list.length / page + 1) (roundsOf lists)

variable {page lists}

theorem start_eq_afterRounds : start lists.length = afterRounds page lists 0 := by
  simp [start, afterRounds, addNew, List.map_const']

theorem getElem?_pagesAt {shard : Nat} {list : List NodeId} (there : lists[shard]? = some list)
    (round : Nat) : (pagesAt page lists round)[shard]? =
      some (if round * page ≤ list.length then some ((list.drop (round * page)).take page)
        else none) := by
  rw [pagesAt, List.getElem?_map, there]
  rfl

theorem within_pagesAt (round : Nat) : Within page (pagesAt page lists round) := by
  intro nodes member
  obtain ⟨list, -, same⟩ := List.mem_map.mp member
  split at same
  · cases same
    exact List.length_take_le _ _
  · cases same

/-- A round with the pages of the lists is one round more. -/
theorem after_pagesAt (round : Nat) :
    (afterRounds page lists round).after page (pagesAt page lists round) =
      afterRounds page lists (round + 1) := by
  have closes (list : List NodeId) :
      (decide (round * page ≤ list.length) &&
          !isLast page (if round * page ≤ list.length then
            some ((list.drop (round * page)).take page) else none)) =
        decide ((round + 1) * page ≤ list.length) := by
    rw [Nat.succ_mul]
    by_cases reached : round * page ≤ list.length
    · rw [if_pos reached, isLast, List.length_take, List.length_drop]
      simp only [reached, decide_true, Bool.true_and, ← decide_not, decide_eq_decide]
      omega
    · have beyond : ¬round * page + page ≤ list.length := by omega
      simp [reached, beyond]
  have pages : nodesOf (pagesAt page lists round) =
      lists.flatMap fun list => (list.drop (round * page)).take page := by
    rw [nodesOf, pagesAt, List.flatMap_map]
    apply List.flatMap_congr
    intro list _
    split
    · rfl
    · next beyond =>
      rw [List.drop_of_length_le (Nat.le_of_not_le beyond), List.take_nil]
      rfl
  unfold after
  rw [pages]
  unfold afterRounds pagesAt
  rw [List.zipWith_map, List.zipWith_self, List.range_succ, List.flatMap_append, addNew_append,
    Nat.succ_mul]
  simp only [closes]
  simp [Nat.succ_mul]

theorem takeAll_pagesAt (round : Nat) :
    takeAll page (afterRounds page lists round) (pagesAt page lists round) =
      .ok (afterRounds page lists (round + 1)) := by
  rw [takeAll_eq_ok (within_pagesAt round), after_pagesAt]
  rw [pagesAt, afterRounds, List.length_map, List.length_map]

/-- A scan is done when the cursor is beyond all lists. -/
theorem isDone_afterRounds {rounds : Nat} (positive : 0 < page) :
    (afterRounds page lists rounds).isDone = true ↔ roundsOf page lists ≤ rounds := by
  unfold isDone afterRounds
  induction lists with
  | nil => simp [roundsOf]
  | cons list lists ih =>
      have beyond : list.length / page + 1 ≤ rounds ↔ list.length < rounds * page := by
        rw [Nat.succ_le_iff, Nat.div_lt_iff_lt_mul positive]
      simp only [List.map_cons, List.all_cons, Bool.and_eq_true, roundsOf, Nat.max_le, beyond]
      simpa using fun _ => ih

theorem length_div_lt_roundsOf {list : List NodeId} (member : list ∈ lists) :
    list.length / page < roundsOf page lists := by
  induction lists with
  | nil => exact absurd member List.not_mem_nil
  | cons first lists ih =>
      rcases List.mem_cons.mp member with rfl | further
      · exact Nat.le_max_left _ _
      · exact Nat.lt_of_lt_of_le (ih further) (Nat.le_max_right _ _)

theorem roundsOf_le {bound : Nat} (short : ∀ list ∈ lists, list.length ≤ bound) :
    roundsOf page lists ≤ bound / page + 1 := by
  induction lists with
  | nil => exact Nat.zero_le _
  | cons first lists ih =>
      refine Nat.max_le.mpr ⟨?_, ih fun list member => short list (List.mem_cons_of_mem _ member)⟩
      exact Nat.succ_le_succ (Nat.div_le_div_right (short first List.mem_cons_self))

/-- After all rounds the nodes seen are those of all lists. -/
theorem mem_seen_afterRounds (positive : 0 < page) {node : NodeId} :
    node ∈ (afterRounds page lists (roundsOf page lists)).seen ↔ ∃ list ∈ lists, node ∈ list := by
  unfold afterRounds
  rw [mem_addNew]
  constructor
  · rintro (none | found)
    · exact absurd none List.not_mem_nil
    · obtain ⟨round, -, inner⟩ := List.mem_flatMap.mp found
      obtain ⟨list, member, there⟩ := List.mem_flatMap.mp inner
      exact ⟨list, member, List.mem_of_mem_drop (List.mem_of_mem_take there)⟩
  · rintro ⟨list, member, there⟩
    obtain ⟨index, inside, rfl⟩ := List.getElem_of_mem there
    refine .inr (List.mem_flatMap.mpr ⟨index / page, List.mem_range.mpr ?_, ?_⟩)
    · exact Nat.lt_of_le_of_lt (Nat.div_le_div_right (Nat.le_of_lt inside))
        (length_div_lt_roundsOf member)
    · have place : ((list.drop (index / page * page)).take page)[index % page]? =
          some list[index] := by
        rw [List.getElem?_take_of_lt (Nat.mod_lt index positive), List.getElem?_drop,
          Nat.div_add_mod', List.getElem?_eq_getElem inside]
      exact List.mem_flatMap.mpr ⟨list, member, List.mem_of_getElem? place⟩

/-! ### Calls -/

variable (page lists) in
/-- The calls of the first rounds. -/
def callsIn (rounds : Nat) : List (Nat × Request) :=
  (List.range rounds).flatMap fun round => callsOf ((afterRounds page lists round).requests page)

/-- What a shard is asked in a round. -/
theorem getElem?_requests {shard : Nat} {list : List NodeId} (there : lists[shard]? = some list)
    (round : Nat) :
    ((afterRounds page lists round).requests page)[shard]? =
      some (if round * page ≤ list.length then
        some (.hotNodes ⟨UInt64.ofNat (round * page), UInt64.ofNat page⟩) else none) := by
  simp [requests, afterRounds, there]

theorem length_requests (round : Nat) :
    ((afterRounds page lists round).requests page).length = lists.length := by
  simp [requests, afterRounds]

/-- What is done below a bound is done as often as the bound says. -/
theorem flatMap_range_below {β : Type} {bound rounds : Nat} (reach : bound ≤ rounds)
    (value : Nat → β) :
    (List.range rounds).flatMap (fun round => if round < bound then [value round] else []) =
      (List.range bound).map value := by
  obtain ⟨further, rfl⟩ := Nat.exists_eq_add_of_le reach
  induction further with
  | zero =>
      rw [List.map_eq_flatMap]
      apply List.flatMap_congr
      intro round below
      exact if_pos (List.mem_range.mp below)
  | succ further ih =>
      rw [← Nat.add_assoc, List.range_succ, List.flatMap_append, ih (Nat.le_add_right _ _)]
      simp

/-- A shard is asked for the pages that begin within its list. -/
theorem filter_callsIn (positive : 0 < page) {shard : Nat} {list : List NodeId}
    (there : lists[shard]? = some list) :
    (callsIn page lists (roundsOf page lists)).filter (fun call => call.1 == shard) =
      (List.range (list.length / page + 1)).map fun round =>
        (shard, .hotNodes ⟨UInt64.ofNat (round * page), UInt64.ofNat page⟩) := by
  have each (round : Nat) :
      (callsOf ((afterRounds page lists round).requests page)).filter
          (fun call => call.1 == shard) =
        if round < list.length / page + 1 then
          [(shard, .hotNodes ⟨UInt64.ofNat (round * page), UInt64.ofNat page⟩)] else [] := by
    have reached : round < list.length / page + 1 ↔ round * page ≤ list.length := by
      rw [Nat.lt_succ_iff, Nat.le_div_iff_mul_le positive]
    rw [filter_callsOf (getElem?_requests there round)]
    simp only [reached]
    split
    · rfl
    · rfl
  rw [callsIn, List.filter_flatMap]
  simp only [each]
  exact flatMap_range_below (length_div_lt_roundsOf (List.mem_of_getElem? there)) _

/-- Every call is about a page that begins within the list of its shard. -/
theorem exists_of_mem_callsIn {rounds shard : Nat} {request : Request}
    (member : (shard, request) ∈ callsIn page lists rounds) :
    ∃ list round, lists[shard]? = some list ∧ round * page ≤ list.length ∧
      request = .hotNodes ⟨UInt64.ofNat (round * page), UInt64.ofNat page⟩ := by
  obtain ⟨round, -, inner⟩ := List.mem_flatMap.mp member
  have asked := mem_callsOf.mp inner
  obtain ⟨inside, -⟩ := List.getElem?_eq_some_iff.mp asked
  rw [length_requests] at inside
  have there := List.getElem?_eq_getElem inside
  rw [getElem?_requests there] at asked
  split at asked
  · next reached =>
    cases asked
    exact ⟨_, round, there, reached, rfl⟩
  · cases asked

end Served

/-- While the cursor is a word, a round is left. -/
theorem left_of_cursor {page rounds : Nat} (positive : 0 < page)
    (word : rounds * page < UInt64.size) :
    roundLimit page - rounds = roundLimit page - (rounds + 1) + 1 := by
  have reached : rounds ≤ (UInt64.size - 1) / page := by
    rw [Nat.le_div_iff_mul_le positive]
    exact Nat.le_sub_one_of_lt word
  unfold roundLimit
  omega

end Scan

namespace Link

variable {σ : Type} {page limit : Nat} {scan next : Scan} {answers : List (Option (List NodeId))}

/-! ## Rounds -/

theorem scanRounds_of_isDone (link : Link σ) (done : scan.isDone = true) (world : World σ) :
    runFrom (link.scanRounds page limit scan) world = (.ok scan, world) := by
  cases limit with
  | zero => rfl
  | succ limit =>
      rw [scanRounds, if_pos done]
      rfl

section Round

variable {link : Link σ} {world between : World σ} (unfinished : scan.isDone = false)
  (heard : runFrom (link.fanOut Reply.hotNodes? (scan.requests page)) world =
    (.ok answers, between))
include unfinished heard

/-- A round whose pages are taken leads to the next one. -/
theorem scanRounds_of_round (taken : scan.takeAll page answers = .ok next) :
    runFrom (link.scanRounds page (limit + 1) scan) world =
      runFrom (link.scanRounds page limit next) between := by
  rw [scanRounds, if_neg (Bool.eq_false_iff.mp unfinished), runFrom_bind_of_ok heard, taken]
  rfl

/-- A round whose pages are not taken ends the scan. -/
theorem scanRounds_of_refused {error : Error} (taken : scan.takeAll page answers = .error error) :
    runFrom (link.scanRounds page (limit + 1) scan) world = (.error error, between) := by
  rw [scanRounds, if_neg (Bool.eq_false_iff.mp unfinished), runFrom_bind_of_ok heard, taken]
  rfl

end Round

/-! ## Shards that serve their pages -/

/-- Shards serve the hot nodes of partitions: whatever state it finds, a shard answers with the page
that its partition has, when there is one. -/
structure ServesPages (link : Link σ) (partitions : List Partition) : Prop where
  shards : link.transport.shards = partitions.length
  pages : ∀ (shard : Nat) partition, partitions[shard]? = some partition →
    ∀ (query : PageQuery) nodes,
      partition.hotPage query.cursor.toNat query.count.toNat = .ok nodes →
        link.Answers Reply.hotNodes? shard (.hotNodes query) nodes

/-- Partitions in the same process serve their pages. -/
theorem servesPages_toPartitions {partitions : List Partition}
    (short : ∀ partition ∈ partitions, partition.hotNodes.length < UInt64.size)
    (deadline : Option Nat) : (toPartitions partitions deadline).ServesPages partitions where
  shards := List.length_map _
  pages := by
    intro shard partition there query nodes served
    have few : nodes.length < UInt64.size := by
      unfold Partition.hotPage at served
      split at served
      · cases served
      · cases served
        rw [List.length_take, List.length_drop]
        have fits := short partition (List.mem_of_getElem? there)
        omega
    have answered (stream : WordStream) :
        (runFrom (partition.answer (.hotNodes query)) stream).1 = .ok (.hotNodes nodes) := by
      rw [Partition.answer, served]
      rfl
    have sent := Wire.isExact_request.reads (.hotNodes query) (by simp [Request.lengths])
    have received := Wire.isExact_reply.reads (.hotNodes nodes) (by simp [Reply.lengths, few])
    exact answers_inProcess (getElem?_services there) deadline sent answered received rfl

section Served

variable {link : Link σ} {partitions : List Partition} (serves : link.ServesPages partitions)
  (small : page < UInt64.size)
  (short : ∀ partition ∈ partitions, partition.hotNodes.length < UInt64.size)

/-- The lists that partitions serve. -/
abbrev hotLists (partitions : List Partition) : List (List NodeId) :=
  partitions.map Partition.hotNodes

include serves small short

/-- In every round the shards that are not done answer with their pages. -/
theorem fanOut_served (round : Nat) (world : World σ) :
    (runFrom (link.fanOut Reply.hotNodes?
        ((Scan.afterRounds page (hotLists partitions) round).requests page)) world).1 =
      .ok (Scan.pagesAt page (hotLists partitions) round) := by
  refine fanOut_eq_ok ?_ ?_ ?_ ?_ world
  · rw [Scan.length_requests, List.length_map, serves.shards]
  · rw [Scan.length_requests, Scan.pagesAt, List.length_map]
  · intro shard request asked
    obtain ⟨inside, -⟩ := List.getElem?_eq_some_iff.mp asked
    rw [Scan.length_requests, List.length_map] at inside
    have there := List.getElem?_eq_getElem inside
    have list : (hotLists partitions)[shard]? = some partitions[shard].hotNodes := by
      rw [List.getElem?_map, there]
      rfl
    rw [Scan.getElem?_requests list] at asked
    split at asked
    · next reached =>
      cases asked
      refine ⟨_, (Scan.getElem?_pagesAt list round).trans (congrArg _ (if_pos reached)), ?_⟩
      apply serves.pages shard _ there
      have fits := short _ (List.mem_of_getElem? there)
      have cursor : (UInt64.ofNat (round * page)).toNat = round * page :=
        UInt64.toNat_ofNat_of_lt (Nat.lt_of_le_of_lt reached fits)
      have count : (UInt64.ofNat page).toNat = page := UInt64.toNat_ofNat_of_lt small
      dsimp only
      rw [cursor, count]
      exact if_neg (Nat.not_lt.mpr reached)
    · cases asked
  · intro shard silent
    obtain ⟨inside, -⟩ := List.getElem?_eq_some_iff.mp silent
    rw [Scan.length_requests] at inside
    have list := List.getElem?_eq_getElem inside
    rw [Scan.getElem?_requests list] at silent
    split at silent
    · cases silent
    · next beyond =>
      rw [Scan.getElem?_pagesAt list, if_neg beyond]

/-- The rounds that are left bring the scan to its end, and make their calls. -/
theorem scanRounds_served (positive : 0 < page) {left rounds limit : Nat}
    (total : rounds + left = Scan.roundsOf page (hotLists partitions)) (enough : left ≤ limit)
    (world : World σ) (calls : List (Nat × Request)) :
    ∃ last later, last = Scan.afterRounds page (hotLists partitions)
        (Scan.roundsOf page (hotLists partitions)) ∧
      runFrom (link.scanRounds page limit (Scan.afterRounds page (hotLists partitions) rounds))
        world = (.ok last, later) ∧
      runFrom (link.recording.scanRounds page limit
          (Scan.afterRounds page (hotLists partitions) rounds)) (world.recorded calls) =
        (.ok last, later.recorded
          (((List.range' rounds left).flatMap fun round =>
            callsOf ((Scan.afterRounds page (hotLists partitions) round).requests page)).reverse
              ++ calls)) := by
  induction left generalizing rounds limit world calls with
  | zero =>
      have done : (Scan.afterRounds page (hotLists partitions) rounds).isDone = true :=
        (Scan.isDone_afterRounds positive).mpr (Nat.le_of_eq total.symm)
      exact ⟨_, world, congrArg _ total, link.scanRounds_of_isDone done world,
        link.recording.scanRounds_of_isDone done (world.recorded calls)⟩
  | succ left ih =>
      obtain ⟨limit, rfl⟩ := Nat.exists_eq_add_of_le' (Nat.le_trans (Nat.le_add_left 1 left) enough)
      have unfinished : (Scan.afterRounds page (hotLists partitions) rounds).isDone = false := by
        rw [Bool.eq_false_iff, Ne, Scan.isDone_afterRounds positive]
        omega
      have counts : ((Scan.afterRounds page (hotLists partitions) rounds).requests page).length =
          link.transport.shards := by
        rw [Scan.length_requests, List.length_map, serves.shards]
      have result := fanOut_served serves small short rounds world
      have recorded := link.fanOut_recording Reply.hotNodes? counts world calls
      rcases heard : runFrom (link.fanOut Reply.hotNodes?
        ((Scan.afterRounds page (hotLists partitions) rounds).requests page)) world
        with ⟨_, between⟩
      rw [heard] at result recorded
      cases result
      have total' : rounds + 1 + left = Scan.roundsOf page (hotLists partitions) := by omega
      obtain ⟨last, later, equal, run, run'⟩ := ih total' (Nat.le_of_succ_le_succ enough)
        between ((callsOf ((Scan.afterRounds page (hotLists partitions) rounds).requests
          page)).reverse ++ calls)
      refine ⟨last, later, equal, ?_, ?_⟩
      · rw [scanRounds_of_round unfinished heard (Scan.takeAll_pagesAt rounds), run]
      · rw [scanRounds_of_round unfinished recorded (Scan.takeAll_pagesAt rounds), run',
          List.range'_succ, List.flatMap_cons, List.reverse_append, List.append_assoc]

end Served

/-- A scan of the hot nodes of partitions: it gives these nodes, each once, and makes the given
calls, of which each shard gets one for every page that begins within its list. -/
structure ScansAll (link : Link σ) (partitions : List Partition) (page : Nat) (world : World σ)
    (nodes : List NodeId) (calls : List (Nat × Request)) : Prop where
  result : ∃ later, runFrom (link.scanHotNodes page) world = (.ok nodes, later) ∧
    runFrom (link.recording.scanHotNodes page) (world.recorded []) =
      (.ok nodes, later.recorded calls.reverse)
  nodup : nodes.Nodup
  complete : ∀ node, node ∈ nodes ↔ ∃ partition ∈ partitions, node ∈ partition.hotNodes
  pages : ∀ (shard : Nat) partition, partitions[shard]? = some partition →
    calls.filter (fun call => call.1 == shard) =
      (List.range (partition.hotNodes.length / page + 1)).map fun round =>
        (shard, .hotNodes ⟨UInt64.ofNat (round * page), UInt64.ofNat page⟩)
  inside : ∀ shard request, (shard, request) ∈ calls → ∃ partition query found,
    partitions[shard]? = some partition ∧ request = .hotNodes query ∧
      partition.hotPage query.cursor.toNat query.count.toNat = .ok found

theorem nodup_seen_afterRounds (lists : List (List NodeId)) (rounds : Nat) :
    (Scan.afterRounds page lists rounds).seen.Nodup :=
  Scan.nodup_addNew List.nodup_nil _

/-- Shards that serve their pages are scanned. -/
theorem exists_scansAll {link : Link σ} {partitions : List Partition}
    (serves : link.ServesPages partitions) (positive : 0 < page) (small : page < UInt64.size)
    (short : ∀ partition ∈ partitions, partition.hotNodes.length < UInt64.size)
    (world : World σ) : ∃ nodes calls, link.ScansAll partitions page world nodes calls := by
  have enough : Scan.roundsOf page (hotLists partitions) ≤ Scan.roundLimit page := by
    apply Scan.roundsOf_le
    intro list member
    obtain ⟨partition, there, rfl⟩ := List.mem_map.mp member
    exact Nat.le_sub_one_of_lt (short partition there)
  obtain ⟨last, later, rfl, run, run'⟩ := scanRounds_served serves small short positive
    (Nat.zero_add _) enough world []
  have start : Scan.start link.transport.shards =
      Scan.afterRounds page (hotLists partitions) 0 := by
    rw [← Scan.start_eq_afterRounds, List.length_map, serves.shards]
  have start' : Scan.start link.recording.transport.shards =
      Scan.afterRounds page (hotLists partitions) 0 := start
  rw [← start] at run
  rw [← start', List.append_nil, ← List.range_eq_range'] at run'
  refine ⟨_, Scan.callsIn page (hotLists partitions) (Scan.roundsOf page (hotLists partitions)),
    ⟨later, runFrom_bind_of_ok run, runFrom_bind_of_ok run'⟩, nodup_seen_afterRounds _ _,
    ?_, ?_, ?_⟩
  · intro node
    rw [Scan.mem_seen_afterRounds positive]
    simp
  · intro shard partition there
    apply Scan.filter_callsIn positive
    rw [List.getElem?_map, there]
    rfl
  · intro shard request called
    obtain ⟨list, round, there, reached, rfl⟩ := Scan.exists_of_mem_callsIn called
    obtain ⟨partition, there', rfl⟩ := Option.map_eq_some_iff.mp (List.getElem?_map ▸ there)
    have fits := short _ (List.mem_of_getElem? there')
    have cursor : (UInt64.ofNat (round * page)).toNat = round * page :=
      UInt64.toNat_ofNat_of_lt (Nat.lt_of_le_of_lt reached fits)
    have served : partition.hotPage (round * page) (UInt64.ofNat page).toNat =
        .ok ((partition.hotNodes.drop (round * page)).take (UInt64.ofNat page).toNat) :=
      if_neg (Nat.not_lt.mpr reached)
    rw [← cursor] at served
    exact ⟨partition, _, _, there', rfl, served⟩

/-! ## Any replies -/

/-- The rounds that a scan has made when every shard was heard: where it stands, and in which
world. A round is made while some shard is not done and the cursor is a word. -/
inductive ScanHears (link : Link σ) (page : Nat) (world : World σ) : Nat → Scan → World σ → Prop
  | start : ScanHears link page world 0 (Scan.start link.transport.shards) world
  | round {rounds scan before answers next later}
      (reached : ScanHears link page world rounds scan before)
      (unfinished : scan.isDone = false) (word : scan.cursor < UInt64.size)
      (heard : runFrom (link.fanOut Reply.hotNodes? (scan.requests page)) before =
        (.ok answers, later))
      (taken : scan.takeAll page answers = .ok next) :
      ScanHears link page world (rounds + 1) next later

/-- A scan that is made in rounds lists no node twice. -/
theorem nodup_of_scanRounds {link : Link σ} {world later : World σ} (distinct : scan.seen.Nodup)
    (run : runFrom (link.scanRounds page limit scan) world = (.ok next, later)) :
    next.seen.Nodup := by
  induction limit generalizing scan world with
  | zero =>
      cases run
      exact distinct
  | succ limit ih =>
      rw [scanRounds] at run
      split at run
      · cases run
        exact distinct
      · obtain ⟨answers, between, -, rest⟩ := runFrom_bind_eq_ok run
        obtain ⟨middle, after, taken, rest'⟩ := runFrom_bind_eq_ok rest
        exact ih (Scan.nodup_of_takeAll distinct (Prod.mk.inj taken).1) rest'

/-- The rounds that a scan has made leave it the others. -/
theorem ScanHears.run {link : Link σ} {world before : World σ} {rounds : Nat}
    (positive : 0 < page) (hears : ScanHears link page world rounds scan before) :
    scan.cursor = rounds * page ∧
      runFrom (link.scanRounds page (Scan.roundLimit page) (Scan.start link.transport.shards))
          world =
        runFrom (link.scanRounds page (Scan.roundLimit page - rounds) scan) before := by
  induction hears with
  | start => exact ⟨(Nat.zero_mul page).symm, rfl⟩
  | @round rounds scan before answers next later _ unfinished word heard taken ih =>
      obtain ⟨cursor, run⟩ := ih
      refine ⟨?_, ?_⟩
      · rw [Scan.cursor_of_takeAll taken, cursor, Nat.succ_mul]
      · rw [run, Scan.left_of_cursor positive (cursor ▸ word),
          scanRounds_of_round unfinished heard taken]

/-- A page that is too long, in a round that is made, ends the scan with the error of the lowest
shard that has sent one. -/
theorem ScanHears.refuses {link : Link σ} {world before later : World σ} {rounds shard : Nat}
    {nodes : List NodeId} (positive : 0 < page)
    (hears : ScanHears link page world rounds scan before) (unfinished : scan.isDone = false)
    (word : scan.cursor < UInt64.size)
    (heard : runFrom (link.fanOut Reply.hotNodes? (scan.requests page)) before =
      (.ok answers, later))
    (there : answers[shard]? = some (some nodes)) (long : page < nodes.length) :
    ∃ lowest found, lowest ≤ shard ∧ answers[lowest]? = some (some found) ∧
      page < found.length ∧
      runFrom (link.scanHotNodes page) world =
        (.error (.overfullPage lowest found.length page), later) := by
  obtain ⟨cursor, run⟩ := hears.run positive
  rcases Scan.takeAll_splits page scan answers with
    ⟨within, -⟩ | ⟨lowest, found, here, long', refused, below⟩
  · exact absurd (within nodes (List.mem_of_getElem? there)) (Nat.not_le.mpr long)
  · refine ⟨lowest, found, ?_, here, long', ?_⟩
    · apply Nat.le_of_not_lt
      intro lower
      exact absurd (below shard lower nodes there) (Nat.not_le.mpr long)
    · rw [Scan.left_of_cursor positive (cursor ▸ word),
        scanRounds_of_refused unfinished heard refused] at run
      exact runFrom_bind_of_error run

/-! ## Every scan -/

/-- **Every hot node is found, once, in as few rounds as the pages need; and whatever else the
shards answer, no node is listed twice and a page that is too long is an error.** -/
theorem scanHotNodes_complete (positive : 0 < page) (small : page < UInt64.size) :
    (∀ (link : Link σ) (partitions : List Partition), link.ServesPages partitions →
      (∀ partition ∈ partitions, partition.hotNodes.length < UInt64.size) →
        ∀ world, ∃ nodes calls, link.ScansAll partitions page world nodes calls) ∧
    ∀ (link : Link σ) (world : World σ),
      (∀ nodes later, runFrom (link.scanHotNodes page) world = (.ok nodes, later) →
        nodes.Nodup) ∧
      ∀ rounds scan before answers later, ScanHears link page world rounds scan before →
        scan.isDone = false → scan.cursor < UInt64.size →
          runFrom (link.fanOut Reply.hotNodes? (scan.requests page)) before =
            (.ok answers, later) →
          ∀ (shard : Nat) nodes, answers[shard]? = some (some nodes) → page < nodes.length →
            ∃ error, runFrom (link.scanHotNodes page) world = (.error error, later) ∧
              error.kind = .rpc := by
  refine ⟨fun link partitions serves short world =>
    exists_scansAll serves positive small short world, fun link world => ⟨?_, ?_⟩⟩
  · intro nodes later run
    obtain ⟨scan, between, rounds, same⟩ := runFrom_bind_eq_ok run
    cases same
    exact nodup_of_scanRounds List.nodup_nil rounds
  · intro rounds scan before answers later hears unfinished word heard shard nodes there long
    obtain ⟨lowest, found, -, -, -, refused⟩ :=
      hears.refuses positive unfinished word heard there long
    exact ⟨_, refused, rfl⟩

/-- Three partitions whose hot nodes overlap. -/
def overlapping : List Partition :=
  [{ evenPartition with hotNodes := [2, 4] }, { evenPartition with hotNodes := [] },
    { oddPartition with hotNodes := [4, 1, 2, 5, 3] }]

/-- A shard that answers every request with three hot nodes. -/
def crowding : Link Unit where
  transport := { shards := 1, call := fun _ _ => return .now (.ok (.hotNodes [1, 2, 3])) }
  deadline := none

theorem scanHotNodes_complete_overlapping :
    ((toPartitions overlapping none).ServesPages overlapping ∧
      (∀ partition ∈ overlapping, partition.hotNodes.length < UInt64.size) ∧
      ∃ nodes calls, (toPartitions overlapping none).ScansAll overlapping 2
        ⟨.cycle #[], .cycle #[]⟩ nodes calls) ∧
    ∃ error, runFrom (crowding.scanHotNodes 2) ⟨(), .cycle #[]⟩ =
      (.error error, ⟨(), .cycle #[]⟩) ∧ error.kind = .rpc := by
  have short : ∀ partition ∈ overlapping, partition.hotNodes.length < UInt64.size := by
    simp [overlapping, UInt64.size]
  have serves := servesPages_toPartitions short none
  refine ⟨⟨serves, short, ?_⟩, ?_⟩
  · exact (scanHotNodes_complete (by decide) (by decide)).1 _ _ serves short _
  · exact ((scanHotNodes_complete (by decide) (by decide)).2 crowding ⟨(), .cycle #[]⟩).2 0 _ _ _ _
      .start rfl (by decide) rfl 0 [1, 2, 3] rfl (by decide)

end Link

end ShardedGraph
