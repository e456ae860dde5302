import OmniSpacetimeDb.Proofs.NodePoll

/-! A node that is never leader. Whatever its polling schedule, its store is a
function of how far it has read; but it never reads the entry at position 0. -/

namespace OmniSpacetimeDb.Proofs.Follower
open Foundations Datastore Durability Cluster Store StoreRefinement StoreReplay
  LogIteration NodePoll RowCodec

def observed : Poll → OmniPaxos
  | .updateLeader omnipaxos | .applyReplicatedTxns omnipaxos => omnipaxos

def seen (polls : List Poll) : List Nat :=
  polls.filterMap fun poll => match poll with
    | .updateLeader _ => none
    | .applyReplicatedTxns omnipaxos => some omnipaxos.decidedIdx

/-- The node is not the leader at any poll, and OmniPaxos decides more and more of one log. -/
structure Follows (nodeId : NodeId) (log : List DatabaseLogEntry) (polls : List Poll) : Prop where
  follower : ∀ poll ∈ polls, (observed poll).currentLeader ≠ some nodeId
  decides : ∀ poll ∈ polls, (observed poll).Decides (log.take (observed poll).decidedIdx)
  growing : (seen polls).Pairwise (· ≤ ·)

/-- The position the node reads next: an index that was never set counts as 0. -/
def resume (core : Core) : Nat := core.2.getD 0 + 1

def reach (start : Nat) (polls : List Poll) : Nat := (seen polls).foldl max start

theorem le_reach (start : Nat) (polls : List Poll) : start ≤ reach start polls := by
  unfold reach
  induction seen polls generalizing start with
  | nil => exact Nat.le_refl start
  | cons decided rest ih => exact Nat.le_trans (Nat.le_max_left start decided) (ih (max start decided))

/-- When the decided index grows only its last value counts. -/
theorem reach_eq {start : Nat} {polls : List Poll} (growing : (seen polls).Pairwise (· ≤ ·)) :
    reach start polls = (seen polls).getLast?.elim start (max start) := by
  unfold reach
  generalize seen polls = decided at growing
  induction decided generalizing start with
  | nil => rfl
  | cons first rest ih =>
    obtain ⟨least, growing⟩ := List.pairwise_cons.mp growing
    rw [List.foldl_cons, ih growing, List.getLast?_cons]
    cases last : rest.getLast? with
    | none => rfl
    | some final =>
      have below := least final (List.mem_of_getLast? last)
      simp only [Option.elim_some, Option.getD_some]
      omega

private theorem split_at {log : List DatabaseLogEntry} {start decided far : Nat}
    (within : decided ≤ log.length) (farther : max start decided ≤ far) :
    (log.take far).drop start = (log.take decided).drop start ++ (log.take far).drop
      (max start decided) := by
  have parts : log.take far = log.take decided ++ (log.take far).drop decided := by
    have inner : log.take decided = (log.take far).take decided := by
      rw [List.take_take, Nat.min_eq_left (by omega)]
    rw [inner, List.take_append_drop]
  conv => lhs; rw [parts]
  rw [List.drop_append, List.length_take, Nat.min_eq_left within, List.drop_drop]
  congr 2
  omega

theorem Follows.seen_le {nodeId : NodeId} {log : List DatabaseLogEntry} {polls : List Poll}
    (follows : Follows nodeId log polls) {decided : Nat} (member : decided ∈ seen polls) :
    decided ≤ log.length := by
  obtain ⟨poll, polled, shows⟩ := List.mem_filterMap.mp member
  have length := (follows.decides poll polled).length
  cases poll with
  | updateLeader omnipaxos => cases shows
  | applyReplicatedTxns omnipaxos =>
    cases shows
    rw [List.length_take] at length
    simp only [observed] at length
    omega

theorem Follows.reach_last {nodeId : NodeId} {log : List DatabaseLogEntry} {polls : List Poll}
    {count : Nat} (follows : Follows nodeId log polls)
    (further : ∀ decided ∈ seen polls, count ≤ decided) (inside : count ≤ log.length) :
    reach count polls = (seen polls).getLast?.getD count ∧ reach count polls ≤ log.length := by
  rw [reach_eq follows.growing]
  cases last : (seen polls).getLast? with
  | none => exact ⟨rfl, inside⟩
  | some decided =>
    have member := List.mem_of_getLast? last
    rw [Option.elim_some, Nat.max_eq_right (further decided member)]
    exact ⟨rfl, follows.seen_le member⟩

private theorem seen_of_earlier {polls earlier : List Poll} {omnipaxos : OmniPaxos}
    (before : earlier ++ [.applyReplicatedTxns omnipaxos] <+: polls) :
    seen earlier ++ [omnipaxos.decidedIdx] <+: seen polls := by
  obtain ⟨rest, rfl⟩ := before
  exact ⟨seen rest, by simp [seen]⟩

theorem Follows.earlier {nodeId : NodeId} {log : List DatabaseLogEntry} {polls earlier : List Poll}
    (follows : Follows nodeId log polls) (before : earlier <+: polls) : Follows nodeId log earlier := by
  refine ⟨fun poll member => follows.follower poll (before.subset member),
    fun poll member => follows.decides poll (before.subset member), ?_⟩
  exact follows.growing.sublist (before.sublist.filterMap _)

/-- Polls of a replica that shows a leader and a decided index of this log. -/
def applies (log : List DatabaseLogEntry) (shown : List (Option NodeId × Nat)) : List Poll :=
  shown.map fun (leader, decidedIdx) => .applyReplicatedTxns (.ofLog leader log decidedIdx)

theorem follows_applies {nodeId : NodeId} {log : List DatabaseLogEntry}
    {shown : List (Option NodeId × Nat)} (follower : ∀ view ∈ shown, view.1 ≠ some nodeId)
    (within : ∀ view ∈ shown, view.2 ≤ log.length)
    (growing : shown.Pairwise fun view later => view.2 ≤ later.2) :
    Follows nodeId log (applies log shown) := by
  refine ⟨?_, ?_, ?_⟩
  · intro poll member
    obtain ⟨view, inside, rfl⟩ := List.mem_map.mp member
    exact follower view inside
  · intro poll member
    obtain ⟨view, inside, rfl⟩ := List.mem_map.mp member
    exact ofLog_decides view.1 (within view inside)
  · have same : seen (applies log shown) = shown.map Prod.snd := by
      rw [seen, applies, List.filterMap_map]
      change shown.filterMap (some ∘ Prod.snd) = _
      rw [List.filterMap_eq_map]
    rw [same]
    exact List.pairwise_map.mpr growing

private theorem new_follower (nodeId : NodeId) : (Node.new nodeId).currentLeader ≠ some nodeId := by
  intro recorded
  cases recorded

section
variable [BuildProfile] {log : List DatabaseLogEntry}

private theorem resume_after {before after : Core} {replays : List Replay} {decided : Nat}
    (positioned : Positioned log) (within : decided ≤ log.length)
    (applied : applyEntries ((log.take decided).drop (resume before)) before = some (after, replays)) :
    resume after = max (resume before) decided := by
  have index := applyEntries_index applied
  have length : (log.take decided).length = decided := by
    rw [List.length_take, Nat.min_eq_left within]
  rw [List.getLast?_drop, length] at index
  by_cases nothing : decided ≤ resume before
  · rw [if_pos nothing] at index
    rw [resume, index, Nat.max_eq_left nothing]
    rfl
  · have last := (positioned.take decided).last
    rw [length] at last
    rw [if_neg nothing, last] at index
    obtain ⟨previous, rfl⟩ : ∃ previous, decided = previous + 1 := ⟨decided - 1, by omega⟩
    rw [resume, index, Nat.max_eq_right (by omega)]
    rfl

def outcome (result : Panics (Node × List Replay)) : Panics (Core × List Replay) :=
  result.map fun (node, replays) => (core node, replays)

private theorem polls_cons (node : Node) (poll : Poll) (rest : List Poll) :
    outcome (node.polls (poll :: rest)) =
    (node.poll poll).bind fun (node, replays) => (outcome (node.polls rest)).map fun (core, more) =>
      (core, replays ++ more) := by
  simp only [Node.polls, outcome]
  cases node.poll poll with
  | none => rfl
  | some step =>
    simp only [Option.bind_eq_bind, Option.bind_some]
    cases step.1.polls rest <;> rfl

/-- The polls of a follower read the log from where it is up to the highest
decided index they see, however the log is cut into polls. -/
theorem polls_eq (node : Node) {polls : List Poll} (positioned : Positioned log)
    (recorded : node.currentLeader ≠ some node.nodeId)
    (follower : ∀ poll ∈ polls, (observed poll).currentLeader ≠ some node.nodeId)
    (decides : ∀ poll ∈ polls, (observed poll).Decides (log.take (observed poll).decidedIdx)) :
    outcome (node.polls polls) =
      applyEntries ((log.take (reach (resume (core node)) polls)).drop (resume (core node)))
        (core node) := by
  induction polls generalizing node with
  | nil =>
    have nothing : (log.take (resume (core node))).drop (resume (core node)) = [] :=
      List.drop_eq_nil_of_le (List.length_take_le _ _)
    change some _ = applyEntries ((log.take (resume (core node))).drop (resume (core node))) (core node)
    rw [nothing]
    rfl
  | cons poll rest ih =>
    have followers : ∀ poll ∈ rest, (observed poll).currentLeader ≠ some node.nodeId :=
      fun other member => follower other (List.mem_cons_of_mem _ member)
    have contracts : ∀ poll ∈ rest, (observed poll).Decides (log.take (observed poll).decidedIdx) :=
      fun other member => decides other (List.mem_cons_of_mem _ member)
    rw [polls_cons]
    cases poll with
    | updateLeader omnipaxos =>
      obtain ⟨leader, notSelf, updated⟩ := update_follower (follower _ List.mem_cons_self) recorded
      have later := ih { node with currentLeader := leader } notSelf followers contracts
      have polled : node.poll (.updateLeader omnipaxos) =
        some ({ node with currentLeader := leader }, []) := updated
      simp only [polled, Option.bind_some, later]
      exact Option.map_id'
    | applyReplicatedTxns omnipaxos =>
      have contract : omnipaxos.Decides (log.take omnipaxos.decidedIdx) := decides _ List.mem_cons_self
      have within : omnipaxos.decidedIdx ≤ log.length := by
        have length := contract.length
        rw [List.length_take] at length
        omega
      obtain ⟨promoted, applied⟩ :=
        apply_follower contract (positioned.take _) (follower _ List.mem_cons_self)
      have polled : node.poll (.applyReplicatedTxns omnipaxos) = _ := applied
      have farther : max (resume (core node)) omnipaxos.decidedIdx ≤ reach (resume (core node))
          (.applyReplicatedTxns omnipaxos :: rest) :=
        le_reach (max (resume (core node)) omnipaxos.decidedIdx) rest
      rw [polled, split_at within farther, applyEntries_append]
      change (((applyEntries ((log.take omnipaxos.decidedIdx).drop (resume (core node)))
        (core node)).map _).bind _) = _
      cases entries :
        applyEntries ((log.take omnipaxos.decidedIdx).drop (resume (core node))) (core node) with
      | none => rfl
      | some step =>
        obtain ⟨after, replays⟩ := step
        have later :=
          ih { withCore node after with gotPromotedLeader := promoted } recorded followers contracts
        have resumed : resume after = max (resume (core node)) omnipaxos.decidedIdx :=
          resume_after positioned within entries
        have same : core { withCore node after with gotPromotedLeader := promoted } = after := rfl
        rw [same, resumed] at later
        simp only [Option.map_some, Option.bind_some, later]
        rfl

/-- Two followers that have seen the same decided index hold the same store and
the same applied index, errors of replays included, whatever their schedules. -/
theorem followers_agree {first second : NodeId} {polls others : List Poll} (positioned : Positioned log)
    (follows : Follows first log polls) (alike : Follows second log others)
    (same : (seen polls).getLast? = (seen others).getLast?) :
    outcome ((Node.new first).polls polls) = outcome ((Node.new second).polls others) := by
  rw [polls_eq (.new first) positioned (new_follower first) follows.follower follows.decides,
    polls_eq (.new second) positioned (new_follower second) alike.follower alike.decides,
      reach_eq follows.growing, reach_eq alike.growing, same]
  rfl

private theorem stuck {entries : List DatabaseLogEntry} {before after : Core} {replays : List Replay}
    (positive : ∀ entry ∈ entries, 1 ≤ entry.txOffset)
    (start : before.1.nextTxOffset = 0 ∧ before.1.replicatedTxOffset = none ∨
      before.1.nextTxOffset = 1 ∧ ∃ offset, 1 ≤ offset ∧ before.1.replicatedTxOffset = some offset)
    (applied : applyEntries entries before = some (after, replays)) : after.1.nextTxOffset ≤ 1 := by
  induction entries generalizing before replays with
  | nil =>
    cases applied
    omega
  | cons entry entries ih =>
    obtain ⟨state, replay, others, replayed, tail⟩ := applyEntries_cons applied
    refine ih (fun other member => positive other (List.mem_cons_of_mem _ member)) (.inr ⟨?_, ?_⟩) tail
    · rw [advance_next]
      cases replay_cases replayed with
      | refused behind =>
        rcases start with ⟨next, offset⟩ | ⟨next, _⟩
        · rw [CommittedState.caughtUp, offset, next] at behind
          cases behind
        · exact next
      | written caughtUp read =>
        rcases start with ⟨next, _⟩ | ⟨next, offset, large, replicated⟩
        · exact congrArg (· + 1) next
        · rw [CommittedState.caughtUp, replicated, next] at caughtUp
          have reached : 1 = offset + 1 := of_decide_eq_true caughtUp
          omega
    · exact ⟨entry.txOffset, positive entry List.mem_cons_self, rfl⟩

/-- After each poll that sees an entry decided, no replay was refused and the
node holds what the decided transactions wrote. -/
def FollowerReplicates (txs : List ClientTx) (nodeId : NodeId) (polls : List Poll) : Prop :=
  ∀ earlier omnipaxos, earlier ++ [.applyReplicatedTxns omnipaxos] <+: polls → 1 ≤ omnipaxos.decidedIdx →
    ∃ node replays, (Node.new nodeId).polls (earlier ++ [.applyReplicatedTxns omnipaxos]) =
      some (node, replays) ∧
      (∀ replay ∈ replays, replay = .ok ()) ∧
      (∀ key, node.datastore.replicatedState.lookup key =
        WriteLog.replay ((txs.take omnipaxos.decidedIdx).map writeSet) WriteLog.empty key) ∧
      node.lastAppliedIndex = some (omnipaxos.decidedIdx - 1) ∧
      node.datastore.nextTxOffset = omnipaxos.decidedIdx

/-- A follower replicates the decided log only as long as nothing is decided. -/
theorem follower_replicates_iff {txs : List ClientTx} {nodeId : NodeId} {polls : List Poll}
    (follows : Follows nodeId (logOf txs) polls) :
    FollowerReplicates txs nodeId polls ↔ ∀ decided ∈ seen polls, decided = 0 := by
  refine ⟨?_, ?_⟩
  · intro correct decided member
    apply Nat.eq_zero_of_not_pos
    intro positive
    obtain ⟨poll, inside, shows⟩ := List.mem_filterMap.mp member
    cases poll with
    | updateLeader omnipaxos => cases shows
    | applyReplicatedTxns omnipaxos =>
      cases shows
      obtain ⟨earlier, later, rfl⟩ := List.append_of_mem inside
      have before : earlier ++ [.applyReplicatedTxns omnipaxos] <+: earlier ++
          .applyReplicatedTxns omnipaxos :: later :=
        ⟨later, by simp⟩
      obtain ⟨node, replays, ran, _, _, index, next⟩ := correct earlier omnipaxos before positive
      have cut := follows.earlier before
      have positioned := logOf_positioned txs
      have outcomes := polls_eq (.new nodeId) positioned (new_follower nodeId) cut.follower cut.decides
      have last : (seen (earlier ++ [.applyReplicatedTxns omnipaxos])).getLast? =
          some omnipaxos.decidedIdx := by simp [seen]
      have start : resume (core (Node.new nodeId)) = 1 := rfl
      rw [ran, reach_eq cut.growing, last, start, Option.elim_some, Nat.max_eq_right positive] at outcomes
      have next_le : node.datastore.nextTxOffset ≤ 1 := by
        refine stuck ?_ (.inl ⟨rfl, rfl⟩) outcomes.symm
        intro entry member
        obtain ⟨position, found⟩ := List.mem_iff_getElem?.mp member
        rw [List.getElem?_drop] at found
        have offset := positioned.take _ _ _ found
        omega
      have only : omnipaxos.decidedIdx = 1 := by omega
      have nothing : ((logOf txs).take omnipaxos.decidedIdx).drop 1 = [] := by
        apply List.drop_eq_nil_of_le
        rw [only]
        exact List.length_take_le _ _
      rw [nothing] at outcomes
      have kept : (core node, replays) = (core (Node.new nodeId), []) := Option.some.inj outcomes
      have unread : node.lastAppliedIndex = none := congrArg (fun result => result.1.2) kept
      rw [index] at unread
      cases unread
  · intro none earlier omnipaxos before positive
    have member := (seen_of_earlier before).subset
      (List.mem_append_right _ (List.mem_singleton_self omnipaxos.decidedIdx))
    have zero := none _ member
    omega

end

/-- Node 2 reads two decided entries while node 1 leads: the entry that sets `a` is never replayed. -/
theorem follower_skips_first_entry :
    (∀ tx ∈ [put "a" "1", put "b" "2"], TxFits tx) ∧
    Follows 2 (logOf [put "a" "1", put "b" "2"])
      (applies (logOf [put "a" "1", put "b" "2"]) [(some 1, 2)]) ∧
    ¬ @FollowerReplicates ⟨true⟩ [put "a" "1", put "b" "2"] 2
      (applies (logOf [put "a" "1", put "b" "2"]) [(some 1, 2)]) := by
  refine ⟨by decide, follows_applies (by decide) (by decide) (by decide), ?_⟩
  · intro correct
    obtain ⟨node, replays, ran, _, view, _⟩ := correct [] _ (List.prefix_refl _) (by decide)
    have computed :
        ((@Node.polls ⟨true⟩ (.new 2) (applies (logOf [put "a" "1", put "b" "2"]) [(some 1, 2)])).map
        fun result => result.1.datastore.replicatedState.lookup "a") = some none := by decide
    have found := congrArg (Option.map fun result => result.1.datastore.replicatedState.lookup "a") ran
    have lost := computed.symm.trans found
    rw [Option.map_some, view] at lost
    revert lost
    decide

theorem follower_replicates_before_first_entry :
    @FollowerReplicates ⟨true⟩ [put "a" "1"] 2 (applies (logOf [put "a" "1"]) [(none, 0), (some 1, 0)]) :=
  (@follower_replicates_iff ⟨true⟩ _ _ _ (follows_applies (by decide) (by decide) (by decide))).mpr
    (by decide)

theorem followers_agree_on_two_schedules :
    outcome (@Node.polls ⟨true⟩ (.new 2)
      (applies (logOf [put "a" "1", put "b" "2"]) [(none, 1), (some 1, 2)])) =
      outcome (@Node.polls ⟨true⟩ (.new 3) (applies (logOf [put "a" "1", put "b" "2"]) [(some 1, 2)])) :=
  @followers_agree ⟨true⟩ _ _ _ _ _ (logOf_positioned _)
    (follows_applies (by decide) (by decide) (by decide))
    (follows_applies (by decide) (by decide) (by decide)) (by decide)

end OmniSpacetimeDb.Proofs.Follower
