import OmniSpacetimeDb.Proofs.NodePoll

/-! The runner's loop while OmniPaxos stands still. A second round may take from
memory what the first one, just promoted, has looked for in the log; a third one
finds nothing to do. -/

namespace OmniSpacetimeDb.Proofs.PollRounds
open Foundations Datastore Durability OmniPaxosDurability Cluster Store LogIteration NodePoll

/-- One iteration of the loop: the two calls of the message handling branch. -/
def round (omnipaxos : OmniPaxos) : List Poll := [.updateLeader omnipaxos, .applyReplicatedTxns omnipaxos]

/-- The leader that is named is the one that the node has recorded. -/
def Noted (node : Node) (omnipaxos : OmniPaxos) : Prop :=
  ∀ leader, omnipaxos.currentLeader = some leader → node.currentLeader = some leader

section Apply
variable [BuildProfile] {node middle last after : Node} {omnipaxos : OmniPaxos}
  {replays others : List Replay}

def Rests (node : Node) (omnipaxos : OmniPaxos) : Prop :=
  node.applyReplicatedTxns omnipaxos = some (node, [])

theorem rests_of_nothing (nothing : node.nothingToApply omnipaxos = true) : Rests node omnipaxos := by
  rw [Rests, Node.applyReplicatedTxns, if_pos nothing]

theorem rests_of_reached {offset : Nat}
    (decided : (node.omniDurability omnipaxos).getDurableTxOffsetOptional = some offset)
    (reached : node.lastAppliedIndex = some offset) : Rests node omnipaxos := by
  apply rests_of_nothing
  simp [Node.nothingToApply, decided, reached]

theorem apply_empty (busy : node.nothingToApply omnipaxos = false)
    (mode : node.takesFromMemory omnipaxos = some false)
    (iterated : (node.omniDurability omnipaxos).iterStartingFromOffset
      (node.lastAppliedIndex.getD 0) = some []) :
    node.applyReplicatedTxns omnipaxos = some ({ node with gotPromotedLeader := false }, []) := by
  simp only [Node.applyReplicatedTxns, busy, mode, iterated, Bool.false_eq_true, if_false,
    Option.bind_eq_bind, Option.bind_some,
    Node.applyTransactions]
  rfl

variable {log : List DatabaseLogEntry} (decides : omnipaxos.Decides log)
include decides

/-- A poll leaves nothing to apply, or it has found no entry where it looked. -/
theorem apply_once (returned : node.applyReplicatedTxns omnipaxos = some (after, replays)) :
    Rests after omnipaxos ∨
    node.nothingToApply omnipaxos = false ∧ node.takesFromMemory omnipaxos = some false ∧
      (node.omniDurability omnipaxos).iterStartingFromOffset (node.lastAppliedIndex.getD 0) = some [] := by
  have optional (node : Node) : (node.omniDurability omnipaxos).getDurableTxOffsetOptional =
      log.getLast?.map DatabaseLogEntry.txOffset :=
    optional_eq decides
  cases apply_took returned with
  | nothing idle => exact .inl (rests_of_nothing idle)
  | memory busy mode decided => exact .inl (rests_of_reached decided rfl)
  | @entries transactions middle others busy mode iterated applied =>
    have some_decided : log ≠ [] := by
      rintro rfl
      rw [Node.nothingToApply, optional] at busy
      cases busy
    have found := iterated
    rw [iterStartingFromOffset_eq _ decides some_decided] at iterated
    cases iterated
    rw [applyTransactions_eq] at applied
    obtain ⟨⟨core, read⟩, entries, made⟩ := Option.map_eq_some_iff.mp applied
    cases made
    have index := applyEntries_index entries
    rw [List.getLast?_drop] at index
    split at index
    next passed =>
      right
      refine ⟨busy, mode, ?_⟩
      rw [found, List.drop_eq_nil_of_le passed]
      rfl
    next =>
      left
      have final := List.getLast?_eq_some_getLast some_decided
      rw [final] at index
      refine rests_of_reached ?_ index
      rw [optional, final]
      rfl

theorem apply_twice (first : node.applyReplicatedTxns omnipaxos = some (middle, replays))
    (second : middle.applyReplicatedTxns omnipaxos = some (last, others)) : Rests last omnipaxos := by
  rcases apply_once decides first with rests | ⟨busy, mode, iterated⟩
  · rw [rests] at second
    cases second
    exact rests
  · rw [apply_empty busy mode iterated] at first
    cases first
    rcases apply_once decides second with rests | ⟨again, replayed, found⟩
    · exact rests
    · rw [apply_empty again replayed found] at second
      cases second
      exact apply_empty again replayed found

end Apply

section Rounds
variable [BuildProfile] {node after settled : Node} {omnipaxos : OmniPaxos} {replays : List Replay}

theorem update_noted_rests (noted : Noted node omnipaxos) :
    node.updateLeader omnipaxos = some (node, []) := by
  cases named : omnipaxos.currentLeader with
  | none => exact update_unnamed named
  | some leader =>
    have current : (node.omniDurability omnipaxos).getCurrentLeader = some leader := named
    simp only [Node.updateLeader, current, noted leader named, if_true]

theorem noted_after_update (returned : node.updateLeader omnipaxos = some (after, replays)) :
    Noted after omnipaxos := by
  intro leader named
  cases update_cases returned with
  | unnamed absent => cases absent.symm.trans named
  | noted other | demoted other | promoted other =>
    cases other.symm.trans named
    rfl

theorem noted_after_apply {log : List DatabaseLogEntry} (decides : omnipaxos.Decides log)
    (noted : Noted node omnipaxos)
    (returned : node.applyReplicatedTxns omnipaxos = some (after, replays)) : Noted after omnipaxos := by
  rcases apply_cases decides returned with rfl | ⟨_, applied⟩
  · exact noted
  · intro leader named
    rw [applied.currentLeader]
    exact noted leader named

theorem polls_cons {poll : Poll} {rest : List Poll}
    (returned : node.polls (poll :: rest) = some (after, replays)) :
    ∃ middle first others, node.poll poll = some (middle, first) ∧
      middle.polls rest = some (after, others) := by
  obtain ⟨⟨middle, first⟩, polled, later⟩ := Option.bind_eq_some_iff.mp returned
  obtain ⟨⟨last, others⟩, further, made⟩ := Option.bind_eq_some_iff.mp later
  cases made
  exact ⟨middle, first, others, polled, further⟩

theorem polls_append {polls more : List Poll} {middle : Node} {others : List Replay}
    (first : node.polls polls = some (middle, replays))
    (second : middle.polls more = some (after, others)) :
    node.polls (polls ++ more) = some (after, replays ++ others) := by
  induction polls generalizing node replays with
  | nil =>
    cases first
    exact second
  | cons poll rest ih =>
    obtain ⟨⟨next, here⟩, polled, later⟩ := Option.bind_eq_some_iff.mp first
    obtain ⟨⟨last, there⟩, further, made⟩ := Option.bind_eq_some_iff.mp later
    cases made
    simp only [List.cons_append, Node.polls, polled, ih further, Option.bind_eq_bind,
      Option.bind_some, List.append_assoc]
    rfl

theorem round_rests (noted : Noted node omnipaxos) (rests : Rests node omnipaxos) :
    node.polls (round omnipaxos) = some (node, []) := by
  have noting : node.poll (.updateLeader omnipaxos) = some (node, []) := update_noted_rests noted
  have applying : node.poll (.applyReplicatedTxns omnipaxos) = some (node, []) := rests
  simp only [round, Node.polls, noting, applying, Option.bind_eq_bind, Option.bind_some]
  rfl

/-- As long as OmniPaxos shows the same, the third round of the loop and all later
ones change nothing and replay nothing, whatever state the node was in. -/
theorem rounds_settle {log : List DatabaseLogEntry} (decides : omnipaxos.Decides log)
    (returned : node.polls (round omnipaxos ++ round omnipaxos) = some (settled, replays)) (rounds : Nat) :
    settled.polls (List.replicate rounds (round omnipaxos)).flatten = some (settled, []) := by
  obtain ⟨named, _, _, updated, returned⟩ := polls_cons returned
  obtain ⟨middle, _, _, applied, returned⟩ := polls_cons returned
  obtain ⟨again, _, _, unchanged, returned⟩ := polls_cons returned
  obtain ⟨last, _, _, reapplied, returned⟩ := polls_cons returned
  cases returned
  have noted := noted_after_apply decides (noted_after_update updated) applied
  cases (update_noted_rests noted).symm.trans unchanged
  have rests := apply_twice decides applied reapplied
  have resting := round_rests (noted_after_apply decides noted reapplied) rests
  induction rounds with
  | zero => rfl
  | succ rounds ih =>
    rw [List.replicate_succ, List.flatten_cons]
    exact polls_append resting ih

end Rounds

/-- Node 1 is promoted over node 2 with nothing applied of the one decided entry: its
first round replays nothing, the second one advances, and then it rests. -/
theorem rounds_settle_promoted :
    ∃ node omnipaxos settled replays, node.nodeId = 1 ∧ node.currentLeader = some 2 ∧
    @Node.polls ⟨true⟩ node (round omnipaxos ++ round omnipaxos) = some (settled, replays) ∧
    settled.lastAppliedIndex = some 0 ∧
    @Node.polls ⟨true⟩ settled (List.replicate 3 (round omnipaxos)).flatten = some (settled, []) := by
  let : BuildProfile := ⟨true⟩
  let node : Node := { Node.new 1 with datastore := committed (put "a" "1") .new, currentLeader := some 2 }
  let omnipaxos : OmniPaxos := .ofLog (some 1) (logOf [put "a" "1"]) 1
  have decides := ofLog_decides (some 1) (show 1 ≤ (logOf [put "a" "1"]).length by decide)
  have advances : (node.polls (round omnipaxos ++ round omnipaxos)).map
      (fun result => result.1.lastAppliedIndex) = some (some 0) := by decide
  obtain ⟨⟨settled, replays⟩, returned, advanced⟩ := Option.map_eq_some_iff.mp advances
  exact ⟨node, omnipaxos, settled, replays, rfl, rfl, returned, advanced, rounds_settle decides returned 3⟩

end OmniSpacetimeDb.Proofs.PollRounds
