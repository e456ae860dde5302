import OmniSpacetimeDb.Proofs.StoreReplay

/-! What ties the histories to the two counters of the store, under every
operation. An advance takes any offset it is given, so the counters stay
ordered only where callers keep its offset between them. -/

namespace OmniSpacetimeDb.Proofs.StoreHistory
open Foundations Datastore Store StoreReplay

/-- An advance names a committed offset, and none below the replicated one. -/
def AdvanceWithin (state : CommittedState) : Operation → Prop
  | .advance txOffset => txOffset < state.nextTxOffset ∧
      ∀ replicated, state.replicatedTxOffset = some replicated → replicated ≤ txOffset
  | _ => True

/-- Histories hold one diff an offset, oldest first, between the two counters. -/
structure Ordered (state : CommittedState) : Prop where
  sound : Sound state
  increasing : ∀ key, (historyOf state key).Pairwise fun first second => first.1 < second.1
  waiting : ∀ key, ∀ entry ∈ historyOf state key, ∀ replicated, state.replicatedTxOffset =
    some replicated → replicated < entry.1
  below : ∀ key, ∀ entry ∈ historyOf state key, entry.1 < state.nextTxOffset
  replicated : ∀ replicated, state.replicatedTxOffset = some replicated → replicated < state.nextTxOffset

theorem ordered_of_drained {state : CommittedState} (drained : state.committedDiff = ∅)
    (replicated : ∀ replicated, state.replicatedTxOffset = some replicated →
      replicated < state.nextTxOffset) :
    Ordered state := by
  have sound := sound_of_drained drained
  have empty := sound.drained_iff.mp drained
  refine ⟨sound, ?_, ?_, ?_, replicated⟩ <;> intro key <;> rw [empty key]
  · exact .nil
  · exact fun entry member => absurd member List.not_mem_nil
  · exact fun entry member => absurd member List.not_mem_nil

theorem ordered_new : Ordered .new := ordered_of_drained rfl fun _ known => by cases known

private theorem dropped_beyond {txOffset : Nat} {history : List (Nat × Diff)}
    (increasing : history.Pairwise fun first second => first.1 < second.1) :
    ∀ entry ∈ history.dropWhile (fun entry => decide (entry.1 ≤ txOffset)), txOffset < entry.1 := by
  induction increasing with
  | nil =>
    intro entry member
    cases member
  | @cons oldest history older _ ih =>
    by_cases old : oldest.1 ≤ txOffset
    · rwa [List.dropWhile_cons_of_pos (by simpa using old)]
    · rw [List.dropWhile_cons_of_neg (by simpa using old)]
      intro entry member
      have beyond := Nat.lt_of_not_le old
      rcases List.mem_cons.mp member with rfl | later
      · exact beyond
      · exact Nat.lt_trans beyond (older entry later)

section Steps
variable {state after : CommittedState}

/-- The guard of a replay looks at the counters only, and that is enough: an
offset between them leaves no room for a replay. -/
theorem Ordered.drained_of_caughtUp (ordered : Ordered state) (caughtUp : state.caughtUp = true) :
    state.committedDiff = ∅ := by
  apply ordered.sound.empty
  intro key
  rw [List.eq_nil_iff_forall_not_mem]
  intro entry member
  have below := ordered.below key entry member
  rw [CommittedState.caughtUp] at caughtUp
  cases known : state.replicatedTxOffset with
  | none =>
    simp only [known, beq_iff_eq] at caughtUp
    omega
  | some replicated =>
    have above := ordered.waiting key entry member replicated known
    simp only [known, beq_iff_eq] at caughtUp
    omega

theorem Ordered.commit (ordered : Ordered state) (tx : ClientTx) : Ordered (committed tx state) := by
  refine ⟨sound_committed ordered.sound tx, ?_, ?_, ?_, ?_⟩
  · intro key
    rw [committed_history, List.pairwise_append]
    refine ⟨ordered.increasing key, ?_, ?_⟩
    · cases (writes tx.calls).lookup key <;> simp
    · intro first member second fresh
      obtain ⟨diff, _, rfl⟩ := List.mem_map.mp fresh
      exact ordered.below key first member
  · intro key entry member replicated known
    rw [committed_history, List.mem_append] at member
    rcases member with old | fresh
    · exact ordered.waiting key entry old replicated known
    · obtain ⟨diff, _, rfl⟩ := List.mem_map.mp fresh
      exact ordered.replicated replicated known
  · intro key entry member
    rw [committed_history, List.mem_append] at member
    rw [committed_next]
    rcases member with old | fresh
    · exact Nat.lt_succ_of_lt (ordered.below key entry old)
    · obtain ⟨diff, _, rfl⟩ := List.mem_map.mp fresh
      exact Nat.lt_succ_self _
  · intro replicated known
    exact Nat.lt_succ_of_lt (ordered.replicated replicated known)

theorem Ordered.advance {txOffset : Nat} (ordered : Ordered state)
    (within : txOffset < state.nextTxOffset) :
    Ordered (state.advanceReplicatedDurabilityOffset txOffset) := by
  have kept (key : String) : (historyOf (state.advanceReplicatedDurabilityOffset txOffset) key).Sublist
      ((historyOf state key).dropWhile fun entry => decide (entry.1 ≤ txOffset)) := by
    rw [advance_history]
    exact List.tail_sublist _
  refine ⟨sound_advance state txOffset, ?_, ?_, ?_, ?_⟩
  · intro key
    exact (ordered.increasing key).sublist ((kept key).trans (List.dropWhile_sublist _))
  · intro key entry member replicated known
    cases known
    exact dropped_beyond (ordered.increasing key) entry ((kept key).subset member)
  · intro key entry member
    exact ordered.below key entry (((kept key).trans (List.dropWhile_sublist _)).subset member)
  · intro replicated known
    cases known
    exact within

theorem ordered_rollback (state : CommittedState) : Ordered state.rollbackToReplicatedDurabilityOffset := by
  apply ordered_of_drained rfl
  intro replicated known
  have offset : state.replicatedTxOffset = some replicated := known
  rw [CommittedState.rollbackToReplicatedDurabilityOffset, offset]
  exact Nat.lt_succ_self replicated

theorem Ordered.replay {rows : HashMap String String} (ordered : Ordered state)
    (caughtUp : state.caughtUp = true) :
    Ordered { state with
      replicatedTxOffset := some (state.replicatedTxOffset.elim 0 fun offset => offset + 1)
      nextTxOffset := state.nextTxOffset + 1
      replicatedState := rows } := by
  refine ordered_of_drained (ordered.drained_of_caughtUp caughtUp) ?_
  intro replicated known
  cases known
  cases offset : state.replicatedTxOffset with
  | none => exact Nat.succ_pos _
  | some before => exact Nat.succ_lt_succ (ordered.replicated before offset)

variable [BuildProfile]

theorem ordered_step {operation : Operation} (ordered : Ordered state)
    (within : AdvanceWithin state operation) (operates : Operates state operation after) :
    Ordered after := by
  cases operates_cases ordered.sound operates with
  | committed tx => exact ordered.commit tx
  | advanced txOffset => exact ordered.advance within.1
  | rolledBack => exact ordered_rollback state
  | refused => exact ordered
  | replayed caughtUp => exact ordered.replay caughtUp

theorem ordered_run {operations : List Operation}
    (run : Run (Guarded AdvanceWithin Operates) .new operations state) : Ordered state :=
  run.invariant Ordered ordered_new fun _ _ _ ordered step => ordered_step ordered step.allowed step.taken

end Steps

/-- What the `remove` loop, the guard of a replay and `get_latest` rely on. -/
structure HistoryWithin (state : CommittedState) (history : List (Nat × Diff)) : Prop where
  nonempty : history ≠ []
  increasing : history.Pairwise fun first second => first.1 < second.1
  unreplicated : ∀ entry ∈ history, ∀ replicated, state.replicatedTxOffset =
    some replicated → replicated < entry.1
  committed : ∀ entry ∈ history, entry.1 < state.nextTxOffset

section Runs
variable [BuildProfile] {state : CommittedState} {operations : List Operation}

/-- Every history stays between the counters, the Memory view can always be
read, and no replay gets past a diff that is not replicated. -/
theorem histories_within (run : Run (Guarded AdvanceWithin Operates) .new operations state) :
    (∀ key txDiff, state.committedDiff.lookup key = some txDiff → HistoryWithin state txDiff.history) ∧
    (∀ key, ∃ value, state.get key .memory = some value) ∧
    (state.committedDiff ≠ ∅ → ∀ data, replayTransaction data state =
      some (state, .error .invalidDurabilityOffset)) := by
  have ordered := ordered_run run
  refine ⟨?_, ?_, ?_⟩
  · intro key txDiff found
    have history : historyOf state key = txDiff.history := by rw [historyOf, found, Option.elim_some]
    exact history ▸ ⟨history ▸ ordered.sound key txDiff found, ordered.increasing key,
      ordered.waiting key, ordered.below key⟩
  · exact fun key => ⟨_, get_memory ordered.sound key⟩
  · intro waiting data
    have behind : ¬ state.caughtUp = true := fun caughtUp => waiting (ordered.drained_of_caughtUp caughtUp)
    rw [replayTransaction, if_neg behind]

theorem replicated_grows {before after : CommittedState} {operation : Operation} (sound : Sound before)
    (within : AdvanceWithin before operation) (operates : Operates before operation after) :
    Climbs (· ≤ ·) CommittedState.replicatedTxOffset before after := by
  intro replicated marked
  cases operates_cases sound operates with
  | committed | rolledBack | refused => exact ⟨replicated, marked, Nat.le_refl _⟩
  | advanced txOffset => exact ⟨txOffset, rfl, within.2 replicated marked⟩
  | replayed =>
    refine ⟨replicated + 1, ?_, Nat.le_succ _⟩
    simp only [marked, Option.elim_some]

theorem replicated_stays {before later : CommittedState} (ordered : Ordered before)
    (run : Run (Guarded AdvanceWithin Operates) before operations later) {replicated : Nat}
    (marked : before.replicatedTxOffset = some replicated) :
    Ordered later ∧ replicated < later.nextTxOffset := by
  obtain ⟨lasting, climbs⟩ :=
    run.climbs Nat.le_refl (fun _ _ _ => Nat.le_trans) Ordered ordered fun _ _ _ ordered step =>
    ⟨ordered_step ordered step.allowed step.taken, replicated_grows ordered.sound step.allowed step.taken⟩
  obtain ⟨offset, known, least⟩ := climbs replicated marked
  exact ⟨lasting, Nat.lt_of_le_of_lt least (lasting.replicated offset known)⟩

/-- The offset that an advance marks is not lower than before, and committed. -/
def AdvanceKeeps (before after : CommittedState) : Prop :=
  ∃ marked, after.replicatedTxOffset = some marked ∧ marked < after.nextTxOffset ∧
    ∀ replicated, before.replicatedTxOffset = some replicated → replicated ≤ marked

omit [BuildProfile] in
theorem advanceKeeps_iff (state : CommittedState) (txOffset : Nat) :
    AdvanceKeeps state (state.advanceReplicatedDurabilityOffset txOffset) ↔
      AdvanceWithin state (.advance txOffset) := by
  constructor
  · rintro ⟨marked, same, below, ordered⟩
    cases same
    exact ⟨below, ordered⟩
  · rintro ⟨below, ordered⟩
    exact ⟨txOffset, rfl, below, ordered⟩

/-- The replicated offset stays among the committed ones as long as each advance
keeps it there, and an advance keeps it there only if it is asked to. -/
theorem replicated_within_committed (run : Run (Guarded AdvanceWithin Operates) .new operations state) :
    (∀ replicated, state.getReplicatedOffset = some replicated →
      ∃ current, state.getCurOffset = some current ∧ replicated ≤ current) ∧
    state.rollbackToReplicatedDurabilityOffset.nextTxOffset ≤ state.nextTxOffset ∧
    (∀ more later, Run (Guarded AdvanceWithin Operates) state more later →
      ∀ replicated, state.replicatedTxOffset = some replicated →
      ∀ tx result after, ClientTx.execute tx later = some (result, after) → replicated < result.txOffset) ∧
    ∀ txOffset after, Operates state (.advance txOffset) after →
      (AdvanceKeeps state after ↔ AdvanceWithin state (.advance txOffset)) := by
  have ordered := ordered_run run
  refine ⟨?_, ?_, ?_, ?_⟩
  · intro replicated marked
    have below := ordered.replicated replicated marked
    refine ⟨state.nextTxOffset - 1, ?_, Nat.le_sub_one_of_lt below⟩
    rw [CommittedState.getCurOffset, if_neg (Nat.ne_zero_of_lt below)]
  · rw [CommittedState.rollbackToReplicatedDurabilityOffset]
    cases marked : state.replicatedTxOffset with
    | none => exact Nat.zero_le _
    | some replicated => exact ordered.replicated replicated marked
  · intro more later further replicated marked tx result after returned
    obtain ⟨lasting, below⟩ := replicated_stays ordered further marked
    rw [execute_eq lasting.sound] at returned
    cases returned
    exact below
  · intro txOffset after operates
    cases operates
    exact advanceKeeps_iff state txOffset

end Runs

theorem histories_within_two_commits : ∃ state,
    Run (Guarded AdvanceWithin (@Operates ⟨true⟩)) .new
      [.commit (put "a" "1"), .commit (put "b" "2"), .commit (put "b" "3"), .advance 0] state ∧
    state.committedDiff.lookup "b" = some ⟨[(2, .insert "3")]⟩ ∧
    @replayTransaction ⟨true⟩ (payload (put "c" "4")) state =
      some (state, .error .invalidDurabilityOffset) := by
  let : BuildProfile := ⟨true⟩
  have run : Run (Guarded AdvanceWithin Operates) .new
      ([] ++ [.commit (put "a" "1")] ++ [.commit (put "b" "2")] ++
        [.commit (put "b" "3")] ++ [.advance 0]) _ :=
    (((Run.nil.snoc ⟨trivial, .commit (execute_eq ordered_new.sound _)⟩).snoc
      ⟨trivial, .commit (execute_eq (ordered_new.commit _).sound _)⟩).snoc
      ⟨trivial, .commit (execute_eq ((ordered_new.commit _).commit _).sound _)⟩).snoc
      ⟨⟨by decide, fun _ known => by cases known⟩, .advance 0⟩
  exact ⟨_, run, rfl, (histories_within run).2.2 (by decide) _⟩

/-- An advance on a new store marks an offset that nobody has committed: there is
no current offset for it, a rollback then skips to the offset after it, and
without one the next commits take the marked offsets. -/
theorem advance_leaves_history : ∃ state,
    Run (@Operates ⟨true⟩) .new [.advance 1] state ∧ state ≠ .new ∧ ¬ AdvanceKeeps .new state ∧
    state.getReplicatedOffset = some 1 ∧ state.getCurOffset = none ∧
    state.nextTxOffset < state.rollbackToReplicatedDurabilityOffset.nextTxOffset ∧
    ∃ result after, (put "a" "1").execute state = some (result, after) ∧ result.txOffset ≤ 1 := by
  let : BuildProfile := ⟨true⟩
  have run : Run Operates .new ([] ++ [.advance 1]) _ := Run.nil.snoc (.advance 1)
  refine ⟨_, run, ?_, ?_, rfl, rfl, by decide, _, _, rfl, by decide⟩
  · intro same
    cases congrArg CommittedState.replicatedTxOffset same
  · rw [advanceKeeps_iff]
    exact fun within => absurd within.1 (Nat.not_lt_zero 1)

theorem replicated_within_committed_one_commit : ∃ state,
    Run (Guarded AdvanceWithin (@Operates ⟨true⟩)) .new [.commit (put "a" "1"), .advance 0] state ∧
    ∃ current, state.getCurOffset = some current ∧ 0 ≤ current := by
  let : BuildProfile := ⟨true⟩
  have run : Run (Guarded AdvanceWithin Operates) .new ([] ++ [.commit (put "a" "1")] ++ [.advance 0]) _ :=
    (Run.nil.snoc ⟨trivial, .commit (execute_eq ordered_new.sound _)⟩).snoc
      ⟨⟨by decide, fun _ known => by cases known⟩, .advance 0⟩
  exact ⟨_, run, (replicated_within_committed run).1 0 rfl⟩

end OmniSpacetimeDb.Proofs.StoreHistory
