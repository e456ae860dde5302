import OmniSpacetimeDb.Proofs.Store
import OmniSpacetimeDb.Foundations.Transition

/-! The store against a ledger of committed write sets with a replicated prefix.
An advance follows the ledger unless it meets a diff beyond its offset. -/

namespace OmniSpacetimeDb.Proofs.StoreRefinement
open Foundations Datastore Store

/-- The offset that marks this many transactions as replicated. -/
def lastOffset : Nat → Option Nat
  | 0 => none
  | count + 1 => some count

/-- Everything but the diffs that are not replicated. -/
structure Anchored (state : CommittedState) (ledger : Ledger String String) : Prop where
  next : state.nextTxOffset = ledger.log.length
  offset : state.replicatedTxOffset = lastOffset ledger.replicated
  stable : ∀ key, state.replicatedState.lookup key = ledger.stable key
  sound : Sound state

structure Tracks (state : CommittedState) (ledger : Ledger String String) :
    Prop extends Anchored state ledger where
  unstable : ∀ key, (historyOf state key).map (fun entry => (entry.1, entry.2.value)) = ledger.unstable key

theorem tracks_new : Tracks .new .empty :=
  ⟨⟨rfl, rfl, fun _ => rfl, sound_new⟩, fun _ => rfl⟩

theorem Tracks.commit {state : CommittedState} {ledger : Ledger String String}
    (tracks : Tracks state ledger) (tx : ClientTx) :
    Tracks (committed tx state) (ledger.commit (writeSet tx)) := by
  refine ⟨⟨?_, ?_, ?_, sound_committed tracks.sound tx⟩, ?_⟩
  · rw [committed_next, tracks.next, Ledger.commit, List.length_append, List.length_singleton]
  · exact tracks.offset
  · intro key
    rw [Ledger.stable_commit]
    exact tracks.stable key
  · intro key
    rw [Ledger.unstable_commit, committed_history, List.map_append, tracks.unstable, tracks.next]
    cases found : (writes tx.calls).lookup key <;> simp [writeSet, found]

section Advance
variable {state : CommittedState} {ledger : Ledger String String} {txOffset : Nat}

private theorem within_cut (entries : List (Nat × Diff)) :
    ((entries.takeWhile fun entry => decide (entry.1 ≤ txOffset)).getLast?.map fun entry => entry.2.value) =
      ((entries.map fun entry => (entry.1, entry.2.value)).takeWhile fun entry =>
        decide (entry.1 < txOffset + 1)).getLast?.map
        Prod.snd := by
  rw [List.takeWhile_map, List.getLast?_map, Option.map_map]
  simp only [Function.comp_def, Nat.lt_succ_iff]

theorem Tracks.advance (tracks : Tracks state ledger) (within : txOffset + 1 ≤ ledger.log.length)
    (ordered : ledger.replicated ≤ txOffset + 1) :
    Anchored (state.advanceReplicatedDurabilityOffset txOffset) (ledger.advance (txOffset + 1) within) := by
  refine ⟨tracks.next, rfl, ?_, sound_advance state txOffset⟩
  intro key
  rw [advance_replicatedState, Ledger.stable_advance ledger within ordered, within_cut,
    tracks.unstable, tracks.stable]

/-- No diff waits beyond the offset: the loop over a history never takes its
`break`, and so never throws a diff away. -/
def Clear (state : CommittedState) (txOffset : Nat) : Prop :=
  ∀ key, ∀ entry ∈ historyOf state key, entry.1 ≤ txOffset

theorem Clear.history (clear : Clear state txOffset) (key : String) :
    historyOf (state.advanceReplicatedDurabilityOffset txOffset) key = [] := by
  rw [advance_history, List.dropWhile_eq_nil_iff.mpr]
  · rfl
  · exact fun entry member => decide_eq_true (clear key entry member)

theorem Clear.replicatedState (clear : Clear state txOffset) (key : String) :
    (state.advanceReplicatedDurabilityOffset txOffset).replicatedState.lookup key =
      ((historyOf state key).getLast?.map fun entry => entry.2.value).getD
        (state.replicatedState.lookup key) := by
  rw [advance_replicatedState, List.takeWhile_eq_self_iff.mpr]
  exact fun entry member => decide_eq_true (clear key entry member)

theorem Tracks.advance_clear (tracks : Tracks state ledger) (within : txOffset + 1 ≤ ledger.log.length)
    (ordered : ledger.replicated ≤ txOffset + 1) (clear : Clear state txOffset) :
    Tracks (state.advanceReplicatedDurabilityOffset txOffset) (ledger.advance (txOffset + 1) within) := by
  refine ⟨tracks.advance within ordered, ?_⟩
  intro key
  rw [clear.history key, Ledger.unstable_advance ledger within ordered, ← tracks.unstable]
  symm
  rw [List.map_nil, List.dropWhile_eq_nil_iff]
  intro entry member
  obtain ⟨diff, inside, rfl⟩ := List.mem_map.mp member
  exact decide_eq_true (Nat.lt_succ_of_le (clear key diff inside))

theorem Anchored.rollback (anchored : Anchored state ledger) :
    Tracks state.rollbackToReplicatedDurabilityOffset ledger.truncate := by
  refine ⟨⟨?_, anchored.offset, ?_, sound_rollback state⟩, ?_⟩
  · have within := ledger.within
    simp only [CommittedState.rollbackToReplicatedDurabilityOffset, anchored.offset,
      Ledger.truncate, List.length_take]
    cases count : ledger.replicated <;> simp only [lastOffset, Option.elim] <;> omega
  · intro key
    simp only [Ledger.stable, Ledger.truncate, List.take_take, Nat.min_self]
    exact anchored.stable key
  · intro key
    simp [Ledger.unstable, Ledger.truncate, WriteLog.history]

end Advance

theorem Tracks.clear {state : CommittedState} {ledger : Ledger String String} {txOffset : Nat}
    (tracks : Tracks state ledger) (last : ledger.log.length ≤ txOffset + 1) : Clear state txOffset := by
  intro key entry member
  have waiting : (entry.1, entry.2.value) ∈ ledger.unstable key := by
    rw [← tracks.unstable]
    exact List.mem_map.mpr ⟨entry, member, rfl⟩
  have range := Ledger.unstable_range waiting
  omega

/-- The `break` is what separates the store from its ledger: an advance that
meets a diff beyond its offset leaves a history that is one diff short. -/
theorem Tracks.advance_iff {state : CommittedState} {ledger : Ledger String String} {txOffset : Nat}
    (tracks : Tracks state ledger) (within : txOffset + 1 ≤ ledger.log.length)
    (ordered : ledger.replicated ≤ txOffset + 1) :
    Tracks (state.advanceReplicatedDurabilityOffset txOffset) (ledger.advance (txOffset + 1) within) ↔
      Clear state txOffset := by
  refine ⟨fun advanced key => ?_, tracks.advance_clear within ordered⟩
  have same := congrArg List.length (advanced.unstable key)
  rw [Ledger.unstable_advance ledger within ordered, ← tracks.unstable, List.dropWhile_map,
    List.length_map, List.length_map,
    advance_history, List.length_tail] at same
  have beyond : (historyOf state key).dropWhile (fun entry => decide (entry.1 ≤ txOffset)) = [] := by
    apply List.eq_nil_of_length_eq_zero
    simp only [Function.comp_def, Nat.lt_succ_iff] at same
    omega
  intro entry member
  exact of_decide_eq_true (List.dropWhile_eq_nil_iff.mp beyond entry member)

/-- Both views of the store are those of the ledger, and the next commit returns
the index of its write set. -/
structure Refines (state : CommittedState) (ledger : Ledger String String) : Prop where
  replicated : ∀ key, state.get key .replicated = some (ledger.stable key)
  memory : ∀ key, state.get key .memory = some (ledger.memory key)
  index : state.nextTxOffset = ledger.log.length

theorem Tracks.refines {state : CommittedState} {ledger : Ledger String String}
    (tracks : Tracks state ledger) :
    Refines state ledger := by
  refine ⟨?_, ?_, tracks.next⟩
  · intro key
    rw [get_replicated, tracks.stable]
  · intro key
    rw [get_memory tracks.sound, Ledger.memory_eq_last, ← tracks.unstable, ← tracks.stable,
      List.getLast?_map, Option.map_map]
    rfl

inductive StoreEvent
  | commit (tx : ClientTx)
  | advance (txOffset : Nat)

/-- A run of the store beside the ledger of what it committed. An advance names
a committed transaction that is not below the replicated offset. -/
inductive StoreStep :
    CommittedState × Ledger String String → StoreEvent → CommittedState × Ledger String String → Prop
  | commit {state ledger tx result after} (returned : tx.execute state = some (result, after)) :
      StoreStep (state, ledger) (.commit tx) (after, ledger.commit (writeSet tx))
  | advance {state ledger txOffset} (within : txOffset + 1 ≤ ledger.log.length)
      (ordered : ledger.replicated ≤ txOffset + 1) :
      StoreStep (state, ledger) (.advance txOffset)
        (state.advanceReplicatedDurabilityOffset txOffset, ledger.advance (txOffset + 1) within)

/-- When an advance is made, no diff waits beyond its offset. -/
def AdvanceClear (joint : CommittedState × Ledger String String) : StoreEvent → Prop
  | .commit _ => True
  | .advance txOffset => Clear joint.1 txOffset

theorem Tracks.commit_step {state : CommittedState} {ledger : Ledger String String}
    (tracks : Tracks state ledger) (tx : ClientTx) :
    Guarded AdvanceClear StoreStep (state, ledger) (.commit tx)
      (committed tx state, ledger.commit (writeSet tx)) :=
  ⟨trivial, .commit (execute_eq tracks.sound tx)⟩

theorem clear_step {state : CommittedState} {ledger : Ledger String String} {txOffset : Nat}
    (within : txOffset + 1 ≤ ledger.log.length) (ordered : ledger.replicated ≤ txOffset + 1)
    (clear : Clear state txOffset) :
    Guarded AdvanceClear StoreStep (state, ledger) (.advance txOffset)
      (state.advanceReplicatedDurabilityOffset txOffset, ledger.advance (txOffset + 1) within) :=
  ⟨clear, .advance within ordered⟩

theorem tracks_step {before after : CommittedState × Ledger String String} {event : StoreEvent}
    (tracks : Tracks before.1 before.2) (step : Guarded AdvanceClear StoreStep before event after) :
    Tracks after.1 after.2 := by
  obtain ⟨clear, taken⟩ := step
  cases taken with
  | @commit state ledger tx result after returned =>
    rw [execute_eq tracks.sound] at returned
    cases returned
    exact tracks.commit tx
  | @advance state ledger txOffset within ordered => exact tracks.advance_clear within ordered clear

theorem tracks_run {events : List StoreEvent} {joint : CommittedState × Ledger String String}
    (run : Run (Guarded AdvanceClear StoreStep) (.new, .empty) events joint) : Tracks joint.1 joint.2 :=
  run.invariant (fun joint => Tracks joint.1 joint.2) tracks_new fun _ _ _ tracks step =>
    tracks_step tracks step

theorem Clear.advance_advance {state : CommittedState} {first last : Nat} (clear : Clear state first)
    (ordered : first ≤ last) :
    (state.advanceReplicatedDurabilityOffset first).advanceReplicatedDurabilityOffset last =
      state.advanceReplicatedDurabilityOffset last := by
  have later : Clear state last := fun key entry member => Nat.le_trans (clear key entry member) ordered
  have drained : Clear (state.advanceReplicatedDurabilityOffset first) last := by
    intro key entry member
    rw [clear.history key] at member
    cases member
  apply CommittedState.ext
  · rfl
  · rfl
  · apply Finmap.ext_lookup
    intro key
    rw [drained.replicatedState, clear.history, later.replicatedState, clear.replicatedState]
    rfl
  · rw [Sound.empty (sound_advance _ last) drained.history,
      Sound.empty (sound_advance state last) later.history]

private theorem advances_collapse {joint after : CommittedState × Ledger String String}
    {offsets : List Nat} (run : Run (Guarded AdvanceClear StoreStep) joint (offsets.map .advance) after) :
    offsets = [] ∧ after = joint ∨ ∃ last, offsets.getLast? = some last ∧
      after.1 = joint.1.advanceReplicatedDurabilityOffset last ∧ Clear joint.1 last ∧
      after.2.replicated = last + 1 := by
  generalize same : offsets.map StoreEvent.advance = events at run
  induction run generalizing offsets with
  | nil => exact .inl ⟨List.map_eq_nil_iff.mp same, rfl⟩
  | @snoc events middle event finish before last ih =>
    obtain ⟨earlier, final, rfl, rfl, single⟩ := List.map_eq_append_iff.mp same
    obtain ⟨txOffset, rest, rfl, rfl, none⟩ := List.map_eq_cons_iff.mp single
    obtain rfl := List.map_eq_nil_iff.mp none
    right
    obtain ⟨clear, taken⟩ := last
    refine ⟨txOffset, by simp, ?_⟩
    cases taken with
    | @advance state ledger _ within ordered =>
      rcases ih rfl with ⟨_, unmoved⟩ | ⟨cut, _, moved, beyond, marked⟩
      · cases unmoved
        exact ⟨rfl, clear, rfl⟩
      · have le : cut ≤ txOffset := by
          simp only at marked
          omega
        have state_eq : state = joint.1.advanceReplicatedDurabilityOffset cut := moved
        refine ⟨?_, fun key entry member => Nat.le_trans (beyond key entry member) le, rfl⟩
        simp only [state_eq]
        exact beyond.advance_advance le

/-- In every run whose advances meet no diff beyond their offset, each view is
the ledger's, an advance leaves the Memory view alone, and several advances in
a row leave the state of the last one alone. -/
theorem refines_of_clear_advances {events : List StoreEvent} {joint : CommittedState × Ledger String String}
    (run : Run (Guarded AdvanceClear StoreStep) (.new, .empty) events joint) :
    Refines joint.1 joint.2 ∧
    (∀ txOffset after, Guarded AdvanceClear StoreStep joint (.advance txOffset) after →
      ∀ key, after.1.get key .memory = joint.1.get key .memory) ∧
    (∀ (offsets : List Nat) (last : Nat) after,
      Run (Guarded AdvanceClear StoreStep) joint ((offsets ++ [last]).map .advance) after →
      after.1 = joint.1.advanceReplicatedDurabilityOffset last) := by
  have tracks := tracks_run run
  refine ⟨tracks.refines, ?_, ?_⟩
  · intro txOffset after step key
    rw [(tracks_step tracks step).refines.memory, tracks.refines.memory]
    obtain ⟨_, taken⟩ := step
    cases taken
    rfl
  · intro offsets last after advances
    rcases advances_collapse advances with ⟨empty, _⟩ | ⟨final, found, moved, _⟩
    · exact absurd empty (List.append_ne_nil_of_right_ne_nil offsets (List.cons_ne_nil last []))
    · rw [List.getLast?_concat] at found
      cases found
      exact moved

theorem refines_of_clear_advances_two_commits :
    ∃ joint, Run (Guarded AdvanceClear StoreStep) (.new, .empty)
      [.commit (put "a" "1"), .commit (put "b" "2"), .advance 1] joint ∧
      Refines joint.1 joint.2 := by
  have first := tracks_new.commit (put "a" "1")
  have second := first.commit (put "b" "2")
  have run := (Run.nil.snoc (tracks_new.commit_step (put "a" "1"))).snoc (first.commit_step (put "b" "2"))
  have run := run.snoc (clear_step (Nat.le_refl 2) (Nat.zero_le 2) (second.clear (Nat.le_refl 2)))
  exact ⟨_, run, (refines_of_clear_advances run).1⟩

/-- The advance over `a` alone throws away the write to `b` that it meets. -/
theorem advance_loses_later_write : ∃ joint,
    Run StoreStep (.new, .empty) [.commit (put "a" "1"), .commit (put "b" "2"), .advance 0] joint ∧
      joint.1.get "b" .memory = some none ∧ joint.2.memory "b" = some "2" := by
  have first := tracks_new.commit (put "a" "1")
  have run := (Run.nil.snoc (tracks_new.commit_step (put "a" "1")).taken).snoc
    (first.commit_step (put "b" "2")).taken
  have run := run.snoc (.advance (by decide : 0 + 1 ≤ 2) (Nat.zero_le 1))
  exact ⟨_, run, by decide, by decide⟩

end OmniSpacetimeDb.Proofs.StoreRefinement
