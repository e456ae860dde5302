import OmniSpacetimeDb.Proofs.LeaderChange

/-! The two ways in which a leader takes decided entries that it has committed
itself: one advance over all of them or, marked as promoted, one for each entry. -/

namespace OmniSpacetimeDb.Proofs.ApplyBranches
open Foundations WriteLog Datastore Durability Cluster Store StoreRefinement StoreRollback StoreReplay
  LogIteration NodePoll LeaderChange

/-- The writes to a key that wait in its history. -/
def waiting (state : CommittedState) (key : String) : List (Nat × Option String) :=
  (historyOf state key).map fun entry => (entry.1, entry.2.value)

section Waiting
variable (state : CommittedState) (txOffset : Nat) (key : String)

theorem advance_waiting : waiting (state.advanceReplicatedDurabilityOffset txOffset) key =
    ((waiting state key).dropWhile fun entry => decide (entry.1 < txOffset + 1)).tail := by
  simp only [waiting, advance_history, List.dropWhile_map, List.map_tail,
    Function.comp_def, Nat.lt_succ_iff]

theorem advance_taken : (state.advanceReplicatedDurabilityOffset txOffset).replicatedState.lookup key =
    (((waiting state key).takeWhile fun entry => decide (entry.1 < txOffset + 1)).getLast?.map
      Prod.snd).getD
      (state.replicatedState.lookup key) := by
  simp only [waiting, advance_replicatedState, List.takeWhile_map, List.getLast?_map, Option.map_map,
    Function.comp_def, Nat.lt_succ_iff]

theorem get_waiting (sound : Sound state) : state.get key .memory =
    some (((waiting state key).getLast?.map Prod.snd).getD (state.replicatedState.lookup key)) := by
  simp only [get_memory sound, waiting, List.getLast?_map, Option.map_map, Function.comp_def]

theorem committedAll_waiting (txs : List ClientTx) : waiting (committedAll txs state) key =
    waiting state key ++ history state.nextTxOffset (txs.map writeSet) key := by
  induction txs generalizing state with
  | nil => exact (List.append_nil _).symm
  | cons tx txs ih =>
    have first : waiting (committed tx state) key =
        waiting state key ++ (writeSet tx key).toList.map (state.nextTxOffset, ·) := by
      simp only [waiting, committed_history, List.map_append, writeSet]
      cases (writes tx.calls).lookup key <;> rfl
    have rest := ih (committed tx state)
    rw [first, List.append_assoc] at rest
    exact rest

theorem committedAll_next (txs : List ClientTx) :
    (committedAll txs state).nextTxOffset = state.nextTxOffset + txs.length := by
  induction txs generalizing state with
  | nil => rfl
  | cons tx txs ih =>
    have rest := ih (committed tx state)
    rw [committed_next] at rest
    rw [List.length_cons, ← Nat.add_assoc, Nat.add_right_comm]
    exact rest

theorem committedAll_same (txs : List ClientTx) :
    (committedAll txs state).replicatedTxOffset = state.replicatedTxOffset ∧
    (committedAll txs state).replicatedState = state.replicatedState := by
  induction txs generalizing state with
  | nil => exact ⟨rfl, rfl⟩
  | cons tx txs ih => exact ih (committed tx state)

theorem committedAll_sound (sound : Sound state) (txs : List ClientTx) :
    Sound (committedAll txs state) := by
  induction txs generalizing state with
  | nil => exact sound
  | cons tx txs ih => exact ih (committed tx state) (sound_committed sound tx)

end Waiting

/-- Each write waits beyond the offset that its index would have. -/
def Late (offset : Nat) (writes : List (Nat × Option String)) : Prop :=
  ∀ (index : Nat) (entry : Nat × Option String), writes[index]? = some entry → offset + index < entry.1

section Late
variable {offset : Nat} {writes : List (Nat × Option String)}

theorem Late.tail (late : Late offset writes) : Late (offset + 1) writes.tail := by
  intro index entry found
  rw [List.getElem?_tail] at found
  have later := late (index + 1) entry found
  omega

theorem Late.beyond (late : Late offset writes) :
    writes.takeWhile (fun entry => decide (entry.1 < offset + 1)) = [] ∧
    writes.dropWhile (fun entry => decide (entry.1 < offset + 1)) = writes := by
  cases writes with
  | nil => exact ⟨rfl, rfl⟩
  | cons entry rest =>
    have later := late 0 entry rfl
    have beyond : ¬ decide (entry.1 < offset + 1) = true := by
      rw [decide_eq_true_iff]
      omega
    exact ⟨List.takeWhile_cons_of_neg beyond, List.dropWhile_cons_of_neg beyond⟩

end Late

/-- One advance for each of this many offsets. -/
def advanceEach (state : CommittedState) (offset : Nat) : Nat → CommittedState
  | 0 => state
  | count + 1 => advanceEach (state.advanceReplicatedDurabilityOffset offset) (offset + 1) count

section AdvanceEach
variable {state : CommittedState} {offset : Nat}

/-- No advance reaches a write that waits, and each one throws the oldest away. -/
theorem advanceEach_late {key : String} (late : Late offset (waiting state key)) (count : Nat) :
    waiting (advanceEach state offset count) key = (waiting state key).drop count ∧
      (advanceEach state offset count).replicatedState.lookup key = state.replicatedState.lookup key := by
  induction count generalizing state offset with
  | zero => exact ⟨rfl, rfl⟩
  | succ count ih =>
    obtain ⟨none, all⟩ := late.beyond
    have left := advance_waiting state offset key
    have same := advance_taken state offset key
    rw [all] at left
    rw [none] at same
    obtain ⟨dropped, kept⟩ := ih (left ▸ late.tail)
    refine ⟨?_, kept.trans same⟩
    rw [left, List.drop_tail] at dropped
    exact dropped

theorem advanceEach_next (state : CommittedState) (offset count : Nat) :
    (advanceEach state offset count).nextTxOffset = state.nextTxOffset := by
  induction count generalizing state offset with
  | zero => rfl
  | succ count ih => exact ih (state.advanceReplicatedDurabilityOffset offset) (offset + 1)

theorem advanceEach_sound (sound : Sound state) (offset count : Nat) :
    Sound (advanceEach state offset count) := by
  induction count generalizing state offset with
  | zero => exact sound
  | succ count ih => exact ih (sound_advance state offset) (offset + 1)

theorem advanceEach_offset (state : CommittedState) (offset count : Nat) :
    (advanceEach state offset (count + 1)).replicatedTxOffset = some (offset + count) := by
  induction count generalizing state offset with
  | zero => rfl
  | succ count ih =>
    rw [advanceEach, ih, Nat.add_right_comm, Nat.add_assoc]

end AdvanceEach

/-- What is replicated, as a view. -/
def shown (state : CommittedState) : View String String := fun key => state.replicatedState.lookup key

/-- As long as writes wait, the newest one is the newest of the log. -/
theorem get_remaining {state : CommittedState} (sound : Sound state) {start : Nat}
    {log : List (WriteSet String String)} {key : String}
    (remaining : waiting state key <:+ history start log key) (view : View String String) :
    state.get key .memory = some (if waiting state key = [] then shown state key
      else replay log view key) := by
  rw [get_waiting state key sound, replay_eq_last start]
  by_cases none : waiting state key = []
  · rw [if_pos none, none]
    rfl
  · obtain ⟨earlier, whole⟩ := remaining
    obtain ⟨entry, last⟩ := Option.ne_none_iff_exists'.mp (mt List.getLast?_eq_none_iff.mp none)
    rw [if_neg none, ← whole, List.getLast?_append, last]
    rfl

section Own
variable {before : CommittedState} {position : Nat} (drained : before.committedDiff = ∅)
  (next : before.nextTxOffset = position + 1)
  (own : List ClientTx) (key : String)
include drained next

theorem own_waiting :
    waiting (committedAll own before) key = history (position + 1) (own.map writeSet) key := by
  have none : waiting before key = [] := by
    rw [waiting, historyOf, drained]
    rfl
  rw [committedAll_waiting, none, next]
  rfl

theorem advance_own {count : Nat} (within : count ≤ own.length) :
    shown ((committedAll own before).advanceReplicatedDurabilityOffset (position + count)) key =
        replay ((own.take count).map writeSet) (shown before) key ∧
      waiting ((committedAll own before).advanceReplicatedDurabilityOffset (position + count)) key =
        (history (position + 1 + count) ((own.drop count).map writeSet) key).tail := by
  have cut : position + count + 1 = position + 1 + count := Nat.add_right_comm position count 1
  have length : ((own.map writeSet).take count).length = count := by
    rw [List.length_take, List.length_map, Nat.min_eq_left within]
  constructor
  · have taken := advance_taken (committedAll own before) (position + count) key
    rw [own_waiting drained next, cut, history_takeWhile, (committedAll_same before own).2] at taken
    rw [List.map_take, replay_eq_last (position + 1)]
    exact taken
  · rw [advance_waiting, own_waiting drained next, cut, history_dropWhile, length, List.map_drop]

/-- Only the first advance finds a write at its offset: from then on the oldest
write that waits is always later than the offset that comes. -/
theorem advanceEach_own (some_own : 1 ≤ own.length) (count : Nat) :
    shown (advanceEach (committedAll own before) (position + 1) (count + 1)) key =
        replay ((own.take 1).map writeSet) (shown before) key ∧
      waiting (advanceEach (committedAll own before) (position + 1) (count + 1)) key =
        (history (position + 1 + 1) ((own.drop 1).map writeSet) key).drop (count + 1) := by
  obtain ⟨taken, left⟩ := advance_own drained next own key some_own
  have late : Late (position + 1 + 1)
      (history (position + 1 + 1) ((own.drop 1).map writeSet) key).tail := by
    intro index entry found
    rw [List.getElem?_tail] at found
    have later := history_index found
    omega
  obtain ⟨dropped, same⟩ := advanceEach_late (left ▸ late) count
  refine ⟨same.trans taken, ?_⟩
  rw [left, List.drop_tail] at dropped
  exact dropped

end Own

/-- What one advance over the decided entries, and one for each of them, make of a
key is the same: the later ones write nothing new, and no write that waits is
thrown away by one of the two alone. -/
structure Unharmed (own : List ClientTx) (decided : Nat) (view : View String String) (key : String) :
    Prop where
  replicated : replay ((own.take decided).map writeSet) view key =
    replay ((own.take 1).map writeSet) view key
  memory : replay (own.map writeSet) view key = replay ((own.take decided).map writeSet) view key ∨
    writers ((own.drop decided).map writeSet) key ≤ 1 ∨ decided < writers ((own.drop 1).map writeSet) key

theorem own_suffix (start : Nat) (own : List ClientTx) (key : String) {cut : Nat}
    (within : cut ≤ own.length) :
    history (start + cut) ((own.drop cut).map writeSet) key <:+ history start (own.map writeSet) key := by
  refine ⟨history start ((own.take cut).map writeSet) key, ?_⟩
  have length : ((own.take cut).map writeSet).length = cut := by
    rw [List.length_map, List.length_take, Nat.min_eq_left within]
  have whole := history_append start ((own.take cut).map writeSet) ((own.drop cut).map writeSet) key
  rw [length, ← List.map_append, List.take_append_drop] at whole
  exact whole.symm

/-- The two conditions say where no write waits any more. -/
theorem newest_agrees_iff {first second : Prop} [Decidable first] [Decidable second] {α : Type}
    {replicated newest : α} (fewer : first → second) :
    (if first then replicated else newest) = (if second then replicated else newest) ↔
      newest = replicated ∨ first ∨ ¬ second := by
  by_cases drained : first
  · rw [if_pos drained, if_pos (fewer drained)]
    exact iff_of_true rfl (.inr (.inl drained))
  · rw [if_neg drained]
    by_cases thrown : second
    · rw [if_pos thrown]
      exact (or_iff_left (not_or.mpr ⟨drained, not_not_intro thrown⟩)).symm
    · rw [if_neg thrown]
      exact iff_of_true rfl (.inr (.inr thrown))

section Same
variable {before : CommittedState} {position : Nat} (drained : before.committedDiff = ∅)
  (next : before.nextTxOffset = position + 1)
  (own : List ClientTx) (key : String)
include drained next

theorem advance_memory {count : Nat} (within : count ≤ own.length) :
    ((committedAll own before).advanceReplicatedDurabilityOffset (position + count)).get key .memory =
      some (if writers ((own.drop count).map writeSet) key ≤ 1 then replay
        ((own.take count).map writeSet) (shown before) key
        else replay (own.map writeSet) (shown before) key) := by
  obtain ⟨taken, left⟩ := advance_own drained next own key within
  have remaining := (List.tail_suffix _).trans (own_suffix (position + 1) own key within)
  rw [← left] at remaining
  have none :
      waiting ((committedAll own before).advanceReplicatedDurabilityOffset (position + count)) key = [] ↔
      writers ((own.drop count).map writeSet) key ≤ 1 := by
    rw [left, ← List.length_eq_zero_iff, List.length_tail, history_length]
    omega
  rw [get_remaining (sound_advance _ _) remaining (shown before), taken]
  simp only [none]

theorem advanceEach_memory {count : Nat} (some_own : 1 ≤ own.length) :
    (advanceEach (committedAll own before) (position + 1) (count + 1)).get key .memory =
      some (if writers ((own.drop 1).map writeSet) key ≤ count + 1 then replay
        ((own.take 1).map writeSet) (shown before) key
        else replay (own.map writeSet) (shown before) key) := by
  obtain ⟨taken, left⟩ := advanceEach_own drained next own key some_own count
  have remaining := (List.drop_suffix (count + 1) _).trans (own_suffix (position + 1) own key some_own)
  rw [← left] at remaining
  have none : waiting (advanceEach (committedAll own before) (position + 1) (count + 1)) key = [] ↔
      writers ((own.drop 1).map writeSet) key ≤ count + 1 := by
    rw [left, List.drop_eq_nil_iff, history_length]
  have sound := committedAll_sound before (sound_of_drained drained) own
  rw [get_remaining (advanceEach_sound sound _ _) remaining (shown before), taken]
  simp only [none]

theorem same_key_iff {count : Nat} (within : count + 1 ≤ own.length) :
    (∀ level, ((committedAll own before).advanceReplicatedDurabilityOffset (position + (count + 1))).get
      key level =
        (advanceEach (committedAll own before) (position + 1) (count + 1)).get key level) ↔
      Unharmed own (count + 1) (shown before) key := by
  have some_own : 1 ≤ own.length := by omega
  have direct := advance_memory drained next own key within
  have each := @advanceEach_memory before position drained next own key count some_own
  have taken := (advance_own drained next own key within).1
  have first := (advanceEach_own drained next own key some_own count).1
  have replicated : ((committedAll own before).advanceReplicatedDurabilityOffset
      (position + (count + 1))).get key .replicated =
      (advanceEach (committedAll own before) (position + 1) (count + 1)).get key .replicated ↔
        replay ((own.take (count + 1)).map writeSet) (shown before) key =
          replay ((own.take 1).map writeSet) (shown before) key := by
    rw [get_replicated, get_replicated, Option.some.injEq]
    exact Eq.congr taken first
  have fewer : writers ((own.drop (count + 1)).map writeSet) key ≤ 1 →
      writers ((own.drop 1).map writeSet) key ≤ count + 1 := by
    intro few
    have dropped := writers_drop ((own.drop 1).map writeSet) key count
    rw [← List.map_drop, List.drop_drop, Nat.add_comm 1 count] at dropped
    exact dropped.trans (Nat.add_le_add_left few count)
  constructor
  · intro same
    have equal := replicated.mp (same .replicated)
    have memory := same .memory
    rw [direct, each, Option.some.injEq, ← equal, newest_agrees_iff fewer, Nat.not_le] at memory
    exact ⟨equal, memory⟩
  · intro ⟨equal, kept⟩ level
    cases level with
    | replicated => exact replicated.mpr equal
    | memory =>
      rw [direct, each, Option.some.injEq, ← equal, newest_agrees_iff fewer, Nat.not_le]
      exact kept

end Same

section Branches
variable [BuildProfile]

/-- While more is committed than is decided, each replay is refused, and each entry
is advanced to all the same. -/
theorem refused_entries {entries : List DatabaseLogEntry} {state : CommittedState} {offset : Nat}
    (positions : ∀ position entry, entries[position]? = some entry → entry.txOffset = offset + 1 + position)
    (replicated : state.replicatedTxOffset = some offset)
    (ahead : offset + entries.length < state.nextTxOffset) :
    ∃ replays, applyEntries entries (state, some offset) =
      some ((advanceEach state (offset + 1) entries.length, some (offset + entries.length)), replays) := by
  induction entries generalizing state offset with
  | nil => exact ⟨[], rfl⟩
  | cons entry entries ih =>
    rw [List.length_cons] at ahead
    have first : entry.txOffset = offset + 1 := positions 0 entry rfl
    have behind : ¬ state.caughtUp = true := by
      simp only [CommittedState.caughtUp, replicated, beq_iff_eq]
      omega
    have refused : replayTransaction entry.txData state =
        some (state, .error .invalidDurabilityOffset) := by
      rw [replayTransaction, if_neg behind]
    have later : ∀ position other, entries[position]? = some other →
        other.txOffset = offset + 1 + 1 + position := by
      intro position other found
      rw [positions (position + 1) other found]
      omega
    obtain ⟨replays, rest⟩ :=
      @ih (state.advanceReplicatedDurabilityOffset (offset + 1)) (offset + 1) later rfl (by
      rw [advance_next]
      omega)
    have reached : offset + 1 + entries.length = offset + (entries.length + 1) :=
      Nat.add_right_comm offset 1 entries.length
    rw [reached] at rest
    refine ⟨.error .invalidDurabilityOffset :: replays, ?_⟩
    simp only [applyEntries, applyEntry, refused, Option.map_some, Option.bind_some, first, rest]
    rfl

def appended (results : List TxResult) : List DatabaseLogEntry :=
  results.map fun result => OmniPaxosDurability.appendTx result.txOffset result.txData

/-- A leader in sync at `position` that has committed transactions of its own, of
which the first ones are decided. -/
structure Leads (node : Node) (omnipaxos : OmniPaxos) (base : List DatabaseLogEntry) (position : Nat)
    (before : CommittedState) (own : List ClientTx) (decided : Nat) : Prop where
  leader : omnipaxos.currentLeader = some node.nodeId
  positioned : Positioned base
  length : base.length = position + 1
  sync : InSync base (before, node.lastAppliedIndex) (position + 1)
  commits : ∃ results, executeAll own before = some (results, node.datastore) ∧
    omnipaxos.Decides (base ++ (appended results).take decided)
  some_decided : 1 ≤ decided
  within : decided ≤ own.length

/-- The transactions as the log holds them. -/
def logged (position : Nat) (own : List ClientTx) : List DatabaseLogEntry :=
  own.mapIdx fun index tx => ⟨position + 1 + index, payload tx⟩

omit [BuildProfile] in
theorem logged_offset {position index : Nat} {own : List ClientTx} {entry : DatabaseLogEntry}
    (found : (logged position own)[index]? = some entry) : entry.txOffset = position + 1 + index := by
  rw [logged, List.getElem?_mapIdx] at found
  obtain ⟨tx, _, rfl⟩ := Option.map_eq_some_iff.mp found
  rfl

omit [BuildProfile] in
theorem appended_logged (position : Nat) (own : List ClientTx) :
    appended (own.mapIdx fun index tx => ⟨position + 1 + index, payload tx⟩) = logged position own := by
  apply List.ext_getElem?
  intro index
  rw [appended, logged, List.getElem?_map, List.getElem?_mapIdx, List.getElem?_mapIdx, Option.map_map]
  rfl

section
variable {node : Node} {omnipaxos : OmniPaxos} {base : List DatabaseLogEntry} {position decided : Nat}
  {before : CommittedState}
  {own : List ClientTx} (leads : Leads node omnipaxos base position before own decided)
include leads

theorem Leads.holds :
    node.datastore = committedAll own before ∧
      omnipaxos.Decides (base ++ (logged position own).take decided) := by
  obtain ⟨results, executed, decides⟩ := leads.commits
  have next : before.nextTxOffset = position + 1 := leads.sync.next
  rw [executeAll_eq leads.sync.sound own, next] at executed
  obtain ⟨rfl, same⟩ := Prod.mk.inj (Option.some.inj executed)
  exact ⟨same.symm, appended_logged position own ▸ decides⟩

theorem Leads.log : (base ++ (logged position own).take decided).length = position + decided + 1 ∧
    (base ++ (logged position own).take decided).drop (position + 1) = (logged position own).take decided ∧
    Positioned (base ++ (logged position own).take decided) := by
  have length := leads.length
  have within := leads.within
  refine ⟨?_, ?_, ?_⟩
  · rw [List.length_append, List.length_take, logged, List.length_mapIdx, length]
    omega
  · rw [← length, List.drop_left]
  · intro place entry found
    by_cases inside : place < base.length
    · rw [List.getElem?_append_left inside] at found
      exact leads.positioned place entry found
    · rw [List.getElem?_append_right (Nat.le_of_not_lt inside), List.getElem?_take] at found
      split at found
      · have offset := logged_offset found
        omega
      · cases found

/-- What the own transactions write is what their entries write where they are replayed. -/
theorem Leads.application (fits : ∀ tx ∈ own.take decided, TxFits tx) : ∃ rows,
    applyLog (base ++ (logged position own).take decided) ∅ = some rows ∧
      ∀ key, rows.lookup key = replay ((own.take decided).map writeSet) (shown before) key := by
  have applied := leads.sync.applied
  rw [List.take_of_length_le (Nat.le_of_eq leads.length)] at applied
  have payloads : ((logged position own).take decided).map DatabaseLogEntry.txData =
      (own.take decided).map payload := by
    apply List.ext_getElem?
    intro index
    simp only [logged, List.map_take, List.getElem?_take, List.getElem?_map,
      List.getElem?_mapIdx, Option.map_map]
    rfl
  obtain ⟨rows, own_applied, view⟩ := applyLog_payloads payloads fits before.replicatedState
  refine ⟨rows, ?_, view⟩
  rw [applyLog_append, applied, Option.bind_some]
  exact own_applied

theorem Leads.index : node.lastAppliedIndex = some position := leads.sync.index

theorem Leads.ahead : node.datastore.nextTxOffset = position + 1 + own.length := by
  rw [leads.holds.1, committedAll_next, leads.sync.next]

theorem Leads.bulk {flag : Bool}
    (mode : Node.takesFromMemory { node with gotPromotedLeader := flag } omnipaxos = some true) :
    Node.applyReplicatedTxns { node with gotPromotedLeader := flag } omnipaxos =
      some ({ withCore node
        ((committedAll own before).advanceReplicatedDurabilityOffset (position + decided),
          some (position + decided)) with
        gotPromotedLeader := false }, []) := by
  obtain ⟨length, _, positioned⟩ := leads.log
  obtain ⟨datastore, decides⟩ := leads.holds
  have some_decided := leads.some_decided
  have behind : node.lastAppliedIndex ≠ some (position + decided) := by
    rw [leads.index]
    intro same
    have := Option.some.inj same
    omega
  have advanced : Node.applyReplicatedTxns { node with gotPromotedLeader := flag } omnipaxos = _ :=
    apply_advances decides positioned length behind mode
  rw [advanced, datastore]
  rfl

theorem Leads.mode :
    Node.takesFromMemory { node with gotPromotedLeader := true } omnipaxos =
      some (decided == own.length) := by
  obtain ⟨length, _, positioned⟩ := leads.log
  have current : node.datastore.getCurOffset = some (position + own.length) := by
    rw [CommittedState.getCurOffset, leads.ahead, if_neg (by omega)]
    congr 1
    omega
  have compared : Node.takesFromMemory { node with gotPromotedLeader := true } omnipaxos = _ :=
    takesFromMemory_promoted leads.holds.2 positioned leads.leader rfl
  rw [compared, current, length]
  simp only [lastOffset, Option.bind_some, Option.map_some, Option.some.injEq]
  rw [Bool.eq_iff_iff, beq_iff_eq, beq_iff_eq]
  omega

theorem Leads.refused (lagging : decided ≠ own.length) : ∃ replays,
    Node.applyReplicatedTxns { node with gotPromotedLeader := true } omnipaxos =
      some ({ withCore node (advanceEach (committedAll own before) (position + 1) decided,
        some (position + decided)) with
        gotPromotedLeader := false }, replays) := by
  obtain ⟨length, rest, positioned⟩ := leads.log
  obtain ⟨datastore, decides⟩ := leads.holds
  have within := leads.within
  have mode := leads.mode
  rw [beq_false_of_ne lagging] at mode
  have nonempty : base ++ (logged position own).take decided ≠ [] := by
    intro empty
    rw [empty] at length
    cases length
  have behind : node.lastAppliedIndex ≠ lastOffset (base ++ (logged position own).take decided).length := by
    rw [leads.index, length]
    intro same
    have := Option.some.inj same
    have := leads.some_decided
    omega
  have count : ((logged position own).take decided).length = decided := by
    rw [List.length_take, logged, List.length_mapIdx, Nat.min_eq_left within]
  have offset : node.datastore.replicatedTxOffset = some position := by
    rw [datastore, (committedAll_same before own).1]
    exact leads.sync.offset
  have positions :=
    @forall_take _ (fun place entry => entry.txOffset = position + 1 + place) (logged position own)
    (fun _ _ => logged_offset) decided
  obtain ⟨replays, applied⟩ := refused_entries positions offset (by
    rw [count, leads.ahead]
    omega)
  refine ⟨replays, ?_⟩
  have replayed : Node.applyReplicatedTxns { node with gotPromotedLeader := true } omnipaxos = _ :=
    apply_replays decides positioned nonempty behind mode
  have start : core { node with gotPromotedLeader := true } = (node.datastore, some position) :=
    congrArg _ leads.index
  have resumed : node.lastAppliedIndex.getD 0 + 1 = position + 1 := by
    rw [leads.index]
    rfl
  rw [replayed, resumed, rest, start, applied, count, datastore]
  rfl

end

/-- One call ends in the same views, offsets and applied index, marked as promoted or
not, and what it replicates is the application of the decided entries. -/
def BranchesAgree (node : Node) (omnipaxos : OmniPaxos) (application : View String String) : Prop :=
  ∃ direct promoted replays refusals,
    Node.applyReplicatedTxns { node with gotPromotedLeader := false } omnipaxos = some (direct, replays) ∧
    Node.applyReplicatedTxns { node with gotPromotedLeader := true } omnipaxos = some (promoted, refusals) ∧
    (∀ key level, direct.datastore.get key level = promoted.datastore.get key level) ∧
    direct.datastore.nextTxOffset = promoted.datastore.nextTxOffset ∧
    direct.datastore.getReplicatedOffset = promoted.datastore.getReplicatedOffset ∧
    direct.lastAppliedIndex = promoted.lastAppliedIndex ∧
    ∀ key, direct.datastore.get key .replicated = some (application key) ∧
      promoted.datastore.get key .replicated = some (application key)

theorem branches_agree_iff {node : Node} {omnipaxos : OmniPaxos} {base : List DatabaseLogEntry}
    {position decided : Nat} {before : CommittedState} {own : List ClientTx}
    (leads : Leads node omnipaxos base position before own decided) :
    BranchesAgree node omnipaxos (replay ((own.take decided).map writeSet) (shown before)) ↔
      decided = own.length ∨ ∀ key, Unharmed own decided (shown before) key := by
  have drained : before.committedDiff = ∅ := leads.sync.drained
  have next : before.nextTxOffset = position + 1 := leads.sync.next
  have unmarked : Node.takesFromMemory { node with gotPromotedLeader := false } omnipaxos = some true :=
    takesFromMemory_leader leads.leader rfl
  have direct := leads.bulk unmarked
  have applied
      (key : String) : ((committedAll own before).advanceReplicatedDurabilityOffset
        (position + decided)).get key .replicated =
      some (replay ((own.take decided).map writeSet) (shown before) key) :=
    (get_replicated _ key).trans (congrArg some (advance_own drained next own key leads.within).1)
  by_cases all : decided = own.length
  · refine iff_of_true ?_ (.inl all)
    have promoted := leads.bulk (leads.mode.trans (congrArg some (beq_iff_eq.mpr all)))
    exact ⟨_, _, _, _, direct, promoted, fun _ _ => rfl, rfl, rfl, rfl,
      fun key => ⟨applied key, applied key⟩⟩
  · obtain ⟨refusals, promoted⟩ := leads.refused all
    obtain ⟨count, rfl⟩ := Nat.exists_eq_add_of_le' leads.some_decided
    constructor
    · intro ⟨first, second, _, _, ran, replayed, same, _⟩
      rw [direct] at ran
      rw [promoted] at replayed
      obtain ⟨rfl, _⟩ := Prod.mk.inj (Option.some.inj ran)
      obtain ⟨rfl, _⟩ := Prod.mk.inj (Option.some.inj replayed)
      exact .inr fun key => (same_key_iff drained next own key leads.within).mp (same key)
    · intro condition
      have same (key : String) :=
        (same_key_iff drained next own key leads.within).mpr (condition.resolve_left all key)
      refine ⟨_, _, _, _, direct, promoted, same, ?_, ?_, rfl,
        fun key => ⟨applied key, (same key .replicated).symm.trans (applied key)⟩⟩
      · exact (advanceEach_next (committedAll own before) (position + 1) (count + 1)).symm
      · have marked := advanceEach_offset (committedAll own before) (position + 1) count
        rw [Nat.add_right_comm, Nat.add_assoc] at marked
        exact marked.symm

end Branches

section Sample

def base : List DatabaseLogEntry := logOf [put "z" "0"]

def synced : CommittedState := (committed (put "z" "0") .new).advanceReplicatedDurabilityOffset 0

def leader (own : List ClientTx) : Node := ⟨1, committedAll own synced, some 0, some 1, false⟩

def decidedLog (own : List ClientTx) (decided : Nat) : OmniPaxos :=
  .ofLog (some 1) (base ++ logged 0 own) (decided + 1)

theorem leads_sample [BuildProfile] {own : List ClientTx} {decided : Nat} (some_decided : 1 ≤ decided)
    (within : decided ≤ own.length) :
    Leads (leader own) (decidedLog own decided) base 0 synced own decided := by
  have settled := settled_new.advance_all [put "z" "0"] 0 rfl
  have fits : ∀ tx ∈ [put "z" "0"], TxFits tx := by decide
  have longer : decided + 1 ≤ (base ++ logged 0 own).length := by
    rw [List.length_append, logged, List.length_mapIdx]
    exact Nat.add_comm decided 1 ▸ Nat.add_le_add_left within 1
  refine ⟨rfl, logOf_positioned _, rfl,
    ⟨applied_of_view fits settled.view, settled.drained, settled.next, settled.offset, rfl⟩, ?_,
    some_decided, within⟩
  have sound : Sound synced := settled.sound
  refine ⟨_, executeAll_eq sound own, ?_⟩
  have same : appended (own.mapIdx fun index tx => ⟨synced.nextTxOffset + index, payload tx⟩) =
      logged 0 own := appended_logged 0 own
  rw [same]
  exact ofLog_decides (some 1) longer

theorem branches_agree_iff_one_decided :
    @BranchesAgree ⟨true⟩ (leader [put "a" "1", put "a" "2", put "b" "3"])
    (decidedLog [put "a" "1", put "a" "2", put "b" "3"] 1)
      (replay [writeSet (put "a" "1")] (shown synced)) := by
  let : BuildProfile := ⟨true⟩
  have leads := @leads_sample _ [put "a" "1", put "a" "2", put "b" "3"] 1 (by decide) (by decide)
  refine (branches_agree_iff leads).mpr (.inr fun key => ⟨rfl, ?_⟩)
  exact .inr (Nat.lt_or_ge 1 _).symm

/-- Two of three transactions are decided. One advance over both replicates the
second write to `a`; with one advance for each, the first one throws it away. -/
theorem branches_differ :
    @Leads ⟨true⟩ (leader [put "a" "1", put "a" "2", put "b" "3"])
      (decidedLog [put "a" "1", put "a" "2", put "b" "3"] 2) base 0 synced
        [put "a" "1", put "a" "2", put "b" "3"] 2 ∧
      ∃ direct promoted replays refusals,
        @Node.applyReplicatedTxns ⟨true⟩ (leader [put "a" "1", put "a" "2", put "b" "3"])
          (decidedLog [put "a" "1", put "a" "2", put "b" "3"] 2) = some (direct, replays) ∧
        @Node.applyReplicatedTxns ⟨true⟩
          { leader [put "a" "1", put "a" "2", put "b" "3"] with gotPromotedLeader := true }
          (decidedLog [put "a" "1", put "a" "2", put "b" "3"] 2) = some (promoted, refusals) ∧
        direct.datastore.get "a" .replicated = some (some "2") ∧
        promoted.datastore.get "a" .replicated = some (some "1") := by
  let : BuildProfile := ⟨true⟩
  exact ⟨leads_sample (by decide) (by decide), _, _, _, _, rfl, rfl, by decide, by decide⟩

end Sample

end OmniSpacetimeDb.Proofs.ApplyBranches
