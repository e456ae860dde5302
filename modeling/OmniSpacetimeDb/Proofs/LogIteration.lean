import OmniSpacetimeDb.Proofs.StoreReplay
import OmniSpacetimeDb.Durability.OmniPaxosDurability

/-! What the durability layer reads of a log whose decided prefix is known. -/

namespace OmniSpacetimeDb.Proofs.LogIteration
open Foundations Datastore Durability OmniPaxosDurability Store StoreRefinement StoreReplay

/-- Every entry carries its position as its offset. -/
def Positioned (log : List DatabaseLogEntry) : Prop :=
  ∀ (position : Nat) (entry : DatabaseLogEntry), log[position]? = some entry → entry.txOffset = position

theorem positioned_nil : Positioned [] := by
  intro position entry found
  cases found

section Positions
variable {α : Type} {holds : Nat → α → Prop} {log : List α}

theorem forall_take
    (each : ∀ (position : Nat) (item : α), log[position]? = some item → holds position item)
    (count : Nat) :
    ∀ (position : Nat) (item : α), (log.take count)[position]? = some item → holds position item := by
  intro position item found
  rw [List.getElem?_take] at found
  split at found
  · exact each position item found
  · cases found

theorem forall_snoc_iff {last : α} :
    (∀ (position : Nat) (item : α), (log ++ [last])[position]? = some item → holds position item) ↔
      (∀ (position : Nat) (item : α), log[position]? = some item → holds position item) ∧
        holds log.length last := by
  constructor
  · intro each
    have shorter := forall_take each log.length
    rw [List.take_left] at shorter
    exact ⟨shorter, each log.length last List.getElem?_concat_length⟩
  · rintro ⟨each, final⟩ position item found
    rcases Nat.lt_trichotomy position log.length with inside | rfl | beyond
    · rw [List.getElem?_append_left inside] at found
      exact each position item found
    · cases List.getElem?_concat_length.symm.trans found
      exact final
    · rw [List.getElem?_eq_none (by rw [List.length_append]; exact beyond)] at found
      cases found

end Positions

theorem Positioned.take {log : List DatabaseLogEntry} (positioned : Positioned log) (count : Nat) :
    Positioned (log.take count) :=
  forall_take positioned count

theorem positioned_snoc_iff {log : List DatabaseLogEntry} {entry : DatabaseLogEntry} :
    Positioned (log ++ [entry]) ↔ Positioned log ∧ entry.txOffset = log.length := forall_snoc_iff

theorem Positioned.below {log : List DatabaseLogEntry} (positioned : Positioned log)
    {entry : DatabaseLogEntry} (member : entry ∈ log) : entry.txOffset < log.length := by
  obtain ⟨position, found⟩ := List.mem_iff_getElem?.mp member
  rw [positioned position entry found]
  exact (List.getElem?_eq_some_iff.mp found).1

theorem Positioned.last {log : List DatabaseLogEntry} (positioned : Positioned log) :
    log.getLast?.map DatabaseLogEntry.txOffset = lastOffset log.length := by
  rcases List.eq_nil_or_concat log with rfl | ⟨earlier, entry, rfl⟩
  · rfl
  · have offset := positioned earlier.length entry (by simp)
    simp [lastOffset, offset]

section Iteration
variable {durability : OmniPaxosDurability} {log : List DatabaseLogEntry}

private theorem read_decided (decides : durability.omnipaxos.Decides log) (position : Nat) :
    (durability.omnipaxos.read position).bind LogEntry.decided? = log[position]? := by
  cases found : log[position]? with
  | some entry =>
    rw [decides.below position entry found]
    rfl
  | none =>
    have beyond := decides.beyond position
    cases read : durability.omnipaxos.read position with
    | none => rfl
    | some logEntry =>
      cases logEntry with
      | decided entry => exact absurd read (beyond entry (List.getElem?_eq_none_iff.mp found))
      | undecided entry => rfl

private theorem range_drop {α : Type} (list : List α) (read : Nat → Option α)
    (agrees : ∀ index, read index = list[index]?) (start count : Nat)
    (enough : list.length ≤ start + count) :
    (List.range' start count).filterMap read = list.drop start := by
  induction count generalizing start with
  | zero =>
    symm
    exact List.drop_eq_nil_of_le enough
  | succ count ih =>
    have rest := ih (start + 1) (by omega)
    rw [List.range'_succ, List.filterMap_cons, agrees, rest]
    by_cases inside : start < list.length
    · rw [List.getElem?_eq_getElem inside]
      exact (List.drop_eq_getElem_cons inside).symm
    · rw [List.getElem?_eq_none (by omega), List.drop_eq_nil_of_le (by omega : list.length ≤ start)]
      exact List.drop_eq_nil_of_le (by omega)

theorem optional_eq (decides : durability.omnipaxos.Decides log) :
    durability.getDurableTxOffsetOptional = log.getLast?.map DatabaseLogEntry.txOffset := by
  have last : lastDecided durability.omnipaxos = log.length - 1 := by
    rw [lastDecided, decides.length]
    split <;> omega
  have read := read_decided decides (log.length - 1)
  rw [getDurableTxOffsetOptional, last, List.getLast?_eq_getElem?, ← read]
  cases durability.omnipaxos.read (log.length - 1) with
  | none => rfl
  | some logEntry => cases logEntry <;> rfl

private theorem read_range (decides : durability.omnipaxos.Decides log) (start count : Nat)
    (enough : log.length ≤ start + count) :
    ((List.range' start count).filterMap durability.omnipaxos.read).filterMap
      (fun logEntry => logEntry.decided?.map DatabaseLogEntry.transaction) =
        (log.drop start).map DatabaseLogEntry.transaction := by
  rw [← range_drop log _ (read_decided decides) start count enough, List.map_filterMap,
    List.filterMap_filterMap]
  congr 1
  funext position
  cases durability.omnipaxos.read position <;> rfl

theorem decided_ne_zero {omnipaxos : OmniPaxos} (decides : omnipaxos.Decides log)
    (some_decided : log ≠ []) : omnipaxos.decidedIdx ≠ 0 := by
  rw [decides.length]
  exact mt List.eq_nil_of_length_eq_zero some_decided

/-- The iteration starts after the given offset, and yields what is decided from there. -/
theorem iterStartingFromOffset_eq (durability : OmniPaxosDurability) {log : List DatabaseLogEntry}
    (decides : durability.omnipaxos.Decides log) (some_decided : log ≠ []) (offset : Nat) :
    durability.iterStartingFromOffset offset =
      some ((log.drop (offset + 1)).map DatabaseLogEntry.transaction) := by
  have positive := decided_ne_zero decides some_decided
  have enough : log.length ≤ offset + 1 + (durability.omnipaxos.decidedIdx - offset) := by
    rw [decides.length]
    omega
  simp only [iterStartingFromOffset, if_neg positive, Option.bind_eq_bind, Option.bind_some,
    read_range decides (offset + 1) _ enough]
  rfl

end Iteration

theorem ofLog_decides (currentLeader : Option NodeId) {log : List DatabaseLogEntry} {decidedIdx : Nat}
    (within : decidedIdx ≤ log.length) :
    (OmniPaxos.ofLog currentLeader log decidedIdx).Decides (log.take decidedIdx) := by
  refine ⟨?_, ?_, ?_⟩
  · rw [List.length_take, Nat.min_eq_left within]
    rfl
  · intro position entry found
    rw [List.getElem?_take] at found
    split at found
    next below => simp only [OmniPaxos.ofLog, found, Option.map_some, if_pos below]
    next => cases found
  · intro position entry beyond
    rw [List.length_take, Nat.min_eq_left within] at beyond
    cases found : log[position]? <;> simp [OmniPaxos.ofLog, found, Nat.not_lt.mpr beyond]

/-- The log that commits on a fresh store append. -/
def logOf (txs : List ClientTx) : List DatabaseLogEntry :=
  txs.mapIdx fun position tx => ⟨position, payload tx⟩

theorem logOf_positioned (txs : List ClientTx) : Positioned (logOf txs) := by
  intro position entry found
  rw [logOf, List.getElem?_mapIdx] at found
  obtain ⟨tx, _, rfl⟩ := Option.map_eq_some_iff.mp found
  rfl

theorem logOf_take (txs : List ClientTx) (count : Nat) :
    (logOf txs).take count = logOf (txs.take count) := by
  apply List.ext_getElem?
  intro position
  simp only [logOf, List.getElem?_take, List.getElem?_mapIdx]
  split <;> rfl

@[simp] theorem logOf_length (txs : List ClientTx) : (logOf txs).length = txs.length := List.length_mapIdx

section Complete
variable (currentLeader : Option NodeId) {log : List DatabaseLogEntry} {decidedIdx : Nat} (nodeId : NodeId)

/-- The durability layer over a log with this decided prefix. -/
def layer (log : List DatabaseLogEntry) (decidedIdx : Nat) : OmniPaxosDurability :=
  ⟨.ofLog currentLeader log decidedIdx, nodeId⟩

variable (within : decidedIdx ≤ log.length)
include within

theorem iterate_decided (some_decided : 1 ≤ decidedIdx) (offset : Nat) :
    (layer currentLeader nodeId log decidedIdx).iterStartingFromOffset offset =
      some (((log.take decidedIdx).drop (offset + 1)).map DatabaseLogEntry.transaction) := by
  apply iterStartingFromOffset_eq
  · exact ofLog_decides currentLeader within
  · intro empty
    have length := congrArg List.length empty
    rw [List.length_take, List.length_nil, Nat.min_eq_left within] at length
    omega

omit within in
theorem iterate_undecided (offset : Nat) :
    (layer currentLeader nodeId log 0).iterStartingFromOffset offset =
      if offset < log.length then some [] else none := by
  split
  next inside => simp [iterStartingFromOffset, layer, OmniPaxos.ofLog,
    List.getElem?_eq_getElem inside, LogEntry.decided?]
  next beyond => simp [iterStartingFromOffset, layer, OmniPaxos.ofLog,
    List.getElem?_eq_none (Nat.le_of_not_lt beyond)]

variable [BuildProfile] {offset : UInt64}

omit within in
theorem iterate64_eq (durability : OmniPaxosDurability) (fits : offset.toNat + 1 < 2 ^ 64) :
    durability.iterStartingFromOffset64 offset = durability.iterStartingFromOffset offset.toNat := by
  have next : (offset + 1).toNat = offset.toNat + 1 := by
    rw [UInt64.toNat_add]
    exact Nat.mod_eq_of_lt fits
  simp only [iterStartingFromOffset64, iterStartingFromOffset, nextOffset, if_pos fits, Option.map_some,
    next, Nat.add_sub_add_right]

omit within in
theorem iterate64_overflow (durability : OmniPaxosDurability) {decided : List DatabaseLogEntry}
    (decides : durability.omnipaxos.Decides decided) (some_decided : decided ≠ [])
    (last : ¬ offset.toNat + 1 < 2 ^ 64) : durability.iterStartingFromOffset64 offset =
      if BuildProfile.overflowChecks then none else some (decided.map DatabaseLogEntry.transaction) := by
  have positive := decided_ne_zero decides some_decided
  simp only [iterStartingFromOffset64, if_neg positive, nextOffset, if_neg last]
  split
  · rfl
  · have enough : decided.length ≤ 0 + (durability.omnipaxos.decidedIdx + 1 - 0) := by
      rw [decides.length]
      omega
    have all := read_range decides 0 _ enough
    simp only [Option.map_some, Option.bind_eq_bind, Option.bind_some]
    exact congrArg some all

omit within [BuildProfile] in
private theorem shorter {start : Nat} (positive : 1 ≤ start) {entries : List DatabaseLogEntry}
    (some_entry : entries ≠ []) :
    (entries.drop start).map DatabaseLogEntry.transaction ≠ entries.map DatabaseLogEntry.transaction := by
  intro same
  have length := congrArg List.length same
  have := List.length_pos_of_ne_nil some_entry
  rw [List.length_map, List.length_map, List.length_drop] at length
  omega

/-- When each of the two iterations yields the decided entries it is asked for,
all of them or those after an offset. -/
theorem iteration_complete_iff :
    ((layer currentLeader nodeId log decidedIdx).iter =
      some ((log.take decidedIdx).map DatabaseLogEntry.transaction) ↔
      decidedIdx = 0 ∧ log ≠ []) ∧
    ∀ offset : UInt64, (layer currentLeader nodeId log decidedIdx).iterStartingFromOffset64 offset =
        some (((log.take decidedIdx).drop (offset.toNat + 1)).map DatabaseLogEntry.transaction) ↔
      1 ≤ decidedIdx ∧ offset.toNat + 1 < 2 ^ 64 ∨ decidedIdx = 0 ∧ offset.toNat < log.length := by
  rcases Nat.eq_zero_or_pos decidedIdx with rfl | positive
  · have undecided := @iterate_undecided currentLeader log nodeId
    refine ⟨?_, ?_⟩
    · rw [iter, undecided, ← List.length_pos_iff]
      by_cases nonempty : 0 < log.length <;> simp [nonempty]
    · intro offset
      have same : (layer currentLeader nodeId log 0).iterStartingFromOffset64 offset =
          (layer currentLeader nodeId log 0).iterStartingFromOffset offset.toNat := rfl
      rw [same, undecided]
      by_cases inside : offset.toNat < log.length <;> simp [inside]
  · have decided := iterate_decided currentLeader nodeId within positive
    have nonempty : log.take decidedIdx ≠ [] := by
      rw [← List.length_pos_iff, List.length_take, Nat.min_eq_left within]
      exact positive
    refine ⟨?_, ?_⟩
    · rw [iter, decided]
      exact iff_of_false (fun same => shorter (Nat.le_refl 1) nonempty (Option.some.inj same))
        fun none => absurd none.1 (Nat.ne_of_gt positive)
    · intro offset
      by_cases fits : offset.toNat + 1 < 2 ^ 64
      · rw [iterate64_eq _ fits, decided]
        exact iff_of_true rfl (.inl ⟨positive, fits⟩)
      · rw [iterate64_overflow _ (ofLog_decides currentLeader within) nonempty fits]
        refine iff_of_false ?_ (by omega)
        split
        · exact (Option.some_ne_none _).symm
        · exact fun same => shorter (Nat.succ_pos _) nonempty (Option.some.inj same).symm

end Complete

theorem iteration_complete_iff_one_entry :
    @iterStartingFromOffset64 ⟨true⟩ (layer (some 1) 1 (logOf [put "a" "1"]) 1) 0 = some [] := by
  let : BuildProfile := ⟨true⟩
  exact ((iteration_complete_iff (some 1) 1 (by decide : 1 ≤ (logOf [put "a" "1"]).length)).2 0).mpr
    (.inl ⟨by decide, by decide⟩)

/-- The iteration from the start leaves out the only decided entry, and panics on an empty log. -/
theorem iteration_skips_first :
    (layer (some 1) 1 (logOf [put "a" "1"]) 1).iter ≠ some
      ((logOf [put "a" "1"]).map DatabaseLogEntry.transaction) ∧
    (layer (some 1) 1 [] 0).iter = none ∧
    @iterStartingFromOffset64 ⟨true⟩ (layer (some 1) 1 [] 0) 0 = none := by
  exact ⟨by decide, rfl, rfl⟩

end OmniSpacetimeDb.Proofs.LogIteration
