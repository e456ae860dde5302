import Mathlib.Data.List.Basic
import Mathlib.Data.List.TakeWhile

/-! A store as a log of write sets with a watermark. The two views of the store
replay the whole log or its replicated prefix; per-key histories hold the rest. -/

namespace Foundations

/-- The value of every key, `none` for a key that is absent. -/
abbrev View (κ ν : Type) := κ → Option ν

/-- The keys a transaction touches: `some none` removes a key. -/
abbrev WriteSet (κ ν : Type) := κ → Option (Option ν)

namespace WriteLog
variable {κ ν : Type}

def empty : View κ ν := fun _ => none

def overlay (writes : WriteSet κ ν) (view : View κ ν) : View κ ν :=
  fun key => (writes key).getD (view key)

def replay (log : List (WriteSet κ ν)) (view : View κ ν) : View κ ν :=
  log.foldl (fun view writes => overlay writes view) view

@[simp] theorem replay_nil (view : View κ ν) : replay [] view = view := rfl

theorem replay_append (log more : List (WriteSet κ ν)) (view : View κ ν) :
    replay (log ++ more) view = replay more (replay log view) := List.foldl_append

theorem replay_snoc (log : List (WriteSet κ ν)) (writes : WriteSet κ ν) (view : View κ ν) :
    replay (log ++ [writes]) view = overlay writes (replay log view) := replay_append log [writes] view

/-- The writes to one key, each with the position of its write set. -/
def history (start : Nat) : List (WriteSet κ ν) → κ → List (Nat × Option ν)
  | [], _ => []
  | writes :: log, key => (writes key).toList.map (start, ·) ++ history (start + 1) log key

theorem history_append (start : Nat) (log more : List (WriteSet κ ν)) (key : κ) :
    history start (log ++ more) key = history start log key ++ history (start + log.length) more key := by
  induction log generalizing start with
  | nil => simp [history]
  | cons writes log ih =>
    simp only [List.cons_append, history, List.length_cons, ih (start + 1), List.append_assoc]
    rw [Nat.add_assoc, Nat.add_comm 1 log.length]

theorem history_range {start : Nat} {log : List (WriteSet κ ν)} {key : κ} {entry : Nat × Option ν}
    (member : entry ∈ history start log key) : start ≤ entry.1 ∧ entry.1 < start + log.length := by
  induction log generalizing start with
  | nil => cases member
  | cons writes log ih =>
    simp only [history, List.mem_append, List.mem_map] at member
    rcases member with ⟨value, _, rfl⟩ | later
    · simp
    · have := ih later
      simp only [List.length_cons]
      omega

theorem history_unwritten {start : Nat} {log : List (WriteSet κ ν)} {key : κ}
    (unwritten : ∀ writes ∈ log, writes key = none) :
    history start log key = [] := by
  induction log generalizing start with
  | nil => rfl
  | cons writes log ih =>
    rw [history, unwritten writes List.mem_cons_self,
      ih fun other member => unwritten other (List.mem_cons_of_mem _ member)]
    rfl

/-- At most one write set in each position: the writes come no earlier than their index says. -/
theorem history_index {start : Nat} {log : List (WriteSet κ ν)} {key : κ} {index : Nat}
    {entry : Nat × Option ν} (found : (history start log key)[index]? = some entry) :
    start + index ≤ entry.1 := by
  induction log generalizing start index with
  | nil => cases found
  | cons writes log ih =>
    rw [history] at found
    cases written : writes key with
    | none =>
      rw [written] at found
      have later := ih found
      omega
    | some value =>
      rw [written] at found
      cases index with
      | zero =>
        cases found
        exact Nat.le_refl start
      | succ index =>
        have later := ih found
        omega

def writers (log : List (WriteSet κ ν)) (key : κ) : Nat := log.countP fun writes => (writes key).isSome

theorem history_length (start : Nat) (log : List (WriteSet κ ν)) (key : κ) :
    (history start log key).length = writers log key := by
  induction log generalizing start with
  | nil => rfl
  | cons writes log ih =>
    have rest := ih (start + 1)
    cases written : writes key <;> simp [history, writers, written] at rest ⊢ <;> exact rest

theorem writers_drop (log : List (WriteSet κ ν)) (key : κ) (count : Nat) :
    writers log key ≤ count + writers (log.drop count) key := by
  have parts : writers (log.take count ++ log.drop count) key =
      writers (log.take count) key + writers (log.drop count) key :=
    List.countP_append
  have short : writers (log.take count) key ≤ (log.take count).length := List.countP_le_length
  rw [List.take_append_drop] at parts
  rw [parts]
  exact Nat.add_le_add_right (short.trans (List.length_take_le count log)) _

/-- The last write to a key, or else the value it had, is what a replay leaves. -/
theorem replay_eq_last (start : Nat) (log : List (WriteSet κ ν)) (view : View κ ν) (key : κ) :
    replay log view key = ((history start log key).getLast?.map Prod.snd).getD (view key) := by
  induction log generalizing start view with
  | nil => rfl
  | cons writes log ih =>
    change replay log (overlay writes view) key = _
    rw [ih (start + 1), history, List.getLast?_append]
    cases (history (start + 1) log key).getLast? with
    | some entry => rfl
    | none => cases found : writes key <;> simp [overlay, found]

private theorem history_split (start cut : Nat) (log : List (WriteSet κ ν)) (key : κ) :
    history start log key = history start (log.take cut) key ++ history (start + (log.take cut).length)
      (log.drop cut) key := by
  rw [← history_append, List.take_append_drop]

private theorem history_later {start cut : Nat} {log : List (WriteSet κ ν)} {key : κ}
    {entry : Nat × Option ν}
    (member : entry ∈ history (start + (log.take cut).length) (log.drop cut) key) :
    start + cut ≤ entry.1 := by
  have range := history_range member
  rw [List.length_take, List.length_drop] at range
  omega

private theorem history_earlier {start cut : Nat} {log : List (WriteSet κ ν)} {key : κ}
    {entry : Nat × Option ν} (member : entry ∈ history start (log.take cut) key) :
    entry.1 < start + cut := by
  have range := history_range member
  rw [List.length_take] at range
  omega

theorem history_takeWhile (start cut : Nat) (log : List (WriteSet κ ν)) (key : κ) :
    (history start log key).takeWhile (fun entry => decide (entry.1 < start + cut)) =
      history start (log.take cut) key := by
  rw [history_split start cut log key, List.takeWhile_append_of_pos]
  · rw [List.append_right_eq_self]
    cases later : history (start + (log.take cut).length) (log.drop cut) key with
    | nil => rfl
    | cons entry entries =>
      have := history_later (later ▸ List.mem_cons_self)
      rw [List.takeWhile_cons_of_neg (by simpa using this)]
  · exact fun entry member => by simpa using history_earlier member

theorem history_dropWhile (start cut : Nat) (log : List (WriteSet κ ν)) (key : κ) :
    (history start log key).dropWhile (fun entry => decide (entry.1 < start + cut)) =
      history (start + (log.take cut).length) (log.drop cut) key := by
  rw [history_split start cut log key, List.dropWhile_append_of_pos]
  · cases later : history (start + (log.take cut).length) (log.drop cut) key with
    | nil => rfl
    | cons entry entries =>
      have := history_later (later ▸ List.mem_cons_self)
      rw [List.dropWhile_cons_of_neg (by simpa using this)]
  · exact fun entry member => by simpa using history_earlier member

end WriteLog

/-- Write sets in commit order, of which a prefix is replicated. -/
@[ext] structure Ledger (κ ν : Type) where
  log : List (WriteSet κ ν)
  replicated : Nat
  within : replicated ≤ log.length

namespace Ledger
open WriteLog
variable {κ ν : Type}

def empty : Ledger κ ν := ⟨[], 0, Nat.le_refl 0⟩

def settled (log : List (WriteSet κ ν)) : Ledger κ ν := ⟨log, log.length, Nat.le_refl _⟩

def commit (ledger : Ledger κ ν) (writes : WriteSet κ ν) : Ledger κ ν where
  log := ledger.log ++ [writes]
  replicated := ledger.replicated
  within := by simpa using Nat.le_succ_of_le ledger.within

def commitAll (ledger : Ledger κ ν) (more : List (WriteSet κ ν)) : Ledger κ ν where
  log := ledger.log ++ more
  replicated := ledger.replicated
  within := Nat.le_trans ledger.within (by simp)

theorem commitAll_cons (ledger : Ledger κ ν) (writes : WriteSet κ ν) (more : List (WriteSet κ ν)) :
    ledger.commitAll (writes :: more) = (ledger.commit writes).commitAll more := by
  simp [commitAll, commit]

theorem commitAll_nil (ledger : Ledger κ ν) : ledger.commitAll [] = ledger := by
  simp [commitAll]

def advance (ledger : Ledger κ ν) (cut : Nat) (within : cut ≤ ledger.log.length) : Ledger κ ν :=
  ⟨ledger.log, cut, within⟩

/-- The ledger that never committed what is not replicated. -/
def truncate (ledger : Ledger κ ν) : Ledger κ ν where
  log := ledger.log.take ledger.replicated
  replicated := ledger.replicated
  within := by rw [List.length_take]; exact Nat.le_min.mpr ⟨Nat.le_refl _, ledger.within⟩

def memory (ledger : Ledger κ ν) : View κ ν := replay ledger.log WriteLog.empty

def stable (ledger : Ledger κ ν) : View κ ν := replay (ledger.log.take ledger.replicated) WriteLog.empty

def unstable (ledger : Ledger κ ν) (key : κ) : List (Nat × Option ν) :=
  history ledger.replicated (ledger.log.drop ledger.replicated) key

theorem stable_settled (log : List (WriteSet κ ν)) : (settled log).stable = replay log WriteLog.empty := by
  rw [stable, settled, List.take_length]

theorem unstable_settled (log : List (WriteSet κ ν)) (key : κ) : (settled log).unstable key = [] := by
  rw [unstable, settled, List.drop_length]
  rfl

theorem memory_eq_last (ledger : Ledger κ ν) (key : κ) :
    ledger.memory key = ((ledger.unstable key).getLast?.map Prod.snd).getD (ledger.stable key) := by
  rw [unstable, ← replay_eq_last, stable, ← replay_append, List.take_append_drop, memory]

theorem unstable_range {ledger : Ledger κ ν} {key : κ} {entry : Nat × Option ν}
    (member : entry ∈ ledger.unstable key) :
    ledger.replicated ≤ entry.1 ∧ entry.1 < ledger.log.length := by
  have range := history_range member
  have within := ledger.within
  rw [List.length_drop] at range
  omega

theorem stable_commit (ledger : Ledger κ ν) (writes : WriteSet κ ν) :
    (ledger.commit writes).stable = ledger.stable := by
  simp only [stable, commit, List.take_append_of_le_length ledger.within]

theorem unstable_commit (ledger : Ledger κ ν) (writes : WriteSet κ ν) (key : κ) :
    (ledger.commit writes).unstable key =
      ledger.unstable key ++ (writes key).toList.map (ledger.log.length, ·) := by
  have within := ledger.within
  simp only [unstable, commit, List.drop_append_of_le_length within, history_append,
    history, List.append_nil]
  rw [List.length_drop, Nat.add_sub_cancel' within]

variable (ledger : Ledger κ ν) {cut : Nat} (within : cut ≤ ledger.log.length)
  (ordered : ledger.replicated ≤ cut)
include ordered

theorem stable_advance (key : κ) : (ledger.advance cut within).stable key =
    (((ledger.unstable key).takeWhile (fun entry => decide (entry.1 < cut))).getLast?.map Prod.snd).getD
      (ledger.stable key) := by
  obtain ⟨more, rfl⟩ := Nat.exists_eq_add_of_le ordered
  rw [unstable, history_takeWhile, ← replay_eq_last, stable, stable, ← replay_append,
    advance, ← List.take_add]

theorem unstable_advance (key : κ) :
    (ledger.advance cut within).unstable key =
      (ledger.unstable key).dropWhile (fun entry => decide (entry.1 < cut)) := by
  obtain ⟨more, rfl⟩ := Nat.exists_eq_add_of_le ordered
  rw [unstable, unstable, history_dropWhile, advance, List.drop_drop, List.length_take, List.length_drop]
  rw [Nat.min_eq_left (by omega)]

end Ledger
end Foundations
