import OmniSpacetimeDb.Proofs.LogRecovery
import OmniSpacetimeDb.Foundations.Transition

/-! The log file under the tasks that write it. An entry passes from its sender
through the channel to the writer, and its offset back through the other channel
to the updater; only the senders can change places on the way. -/

namespace OmniSpacetimeDb.Proofs.LogFile
open Foundations Datastore LogRecovery Durability.ExampleDurability

def bytes (entries : List LogEntry) : List UInt8 := entries.flatMap LogEntry.serialize

theorem bytes_snoc (entries : List LogEntry) (entry : LogEntry) :
    bytes (entries ++ [entry]) = bytes entries ++ entry.serialize := by
  rw [bytes, List.flatMap_append, List.flatMap_singleton]
  rfl

theorem serialize_ne_nil (entry : LogEntry) : entry.serialize ≠ [] := by
  intro empty
  have length := congrArg List.length empty
  rw [LogEntry.serialize, List.length_append, toLeBytes_length, List.length_nil] at length
  omega

def current : Writer → List LogEntry
  | .writing entry _ => [entry]
  | .absent | .spawned | .waiting | .reporting _ | .panicked => []

def unreported : Writer → List UInt64
  | .reporting offset => [offset]
  | .absent | .spawned | .waiting | .writing _ _ | .panicked => []

/-- What the file holds: that of before, until the writer creates it anew. The writer
has written an entry when it reports one, and it panics nowhere else. -/
def Contents (before file : LogFile) (written : List LogEntry) : Writer → Prop
  | .absent | .spawned => file = before ∧ written = []
  | .waiting => file = some (bytes written)
  | .writing entry left => left ≠ [] ∧ ∃ part, part ++ left = entry.serialize ∧
      file = some (bytes written ++ part)
  | .reporting _ | .panicked => written ≠ [] ∧ file = some (bytes written)

/-- Every entry appended is on its way, written or lost, in whatever order. -/
structure Consistent (before : LogFile) (layer : Layer) : Prop where
  conserved : layer.appended.Perm
    (layer.written ++ (current layer.writer ++ (layer.requests ++ (layer.sending ++ layer.lost))))
  started : layer.writer = .absent ↔ layer.appended = []
  contents : Contents before layer.file layer.written layer.writer
  loses : layer.lost ≠ [] → layer.writer = .panicked

theorem consistent_new (file : LogFile) : Consistent file (.new file) :=
  ⟨.nil, iff_of_true rfl rfl, ⟨rfl, rfl⟩, fun some_lost => absurd rfl some_lost⟩

def Increasing (layer : Layer) : Layer.Event → Prop
  | .append entry => ∀ earlier ∈ layer.appended, earlier.txOffset < entry.txOffset
  | _ => True

/-- A sender hands its entry over only after the senders of all earlier appends. -/
def InTurn : Layer.Event → Prop
  | .send position => position = 0
  | _ => True

def handed (layer : Layer) : List LogEntry := layer.written ++ (current layer.writer ++ layer.requests)

/-- The offsets written are those that were reported, and then, while there is an
updater, those on their way back to it. -/
structure Reports (layer : Layer) : Prop where
  split : ∃ taken rest, layer.written.map LogEntry.txOffset = taken ++ rest ∧
    layer.reported = taken.getLast? ∧
    (layer.updating = true → rest = layer.reports ++ unreported layer.writer)
  durable : ∀ offset, layer.reported = some offset → layer.durableOffset = some offset

theorem reports_new (file : LogFile) : Reports (.new file) :=
  ⟨⟨[], [], rfl, rfl, fun _ => rfl⟩, fun _ known => by cases known⟩

/-- The writer is given the entries in the order of the calls; what follows them is
still to be sent, unless it panicked. -/
structure Ordered (layer : Layer) : Prop where
  inOrder : ∃ rest, layer.appended = handed layer ++ rest ∧
    (layer.writer ≠ .panicked → rest = layer.sending)
  increasing : layer.appended.Pairwise fun first second => first.txOffset < second.txOffset
  reports : Reports layer

theorem ordered_new (file : LogFile) : Ordered (.new file) :=
  ⟨⟨[], rfl, fun _ => rfl⟩, .nil, reports_new file⟩

section Steps
variable [BuildProfile] {before : LogFile} {layer after : Layer} {event : Layer.Event}

theorem asked {offset : UInt64} (returned : layer.getDurableTxOffset = some (offset, after)) :
    after = { layer with durableOffset := after.durableOffset } ∧
      (layer.durableOffset ≠ none → after = layer) := by
  rw [Layer.getDurableTxOffset] at returned
  split at returned
  next poisoned => cases returned
  next sound =>
    split at returned
    next known =>
      cases returned
      exact ⟨rfl, fun _ => rfl⟩
    next unknown =>
      obtain ⟨left, _, returned⟩ := Option.bind_eq_some_iff.mp returned
      obtain ⟨items, _, made⟩ := Option.bind_eq_some_iff.mp returned
      cases made
      exact ⟨rfl, fun known => absurd unknown known⟩

omit [BuildProfile] in
theorem still_started {old new : Writer} (started : old = .absent ↔ layer.appended = [])
    (was : old ≠ .absent) (stays : new ≠ .absent) :
    new = .absent ↔ layer.appended = [] :=
  iff_of_false stays (mt started.mpr was)

omit [BuildProfile] in
theorem none_lost {old new : Writer} (loses : layer.lost ≠ [] → old = .panicked)
    (running : old ≠ .panicked) :
    layer.lost ≠ [] → new = .panicked :=
  fun some_lost => absurd (loses some_lost) running

omit [BuildProfile] in
theorem append_panicked (entry : LogEntry) :
    (layer.append entry).writer = .panicked ↔ layer.writer = .panicked := by
  cases writer : layer.writer <;> simp [Layer.append, writer]

theorem consistent_step (consistent : Consistent before layer) (moves : Layer.Moves layer event after) :
    Consistent before after := by
  obtain ⟨conserved, started, contents, loses⟩ := consistent
  cases moves with
  | append entry =>
    refine ⟨?_, ?_, ?_, fun some_lost => (append_panicked entry).mpr (loses some_lost)⟩
    · have longer := conserved.append_right [entry]
      have swapped : (layer.lost ++ [entry]).Perm ([entry] ++ layer.lost) := List.perm_append_comm
      have moved := (((swapped.append_left layer.sending).append_left layer.requests).append_left
        (current layer.writer)).append_left layer.written
      have all := longer.trans (by simpa only [List.append_assoc] using moved)
      cases writer : layer.writer <;> simpa [Layer.append, writer, current] using all
    · cases writer : layer.writer <;> simp [Layer.append, writer]
    · cases writer : layer.writer <;> rw [writer] at contents <;>
        simpa [Layer.append, writer, Contents] using contents
  | getDurableTxOffset returned =>
    rw [(asked returned).1]
    exact ⟨conserved, started, contents, loses⟩
  | poison | update | outdated => exact ⟨conserved, started, contents, loses⟩
  | @send position entry found received room =>
    refine ⟨conserved.trans ?_, started, contents, loses⟩
    obtain ⟨inside, rfl⟩ := List.getElem?_eq_some_iff.mp found
    have taken := (List.getElem_cons_eraseIdx_perm inside).symm.append_right layer.lost
    simpa using ((taken.append_left layer.requests).append_left (current layer.writer)).append_left
      layer.written
  | @lose position entry found closed =>
    refine ⟨conserved.trans ?_, started, contents, fun _ => closed⟩
    obtain ⟨inside, rfl⟩ := List.getElem?_eq_some_iff.mp found
    have taken := (List.getElem_cons_eraseIdx_perm inside).symm.append_right layer.lost
    have dropped := taken.trans (List.perm_append_singleton _ _).symm
    simpa using ((dropped.append_left layer.requests).append_left (current layer.writer)).append_left
      layer.written
  | create spawned =>
    rw [spawned] at conserved started contents loses
    have unwritten : layer.written = [] := contents.2
    refine ⟨conserved, still_started started (by simp) (by simp), ?_, none_lost loses (by simp)⟩
    simp only [unwritten]
    rfl
  | @receive entry requests waiting first =>
    rw [waiting] at started contents loses
    rw [waiting, first] at conserved
    refine ⟨conserved, still_started started (by simp) (by simp), ⟨serialize_ne_nil entry, [], rfl, ?_⟩,
      none_lost loses (by simp)⟩
    rw [List.append_nil]
    exact contents
  | @write entry left count writing unfinished =>
    rw [writing] at conserved started contents loses
    obtain ⟨_, part, whole, holds⟩ := contents
    refine ⟨conserved, still_started started (by simp) (by simp), ⟨?_, part ++ left.take count, ?_, ?_⟩,
      none_lost loses (by simp)⟩
    · simpa using unfinished
    · rw [List.append_assoc, List.take_append_drop, whole]
    · simp only [holds, Option.map_some, List.append_assoc]
  | @finish entry left writing =>
    rw [writing] at conserved started contents loses
    obtain ⟨_, part, whole, holds⟩ := contents
    refine ⟨?_, still_started started (by simp) (by simp), ⟨by simp, ?_⟩, none_lost loses (by simp)⟩
    · simpa [current] using conserved
    · simp only [holds, Option.map_some, bytes_snoc, ← whole, List.append_assoc]
  | report reporting received room =>
    rw [reporting] at conserved started contents loses
    exact ⟨conserved, still_started started (by simp) (by simp), contents.2, none_lost loses (by simp)⟩
  | unreported reporting closed =>
    rw [reporting] at conserved started contents
    refine ⟨conserved.trans ?_, still_started started (by simp) (by simp), contents, fun _ => rfl⟩
    have given : (layer.requests ++ (layer.sending ++ layer.lost)).Perm
        (layer.sending ++ layer.lost ++ layer.requests) :=
      List.perm_append_comm
    simpa [current] using given.append_left layer.written

theorem consistent_run {file : LogFile} {events : List Layer.Event}
    (run : Run Layer.Moves (.new file) events layer) :
    Consistent file layer :=
  run.invariant (Consistent file) (consistent_new file) fun _ _ _ consistent moves =>
    consistent_step consistent moves

theorem reports_step (reports : Reports layer) (moves : Layer.Moves layer event after) : Reports after := by
  obtain ⟨⟨taken, rest, offsets, last, updated⟩, durable⟩ := reports
  cases moves with
  | append entry =>
    refine ⟨⟨taken, rest, offsets, last, ?_⟩, durable⟩
    intro running
    rw [updated running]
    cases writer : layer.writer <;> simp [Layer.append, writer, unreported]
  | getDurableTxOffset returned =>
    obtain ⟨same, known⟩ := asked returned
    rw [same]
    refine ⟨⟨taken, rest, offsets, last, updated⟩, ?_⟩
    intro offset reported
    have set := durable offset reported
    rw [known (by rw [set]; exact Option.some_ne_none offset)]
    exact set
  | poison | send | lose => exact ⟨⟨taken, rest, offsets, last, updated⟩, durable⟩
  | create running | receive running | write running =>
    rw [running] at updated
    exact ⟨⟨taken, rest, offsets, last, updated⟩, durable⟩
  | @finish entry left writing =>
    rw [writing] at updated
    refine ⟨⟨taken, rest ++ [entry.txOffset], ?_, last, ?_⟩, durable⟩
    · rw [List.map_append, offsets, List.append_assoc]
      rfl
    · intro running
      rw [updated running]
      simp [unreported]
  | report reporting received room =>
    rw [reporting] at updated
    refine ⟨⟨taken, rest, offsets, last, ?_⟩, durable⟩
    intro running
    simpa [unreported] using updated running
  | unreported reporting closed =>
    refine ⟨⟨taken, rest, offsets, last, ?_⟩, durable⟩
    intro running
    rw [closed] at running
    cases running
  | @update offset reports running first sound =>
    have split := updated running
    rw [first] at split
    refine ⟨⟨taken ++ [offset], reports ++ unreported layer.writer, ?_, ?_, fun _ => rfl⟩,
      fun _ known => known⟩
    · rw [offsets, split]
      simp
    · simp
  | outdated =>
    refine ⟨⟨taken, rest, offsets, last, ?_⟩, durable⟩
    intro running
    cases running

/-- A sender adds to what the writer is given, and a panic takes from it; no other
move changes that. -/
theorem handed_step (moves : Layer.Moves layer event after) :
    (∃ position entry, event = .send position ∧ layer.sending[position]? = some entry ∧
      layer.writer ≠ .panicked ∧
      handed after = handed layer ++ [entry] ∧ after.sending = layer.sending.eraseIdx position ∧
      after.appended = layer.appended) ∨
    (after.writer = .panicked ∧ handed after <+: handed layer ∧ after.appended = layer.appended) ∨
    ∃ more, (after.writer = .panicked ↔ layer.writer = .panicked) ∧ handed after = handed layer ∧
      after.sending = layer.sending ++ more ∧ after.appended = layer.appended ++ more := by
  cases moves with
  | append entry =>
    refine .inr (.inr ⟨[entry], append_panicked entry, ?_, rfl, rfl⟩)
    cases writer : layer.writer <;> simp [handed, Layer.append, writer, current]
  | getDurableTxOffset returned =>
    rw [(asked returned).1]
    exact .inr (.inr ⟨[], .rfl, rfl, (List.append_nil _).symm, (List.append_nil _).symm⟩)
  | @send position entry found received room =>
    refine .inl ⟨position, entry, rfl, found, received, ?_, rfl, rfl⟩
    simp only [handed, List.append_assoc]
  | lose found closed => exact .inr (.inl ⟨closed, List.prefix_rfl, rfl⟩)
  | unreported reporting closed =>
    refine .inr (.inl ⟨rfl, ?_, rfl⟩)
    simp [handed, reporting, current]
  | poison | create | receive | write | finish | report | update | outdated =>
    refine .inr (.inr ⟨[], ?_, ?_, (List.append_nil _).symm, (List.append_nil _).symm⟩)
    · simp [*]
    · simp [handed, current, *]

theorem inOrder_step
    (inOrder : ∃ rest, layer.appended = handed layer ++ rest ∧
      (layer.writer ≠ .panicked → rest = layer.sending))
    (inTurn : InTurn event) (moves : Layer.Moves layer event after) :
    ∃ rest, after.appended = handed after ++ rest ∧ (after.writer ≠ .panicked → rest = after.sending) := by
  obtain ⟨rest, split, unsent⟩ := inOrder
  rcases handed_step moves with ⟨position, entry, rfl, found, received, given, sending, appended⟩ |
    ⟨panicked, ⟨gone, shorter⟩, appended⟩ | ⟨more, panicked, same, sending, appended⟩
  · obtain rfl : position = 0 := inTurn
    obtain ⟨later, waiting⟩ := List.head?_eq_some_iff.mp (List.head?_eq_getElem?.trans found)
    refine ⟨later, ?_, ?_⟩
    · rw [appended, split, given, unsent received, waiting, List.append_assoc]
      rfl
    · intro _
      rw [sending, waiting]
      rfl
  · refine ⟨gone ++ rest, ?_, fun running => absurd panicked running⟩
    rw [appended, split, ← shorter, List.append_assoc]
  · refine ⟨rest ++ more, ?_, ?_⟩
    · rw [appended, split, same, List.append_assoc]
    · intro running
      rw [sending, unsent (mt panicked.mpr running)]

theorem ordered_step (ordered : Ordered layer) (increasing : Increasing layer event) (inTurn : InTurn event)
    (moves : Layer.Moves layer event after) : Ordered after := by
  obtain ⟨inOrder, pairwise, reports⟩ := ordered
  refine ⟨inOrder_step inOrder inTurn moves, ?_, reports_step reports moves⟩
  cases moves with
  | append entry =>
    simp only [Layer.append, List.pairwise_append, List.pairwise_singleton, List.mem_singleton, true_and]
    refine ⟨pairwise, ?_⟩
    intro earlier member _ same
    exact same ▸ increasing earlier member
  | getDurableTxOffset returned =>
    rw [(asked returned).1]
    exact pairwise
  | poison | send | lose | create | receive | write | finish | report | unreported | update
  | outdated => exact pairwise

end Steps

section Runs
variable [BuildProfile] {layer : Layer} {events : List Layer.Event}

def TakesTurns (layer : Layer) (event : Layer.Event) : Prop := Increasing layer event ∧ InTurn event

theorem ordered_run (ordered : Ordered layer) {later : Layer}
    (run : Run (Guarded TakesTurns Layer.Moves) layer events later) : Ordered later :=
  run.invariant Ordered ordered fun _ _ _ ordered step =>
    ordered_step ordered step.allowed.1 step.allowed.2 step.taken

/-- The writer has created its file. -/
def created : Writer → Bool
  | .absent | .spawned => false
  | .waiting | .writing _ _ | .reporting _ | .panicked => true

/-- Once it is created, the file holds the entries that are written and part of the
next one appended. It yields what is written, which is all up to the offset last
reported. -/
structure Follows (before : LogFile) (layer : Layer) : Prop where
  inOrder : layer.written <+: layer.appended
  untouched : created layer.writer = false → layer.file = before ∧ layer.written = []
  holds : created layer.writer = true → ∃ part, layer.file = some (bytes layer.written ++ part) ∧
    (part = [] ∨ ∃ next, layer.written ++ [next] <+: layer.appended ∧ part <+: next.serialize ∧
      part ≠ next.serialize)
  reads : created layer.writer = true → (∀ entry ∈ layer.appended, Fits entry.txData) →
    ∀ calls, iter layer.file calls =
    some ((layer.written.map item).take calls ++ List.replicate (calls - layer.written.length) none)
  watermark : ∀ offset, layer.reported = some offset → layer.durableOffset = some offset ∧
    ∀ entry ∈ layer.appended, entry.txOffset ≤ offset → entry ∈ layer.written

omit [BuildProfile] in
theorem Ordered.written (ordered : Ordered layer) : ∃ later, layer.appended = layer.written ++ later := by
  obtain ⟨rest, split, _⟩ := ordered.inOrder
  rw [handed, List.append_assoc] at split
  exact ⟨_, split⟩

omit [BuildProfile] in
theorem Ordered.watermark (ordered : Ordered layer) {offset : UInt64}
    (reported : layer.reported = some offset) :
    ∀ entry ∈ layer.appended, entry.txOffset ≤ offset → entry ∈ layer.written := by
  obtain ⟨taken, rest, offsets, last, _⟩ := ordered.reports.split
  have known : offset ∈ layer.written.map LogEntry.txOffset := by
    rw [offsets]
    exact List.mem_append_left _ (List.mem_of_getLast? (last.symm.trans reported))
  obtain ⟨written, inFile, rfl⟩ := List.mem_map.mp known
  intro entry member below
  obtain ⟨later, split⟩ := ordered.written
  have increasing := ordered.increasing
  rw [split] at member increasing
  rcases List.mem_append.mp member with inside | follows
  · exact inside
  · have above := (List.pairwise_append.mp increasing).2.2 written inFile entry follows
    exact absurd below (UInt64.not_le.mpr above)

theorem follows_run {file : LogFile} (run : Run (Guarded TakesTurns Layer.Moves) (.new file) events layer) :
    Follows file layer := by
  have ordered := ordered_run (ordered_new file) run
  have contents := (consistent_run run.unguarded).contents
  obtain ⟨unwritten, split⟩ := ordered.written
  have holds : created layer.writer = true → ∃ part, layer.file = some (bytes layer.written ++ part) ∧
      (part = [] ∨ ∃ next, layer.written ++ [next] <+: layer.appended ∧ part <+: next.serialize ∧
        part ≠ next.serialize) := by
    intro opened
    cases writer : layer.writer with
    | absent | spawned =>
      rw [writer] at opened
      cases opened
    | waiting =>
      rw [writer] at contents
      exact ⟨[], by rw [List.append_nil]; exact contents, .inl rfl⟩
    | reporting | panicked =>
      rw [writer] at contents
      exact ⟨[], by rw [List.append_nil]; exact contents.2, .inl rfl⟩
    | writing entry left =>
      rw [writer] at contents
      obtain ⟨unfinished, part, whole, bytes⟩ := contents
      refine ⟨part, bytes, .inr ⟨entry, ?_, ⟨left, whole⟩, ?_⟩⟩
      · obtain ⟨rest, order, _⟩ := ordered.inOrder
        rw [order, handed, writer, List.append_assoc, List.prefix_append_right_inj, List.append_assoc]
        exact List.prefix_append [entry] _
      · intro same
        rw [same] at whole
        exact unfinished (List.append_right_eq_self.mp whole)
  refine ⟨⟨_, split.symm⟩, ?_, holds, ?_, ?_⟩
  · intro unopened
    cases writer : layer.writer with
    | absent | spawned =>
      rw [writer] at contents
      exact contents
    | waiting | writing | reporting | panicked =>
      rw [writer] at unopened
      cases unopened
  · intro opened fits calls
    obtain ⟨part, bytes, rest⟩ := holds opened
    have written : ∀ entry ∈ layer.written, Fits entry.txData := by
      intro entry member
      exact fits entry (by rw [split]; exact List.mem_append_left _ member)
    rw [bytes]
    apply Yields.part written
    rcases rest with rfl | ⟨next, follows, isPart, short⟩
    · rfl
    · exact (entry_frames (fits next (follows.subset (by simp)))).starves part isPart short
  · exact fun offset reported => ⟨ordered.reports.durable offset reported, ordered.watermark reported⟩

theorem reported_step {after : Layer} {event : Layer.Event} (ordered : Ordered layer)
    (moves : Layer.Moves layer event after) : Climbs (· ≤ ·) Layer.reported layer after := by
  intro offset reported
  cases moves with
  | append | poison | send | lose | create | receive | write | finish | report | unreported | outdated =>
    exact ⟨offset, reported, UInt64.le_refl offset⟩
  | getDurableTxOffset returned =>
    rw [(asked returned).1]
    exact ⟨offset, reported, UInt64.le_refl offset⟩
  | @update next reports running first sound =>
    refine ⟨next, rfl, ?_⟩
    obtain ⟨taken, rest, offsets, last, updated⟩ := ordered.reports.split
    obtain ⟨later, split⟩ := ordered.written
    have increasing := ordered.increasing
    rw [split] at increasing
    have written := List.pairwise_map.mpr (List.pairwise_append.mp increasing).1
    rw [offsets, updated running, first] at written
    have before := List.mem_of_getLast? (last.symm.trans reported)
    exact UInt64.le_of_lt ((List.pairwise_append.mp written).2.2 offset before next (by simp))

theorem in_turn_iff (ordered : Ordered layer) {position : Nat} {after : Layer}
    (moves : Layer.Moves layer (.send position) after) :
    position = 0 ↔ handed after <+: after.appended := by
  cases moves with
  | @send _ entry found received room =>
    have longer : handed { layer with
      sending := layer.sending.eraseIdx position, requests := layer.requests ++ [entry] } =
        handed layer ++ [entry] := by simp [handed]
    obtain ⟨rest, inOrder, unsent⟩ := ordered.inOrder
    rw [unsent received] at inOrder
    rw [longer, inOrder, List.prefix_append_right_inj]
    have increasing := ordered.increasing
    rw [inOrder] at increasing
    have waiting := (List.pairwise_append.mp increasing).2.1
    cases sending : layer.sending with
    | nil =>
      rw [sending] at found
      cases found
    | cons first rest =>
      rw [sending] at found waiting
      rw [List.cons_prefix_cons]
      cases position with
      | zero =>
        cases found
        exact iff_of_true rfl ⟨rfl, List.nil_prefix⟩
      | succ position =>
        apply iff_of_false (Nat.succ_ne_zero position)
        rintro ⟨rfl, _⟩
        have above := (List.pairwise_cons.mp waiting).1 entry (List.mem_of_getElem? found)
        exact UInt64.lt_irrefl entry.txOffset above

/-- With the senders in turn the file follows the calls, whatever else the tasks
do, and the reported offset only goes up. A sender out of turn is what breaks the
order of the entries that the writer is given. -/
theorem file_follows_appends {file : LogFile}
    (run : Run (Guarded TakesTurns Layer.Moves) (.new file) events layer) : Follows file layer ∧
    (∀ more later, Run (Guarded TakesTurns Layer.Moves) layer more later →
      ∀ offset, layer.reported = some offset →
      ∃ next, later.reported = some next ∧ offset ≤ next) ∧
    ∀ position after, Layer.Moves layer (.send position) after →
      (position = 0 ↔ handed after <+: after.appended) := by
  have ordered := ordered_run (ordered_new file) run
  refine ⟨follows_run run, ?_, fun position after => in_turn_iff ordered⟩
  intro more later further
  exact (further.climbs UInt64.le_refl (fun _ _ _ => UInt64.le_trans) Ordered ordered
    fun _ _ _ ordered step => ⟨ordered_step ordered step.allowed.1 step.allowed.2 step.taken,
      reported_step ordered step.taken⟩).2

end Runs

section Deliveries
variable [BuildProfile]

def delivered (layer : Layer) (position : Nat) (entry : LogEntry) : Layer where
  file := layer.file.map (· ++ entry.serialize)
  sending := layer.sending.eraseIdx position
  requests := []
  writer := .waiting
  reports := []
  durableOffset := some entry.txOffset
  poisoned := false
  updating := true
  appended := layer.appended
  written := layer.written ++ [entry]
  lost := layer.lost
  reported := some entry.txOffset

def delivery (position : Nat) : List Layer.Event := [.send position, .receive, .finish, .report, .update]

theorem deliver {guard : Layer → Layer.Event → Prop} {layer : Layer} (position : Nat) (entry : LogEntry)
    (allowed : ∀ layer, ∀ event ∈ delivery position, guard layer event)
    (found : layer.sending[position]? = some entry) (requests : layer.requests = [])
    (writer : layer.writer = .waiting) (reports : layer.reports = [])
    (poisoned : layer.poisoned = false) (updating : layer.updating = true) :
    Run (Guarded guard Layer.Moves) layer (delivery position) (delivered layer position entry) := by
  obtain ⟨file, sending, _, _, _, durableOffset, _, _, appended, written, lost, reported⟩ := layer
  cases requests
  cases writer
  cases reports
  cases poisoned
  cases updating
  have run : Run (Guarded guard Layer.Moves) _
      ([] ++ [.send position] ++ [.receive] ++ [.finish] ++ [.report] ++ [.update]) _ :=
    ((((Run.nil.snoc ⟨allowed _ _ (by simp [delivery]),
      .send found (by simp) (by simp [Layer.capacity])⟩).snoc
      ⟨allowed _ _ (by simp [delivery]), .receive rfl rfl⟩).snoc
      ⟨allowed _ _ (by simp [delivery]), .finish rfl⟩).snoc
      ⟨allowed _ _ (by simp [delivery]), .report rfl rfl (by simp [Layer.capacity])⟩).snoc
      ⟨allowed _ _ (by simp [delivery]), .update rfl rfl rfl⟩
  exact run

end Deliveries

def entryAt (txOffset : UInt64) : LogEntry := ⟨txOffset, ⟨[], [], []⟩⟩

def twoSenders : Layer :=
  { ((Layer.new none).append (entryAt 0)).append (entryAt 1) with file := some [], writer := .waiting }

theorem twoSenders_run [BuildProfile] {guard : Layer → Layer.Event → Prop}
    (first : guard (.new none) (.append (entryAt 0)))
    (second : guard ((Layer.new none).append (entryAt 0)) (.append (entryAt 1)))
    (third : ∀ layer, guard layer .create) :
    Run (Guarded guard Layer.Moves) (.new none)
      [.append (entryAt 0), .append (entryAt 1), .create] twoSenders := by
  have run : Run (Guarded guard Layer.Moves) (.new none)
      ([] ++ [.append (entryAt 0)] ++ [.append (entryAt 1)] ++ [.create]) _ :=
    ((Run.nil.snoc ⟨first, .append (entryAt 0)⟩).snoc ⟨second, .append (entryAt 1)⟩).snoc
      ⟨third _, .create rfl⟩
  exact run

theorem twoSenders_increasing : Increasing (.new none) (.append (entryAt 0)) ∧
    Increasing ((Layer.new none).append (entryAt 0)) (.append (entryAt 1)) := by
  simp [Increasing, Layer.append, Layer.new, entryAt]

theorem file_follows_appends_two : ∃ layer, Run (Guarded TakesTurns (@Layer.Moves ⟨true⟩)) (.new none)
      ([.append (entryAt 0), .append (entryAt 1), .create] ++ delivery 0) layer ∧
    layer.file = some (entryAt 0).serialize ∧ layer.durableOffset = some 0 := by
  let : BuildProfile := ⟨true⟩
  have opened :=
    @twoSenders_run _ TakesTurns ⟨twoSenders_increasing.1, trivial⟩ ⟨twoSenders_increasing.2, trivial⟩
    fun _ => ⟨trivial, trivial⟩
  have run :=
    opened.append
      (deliver 0 (entryAt 0) (by simp [delivery, TakesTurns, Increasing, InTurn]) rfl rfl rfl rfl rfl rfl)
  exact ⟨_, run, rfl, ((file_follows_appends run).1.watermark 0 rfl).1⟩

/-- The second of two senders comes first: its offset is reported durable while
the first entry is not in the file, and then the durable offset goes back. -/
theorem sender_overtakes : ∃ layer later,
    Run (Guarded Increasing (@Layer.Moves ⟨true⟩)) (.new none)
      ([.append (entryAt 0), .append (entryAt 1), .create] ++ delivery 1) layer ∧
    ¬ layer.written <+: layer.appended ∧ layer.file = some (entryAt 1).serialize ∧ layer.reported = some 1 ∧
    entryAt 0 ∈ layer.appended ∧ entryAt 0 ∉ layer.written ∧
    Run (Guarded Increasing (@Layer.Moves ⟨true⟩)) layer (delivery 0) later ∧ later.reported = some 0 := by
  let : BuildProfile := ⟨true⟩
  have opened :=
    @twoSenders_run _ Increasing twoSenders_increasing.1 twoSenders_increasing.2 fun _ => trivial
  have run := opened.append (deliver 1 (entryAt 1) (by simp [delivery, Increasing]) rfl rfl rfl rfl rfl rfl)
  have further := @deliver _ Increasing (delivered twoSenders 1 (entryAt 1)) 0 (entryAt 0)
    (by simp [delivery, Increasing]) rfl rfl rfl rfl rfl rfl
  exact ⟨_, _, run, by decide, rfl, rfl, by decide, by decide, further, rfl⟩

end OmniSpacetimeDb.Proofs.LogFile
