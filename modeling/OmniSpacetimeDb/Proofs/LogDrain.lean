import OmniSpacetimeDb.Proofs.LogRestart
import OmniSpacetimeDb.Foundations.Schedule

/-! What becomes of the entries that were appended. Each step of the tasks brings one
of them further, and they stop only when nothing is on its way: then all are in the
file and reported, unless a call panicked with the mutex of the durable offset. -/

namespace OmniSpacetimeDb.Proofs.LogDrain
open Foundations Datastore LogRecovery LogFile LogRestart Durability.ExampleDurability

/-- The steps that bring an entry further. A write may be of no bytes at all. -/
def carries : Layer.Event → Bool
  | .append _ | .getDurableTxOffset | .write _ => false
  | .send _ | .lose _ | .create | .receive | .finish | .report | .update => true

def ahead : Writer → Nat
  | .absent | .waiting | .panicked => 0
  | .spawned => 1
  | .reporting _ => 2
  | .writing _ _ => 3

/-- The steps that the tasks still have to take: five for an entry that is to be sent. -/
def due (layer : Layer) : Nat :=
  5 * layer.sending.length + 4 * layer.requests.length + ahead layer.writer + layer.reports.length

/-- The updater panics over a poisoned mutex only, and the writer after the updater.
Each one's channel goes with it. -/
structure Aftermath (layer : Layer) : Prop where
  updater : layer.updating = false → layer.poisoned = true ∧ layer.reports = []
  writer : layer.writer = .panicked → layer.updating = false ∧ layer.requests = []

theorem aftermath_new (file : LogFile) : Aftermath (.new file) := by
  constructor
  · intro stopped
    cases stopped
  · intro panicked
    cases panicked

section Steps
variable [BuildProfile] {before : LogFile} {layer after : Layer} {event : Layer.Event}

theorem aftermath_step (aftermath : Aftermath layer) (moves : Layer.Moves layer event after) :
    Aftermath after := by
  obtain ⟨updater, writer⟩ := aftermath
  cases moves with
  | append entry => exact ⟨updater, fun panicked => writer ((append_panicked entry).mp panicked)⟩
  | getDurableTxOffset returned =>
    rw [(asked returned).1]
    exact ⟨updater, writer⟩
  | poison => exact ⟨fun stopped => ⟨rfl, (updater stopped).2⟩, writer⟩
  | send _ received => exact ⟨updater, fun panicked => absurd panicked received⟩
  | lose => exact ⟨updater, writer⟩
  | create | receive | write | finish =>
    refine ⟨updater, ?_⟩
    intro panicked
    cases panicked
  | report _ received =>
    constructor
    · intro stopped
      rw [received] at stopped
      cases stopped
    · intro panicked
      cases panicked
  | unreported _ closed => exact ⟨updater, fun _ => ⟨closed, rfl⟩⟩
  | update running =>
    constructor
    · intro stopped
      rw [running] at stopped
      cases stopped
    · intro panicked
      exact absurd ((writer panicked).1.symm.trans running) Bool.false_ne_true
  | outdated _ _ poisoned => exact ⟨fun _ => ⟨poisoned, rfl⟩, fun panicked => ⟨rfl, (writer panicked).2⟩⟩

/-- Without another append, what is due goes down with each step that carries an entry,
and never up. -/
theorem due_step (closed : ∀ entry, event ≠ .append entry) (moves : Layer.Moves layer event after) :
    due after + (if carries event then 1 else 0) ≤ due layer := by
  cases moves with
  | append entry => exact absurd rfl (closed entry)
  | getDurableTxOffset returned =>
    rw [(asked returned).1]
    exact Nat.le_refl _
  | poison => exact Nat.le_refl _
  | @send position entry found received room =>
    have inside := (List.getElem?_eq_some_iff.mp found).1
    simp only [due, carries, if_true, List.length_eraseIdx_of_lt inside, List.length_append,
      List.length_singleton]
    omega
  | @lose position entry found closed =>
    have inside := (List.getElem?_eq_some_iff.mp found).1
    simp only [due, carries, if_true, List.length_eraseIdx_of_lt inside]
    omega
  | create spawned =>
    simp only [due, carries, if_true, spawned, ahead]
    omega
  | receive waiting first =>
    simp only [due, carries, if_true, waiting, first, ahead, List.length_cons]
    omega
  | write writing =>
    simp only [due, carries, writing, ahead]
    exact Nat.le_refl _
  | finish writing =>
    simp only [due, carries, if_true, writing, ahead]
    omega
  | report reporting =>
    simp only [due, carries, if_true, reporting, ahead, List.length_append, List.length_singleton]
    omega
  | unreported reporting =>
    simp only [due, carries, if_true, reporting, ahead, List.length_nil]
    omega
  | update running first =>
    simp only [due, carries, if_true, first, List.length_cons]
    omega
  | outdated running first =>
    simp only [due, carries, if_true, first, List.length_cons, List.length_nil]
    omega

theorem reports_proceed (aftermath : Aftermath layer) (waiting : layer.reports ≠ []) :
    ∃ event after, carries event = true ∧ Layer.Moves layer event after := by
  obtain ⟨offset, rest, reports⟩ := List.exists_cons_of_ne_nil waiting
  have running : layer.updating = true := by
    by_contra stopped
    exact waiting (aftermath.updater (Bool.eq_false_of_not_eq_true stopped)).2
  cases poisoned : layer.poisoned with
  | false => exact ⟨_, _, rfl, .update running reports poisoned⟩
  | true => exact ⟨_, _, rfl, .outdated running reports poisoned⟩

/-- Some task can go on as long as anything is due. -/
theorem due_proceeds (consistent : Consistent before layer) (aftermath : Aftermath layer)
    (some_due : due layer ≠ 0) :
    ∃ event after, carries event = true ∧ Layer.Moves layer event after := by
  by_cases reports : layer.reports = []
  · have room : layer.reports.length < Layer.capacity := by
      rw [reports]
      exact Nat.succ_pos 63
    cases writer : layer.writer with
    | absent =>
      have nothing := consistent.conserved
      rw [consistent.started.mp writer, List.nil_perm] at nothing
      simp only [List.append_eq_nil_iff] at nothing
      obtain ⟨_, _, requests, sending, _⟩ := nothing
      rw [due, sending, requests, reports, writer] at some_due
      exact absurd rfl some_due
    | spawned => exact ⟨_, _, rfl, .create writer⟩
    | writing entry left => exact ⟨_, _, rfl, .finish writer⟩
    | reporting offset =>
      cases running : layer.updating with
      | true => exact ⟨_, _, rfl, .report writer running room⟩
      | false => exact ⟨_, _, rfl, .unreported writer running⟩
    | waiting =>
      cases requests : layer.requests with
      | cons entry rest => exact ⟨_, _, rfl, .receive writer requests⟩
      | nil =>
        cases sending : layer.sending with
        | cons entry rest =>
          refine ⟨.send 0, _, rfl, @Layer.Moves.send _ _ 0 entry ?_ ?_ ?_⟩
          · rw [sending]
            rfl
          · rw [writer]
            simp
          · rw [requests]
            exact Nat.succ_pos 63
        | nil =>
          rw [due, sending, requests, reports, writer] at some_due
          exact absurd rfl some_due
    | panicked =>
      have requests := (aftermath.writer writer).2
      cases sending : layer.sending with
      | cons entry rest =>
        refine ⟨.lose 0, _, rfl, @Layer.Moves.lose _ _ 0 entry ?_ writer⟩
        rw [sending]
        rfl
      | nil =>
        rw [due, sending, requests, reports, writer] at some_due
        exact absurd rfl some_due
  · exact reports_proceed aftermath reports

theorem halted_of_due (nothing : due layer = 0) (carried : carries event = true) :
    ¬ Layer.Moves layer event after := by
  intro moves
  have closed (entry : LogEntry) : event ≠ .append entry := by
    rintro rfl
    cases carried
  have less := due_step closed moves
  rw [nothing, if_pos carried] at less
  cases less

theorem appended_kept (closed : ∀ entry, event ≠ .append entry) (moves : Layer.Moves layer event after) :
    after.appended = layer.appended := by
  cases moves with
  | append entry => exact absurd rfl (closed entry)
  | getDurableTxOffset returned => rw [(asked returned).1]
  | poison | send | lose | create | receive | write | finish | report | unreported
  | update | outdated => rfl

/-- A panic with the mutex is for good, and nobody sets the offset behind it any more. -/
def Poisoned (durableOffset : Option UInt64) (layer : Layer) : Prop :=
  layer.poisoned = true ∧ layer.durableOffset = durableOffset

theorem poisoned_step {durableOffset : Option UInt64} (poisoned : Poisoned durableOffset layer)
    (moves : Layer.Moves layer event after) : Poisoned durableOffset after := by
  cases moves with
  | getDurableTxOffset returned =>
    rw [Layer.getDurableTxOffset, if_pos poisoned.1] at returned
    cases returned
  | poison => exact ⟨rfl, poisoned.2⟩
  | update _ _ sound => exact absurd (sound.symm.trans poisoned.1) Bool.false_ne_true
  | append | send | lose | create | receive | write | finish | report | unreported
  | outdated => exact poisoned

end Steps

/-- Nothing is on its way, and all that was appended is in the file or lost. -/
structure Settled (before : LogFile) (layer : Layer) : Prop where
  done : Done layer
  all : layer.appended.Perm (layer.written ++ layer.lost)
  untouched : layer.appended = [] → layer.file = before
  stored : layer.appended ≠ [] → layer.file = some (bytes layer.written)

/-- All that was appended is in the file, in some order, and the last of it was reported. -/
structure Drained (layer : Layer) : Prop where
  all : layer.appended.Perm layer.written
  durable : layer.appended ≠ [] → layer.durableOffset = layer.written.getLast?.map LogEntry.txOffset

section
variable {before : LogFile} {layer : Layer}

theorem settled_of_due (consistent : Consistent before layer) (nothing : due layer = 0) :
    Settled before layer := by
  simp only [due, Nat.add_eq_zero_iff, List.length_eq_zero_iff, Nat.mul_eq_zero,
    OfNat.ofNat_ne_zero, false_or] at nothing
  obtain ⟨⟨⟨sending, requests⟩, halted⟩, _⟩ := nothing
  have free : current layer.writer = [] := by
    cases writer : layer.writer with
    | absent | waiting | panicked | spawned | reporting => rfl
    | writing =>
      rw [writer] at halted
      cases halted
  have done : Done layer := ⟨sending, requests, free⟩
  obtain ⟨idle, busy⟩ := done_file consistent done
  refine ⟨done, ?_, fun empty => (idle empty).2, fun appended => (busy appended).2⟩
  have all := consistent.conserved
  rw [sending, requests, free] at all
  simpa using all

theorem drained_of_due (consistent : Consistent before layer) (reports : Reports layer)
    (aftermath : Aftermath layer) (nothing : due layer = 0) (sound : layer.poisoned = false) :
    Drained layer := by
  obtain ⟨done, all, _, _⟩ := settled_of_due consistent nothing
  have running : layer.updating = true := by
    by_contra stopped
    have poisoned := (aftermath.updater (Bool.eq_false_of_not_eq_true stopped)).1
    exact absurd (sound.symm.trans poisoned) Bool.false_ne_true
  have none_lost : layer.lost = [] := by
    by_contra some_lost
    have stopped := (aftermath.writer (consistent.loses some_lost)).1
    exact absurd (stopped.symm.trans running) Bool.false_ne_true
  rw [none_lost, List.append_nil] at all
  refine ⟨all, ?_⟩
  intro appended
  obtain ⟨⟨taken, rest, offsets, last, updated⟩, durable⟩ := reports
  simp only [due, Nat.add_eq_zero_iff, List.length_eq_zero_iff] at nothing
  have free : unreported layer.writer = [] := by
    cases writer : layer.writer with
    | absent | waiting | panicked | spawned | writing => rfl
    | reporting =>
      rw [writer] at nothing
      cases nothing.1.2
  rw [updated running, nothing.2, free, List.append_nil, List.append_nil] at offsets
  rw [← offsets, List.getLast?_map] at last
  cases final : layer.written.getLast? with
  | none => exact absurd (List.getLast?_eq_none_iff.mp final) ((done_file consistent done).2 appended).1
  | some entry =>
    rw [final] at last
    exact durable _ last

end

section Schedules
variable [BuildProfile] {file : LogFile} {layer : Layer} {events : List Layer.Event}

/-- When no more is appended, nothing is on its way after finitely many steps, as long
as the tasks go on while they can. All is in the file then, and the durable offset names
the last entry there. Only a call that panicked with the mutex of that offset keeps
entries from the file; the offset stays as it was from then on. -/
theorem appends_become_durable (run : Run Layer.Moves (.new file) events layer)
    (schedule : Schedule Layer.Moves) (begins : schedule.states 0 = layer)
    (closed : ∀ time entry, schedule.events time ≠ some (.append entry))
    (obliging : schedule.Obliging carries) :
    (∃ time, ∀ later, time ≤ later →
      (schedule.states later).appended = layer.appended ∧ Settled file (schedule.states later) ∧
      (layer.appended ≠ [] → (∀ entry ∈ layer.appended, Fits entry.txData) →
        Reads (schedule.states later).file (schedule.states later).written) ∧
      ((schedule.states later).poisoned = false → Drained (schedule.states later))) ∧
    ∀ time later, time ≤ later → (schedule.states time).poisoned = true →
      (schedule.states later).poisoned = true ∧
      (schedule.states later).durableOffset = (schedule.states time).durableOffset := by
  have other {time : Nat} {event : Layer.Event}
      (known : schedule.events time = some event) (entry : LogEntry) :
      event ≠ .append entry := fun append => closed time entry (known.trans (congrArg some append))
  have holds (time : Nat) : (schedule.states time).appended = layer.appended ∧
      Consistent file (schedule.states time) ∧
      Reports (schedule.states time) ∧ Aftermath (schedule.states time) := by
    apply schedule.invariant fun state =>
      state.appended = layer.appended ∧ Consistent file state ∧ Reports state ∧ Aftermath state
    · rw [begins]
      exact ⟨rfl, consistent_run run,
        run.invariant Reports (reports_new file) fun _ _ _ reports moves => reports_step reports moves,
        run.invariant Aftermath (aftermath_new file) fun _ _ _ aftermath moves =>
          aftermath_step aftermath moves⟩
    · rintro before time event after ⟨same, consistent, reports, aftermath⟩ known moves
      exact ⟨(appended_kept (other known) moves).trans same, consistent_step consistent moves,
        reports_step reports moves, aftermath_step aftermath moves⟩
  have falls {time : Nat} {event : Layer.Event} (known : schedule.events time = some event) :
      due (schedule.states (time + 1)) + (if carries event then 1 else 0) ≤ due (schedule.states time) :=
    due_step (other known) (schedule.moved known)
  constructor
  · obtain ⟨time, quiet⟩ :=
      schedule.settles carries (fun _ _ known => Nat.le_of_add_right_le (falls known)) (by
      intro _ _ known carried
      have less := falls known
      rw [if_pos carried] at less
      exact less)
    refine ⟨time, ?_⟩
    intro later passed
    obtain ⟨same, consistent, reports, aftermath⟩ := holds later
    have nothing : due (schedule.states later) = 0 := by
      by_contra some_due
      obtain ⟨event, after, carried, moves⟩ := due_proceeds consistent aftermath some_due
      exact obliging.halts quiet later event after passed carried moves
    have settled := settled_of_due consistent nothing
    refine ⟨same, settled, ?_, drained_of_due consistent reports aftermath nothing⟩
    intro appended fits
    rw [← same] at appended fits
    rw [settled.stored appended]
    exact reads_bytes fun entry member =>
      fits entry (settled.all.mem_iff.mpr (List.mem_append_left _ member))
  · intro time later passed poisoned
    obtain ⟨more, rfl⟩ := Nat.exists_eq_add_of_le passed
    exact (schedule.onward time).invariant (Poisoned (schedule.states time).durableOffset) ⟨poisoned, rfl⟩
      (fun _ _ _ _ poisoned _ moves => poisoned_step poisoned moves) more

end Schedules

/-- One entry goes all the way, and no more is appended. -/
theorem appends_become_durable_one_entry : ∃ layer later, ∃ schedule : Schedule (@Layer.Moves ⟨true⟩),
    @Run _ _ (@Layer.Moves ⟨true⟩) (.new none) [.append (entryAt 0)] layer ∧ schedule.states 0 = layer ∧
    Settled none (schedule.states later) ∧ Drained (schedule.states later) ∧
    (schedule.states later).appended = [entryAt 0] ∧ (schedule.states later).durableOffset = some 0 := by
  let : BuildProfile := ⟨true⟩
  have appends : Run Layer.Moves (.new none) ([] ++ [.append (entryAt 0)]) _ :=
    Run.nil.snoc (.append (entryAt 0))
  have opens : Run Layer.Moves ((Layer.new none).append (entryAt 0)) ([] ++ [.create])
      { (Layer.new none).append (entryAt 0) with file := some [], writer := .waiting } :=
        Run.nil.snoc (.create rfl)
  have delivers :=
    (@deliver _ (fun _ _ => True) { (Layer.new none).append (entryAt 0) with
      file := some [], writer := .waiting } 0
    (entryAt 0) (fun _ _ _ => trivial) rfl rfl rfl rfl rfl rfl).unguarded
  obtain ⟨schedule, begins, listed, obliging, ended⟩ :=
    @Schedule.obliging_of_run _ _ _ _ _ _ carries (opens.append delivers)
    (by simp [delivery, carries]) fun event after carried => halted_of_due rfl carried
  have closed (time : Nat) (entry : LogEntry) : schedule.events time ≠ some (.append entry) := by
    intro appends
    rw [listed] at appends
    have member := List.mem_of_getElem? appends
    simp [delivery] at member
  obtain ⟨⟨time, drains⟩, _⟩ := appends_become_durable appends schedule begins closed obliging
  obtain ⟨same, settled, _, drained⟩ := drains (time + 6) (Nat.le_add_right time 6)
  have final := ended (time + 6) (Nat.le_add_left 6 time)
  exact ⟨_, time + 6, schedule, appends, begins, settled, drained (by rw [final]; rfl),
    same, by rw [final]; rfl⟩

/-- A call between the first append and the creation of the file panics. The first
report then ends the updater, the second one the writer, and what comes later is lost. -/
theorem early_call_loses : ∃ layer, @Run _ _ (@Layer.Moves ⟨true⟩) (.new none)
      ([.append (entryAt 0), .append (entryAt 1), .append (entryAt 2), .getDurableTxOffset, .create,
        .send 0, .send 0, .send 0] ++
        [.receive, .finish, .report, .update, .receive, .finish, .report]) layer ∧
    layer.written = [entryAt 0, entryAt 1] ∧ layer.lost = [entryAt 2] ∧ layer.durableOffset = none := by
  let : BuildProfile := ⟨true⟩
  have appends : Run Layer.Moves (.new none)
      ([] ++ [.append (entryAt 0)] ++ [.append (entryAt 1)] ++ [.append (entryAt 2)] ++
        [.getDurableTxOffset]) _ :=
    (((Run.nil.snoc (.append (entryAt 0))).snoc (.append (entryAt 1))).snoc (.append (entryAt 2))).snoc
      (.poison rfl)
  have sends :=
    (((appends.snoc (.create rfl)).snoc (@Layer.Moves.send _ _ 0 _ rfl (by simp) (by decide))).snoc
    (@Layer.Moves.send _ _ 0 _ rfl (by simp) (by decide))).snoc
      (@Layer.Moves.send _ _ 0 _ rfl (by simp) (by decide))
  have first :=
    (((sends.snoc (.receive rfl rfl)).snoc (.finish rfl)).snoc (.report rfl rfl (by decide))).snoc
      (.outdated rfl rfl rfl)
  have second := ((first.snoc (.receive rfl rfl)).snoc (.finish rfl)).snoc (.unreported rfl rfl)
  exact ⟨_, second, rfl, rfl, rfl⟩

end OmniSpacetimeDb.Proofs.LogDrain
