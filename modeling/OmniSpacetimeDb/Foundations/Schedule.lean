import OmniSpacetimeDb.Foundations.Transition
import Mathlib.Order.Monotone.Basic
import Mathlib.Order.WellFounded

/-! Schedules of a labelled transition relation: runs without end, in which nothing
may happen for a while or forever. -/

namespace Foundations
variable {σ ε : Type} {step : σ → ε → σ → Prop}

inductive Stutters (step : σ → ε → σ → Prop) (before : σ) : Option ε → σ → Prop
  | idle : Stutters step before none before
  | moved {event after} (taken : step before event after) : Stutters step before (some event) after

structure Schedule (step : σ → ε → σ → Prop) where
  states : Nat → σ
  events : Nat → Option ε
  moves : ∀ time, Stutters step (states time) (events time) (states (time + 1))

namespace Schedule

/-- While a marked step is possible, one is taken at some later time. -/
def Obliging (schedule : Schedule step) (marked : ε → Bool) : Prop :=
  ∀ time event after, marked event = true → step (schedule.states time) event after →
    ∃ later next, time ≤ later ∧ schedule.events later = some next ∧ marked next = true

theorem moved (schedule : Schedule step) {time : Nat} {event : ε}
    (known : schedule.events time = some event) :
    step (schedule.states time) event (schedule.states (time + 1)) := by
  have moves := schedule.moves time
  rw [known] at moves
  cases moves with
  | moved taken => exact taken

theorem idle (schedule : Schedule step) {time : Nat} (known : schedule.events time = none) :
    schedule.states (time + 1) = schedule.states time := by
  have moves := schedule.moves time
  rw [known] at moves
  generalize schedule.states (time + 1) = after at moves
  cases moves with
  | idle => rfl

/-- The steps up to a time are a run. -/
theorem run (schedule : Schedule step) (time : Nat) :
    ∃ events, Run step (schedule.states 0) events (schedule.states time) ∧
    ∀ event ∈ events, ∃ earlier, schedule.events earlier = some event := by
  induction time with
  | zero => exact ⟨[], .nil, nofun⟩
  | succ time ih =>
    obtain ⟨events, before, listed⟩ := ih
    cases known : schedule.events time with
    | none =>
      rw [schedule.idle known]
      exact ⟨events, before, listed⟩
    | some event =>
      refine ⟨_, before.snoc (schedule.moved known), ?_⟩
      intro other member
      rcases List.mem_append.mp member with inside | last
      · exact listed other inside
      · obtain rfl := List.mem_singleton.mp last
        exact ⟨time, known⟩

theorem invariant (schedule : Schedule step) (valid : σ → Prop) (initial : valid (schedule.states 0))
    (preserved : ∀ before time event after, valid before → schedule.events time = some event →
      step before event after → valid after)
    (time : Nat) : valid (schedule.states time) := by
  induction time with
  | zero => exact initial
  | succ time ih =>
    cases known : schedule.events time with
    | none =>
      rw [schedule.idle known]
      exact ih
    | some event => exact preserved _ time event _ ih known (schedule.moved known)

section Ranks
variable {α : Type} [Preorder α] {rank : σ → α}

theorem lowers (schedule : Schedule step)
    (keeps : ∀ time event, schedule.events time = some event →
      rank (schedule.states (time + 1)) ≤ rank (schedule.states time)) :
    Antitone fun time => rank (schedule.states time) := by
  apply antitone_nat_of_succ_le
  intro time
  cases known : schedule.events time with
  | none => rw [schedule.idle known]
  | some event => exact keeps time event known

/-- A rank that no step raises and every marked step lowers allows finitely many marked steps. -/
theorem settles [WellFoundedLT α] (schedule : Schedule step) (marked : ε → Bool)
    (keeps : ∀ time event, schedule.events time = some event →
      rank (schedule.states (time + 1)) ≤ rank (schedule.states time))
    (falls : ∀ time event, schedule.events time = some event → marked event = true →
      rank (schedule.states (time + 1)) < rank (schedule.states time)) :
    ∃ time, ∀ later event, time ≤ later → schedule.events later = some event → marked event = false := by
  -- by induction on the rank at a time from which on the steps are looked at
  have settled : ∀ bound time, rank (schedule.states time) = bound →
      ∃ last, ∀ later event, last ≤ later → schedule.events later = some event → marked event = false := by
    intro bound
    induction bound using WellFoundedLT.induction with
    | ind bound ih =>
      rintro time rfl
      by_cases quiet : ∀ later event, time ≤ later →
        schedule.events later = some event → marked event = false
      · exact ⟨time, quiet⟩
      · push Not at quiet
        obtain ⟨later, event, after, known, marks⟩ := quiet
        have lower := falls later event known (Bool.eq_true_of_not_eq_false marks)
        exact ih _ (lt_of_lt_of_le lower (schedule.lowers keeps after)) (later + 1) rfl
  exact settled _ 0 rfl

/-- The same schedule, looked at from a time on. -/
def onward (schedule : Schedule step) (start : Nat) : Schedule step where
  states time := schedule.states (start + time)
  events time := schedule.events (start + time)
  moves time := schedule.moves (start + time)

/-- While the goal is not reached no step raises the rank, and again and again a
marked step lowers it; so the goal is reached. -/
theorem leads_to [WellFoundedLT α] (schedule : Schedule step) (goal : σ → Prop) (marked : ε → Bool)
    (start : Nat)
    (fair : ∀ time, start ≤ time → ¬ goal (schedule.states time) →
      ∃ later event, time ≤ later ∧ schedule.events later = some event ∧ marked event = true)
    (keeps : ∀ time event, start ≤ time → ¬ goal (schedule.states time) →
      schedule.events time = some event →
      rank (schedule.states (time + 1)) ≤ rank (schedule.states time))
    (falls : ∀ time event, start ≤ time → ¬ goal (schedule.states time) →
      schedule.events time = some event → marked event = true →
      rank (schedule.states (time + 1)) < rank (schedule.states time)) :
    ∃ time, start ≤ time ∧ goal (schedule.states time) := by
  by_contra never
  have ahead (time : Nat) (passed : start ≤ time) : ¬ goal (schedule.states time) :=
    fun reached => never ⟨time, passed, reached⟩
  obtain ⟨last, quiet⟩ := (schedule.onward start).settles marked
    (fun time event => keeps (start + time) event (Nat.le_add_right start time)
      (ahead _ (Nat.le_add_right start time)))
    fun time event => falls (start + time) event (Nat.le_add_right start time)
      (ahead _ (Nat.le_add_right start time))
  obtain ⟨later, event, passed, known, marks⟩ :=
    fair (start + last) (Nat.le_add_right start last) (ahead _ (Nat.le_add_right start last))
  obtain ⟨more, rfl⟩ := Nat.exists_eq_add_of_le (Nat.le_trans (Nat.le_add_right start last) passed)
  rw [quiet more event (Nat.le_of_add_le_add_left passed) known] at marks
  cases marks

end Ranks

/-- When no marked step is taken any more in an obliging schedule, none is possible. -/
theorem Obliging.halts {schedule : Schedule step} {marked : ε → Bool}
    (obliging : schedule.Obliging marked) {time : Nat}
    (quiet : ∀ later event, time ≤ later → schedule.events later = some event → marked event = false) :
    ∀ later event after, time ≤ later → marked event = true →
      ¬ step (schedule.states later) event after := by
  intro later event after passed marks possible
  obtain ⟨last, next, beyond, known, marked⟩ := obliging later event after marks possible
  rw [quiet last next (Nat.le_trans passed beyond) known] at marked
  cases marked

/-- The same states up to a time, and then another one. -/
def upTo (states : Nat → σ) (last : Nat) (after : σ) (time : Nat) : σ :=
  if time ≤ last then states time else after

theorem upTo_within {states : Nat → σ} {last time : Nat} (after : σ) (within : time ≤ last) :
    upTo states last after time = states time :=
  if_pos within

theorem upTo_beyond {states : Nat → σ} {last time : Nat} (after : σ) (beyond : last < time) :
    upTo states last after time = after :=
  if_neg (Nat.not_le_of_lt beyond)

/-- A run, and then nothing more. -/
theorem of_run {start finish : σ} {events : List ε} (run : Run step start events finish) :
    ∃ schedule : Schedule step,
    (∀ time, schedule.events time = events[time]?) ∧
    ∀ time, Run step start (events.take time) (schedule.states time) ∧
      Run step (schedule.states time) (events.drop time) finish := by
  induction run with
  | nil =>
    refine ⟨⟨fun _ => start, fun _ => none, fun _ => .idle⟩, fun _ => rfl, fun time => ?_⟩
    rw [List.take_nil, List.drop_nil]
    exact ⟨.nil, .nil⟩
  | @snoc earlier middle event after before last ih =>
    obtain ⟨schedule, listed, runs⟩ := ih
    have reached : schedule.states earlier.length = middle := by
      have rest := (runs earlier.length).2
      rw [List.drop_length] at rest
      exact rest.nil_eq
    have moves (time : Nat) : Stutters step (upTo schedule.states earlier.length after time)
        (earlier ++ [event])[time]?
        (upTo schedule.states earlier.length after (time + 1)) := by
      rcases Nat.lt_trichotomy time earlier.length with below | rfl | above
      · rw [upTo_within after (Nat.le_of_lt below), upTo_within after below,
          List.getElem?_append_left below, ← listed]
        exact schedule.moves time
      · rw [upTo_within after (Nat.le_refl _), upTo_beyond after (Nat.lt_succ_self _),
          List.getElem?_concat_length, reached]
        exact .moved last
      · rw [upTo_beyond after above, upTo_beyond after (Nat.lt_succ_of_lt above), List.getElem?_eq_none]
        · exact .idle
        · rw [List.length_append]
          exact above
    refine ⟨⟨_, _, moves⟩, fun _ => rfl, fun time => ?_⟩
    change Run step start _ (upTo schedule.states earlier.length after time) ∧
      Run step (upTo schedule.states earlier.length after time) _ after
    rcases Nat.lt_or_ge earlier.length time with above | within
    · rw [upTo_beyond after above, List.take_of_length_le, List.drop_of_length_le]
      · exact ⟨before.snoc last, .nil⟩
      · rw [List.length_append]
        exact above
      · rw [List.length_append]
        exact above
    · rw [upTo_within after within, List.take_append_of_le_length within,
        List.drop_append_of_le_length within]
      exact ⟨(runs time).1, (runs time).2.snoc last⟩

/-- A run of marked steps that ends where no such step is possible is all of an obliging schedule. -/
theorem obliging_of_run {start finish : σ} {events : List ε} {marked : ε → Bool}
    (run : Run step start events finish) (marks : ∀ event ∈ events, marked event = true)
    (ends : ∀ event after, marked event = true → ¬ step finish event after) :
    ∃ schedule : Schedule step, schedule.states 0 = start ∧ (∀ time, schedule.events time = events[time]?) ∧
      schedule.Obliging marked ∧ ∀ time, events.length ≤ time → schedule.states time = finish := by
  obtain ⟨schedule, listed, runs⟩ := of_run run
  have ended {time : Nat} (beyond : events.length ≤ time) : schedule.states time = finish := by
    have rest := (runs time).2
    rw [List.drop_of_length_le beyond] at rest
    exact rest.nil_eq
  refine ⟨schedule, (runs 0).1.nil_eq.symm, listed, ?_, fun _ => ended⟩
  intro time event after task possible
  rcases Nat.lt_or_ge time events.length with below | beyond
  · refine ⟨time, events[time], Nat.le_refl time, ?_, marks _ (List.getElem_mem below)⟩
    exact (listed time).trans (List.getElem?_eq_getElem below)
  · rw [ended beyond] at possible
    exact absurd possible (ends event after task)

end Schedule
end Foundations
