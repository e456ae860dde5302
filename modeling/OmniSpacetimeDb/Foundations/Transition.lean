import Mathlib.Init

/-! Runs of a labelled transition relation, and runs all of whose steps meet a
condition on the state they start from. -/

namespace Foundations
variable {σ ε : Type} {step other : σ → ε → σ → Prop} {start finish : σ} {events : List ε}

/-- The events of a run are listed oldest first. -/
inductive Run (step : σ → ε → σ → Prop) (start : σ) : List ε → σ → Prop
  | nil : Run step start [] start
  | snoc {events middle event finish} (before : Run step start events middle)
      (last : step middle event finish) :
      Run step start (events ++ [event]) finish

theorem Run.invariant (run : Run step start events finish) (valid : σ → Prop) (initial : valid start)
    (preserved : ∀ before event after, valid before → step before event after → valid after) :
    valid finish := by
  induction run with
  | nil => exact initial
  | snoc before last ih => exact preserved _ _ _ ih last

theorem Run.nil_eq (run : Run step start [] finish) : start = finish := by
  generalize none : [] = events at run
  cases run with
  | nil => rfl
  | snoc => simp at none

theorem Run.append {more : List ε} {last : σ} (run : Run step start events finish)
    (further : Run step finish more last) :
    Run step start (events ++ more) last := by
  induction further with
  | nil =>
    rw [List.append_nil]
    exact run
  | snoc before final ih =>
    rw [← List.append_assoc]
    exact ih.snoc final

theorem Run.mono (run : Run step start events finish)
    (implies : ∀ before event after, step before event after → other before event after) :
    Run other start events finish := by
  induction run with
  | nil => exact .nil
  | snoc before last ih => exact ih.snoc (implies _ _ _ last)

/-- Each step is followed by a run of another relation that its event stands for,
and so is the whole run. What relates the two may look at the events so far. -/
theorem Run.translate {τ δ : Type} {follow : τ → δ → τ → Prop} {begin : τ} (stands : ε → List δ)
    (run : Run step start events finish) (related : List ε → σ → τ → Prop)
    (initial : related [] start begin)
    (each : ∀ earlier before event after abstract, related earlier before abstract →
      step before event after →
      ∃ next, Run follow abstract (stands event) next ∧ related (earlier ++ [event]) after next) :
    ∃ last, Run follow begin (events.flatMap stands) last ∧ related events finish last := by
  induction run with
  | nil => exact ⟨begin, .nil, initial⟩
  | snoc before last ih =>
    obtain ⟨abstract, followed, relates⟩ := ih
    obtain ⟨next, further, later⟩ := each _ _ _ _ abstract relates last
    rw [List.flatMap_append, List.flatMap_singleton]
    exact ⟨next, followed.append further, later⟩

section Marks
variable {α : Type} {le : α → α → Prop} {mark : σ → Option α}

/-- The mark may be set, and is never lowered. -/
def Climbs (le : α → α → Prop) (mark : σ → Option α) (before after : σ) : Prop :=
  ∀ low, mark before = some low → ∃ high, mark after = some high ∧ le low high

theorem Run.climbs (run : Run step start events finish) (refl : ∀ low, le low low)
    (trans : ∀ low middle high, le low middle → le middle high → le low high) (valid : σ → Prop)
    (initial : valid start)
    (preserved : ∀ before event after, valid before → step before event after →
      valid after ∧ Climbs le mark before after) :
    valid finish ∧ Climbs le mark start finish := by
  induction run with
  | nil => exact ⟨initial, fun low marked => ⟨low, marked, refl low⟩⟩
  | snoc before last ih =>
    obtain ⟨held, climbed⟩ := ih
    obtain ⟨holds, climbs⟩ := preserved _ _ _ held last
    refine ⟨holds, ?_⟩
    intro low marked
    obtain ⟨middle, reached, below⟩ := climbed low marked
    obtain ⟨high, ends, above⟩ := climbs middle reached
    exact ⟨high, ends, trans low middle high below above⟩

end Marks

structure Guarded (guard : σ → ε → Prop) (step : σ → ε → σ → Prop) (before : σ) (event : ε) (after : σ) :
    Prop where
  allowed : guard before event
  taken : step before event after

theorem Run.unguarded {guard : σ → ε → Prop} (run : Run (Guarded guard step) start events finish) :
    Run step start events finish :=
  run.mono fun _ _ _ guarded => guarded.taken

theorem Run.guarded {guard : σ → ε → Prop} (run : Run step start events finish)
    (allowed : ∀ before event, guard before event) :
    Run (Guarded guard step) start events finish :=
  run.mono fun before event _ taken => ⟨allowed before event, taken⟩

end Foundations
