import Mathlib.Init

/-! Updates of a state in place. An error stops the update and keeps what was
already written; `none` is a panic, after which no state is left to look at. -/

namespace Foundations

/-- What an update leaves behind, and what it returns. -/
abbrev Update (σ ε : Type) := σ → Option (σ × Except ε Unit)

namespace Update
variable {σ τ ε α : Type}

def done : Update σ ε := fun state => some (state, .ok ())

def panic : Update σ ε := fun _ => none

def andThen (first second : Update σ ε) : Update σ ε := fun state =>
  match first state with
  | some (state, .ok ()) => second state
  | stopped => stopped

def forEach (action : α → Update σ ε) : List α → Update σ ε
  | [] => done
  | item :: items => (action item).andThen (forEach action items)

def Completes (update : Update σ ε) (before after : σ) : Prop := update before = some (after, .ok ())

theorem Completes.andThen {first second : Update σ ε} {before middle after : σ}
    (start : first.Completes before middle) (rest : second.Completes middle after) :
    (first.andThen second).Completes before after := by
  simp only [Completes, Update.andThen] at *
  rw [start]
  exact rest

theorem Completes.forEach {action : α → Update σ ε} {effect : σ → α → σ} {items : List α}
    (each : ∀ item ∈ items, ∀ state, (action item).Completes state (effect state item)) (state : σ) :
    (forEach action items).Completes state (items.foldl effect state) := by
  induction items generalizing state with
  | nil => rfl
  | cons item items ih =>
    exact (each item List.mem_cons_self state).andThen
      (ih (fun item member => each item (List.mem_cons_of_mem _ member)) _)

theorem forEach_map {β : Type} (action : β → Update σ ε) (make : α → β) (items : List α) :
    forEach action (items.map make) = forEach (fun item => action (make item)) items := by
  induction items with
  | nil => rfl
  | cons item items ih => rw [List.map_cons, forEach, ih, forEach]

theorem Completes.forEach_one {action : α → Update σ ε} {item : α} {before after : σ}
    (only : (action item).Completes before after) :
    (Update.forEach action [item]).Completes before after := by
  rw [Completes, Update.forEach, Update.andThen, only]
  rfl

def Ensures (relation : σ → σ → Prop) (update : Update σ ε) : Prop :=
  ∀ before after result, update before = some (after, result) → relation before after

section
variable {relation : σ → σ → Prop} (refl : ∀ state, relation state state)
  (trans : ∀ first second third, relation first second → relation second third → relation first third)

include trans in
theorem Ensures.andThen {first second : Update σ ε} (start : first.Ensures relation)
    (rest : second.Ensures relation) :
    (first.andThen second).Ensures relation := by
  intro before after result ran
  rw [Update.andThen] at ran
  split at ran
  next middle done => exact trans _ _ _ (start _ _ _ done) (rest _ _ _ ran)
  next stopped => exact start _ _ _ ran

include refl trans in
theorem Ensures.forEach {action : α → Update σ ε} {items : List α}
    (each : ∀ item ∈ items, (action item).Ensures relation) :
    (forEach action items).Ensures relation := by
  induction items with
  | nil =>
    intro before after result ran
    cases ran
    exact refl before
  | cons item items ih =>
    have rest := ih fun item member => each item (List.mem_cons_of_mem _ member)
    exact (each item List.mem_cons_self).andThen trans rest

end

/-- What the update returns does not depend on the state; `none` is a panic. -/
def Yields (update : Update σ ε) (outcome : Option (Except ε Unit)) : Prop :=
  ∀ state, (update state).map Prod.snd = outcome

theorem Yields.error_iff {update : Update σ ε} {outcome : Option (Except ε Unit)}
    (yields : update.Yields outcome) (state : σ) :
    (∃ after error, update state = some (after, .error error)) ↔
      ∃ error, outcome = some (.error error) := by
  rw [← yields state]
  constructor
  · rintro ⟨after, error, returned⟩
    exact ⟨error, by rw [returned]; rfl⟩
  · rintro ⟨error, returned⟩
    obtain ⟨⟨after, result⟩, ran, rfl⟩ := Option.map_eq_some_iff.mp returned
    exact ⟨after, error, ran⟩

def followedBy (first second : Option (Except ε Unit)) : Option (Except ε Unit) :=
  match first with
  | some (.ok ()) => second
  | stopped => stopped

/-- The outcome of a loop: that of the first item that does not pass. -/
def firstStop (outcome : α → Option (Except ε Unit)) : List α → Option (Except ε Unit)
  | [] => some (.ok ())
  | item :: items => followedBy (outcome item) (firstStop outcome items)

theorem followedBy_assoc (first second third : Option (Except ε Unit)) :
    followedBy (followedBy first second) third = followedBy first (followedBy second third) := by
  rcases first with _ | _ | _ <;> rfl

theorem followedBy_ok_iff {first second : Option (Except ε Unit)} :
    followedBy first second = some (.ok ()) ↔ first = some (.ok ()) ∧ second = some (.ok ()) := by
  rcases first with _ | _ | _ <;> simp [followedBy]

theorem followedBy_error_iff {first second : Option (Except ε Unit)} {error : ε} :
    followedBy first second = some (.error error) ↔
      first = some (.error error) ∨ first = some (.ok ()) ∧ second = some (.error error) := by
  rcases first with _ | _ | _ <;> simp [followedBy]

theorem Yields.andThen {first second : Update σ ε} {start rest : Option (Except ε Unit)}
    (head : first.Yields start) (tail : second.Yields rest) :
    (first.andThen second).Yields (followedBy start rest) := by
  intro state
  rw [← head state, Update.andThen]
  rcases first state with _ | ⟨after, _ | _⟩
  · rfl
  · rfl
  · exact tail after

theorem Yields.forEach {action : α → Update σ ε} {outcome : α → Option (Except ε Unit)} {items : List α}
    (each : ∀ item ∈ items, (action item).Yields (outcome item)) :
    (forEach action items).Yields (firstStop outcome items) := by
  induction items with
  | nil => exact fun _ => rfl
  | cons item items ih =>
    apply (each item List.mem_cons_self).andThen
    exact ih fun other member => each other (List.mem_cons_of_mem _ member)

theorem firstStop_append (outcome : α → Option (Except ε Unit)) (items more : List α) :
    firstStop outcome (items ++ more) = followedBy (firstStop outcome items) (firstStop outcome more) := by
  induction items with
  | nil => rfl
  | cons item items ih => rw [List.cons_append, firstStop, ih, firstStop, followedBy_assoc]

theorem firstStop_flatMap {β : Type} (outcome : β → Option (Except ε Unit)) (parts : α → List β)
    (items : List α) :
    firstStop (fun item => firstStop outcome (parts item)) items =
      firstStop outcome (items.flatMap parts) := by
  induction items with
  | nil => rfl
  | cons item items ih => rw [firstStop, List.flatMap_cons, firstStop_append, ih]

theorem firstStop_ok_iff {outcome : α → Option (Except ε Unit)} {items : List α} :
    firstStop outcome items = some (.ok ()) ↔ ∀ item ∈ items, outcome item = some (.ok ()) := by
  induction items with
  | nil => simp [firstStop]
  | cons item items ih => rw [firstStop, followedBy_ok_iff, ih, List.forall_mem_cons]

theorem firstStop_error_iff {outcome : α → Option (Except ε Unit)} {items : List α} {error : ε} :
    firstStop outcome items = some (.error error) ↔ ∃ before item after, items = before ++ item :: after ∧
      (∀ earlier ∈ before, outcome earlier = some (.ok ())) ∧ outcome item = some (.error error) := by
  constructor
  · intro stops
    induction items with
    | nil => cases stops
    | cons item items ih =>
      rcases followedBy_error_iff.mp stops with here | ⟨passes, later⟩
      · exact ⟨[], item, items, rfl, fun _ inside => absurd inside List.not_mem_nil, here⟩
      · obtain ⟨before, failing, after, rfl, pass, fails⟩ := ih later
        exact ⟨item :: before, failing, after, rfl, List.forall_mem_cons.mpr ⟨passes, pass⟩, fails⟩
  · rintro ⟨before, item, after, rfl, pass, fails⟩
    rw [firstStop_append, firstStop_ok_iff.mpr pass]
    exact followedBy_error_iff.mpr (.inr ⟨rfl, followedBy_error_iff.mpr (.inl fails)⟩)

end Update
end Foundations
