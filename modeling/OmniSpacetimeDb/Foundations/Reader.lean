import Mathlib.Init

/-! Readers that consume a byte string from the front, and encodings that a
reader takes back whatever bytes follow them. -/

namespace Foundations

abbrev Reader (ε α : Type) := StateT (List UInt8) (Except ε) α

namespace Reader
variable {ε α β : Type}

theorem run'_fails_iff {reader : Reader ε α} {bytes : List UInt8} {error : ε} :
    reader.run' bytes = .error error ↔ reader.run bytes = .error error := by
  have whole : reader.run' bytes = (reader.run bytes).map Prod.fst := rfl
  rw [whole]
  cases reader.run bytes with
  | error other => exact ⟨fun same => congrArg _ (Except.error.inj same),
      fun same => congrArg _ (Except.error.inj same)⟩
  | ok both => exact ⟨nofun, nofun⟩

/-- The reader decodes exactly these bytes, and leaves what follows them. -/
def Decodes (reader : Reader ε α) (bytes : List UInt8) (value : α) : Prop :=
  ∀ rest, reader.run (bytes ++ rest) = .ok (value, rest)

theorem Decodes.pure (value : α) : Decodes (Pure.pure value : Reader ε α) [] value := fun _ => rfl

theorem Decodes.bind {reader : Reader ε α} {next : α → Reader ε β} {first second : List UInt8}
    {value : α} {result : β} (head : reader.Decodes first value)
    (tail : (next value).Decodes second result) :
    (reader >>= next).Decodes (first ++ second) result := by
  intro rest
  rw [StateT.run_bind, List.append_assoc, head]
  exact tail rest

theorem Decodes.whole {reader : Reader ε α} {bytes : List UInt8} {value : α}
    (decodes : reader.Decodes bytes value) :
    reader.run' bytes = .ok value := by
  have run := decodes []
  rw [List.append_nil] at run
  simp only [StateT.run', StateT.run] at run ⊢
  rw [run]
  rfl

def times (reader : Reader ε α) : Nat → Reader ε (List α)
  | 0 => Pure.pure []
  | count + 1 => do
    let item ← reader
    let items ← times reader count
    return item :: items

/-- The reader decodes exactly these bytes, and finds an early end in every part
of them that stops short. -/
structure Frames (early : ε) (reader : Reader ε α) (bytes : List UInt8) (value : α) : Prop where
  decodes : reader.Decodes bytes value
  starves : ∀ part, part <+: bytes → part ≠ bytes → reader.run part = .error early

section
variable {early : ε} {reader : Reader ε α}

theorem Frames.pure (value : α) : Frames early (Pure.pure value) [] value where
  decodes := .pure value
  starves _ isPart short := absurd (List.prefix_nil.mp isPart) short

theorem Frames.bind {next : α → Reader ε β} {first second : List UInt8} {value : α} {result : β}
    (head : Frames early reader first value) (tail : Frames early (next value) second result) :
    Frames early (reader >>= next) (first ++ second) result where
  decodes := head.decodes.bind tail.decodes
  starves := by
    intro part isPart short
    rw [StateT.run_bind]
    by_cases inside : first <+: part
    · obtain ⟨rest, rfl⟩ := inside
      rw [head.decodes]
      apply tail.starves
      · exact (List.prefix_append_right_inj first).mp isPart
      · exact fun whole => short (congrArg (first ++ ·) whole)
    · have before := List.prefix_of_prefix_length_le isPart (List.prefix_append first second)
      have shorter : part.length ≤ first.length := by
        apply Nat.le_of_not_lt
        intro longer
        exact inside
          (List.prefix_of_prefix_length_le (List.prefix_append first second) isPart (Nat.le_of_lt longer))
      rw [head.starves part (before shorter) fun whole => inside (whole ▸ List.prefix_rfl)]
      rfl

theorem Frames.map {bytes : List UInt8} {value : α} (frames : Frames early reader bytes value)
    (make : α → β) :
    Frames early (reader >>= fun value => Pure.pure (make value)) bytes (make value) := by
  have whole : Frames early (reader >>= fun value => Pure.pure (make value)) (bytes ++ []) (make value) :=
    frames.bind (.pure (make value))
  rwa [List.append_nil] at whole

theorem Frames.times {items : List α} {encode : α → List UInt8}
    (each : ∀ item ∈ items, Frames early reader (encode item) item) :
    Frames early (reader.times items.length) (items.flatMap encode) items := by
  induction items with
  | nil => exact .pure []
  | cons item items ih =>
    have rest := ih fun other member => each other (List.mem_cons_of_mem _ member)
    apply (each item List.mem_cons_self).bind
    exact rest.map (item :: ·)

end

/-- Whatever bytes the reader takes, this holds of what it makes of them. -/
def Returns (reader : Reader ε α) (post : α → Prop) : Prop :=
  ∀ bytes value rest, reader.run bytes = .ok (value, rest) → post value

section
variable {reader : Reader ε α} {post : α → Prop}

theorem Returns.pure {value : α} (holds : post value) : (Pure.pure value : Reader ε α).Returns post := by
  intro bytes returned rest run
  obtain ⟨rfl, -⟩ := Prod.mk.inj (Except.ok.inj run)
  exact holds

theorem Returns.bind {next : α → Reader ε β} {result : β → Prop} (head : reader.Returns post)
    (tail : ∀ value, post value → (next value).Returns result) : (reader >>= next).Returns result := by
  intro bytes returned rest run
  rw [StateT.run_bind] at run
  cases first : reader.run bytes with
  | error error =>
    rw [first] at run
    contradiction
  | ok both =>
    rw [first] at run
    exact tail both.1 (head bytes both.1 both.2 first) both.2 returned rest run

theorem Returns.anything (reader : Reader ε α) : reader.Returns fun _ => True := fun _ _ _ _ => trivial

theorem Returns.times (each : reader.Returns post) (count : Nat) :
    (reader.times count).Returns fun items => items.length = count ∧ ∀ item ∈ items, post item := by
  induction count with
  | zero => exact .pure ⟨rfl, fun _ member => absurd member List.not_mem_nil⟩
  | succ count ih =>
    refine each.bind ?_
    intro item holds
    refine ih.bind ?_
    intro items ⟨length, all⟩
    exact .pure ⟨congrArg (· + 1) length, List.forall_mem_cons.mpr ⟨holds, all⟩⟩

theorem Returns.whole (returns : reader.Returns post) {bytes : List UInt8} {value : α}
    (run : reader.run' bytes = .ok value) :
    post value := by
  cases first : reader.run bytes with
  | error error =>
    rw [run'_fails_iff.mpr first] at run
    contradiction
  | ok both =>
    have returned : reader.run' bytes = .ok both.1 := congrArg (Functor.map Prod.fst) first
    rw [returned] at run
    obtain rfl := Except.ok.inj run
    exact returns bytes both.1 both.2 first

end

/-- What the reader takes is a front part of the bytes, and this holds of that part
and of what is made of it. -/
def Takes (reader : Reader ε α) (post : List UInt8 → α → Prop) : Prop :=
  ∀ bytes value rest, reader.run bytes = .ok (value, rest) →
    ∃ taken, bytes = taken ++ rest ∧ post taken value

/-- What is read is valid, and is not written longer than it was read. -/
abbrev Shrinks (reader : Reader ε α) (valid : α → Prop) (encode : α → List UInt8) : Prop :=
  reader.Takes fun taken value => valid value ∧ (encode value).length ≤ taken.length

section
variable {reader : Reader ε α} {post : List UInt8 → α → Prop}

theorem Takes.pure {value : α} (holds : post [] value) : (Pure.pure value : Reader ε α).Takes post := by
  intro bytes returned rest run
  obtain ⟨rfl, rfl⟩ := Prod.mk.inj (Except.ok.inj run)
  exact ⟨[], rfl, holds⟩

theorem Takes.bind {next : α → Reader ε β} {result : List UInt8 → β → Prop} (head : reader.Takes post)
    (tail : ∀ value taken, post taken value →
      (next value).Takes fun more returned => result (taken ++ more) returned) :
    (reader >>= next).Takes result := by
  intro bytes returned rest run
  rw [StateT.run_bind] at run
  cases first : reader.run bytes with
  | error error =>
    rw [first] at run
    contradiction
  | ok both =>
    rw [first] at run
    obtain ⟨taken, split, holds⟩ := head bytes both.1 both.2 first
    obtain ⟨more, left, whole⟩ := tail both.1 taken holds both.2 returned rest run
    refine ⟨taken ++ more, ?_, whole⟩
    rw [split, left, List.append_assoc]

theorem Takes.map {make : α → β} {result : List UInt8 → β → Prop} (takes : reader.Takes post)
    (holds : ∀ taken value, post taken value → result taken (make value)) :
    (reader >>= fun value => Pure.pure (make value)).Takes result := by
  apply takes.bind
  intro value taken satisfied
  apply Takes.pure
  rw [List.append_nil]
  exact holds taken value satisfied

theorem Shrinks.times {valid : α → Prop} {encode : α → List UInt8} (each : reader.Shrinks valid encode)
    (count : Nat) :
    (reader.times count).Shrinks (fun items => items.length = count ∧ ∀ item ∈ items, valid item)
      (List.flatMap encode) := by
  induction count with
  | zero => exact .pure ⟨⟨rfl, fun _ member => absurd member List.not_mem_nil⟩, Nat.le_refl 0⟩
  | succ count ih =>
    apply each.bind
    intro item first ⟨holds, shorter⟩
    apply ih.map
    intro rest items ⟨⟨length, all⟩, shrinks⟩
    refine ⟨⟨congrArg (· + 1) length, List.forall_mem_cons.mpr ⟨holds, all⟩⟩, ?_⟩
    rw [List.flatMap_cons, List.length_append, List.length_append]
    exact Nat.add_le_add shorter shrinks

end

end Reader
end Foundations
