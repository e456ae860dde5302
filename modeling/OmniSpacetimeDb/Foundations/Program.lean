import OmniSpacetimeDb.Foundations.Reader

/-! Readers as programs over one reader that they call, so that it can be said
where in a byte string a run calls it. -/

namespace Foundations

inductive Program (ε ν α : Type) : Type 1 where
  | pure (value : α)
  | call (next : ν → Program ε ν α)
  | read {β : Type} (reader : Reader ε β) (next : β → Program ε ν α)

namespace Program
variable {ε ν α β : Type}

def bind (program : Program ε ν α) (next : α → Program ε ν β) : Program ε ν β :=
  match program with
  | .pure value => next value
  | .call rest => .call fun value => (rest value).bind next
  | .read reader rest => .read reader fun value => (rest value).bind next

def times (program : Program ε ν α) : Nat → Program ε ν (List α)
  | 0 => .pure []
  | count + 1 => program.bind fun item => (times program count).bind fun items => .pure (item :: items)

def run (called : Reader ε ν) : Program ε ν α → Reader ε α
  | .pure value => Pure.pure value
  | .call next => called >>= fun value => (next value).run called
  | .read reader next => reader >>= fun value => (next value).run called

/-- What is left of the bytes at each call of a run. -/
def sites (called : Reader ε ν) : Program ε ν α → List UInt8 → List (List UInt8)
  | .pure _, _ => []
  | .call next, bytes =>
    bytes :: match called.run bytes with
      | .ok (value, rest) => (next value).sites called rest
      | .error _ => []
  | .read reader next, bytes =>
    match reader.run bytes with
    | .ok (value, rest) => (next value).sites called rest
    | .error _ => []

theorem run_bind (called : Reader ε ν) (program : Program ε ν α) (next : α → Program ε ν β) :
    (program.bind next).run called = program.run called >>= fun value => (next value).run called := by
  induction program with
  | pure value => simp only [bind, run, pure_bind]
  | call rest ih => simp only [bind, run, bind_assoc, ih]
  | read reader rest ih => simp only [bind, run, bind_assoc, ih]

theorem run_times (called : Reader ε ν) (program : Program ε ν α) (count : Nat) :
    (program.times count).run called = (program.run called).times count := by
  induction count with
  | zero => rfl
  | succ count ih =>
    rw [times, run_bind]
    simp only [run_bind, ih]
    rfl

/-- Two readers that agree where this holds see it at all of their calls or at
neither's: up to the first call where it does not, their runs are the same. -/
theorem sites_iff {first second : Reader ε ν} {good : List UInt8 → Prop}
    (agree : ∀ site, good site → first.run site = second.run site) (program : Program ε ν α)
    (bytes : List UInt8) :
    (∀ site ∈ program.sites first bytes, good site) ↔ ∀ site ∈ program.sites second bytes, good site := by
  induction program generalizing bytes with
  | pure value => exact Iff.rfl
  | call next ih =>
    rw [sites, sites, List.forall_mem_cons, List.forall_mem_cons]
    apply and_congr_right
    intro holds
    rw [agree bytes holds]
    cases second.run bytes with
    | error error => exact Iff.rfl
    | ok both => exact ih both.1 both.2
  | read reader next ih =>
    rw [sites, sites]
    cases reader.run bytes with
    | error error => exact Iff.rfl
    | ok both => exact ih both.1 both.2

/-- Only the reader that is called can fail like this. -/
def Leaves (error : ε) : Program ε ν α → Prop
  | .pure _ => True
  | .call next => ∀ value, (next value).Leaves error
  | .read reader next => (∀ bytes, reader.run bytes ≠ .error error) ∧ ∀ value, (next value).Leaves error

section
variable {error : ε} {program : Program ε ν α}

theorem Leaves.bind {next : α → Program ε ν β} (first : program.Leaves error)
    (rest : ∀ value, (next value).Leaves error) :
    (program.bind next).Leaves error := by
  induction program with
  | pure value => exact rest value
  | call next ih => exact fun value => ih value (first value)
  | read reader next ih => exact ⟨first.1, fun value => ih value (first.2 value)⟩

theorem Leaves.times (leaves : program.Leaves error) (count : Nat) :
    (program.times count).Leaves error := by
  induction count with
  | zero => trivial
  | succ count ih => exact leaves.bind fun item => ih.bind fun items => trivial

theorem Leaves.fails_iff (leaves : program.Leaves error) (called : Reader ε ν) (bytes : List UInt8) :
    (program.run called).run bytes = .error error ↔
      ∃ site ∈ program.sites called bytes, called.run site = .error error := by
  induction program generalizing bytes with
  | pure value => exact iff_of_false nofun fun ⟨site, member, fails⟩ => List.not_mem_nil member
  | call next ih =>
    simp only [run, sites, StateT.run_bind, List.mem_cons, exists_eq_or_imp]
    cases first : called.run bytes with
    | error other => simp [Bind.bind, Except.bind]
    | ok both =>
      rw [or_iff_right (by simp)]
      exact ih both.1 (leaves both.1) both.2
  | read reader next ih =>
    rw [run, sites, StateT.run_bind]
    cases first : reader.run bytes with
    | error other =>
      have different : other ≠ error := fun same => leaves.1 bytes (same ▸ first)
      simp [Bind.bind, Except.bind, different]
    | ok both => exact ih both.1 (leaves.2 both.1) both.2

end
end Program
end Foundations
