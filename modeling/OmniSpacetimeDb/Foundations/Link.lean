import OmniSpacetimeDb.Foundations.Transition

/-! One direction of a connection: the sender takes messages in batches, hands
them over in order, and may drop some of them on the way. -/

namespace Foundations
variable {μ : Type}

structure Link (μ : Type) where
  taken : List μ
  left : List μ
  accepted : List μ

inductive LinkEvent
  | quiet
  | took
  | dropped
  | delivered
deriving DecidableEq

/-- A batch is taken only when the one before it is used up. -/
inductive LinkStep (link : Link μ) : LinkEvent → Link μ → Prop
  | quiet : LinkStep link .quiet link
  | took (messages : List μ) (used : link.left = []) :
      LinkStep link .took ⟨link.taken ++ messages, messages, link.accepted⟩
  | dropped {left : List μ} (kept : left.Sublist link.left) : LinkStep link .dropped { link with left }
  | delivered {message : μ} {left : List μ} (next : link.left = message :: left) :
      LinkStep link .delivered ⟨link.taken, left, link.accepted ++ [message]⟩

namespace Link
variable {link after : Link μ} {event : LinkEvent}

/-- Nothing is invented, doubled or overtaken. -/
def Ordered (link : Link μ) : Prop := (link.accepted ++ link.left).Sublist link.taken

/-- And nothing is lost. -/
def Whole (link : Link μ) : Prop := link.accepted ++ link.left = link.taken

theorem ordered_step (ordered : link.Ordered) (step : LinkStep link event after) : after.Ordered := by
  cases step with
  | quiet => exact ordered
  | took messages used =>
    rw [Ordered, used, List.append_nil] at ordered
    exact List.Sublist.append ordered (List.Sublist.refl messages)
  | dropped kept => exact (List.Sublist.append (List.Sublist.refl link.accepted) kept).trans ordered
  | @delivered message left next =>
    rw [Ordered, next, List.append_cons] at ordered
    exact ordered

theorem whole_step (whole : link.Whole) (step : LinkStep link event after) (keeps : event ≠ .dropped) :
    after.Whole := by
  cases step with
  | quiet => exact whole
  | took messages used =>
    rw [Whole, used, List.append_nil] at whole
    rw [Whole, whole]
  | dropped => exact absurd rfl keeps
  | @delivered message left next =>
    rw [Whole, next, List.append_cons] at whole
    exact whole

/-- Only a delivery is seen by the receiver. -/
theorem accepted_iff (step : LinkStep link event after) :
    event ≠ .delivered ↔ after.accepted = link.accepted := by
  cases step with
  | quiet | took | dropped => exact ⟨fun _ => rfl, fun _ => nofun⟩
  | delivered next => simp

theorem delivered_head {message : μ} {left : List μ} (step : LinkStep link .delivered after)
    (next : link.left = message :: left) :
    after.accepted = link.accepted ++ [message] := by
  cases step with
  | delivered other =>
    rw [next] at other
    cases other
    rfl

end Link
end Foundations
