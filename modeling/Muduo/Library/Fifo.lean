import Mathlib.Tactic

/-! # First-in first-out queues with their history

A queue is described by what has entered it and what has left it. What has left
is a prefix of what has entered, so nothing is lost, duplicated or overtaken;
the content is the rest.
-/

namespace Fifo

universe u

/-- Everything that has entered and left a queue. The field `inOrder` is the
queue discipline. -/
structure History (α : Type u) where
  entered : List α
  left : List α
  inOrder : left <+: entered

namespace History

variable {α : Type u}

def empty : History α := ⟨[], [], List.prefix_refl _⟩

/-- What is still in the queue. -/
def content (history : History α) : List α := history.entered.drop history.left.length

/-- Items arrive at the back. -/
def enter (history : History α) (items : List α) : History α :=
  ⟨history.entered ++ items, history.left, history.inOrder.trans (List.prefix_append _ _)⟩

theorem left_append_content (history : History α) :
    history.left ++ history.content = history.entered := by
  obtain ⟨rest, hrest⟩ := history.inOrder
  rw [content, ← hrest, List.drop_left]

/-- Up to `count` items are taken from the front. -/
def leave (history : History α) (count : Nat) : History α :=
  ⟨history.entered, history.left ++ history.content.take count, by
    conv_rhs => rw [← history.left_append_content]
    exact (List.prefix_append_right_inj _).mpr (List.take_prefix _ _)⟩

@[simp] theorem content_empty : (empty : History α).content = [] := rfl

@[simp] theorem content_enter (history : History α) (items : List α) :
    (history.enter items).content = history.content ++ items :=
  List.drop_append_of_le_length history.inOrder.length_le

@[simp] theorem content_leave (history : History α) (count : Nat) :
    (history.leave count).content = history.content.drop count := by
  have hsplit := (history.leave count).left_append_content
  have hentered : (history.leave count).entered = history.left ++ history.content :=
    history.left_append_content.symm
  rw [hentered] at hsplit
  simp only [leave, List.append_assoc, List.append_cancel_left_eq] at hsplit
  exact List.append_cancel_left (hsplit.trans (List.take_append_drop count _).symm)

@[simp] theorem entered_enter (history : History α) (items : List α) :
    (history.enter items).entered = history.entered ++ items := rfl

@[simp] theorem left_enter (history : History α) (items : List α) :
    (history.enter items).left = history.left := rfl

@[simp] theorem entered_leave (history : History α) (count : Nat) :
    (history.leave count).entered = history.entered := rfl

@[simp] theorem left_leave (history : History α) (count : Nat) :
    (history.leave count).left = history.left ++ history.content.take count := rfl

end History

end Fifo
