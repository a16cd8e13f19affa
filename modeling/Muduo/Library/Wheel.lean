import Mathlib.Tactic

/-! # Timing wheels

A wheel is a list of buckets. A tick takes the first bucket away and appends an
empty one; an item is inserted into the last bucket. Seen from outside, an item
in the bucket of index `i` is due at the tick that comes `i` ticks after the next
one, so a wheel is a set of items with deadlines: a tick removes what is due, and
an insertion sets a deadline one full turn ahead.
-/

namespace Wheel

variable {α : Type*} {wheel : List (List α)} {bucket : List α} {now deadline : ℕ} {item new : α}

/-- The wheel after a tick. -/
def turn (wheel : List (List α)) : List (List α) := (wheel ++ [[]]).tail

/-- A bucket with the item leaves the wheel at the tick with number `deadline`. -/
def Due (wheel : List (List α)) (now deadline : ℕ) (item : α) : Prop :=
  ∃ index bucket, wheel[index]? = some bucket ∧ item ∈ bucket ∧ deadline = now + index + 1

theorem Due.bounds (hdue : Due wheel now deadline item) :
    now < deadline ∧ deadline ≤ now + wheel.length := by
  obtain ⟨index, bucket, hbucket, -, rfl⟩ := hdue
  obtain ⟨hindex, -⟩ := List.getElem?_eq_some_iff.mp hbucket
  omega

/-- A wheel holds the items that are due at some time. -/
theorem held_iff_due :
    (∃ bucket ∈ wheel, item ∈ bucket) ↔ ∃ deadline, Due wheel now deadline item := by
  constructor
  · rintro ⟨bucket, hbucket, hitem⟩
    obtain ⟨index, hindex⟩ := List.mem_iff_getElem?.mp hbucket
    exact ⟨now + index + 1, index, bucket, hindex, hitem, rfl⟩
  · rintro ⟨deadline, index, bucket, hbucket, hitem, -⟩
    exact ⟨bucket, List.mem_of_getElem? hbucket, hitem⟩

@[simp] theorem not_due_nil : ¬ Due [] now deadline item := by
  rintro ⟨index, bucket, hbucket, -⟩
  cases hbucket

/-- The first bucket is due at the next tick, the others follow. -/
theorem due_cons : Due (bucket :: wheel) now deadline item ↔
    item ∈ bucket ∧ deadline = now + 1 ∨ Due wheel (now + 1) deadline item := by
  constructor
  · rintro ⟨index, found, hfound, hitem, rfl⟩
    cases index with
    | zero =>
        rw [List.getElem?_cons_zero, Option.some.injEq] at hfound
        exact Or.inl ⟨hfound ▸ hitem, rfl⟩
    | succ index => exact Or.inr ⟨index, found, hfound, hitem, by omega⟩
  · rintro (⟨hitem, rfl⟩ | ⟨index, found, hfound, hitem, rfl⟩)
    · exact ⟨0, bucket, rfl, hitem, rfl⟩
    · exact ⟨index + 1, found, hfound, hitem, by omega⟩

/-- The last bucket is due after all others. -/
theorem due_concat : Due (wheel ++ [bucket]) now deadline item ↔
    Due wheel now deadline item ∨ item ∈ bucket ∧ deadline = now + wheel.length + 1 := by
  induction wheel generalizing now with
  | nil =>
      rw [List.nil_append, due_cons, or_comm]
      simp
  | cons first rest ih =>
      rw [List.cons_append, due_cons, ih, due_cons, or_assoc, List.length_cons]
      have hshift : now + 1 + rest.length + 1 = now + (rest.length + 1) + 1 := by omega
      rw [hshift]

@[simp] theorem length_turn (wheel : List (List α)) : (turn wheel).length = wheel.length := by
  simp [turn]

/-- The bucket a tick takes away holds what is due at the tick. -/
theorem mem_front_iff_due : item ∈ (wheel ++ [[]]).headD [] ↔ Due wheel now (now + 1) item := by
  cases wheel with
  | nil => simp
  | cons bucket rest =>
      rw [due_cons]
      refine ⟨fun hitem => Or.inl ⟨hitem, rfl⟩, ?_⟩
      rintro (⟨hitem, -⟩ | hdue)
      · exact hitem
      · exact absurd hdue.bounds.1 (lt_irrefl _)

/-- A tick keeps the deadlines of everything that is not due at it. -/
theorem due_turn : Due (turn wheel) (now + 1) deadline item ↔
    Due wheel now deadline item ∧ deadline ≠ now + 1 := by
  cases wheel with
  | nil => simp [turn]
  | cons bucket rest =>
      have hturn : turn (bucket :: rest) = rest ++ [[]] := rfl
      rw [hturn, due_concat, due_cons]
      constructor
      · rintro (hdue | ⟨hitem, -⟩)
        · exact ⟨Or.inr hdue, hdue.bounds.1.ne'⟩
        · cases hitem
      · rintro ⟨⟨-, hnow⟩ | hdue, hlater⟩
        · exact absurd hnow hlater
        · exact Or.inl hdue

/-- The last bucket holds what is due one turn ahead. -/
theorem mem_last_iff_due (hlast : wheel.getLast? = some bucket) :
    item ∈ bucket ↔ Due wheel now (now + wheel.length) item := by
  obtain ⟨front, rfl⟩ := List.getLast?_eq_some_iff.mp hlast
  rw [due_concat, List.length_append, List.length_singleton]
  constructor
  · exact fun hitem => Or.inr ⟨hitem, by omega⟩
  · rintro (hdue | ⟨hitem, -⟩)
    · have hbounds := hdue.bounds
      omega
    · exact hitem

/-- An insertion gives the item a deadline one turn ahead. -/
theorem due_insert [DecidableEq α] (hlast : wheel.getLast? = some bucket) :
    Due (wheel.dropLast ++ [bucket.insert new]) now deadline item ↔
      Due wheel now deadline item ∨ item = new ∧ deadline = now + wheel.length := by
  obtain ⟨front, rfl⟩ := List.getLast?_eq_some_iff.mp hlast
  rw [List.dropLast_concat, due_concat, due_concat, List.mem_insert_iff, List.length_append,
    List.length_singleton, ← add_assoc]
  tauto

end Wheel
