/-
Chronicle/Tagged.lean

Lists of values of different types, each with the identity of its type.  Look-ups
go by identity and give values of the type that was asked for.
-/
namespace Chronicle.Tagged

variable {ι : Type} [DecidableEq ι] {β : ι → Type}

/-- A value as one of the given type, if it is of that very type. -/
def as? (i : ι) (x : Σ i, β i) : Option (β i) :=
  if h : x.1 = i then some (h ▸ x.2) else none

/-- All values of a type, in order. -/
def select (i : ι) (xs : List (Σ i, β i)) : List (β i) := xs.filterMap (as? i)

/-- The first value of a type. -/
def find? (i : ι) (xs : List (Σ i, β i)) : Option (β i) := (select i xs).head?

@[simp] theorem as?_self (i : ι) (b : β i) : as? i ⟨i, b⟩ = some b := by
  simp [as?]

theorem as?_of_ne {i j : ι} (b : β j) (h : j ≠ i) : as? i ⟨j, b⟩ = none := by
  simp [as?, h]

theorem as?_eq_some {i : ι} {x : Σ i, β i} {b : β i} : as? i x = some b ↔ x = ⟨i, b⟩ := by
  obtain ⟨j, c⟩ := x
  by_cases h : j = i
  · subst h
    simp
  · constructor
    · simp [as?_of_ne c h]
    · intro he
      cases he
      exact absurd rfl h

@[simp] theorem select_append (i : ι) (xs ys : List (Σ i, β i)) :
    select i (xs ++ ys) = select i xs ++ select i ys := by
  simp [select]

end Chronicle.Tagged
