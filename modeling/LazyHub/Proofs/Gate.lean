import LazyHub.Gate
import Mathlib.Data.List.Destutter

/-!
# What a gate lets through

A gate is offered one value after another. `settled` is the value behind it at the end, `changes`
are the values it let through, and `notices` are those of them that are to be told, where each value
comes with whether it is. All three take the offers one at a time, so they split where the list of
offers does.

Nothing is assumed of sameness. What is behind the gate is the last value offered, or a value that
counts as the same as that one (`settled_concat`).
-/

namespace LazyHub

variable {V : Type} [SignalValue V]

open SignalValue

/-- The value behind a gate that held a value and was offered some. -/
def settled (v : V) (offered : List V) : V := offered.foldl (fun v x => if same v x then v else x) v

/-- The values that a gate which holds a value lets through, out of those it is offered. -/
def changes (v : V) : List V → List V
  | [] => []
  | x :: rest => if same v x then changes v rest else x :: changes x rest

/-- The values that a gate lets through and that are to be told, if each value offered comes with whether
it is to be told as a change. -/
def notices (v : V) : List (V × Bool) → List V
  | [] => []
  | (x, told) :: rest => if same v x then notices v rest else (if told then [x] else []) ++ notices x rest

@[simp] theorem settled_nil (v : V) : settled v [] = v := rfl

@[simp] theorem settled_singleton (v x : V) : settled v [x] = if same v x then v else x := rfl

theorem settled_append (v : V) (xs ys : List V) : settled v (xs ++ ys) = settled (settled v xs) ys :=
  List.foldl_append

/-- Behind the gate is the last value offered, or one that counts as the same. -/
theorem settled_concat (v : V) (xs : List V) (x : V) :
    settled v (xs ++ [x]) = x ∨ same (settled v (xs ++ [x])) x := by
  rw [settled_append, settled_singleton]
  split
  · rename_i alike
    exact .inr alike
  · exact .inl rfl

theorem changes_append (v : V) (xs ys : List V) :
    changes v (xs ++ ys) = changes v xs ++ changes (settled v xs) ys := by
  induction xs generalizing v with
  | nil => rfl
  | cons x rest ih =>
    by_cases alike : same v x
    · simp [changes, settled, alike, ih]
    · simp [changes, settled, alike, ih]

theorem notices_append (v : V) (xs ys : List (V × Bool)) :
    notices v (xs ++ ys) = notices v xs ++ notices (settled v (xs.map (·.1))) ys := by
  induction xs generalizing v with
  | nil => rfl
  | cons p rest ih =>
    obtain ⟨x, told⟩ := p
    by_cases alike : same v x
    · simp [notices, settled, alike, ih]
    · simp [notices, settled, alike, ih]

/-- If there is somebody to be told of each value, everything that the gate lets through is told. -/
theorem notices_eq_changes {v : V} {xs : List (V × Bool)} (told : ∀ p ∈ xs, p.2 = true) :
    notices v xs = changes v (xs.map (·.1)) := by
  induction xs generalizing v with
  | nil => rfl
  | cons p rest ih =>
    obtain ⟨x, b⟩ := p
    obtain rfl : b = true := told _ List.mem_cons_self
    have rest' := fun v => ih (v := v) fun p hp => told p (List.mem_cons_of_mem _ hp)
    simp [notices, changes, rest']

/-! ### Where sameness is equality -/

/-- Behind the gate is the last value offered, if only equal values count as the same. -/
theorem settled_eq_getLastD [DecidableEq V] {v : V} {xs : List V} (lawful : ∀ x ∈ v :: xs, ∀ y, same x y = decide (x = y)) :
    settled v xs = xs.getLastD v := by
  induction xs generalizing v with
  | nil => rfl
  | cons x rest ih =>
    have first : settled v (x :: rest) = settled x rest := by
      change settled (if same v x then v else x) rest = _
      by_cases eq : v = x
      · rw [eq, ite_self]
      · rw [lawful v List.mem_cons_self, if_neg (by simpa using eq)]
    rw [first, ih fun y mem => lawful y (List.mem_cons_of_mem _ mem), List.getLastD_cons]

/-- The gate lets through what differs from the value before it, if only equal values count as the same. -/
theorem cons_changes [DecidableEq V] {v : V} {xs : List V} (lawful : ∀ x ∈ v :: xs, ∀ y, same x y = decide (x = y)) :
    v :: changes v xs = (v :: xs).destutter (· ≠ ·) := by
  rw [List.destutter_cons']
  induction xs generalizing v with
  | nil => rfl
  | cons x rest ih =>
    have alike := lawful v List.mem_cons_self x
    by_cases eq : v = x
    · subst eq
      rw [List.destutter'_cons_neg _ (by simp), changes, alike, if_pos (by simp)]
      exact ih fun y mem => lawful y (List.mem_cons_of_mem _ mem)
    · rw [List.destutter'_cons_pos _ eq, changes, alike, if_neg (by simpa using eq)]
      rw [ih fun y mem => lawful y (List.mem_cons_of_mem _ mem)]

namespace Gate

theorem offer_fst (g : Gate V) (x : V) : (g.offer x).1 = !same g.value x := by
  by_cases alike : same g.cell.value x <;> simp [offer, Cell.replaceIfChanged, value, alike]

theorem value_offer (g : Gate V) (x : V) : (g.offer x).2.value = settled g.value [x] := by
  by_cases alike : same g.cell.value x <;> simp [offer, Cell.replaceIfChanged, value, alike]

end Gate

end LazyHub
