/-!
# Runs of events

The cache of the settings and the validator are driven by events. An event finds one state, leaves
another and has effects, and what waits for an event is taken out of a list when the event comes.

* `runEvents`: what events do, one after the other.
* `runEvents_append`: **a run goes on where another one has ended.**
* `split_of_find?`: what taking the first of its kind out of a list leaves.
-/

namespace CatalogLint

section Runs

variable {σ ε α : Type} (step : σ → ε → σ × List α)

/-- What events do, one after the other: the state in the end, and all effects in order. -/
def runEvents (s : σ) : List ε → σ × List α
  | [] => (s, [])
  | e :: es =>
    let (s, effects) := step s e
    let (s, more) := runEvents s es
    (s, effects ++ more)

theorem runEvents_cons (s : σ) (e : ε) (es : List ε) :
    runEvents step s (e :: es) = ((runEvents step (step s e).1 es).1,
      (step s e).2 ++ (runEvents step (step s e).1 es).2) := rfl

theorem runEvents_append (s : σ) (es es' : List ε) :
    runEvents step s (es ++ es') = ((runEvents step (runEvents step s es).1 es').1,
      (runEvents step s es).2 ++ (runEvents step (runEvents step s es).1 es').2) := by
  induction es generalizing s with
  | nil => rfl
  | cons e es ih => rw [List.cons_append, runEvents_cons, runEvents_cons, ih, List.append_assoc]

theorem runEvents_concat (s : σ) (es : List ε) (e : ε) :
    (runEvents step s (es ++ [e])).1 = (step (runEvents step s es).1 e).1 := by
  rw [runEvents_append]
  rfl

end Runs

theorem split_of_find? {α : Type} {p : α → Bool} {xs : List α} {x : α} (h : xs.find? p = some x) :
    p x = true ∧ ∃ l₁ l₂, xs = l₁ ++ x :: l₂ ∧ xs.eraseP p = l₁ ++ l₂ := by
  obtain ⟨hx, l₁, l₂, rfl, hl₁⟩ := List.find?_eq_some_iff_append.1 h
  refine ⟨hx, l₁, l₂, rfl, ?_⟩
  rw [List.eraseP_append_right _ (by simpa using hl₁), List.eraseP_cons_of_pos hx]

end CatalogLint
