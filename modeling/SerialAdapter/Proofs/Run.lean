import Mathlib.Data.List.DropRight

/-! Runs of a deterministic system. A run keeps what happened as a list of moves, each with the state
that it found, and is cut into epochs by some of them. -/
namespace SerialAdapter

structure Entry (σ μ : Type) where
  before : σ
  move : μ

section Run

variable {σ μ : Type} (step : μ → σ → σ)

def history (s : σ) : List μ → List (Entry σ μ)
  | [] => []
  | m :: moves => ⟨s, m⟩ :: history (step m s) moves

def run (s : σ) : List μ → σ
  | [] => s
  | m :: moves => run (step m s) moves

theorem historySnoc (s : σ) (moves : List μ) (m : μ) :
    history step s (moves ++ [m]) = history step s moves ++ [⟨run step s moves, m⟩] := by
  induction moves generalizing s with
  | nil => rfl
  | cons first moves ih =>
    simp only [List.cons_append, history, run, ih]

theorem runAppend (s : σ) (first second : List μ) :
    run step s (first ++ second) = run step (run step s first) second := by
  induction first generalizing s with
  | nil => rfl
  | cons m first ih =>
    simp only [List.cons_append, run, ih]

theorem runSnoc (s : σ) (moves : List μ) (m : μ) :
    run step s (moves ++ [m]) = step m (run step s moves) := runAppend step s moves [m]

theorem runKeeps {P : List (Entry σ μ) → σ → Prop} {s : σ} (start : P [] s)
    (kept : ∀ h s m, P h s → P (h ++ [⟨s, m⟩]) (step m s)) (moves : List μ) :
    P (history step s moves) (run step s moves) := by
  induction moves using List.reverseRecOn with
  | nil => exact start
  | append_singleton moves m ih =>
    rw [historySnoc, runSnoc]
    exact kept _ _ _ ih

/-- The entries since the last one that cuts. -/
def epoch (cuts : Entry σ μ → Bool) (h : List (Entry σ μ)) : List (Entry σ μ) :=
  h.rtakeWhile (!cuts ·)

theorem epochSnoc (cuts : Entry σ μ → Bool) (h : List (Entry σ μ)) (e : Entry σ μ) :
    epoch cuts (h ++ [e]) = if cuts e then [] else epoch cuts h ++ [e] := by
  simp only [epoch, List.rtakeWhile_concat]
  cases cuts e <;> rfl

theorem epochKeeps {P : List (Entry σ μ) → σ → Prop} {s : σ} (cuts : Entry σ μ → Bool)
    (start : P [] s)
    (cut : ∀ h s m, P h s → cuts ⟨s, m⟩ = true → P [] (step m s))
    (grow : ∀ h s m, P h s → cuts ⟨s, m⟩ = false → P (h ++ [⟨s, m⟩]) (step m s))
    (moves : List μ) : P (epoch cuts (history step s moves)) (run step s moves) := by
  -- from the end, where an epoch grows and is cut
  induction moves using List.reverseRecOn with
  | nil => exact start
  | append_singleton moves m ih =>
    rw [historySnoc, runSnoc, epochSnoc]
    split
    · rename_i on
      exact cut _ _ _ ih on
    · rename_i off
      exact grow _ _ _ ih (Bool.eq_false_iff.mpr off)

end Run

end SerialAdapter
