import OpenPiton.Lib.Machine
import Mathlib.Tactic.ByContra

namespace OpenPiton.Machine

variable {σ ι : Type*} {step : σ → ι → σ}

/-- The states of the run over an infinite sequence of inputs. -/
def trace (step : σ → ι → σ) (s : σ) (is : Nat → ι) : Nat → σ
  | 0 => s
  | n + 1 => step (trace step s is n) (is n)

theorem trace_add (s : σ) (is : Nat → ι) (k : Nat) :
    ∀ n, trace step (trace step s is k) (fun m => is (k + m)) n = trace step s is (k + n)
  | 0 => rfl
  | n + 1 => congrArg (step · (is (k + n))) (trace_add s is k n)

theorem trace_invariant {P : σ → Prop} (hstep : ∀ s i, P s → P (step s i)) {s : σ} (h : P s) (is : Nat → ι) :
    ∀ n, P (trace step s is n)
  | 0 => h
  | n + 1 => hstep _ _ (trace_invariant hstep h is n)

section Fair

variable {π : Type*} (inv : σ → Prop) (work : σ → Nat) (wants : σ → π → Prop) {rest : σ → Prop} {ready : ι → π → Prop}

theorem work_falls (hinv : ∀ s i, inv s → inv (step s i))
    (hready : ∀ s i p, inv s → wants s p → ready i p → work (step s i) < work s)
    (hkeep : ∀ s i, inv s → work (step s i) < work s ∨ work (step s i) = work s ∧ ∀ p, wants s p → wants (step s i) p)
    {s : σ} (h : inv s) {p : π} (hp : wants s p) {is : Nat → ι} {m : Nat} (hm : ready (is m) p) :
    ∃ k, work (trace step s is k) < work s := by
  by_contra hnone
  have hge : ∀ n, work s ≤ work (trace step s is n) := fun n => Nat.not_lt.mp fun hlt => hnone ⟨n, hlt⟩
  have hall : ∀ n, work (trace step s is n) = work s ∧ wants (trace step s is n) p := by
    intro n
    induction n with
    | zero => exact ⟨rfl, hp⟩
    | succ n ih =>
        have hle := hge (n + 1)
        rcases hkeep _ (is n) (trace_invariant hinv h is n) with hlt | ⟨heq, hw⟩
        · rw [ih.1] at hlt
          exact absurd hlt (Nat.not_lt.mpr hle)
        · exact ⟨heq.trans ih.1, hw p ih.2⟩
  have hlt := hready _ (is m) p (trace_invariant hinv h is m) (hall m).2 hm
  rw [(hall m).1] at hlt
  exact absurd hlt (Nat.not_lt.mpr (hge (m + 1)))

/-- Where every port is ready again and again, a system that always wants one of them until it is at rest comes to rest. -/
theorem comes_to_rest (hinv : ∀ s i, inv s → inv (step s i)) (hrest : ∀ s, inv s → ¬ rest s → ∃ p, wants s p)
    (hready : ∀ s i p, inv s → wants s p → ready i p → work (step s i) < work s)
    (hkeep : ∀ s i, inv s → work (step s i) < work s ∨ work (step s i) = work s ∧ ∀ p, wants s p → wants (step s i) p)
    {s : σ} (h : inv s) {is : Nat → ι} (hfair : ∀ p n, ∃ m, n ≤ m ∧ ready (is m) p) : ∃ n, rest (trace step s is n) := by
  induction hw : work s using Nat.strongRecOn generalizing s is with
  | ind w ih =>
      by_cases hs : rest s
      · exact ⟨0, hs⟩
      · obtain ⟨p, hp⟩ := hrest s h hs
        obtain ⟨m, -, hm⟩ := hfair p 0
        obtain ⟨k, hk⟩ := work_falls inv work wants hinv hready hkeep h hp hm
        have hfair' : ∀ p n, ∃ m, n ≤ m ∧ ready (is (k + m)) p := by
          intro p n
          obtain ⟨m, hle, hr⟩ := hfair p (k + n)
          exact ⟨m - k, by omega, by rwa [Nat.add_sub_cancel' (by omega)]⟩
        obtain ⟨n, hn⟩ := ih _ (hw ▸ hk) (trace_invariant hinv h is k) hfair' rfl
        exact ⟨k + n, trace_add s is k n ▸ hn⟩

end Fair

end OpenPiton.Machine
