import Mathlib.Logic.Relation

namespace OpenPiton.Machine

variable {σ ι : Type*}

/-- The states of the runs from `init` whose steps all meet `cond`. -/
inductive Reaches (init : σ → Prop) (step : σ → ι → σ) (cond : σ → ι → Prop) : σ → Prop
  | start {s : σ} : init s → Reaches init step cond s
  | next {s : σ} {i : ι} : Reaches init step cond s → cond s i → Reaches init step cond (step s i)

variable {init : σ → Prop} {step : σ → ι → σ} {cond cond' : σ → ι → Prop}

theorem Reaches.invariant {P : σ → Prop} (hinit : ∀ s, init s → P s)
    (hstep : ∀ s i, P s → cond s i → P (step s i)) {s : σ} (h : Reaches init step cond s) : P s := by
  induction h with
  | start hs => exact hinit _ hs
  | next _ hc ih => exact hstep _ _ ih hc

theorem Reaches.mono (hc : ∀ s i, cond s i → cond' s i) {s : σ} (h : Reaches init step cond s) :
    Reaches init step cond' s := by
  induction h with
  | start hs => exact .start hs
  | next _ hci ih => exact .next ih (hc _ _ hci)

/-- The state after the inputs of a list, in order. -/
def run (step : σ → ι → σ) (s : σ) (is : List ι) : σ := is.foldl step s

/-- Every step of the run over a list of inputs meets `cond`. -/
def Meets (step : σ → ι → σ) (cond : σ → ι → Prop) : σ → List ι → Prop
  | _, [] => True
  | s, i :: is => cond s i ∧ Meets step cond (step s i) is

instance Meets.decidable [∀ s i, Decidable (cond s i)] : ∀ s is, Decidable (Meets step cond s is)
  | _, [] => .isTrue trivial
  | s, i :: is =>
      have := Meets.decidable (step s i) is
      inferInstanceAs (Decidable (cond s i ∧ Meets step cond (step s i) is))

theorem meets_true : ∀ (s : σ) (is : List ι), Meets step (fun _ _ => True) s is
  | _, [] => trivial
  | s, i :: is => ⟨trivial, meets_true (step s i) is⟩

theorem Reaches.run {s : σ} (h : Reaches init step cond s) {is : List ι} (hc : Meets step cond s is) :
    Reaches init step cond (Machine.run step s is) := by
  induction is generalizing s with
  | nil => exact h
  | cons i is ih => exact ih (.next h hc.1) hc.2

theorem run_append (s : σ) (is js : List ι) : Machine.run step s (is ++ js) = Machine.run step (Machine.run step s is) js :=
  List.foldl_append

/-- A simulation carried along a run whose inputs all meet `ok`. -/
theorem run_simulates {τ κ : Type*} {step' : τ → κ → τ} {f : ι → κ} {R : σ → τ → Prop} {ok : ι → Prop}
    (hstep : ∀ s t i, R s t → ok i → R (step s i) (step' t (f i))) {s : σ} {t : τ} (h : R s t) {is : List ι}
    (his : ∀ i ∈ is, ok i) : R (Machine.run step s is) (Machine.run step' t (is.map f)) := by
  induction is generalizing s t with
  | nil => exact h
  | cons i is ih =>
      apply ih (hstep s t i h (his i List.mem_cons_self))
      intro j hj
      exact his j (List.mem_cons_of_mem i hj)

/-- What every step keeps, a run whose inputs all meet `ok` keeps. -/
theorem run_keeps {P : σ → Prop} {ok : ι → Prop} (hstep : ∀ s i, P s → ok i → P (step s i)) {s : σ} (h : P s)
    {is : List ι} (his : ∀ i ∈ is, ok i) : P (Machine.run step s is) := by
  induction is generalizing s with
  | nil => exact h
  | cons i is ih =>
      apply ih (hstep s i h (his i List.mem_cons_self))
      intro j hj
      exact his j (List.mem_cons_of_mem i hj)

end OpenPiton.Machine
