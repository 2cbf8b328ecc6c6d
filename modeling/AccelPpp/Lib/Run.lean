import Mathlib

/-!
# Runs of a deterministic transition system

A component is a function `step : σ → ε → σ` from a state and an event to the next state; a
**run** folds it over a list of events.

* `Along step C s es`: every step the run takes from `s` meets the condition `C`, which may look
  at the state **before** the step and at the event.
* `Always step P s es`: the state predicate `P` holds in every state the run passes through,
  the first and the last included.

The rules that carry the inductions of this development are `Along.inv` (a predicate that holds
initially and is kept by every step meeting `C` holds at the end of a run along `C`) and
`always_iff_along_of_inv` (when `C` is the *exact* condition under which one step keeps `P`, a run
keeps `P` throughout if and only if every step of it meets `C`).
-/

namespace Transition

open List

variable {σ ε : Type*} (step : σ → ε → σ)

/-- The state reached from `s` by the events `es`, taken from left to right. -/
def run (s : σ) (es : List ε) : σ :=
  es.foldl step s

@[simp] lemma run_nil (s : σ) : run step s [] = s := rfl

@[simp] lemma run_cons (s : σ) (e : ε) (es : List ε) :
    run step s (e :: es) = run step (step s e) es := rfl

lemma run_append (s : σ) (es fs : List ε) : run step s (es ++ fs) = run step (run step s es) fs :=
  foldl_append

lemma run_snoc (s : σ) (es : List ε) (e : ε) : run step s (es ++ [e]) = step (run step s es) e :=
  run_append step s es [e]

/-- **Every step of the run meets `C`**, a condition on the state before the step and the event. -/
def Along (C : σ → ε → Prop) : σ → List ε → Prop
  | _, [] => True
  | s, e :: es => C s e ∧ Along C (step s e) es

/-- **`P` holds in every state of the run**: at the end of each prefix of its events. -/
def Always (P : σ → Prop) (s : σ) (es : List ε) : Prop :=
  ∀ pre, pre <+: es → P (run step s pre)

variable {step} {C D : σ → ε → Prop} {P Q : σ → Prop} {s : σ} {e : ε} {es fs : List ε}

@[simp] lemma along_nil : Along step C s [] := trivial

@[simp] lemma along_cons :
    Along step C s (e :: es) ↔ C s e ∧ Along step C (step s e) es := Iff.rfl

instance decidableAlong [∀ s e, Decidable (C s e)] : ∀ s es, Decidable (Along step C s es)
  | _, [] => isTrue trivial
  | s, e :: es =>
    have := decidableAlong (step s e) es
    inferInstanceAs (Decidable (C s e ∧ Along step C (step s e) es))

lemma Along.mono (h : ∀ s e, C s e → D s e) (hC : Along step C s es) : Along step D s es := by
  induction es generalizing s with
  | nil => trivial
  | cons e es ih => exact ⟨h _ _ hC.1, ih hC.2⟩

/-- A condition on any step is one along every run. -/
lemma along_of_forall (h : ∀ s e, C s e) : Along step C s es := by
  induction es generalizing s with
  | nil => trivial
  | cons e es ih => exact ⟨h _ _, ih⟩

lemma along_append :
    Along step C s (es ++ fs) ↔ Along step C s es ∧ Along step C (run step s es) fs := by
  induction es generalizing s with
  | nil => simp
  | cons e es ih => simp [ih, and_assoc]

/-- A run along `C` stays along `C` when it is cut short. -/
lemma Along.of_prefix {pre : List ε} (hC : Along step C s es) (hp : pre <+: es) :
    Along step C s pre := by
  obtain ⟨post, rfl⟩ := hp
  exact (along_append.mp hC).1

section

variable (hstep : ∀ s e, P s → C s e → P (step s e))

include hstep

/-- **The invariant rule.** What holds initially and is kept by every step meeting `C` holds at
the end of every run along `C`. -/
theorem Along.inv (h₀ : P s) (hC : Along step C s es) : P (run step s es) := by
  induction es generalizing s with
  | nil => exact h₀
  | cons e es ih => exact ih (hstep s e h₀ hC.1) hC.2

/-- The invariant rule, for every state the run passes through. -/
lemma Along.always (h₀ : P s) (hC : Along step C s es) : Always step P s es :=
  fun _ hp ↦ (hC.of_prefix hp).inv hstep h₀

/-- The invariant rule, for what the steps themselves do: along `C` every step starts from a state
with `P`, so it also meets whatever `P` and `C` give for one step. -/
lemma Along.along (hD : ∀ s e, P s → C s e → D s e) (h₀ : P s) (hC : Along step C s es) :
    Along step D s es := by
  induction es generalizing s with
  | nil => trivial
  | cons e es ih => exact ⟨hD s e h₀ hC.1, ih (hstep s e h₀ hC.1) hC.2⟩

end

/-- The invariant rule for what depends on the whole history: a property of the list of events
that holds of the empty list and is kept when a step meeting `C` is added. -/
lemma Along.history {H : List ε → Prop} (hnil : H [])
    (hstep : ∀ es e, H es → C (run step s es) e → H (es ++ [e])) (hC : Along step C s es) :
    H es := by
  induction es using reverseRecOn with
  | nil => exact hnil
  | append_singleton es e ih =>
    obtain ⟨hes, he, -⟩ := along_append.mp hC
    exact hstep es e (ih hes) he

@[simp] lemma always_nil : Always step P s [] ↔ P s := by
  simp [Always]

lemma always_cons : Always step P s (e :: es) ↔ P s ∧ Always step P (step s e) es := by
  constructor
  · intro h
    exact ⟨h [] nil_prefix, fun pre hp ↦ h (e :: pre) (cons_prefix_cons.mpr ⟨rfl, hp⟩)⟩
  rintro ⟨h₀, h⟩ pre hp
  cases pre with
  | nil => exact h₀
  | cons a pre =>
    obtain ⟨rfl, htail⟩ := cons_prefix_cons.mp hp
    exact h pre htail

lemma Always.first (h : Always step P s es) : P s :=
  h [] nil_prefix

lemma Always.last (h : Always step P s es) : P (run step s es) :=
  h es (prefix_refl es)

/-- **The exact rule.** If, from a state with `Q` and `P`, a step leads to a state with `P` exactly
when it meets `C`, then a run keeps `P` throughout exactly when all its steps meet `C`. -/
theorem always_iff_along_of_inv (hinv : ∀ s e, Q s → Q (step s e))
    (hstep : ∀ s e, Q s → P s → (P (step s e) ↔ C s e)) (hQ : Q s) (h₀ : P s) :
    Always step P s es ↔ Along step C s es := by
  induction es generalizing s with
  | nil => exact iff_of_true (always_nil.mpr h₀) trivial
  | cons e es ih =>
    rw [always_cons, along_cons, ← hstep s e hQ h₀]
    constructor
    · rintro ⟨-, htail⟩
      exact ⟨htail.first, (ih (hinv s e hQ) htail.first).mp htail⟩
    · rintro ⟨hP, htail⟩
      exact ⟨h₀, (ih (hinv s e hQ) hP).mpr htail⟩

/-- The exact rule without an invariant. -/
lemma always_iff_along (hstep : ∀ s e, P s → (P (step s e) ↔ C s e)) (h₀ : P s) :
    Always step P s es ↔ Along step C s es :=
  always_iff_along_of_inv (Q := fun _ ↦ True) (fun _ _ h ↦ h) (fun s e _ ↦ hstep s e) trivial h₀

end Transition
