import Mathlib

/-!
# Programs that may give up

A program works on a state and either returns a value or gives up; what it has done to the state
until then stays done. `Triple P x Q E` says that `x`, begun in a state with `P`, ends with `Q` of
its value and the state, or gives up in a state with `E`.
-/

/-- A program on the state `σ`. -/
def Prog (σ α : Type) : Type := σ → Option α × σ

namespace Prog

variable {σ α β ι : Type}

instance : Monad (Prog σ) where
  pure a := fun s ↦ (some a, s)
  bind x f := fun s ↦ match x s with
    | (some a, t) => f a t
    | (none, t) => (none, t)

def get : Prog σ σ := fun s ↦ (some s, s)

def modify (f : σ → σ) : Prog σ Unit := fun s ↦ (some (), f s)

def fail : Prog σ α := fun s ↦ (none, s)

/-- A loop over a list, with a value that is handed on. -/
def fold (f : β → ι → Prog σ β) : β → List ι → Prog σ β
  | b, [] => pure b
  | b, i :: l => do
    let b ← f b i
    fold f b l

def forEach (f : ι → Prog σ Unit) : List ι → Prog σ Unit :=
  fold (fun _ ↦ f) ()

/-- What holds afterwards, if `P` does before. -/
def Triple (P : σ → Prop) (x : Prog σ α) (Q : α → σ → Prop) (E : σ → Prop) : Prop :=
  ∀ s, P s → match x s with
    | (some a, t) => Q a t
    | (none, t) => E t

variable {P P' : σ → Prop} {Q R : α → σ → Prop} {E : σ → Prop} {x : Prog σ α}

lemma Triple.pure {a : α} (h : ∀ s, P s → Q a s) : Triple P (pure a) Q E := h

lemma Triple.fail (h : ∀ s, P s → E s) : Triple P (fail : Prog σ α) Q E := h

lemma Triple.modify {f : σ → σ} {Q : Unit → σ → Prop} (h : ∀ s, P s → Q () (f s)) :
    Triple P (modify f) Q E := h

lemma Triple.bind {f : α → Prog σ β} {Q : β → σ → Prop} (hx : Triple P x R E)
    (hf : ∀ a, Triple (R a) (f a) Q E) : Triple P (x >>= f) Q E := by
  intro s hs
  have hxs := hx s hs
  show match (match x s with
    | (some a, t) => f a t
    | (none, t) => (none, t)) with
    | (some a, t) => Q a t
    | (none, t) => E t
  generalize x s = r at hxs
  obtain ⟨_ | a, t⟩ := r
  · exact hxs
  · exact hf a t hxs

/-- The state is read: what follows is for a known state. -/
lemma Triple.get {f : σ → Prog σ β} {Q : β → σ → Prop}
    (h : ∀ s, P s → Triple (fun t ↦ t = s) (f s) Q E) : Triple P (Prog.get >>= f) Q E :=
  fun s hs ↦ h s hs s rfl

lemma Triple.ite {c : Prop} [Decidable c] {y : Prog σ α} (hx : c → Triple P x Q E)
    (hy : ¬ c → Triple P y Q E) : Triple P (if c then x else y) Q E := by
  split
  · exact hx ‹c›
  · exact hy ‹¬ c›

lemma Triple.mono (h : Triple P x Q E) (hP : ∀ s, P' s → P s) (hQ : ∀ a s, Q a s → R a s) :
    Triple P' x R E := by
  intro s hs
  have hxs := h s (hP s hs)
  generalize x s = r at hxs
  obtain ⟨_ | a, t⟩ := r
  · exact hxs
  · exact hQ a t hxs

/-- **The rule for loops**: what each turn keeps. -/
theorem Triple.fold {f : β → ι → Prog σ β} {l : List ι} (I : β → σ → Prop)
    (h : ∀ b, ∀ i ∈ l, Triple (I b) (f b i) I E) (b : β) : Triple (I b) (fold f b l) I E := by
  induction l generalizing b with
  | nil => exact .pure fun _ hs ↦ hs
  | cons i l ih =>
    exact (h b i (.head _)).bind fun b' ↦ ih (fun b j hj ↦ h b j (.tail _ hj)) b'

lemma Triple.forEach {f : ι → Prog σ Unit} {l : List ι}
    (h : ∀ i ∈ l, Triple P (f i) (fun _ ↦ P) E) : Triple P (forEach f l) (fun _ ↦ P) E :=
  Triple.fold (fun _ ↦ P) (fun _ ↦ h) ()

end Prog
