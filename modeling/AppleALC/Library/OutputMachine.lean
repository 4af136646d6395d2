import Mathlib.Data.List.Induction

/-!
# Runs of a deterministic machine with output

A machine turns a state and one input into the next state and the list of outputs it emits on
the way.  A run feeds a list of inputs; the inputs already fed and the inputs still to come split
every run in two, which is how a statement about one step in the middle of a run is phrased.

Two induction rules are packaged here once.  `run_invariant` carries a property along every run.
`run_invariant_of_steps` carries it along the runs whose steps all meet a condition, where the
condition may look at the state the step starts from.

* `run` / `outputs` — the state after a list of inputs, and all that was emitted;
* `run_invariant` / `run_invariant_of_steps` — the two rules;
* `AllSteps` — every step of a run meets a condition;
* `run_history` — a property of the inputs fed so far and of the state.
-/

namespace OutputMachine

variable {σ ι ο : Type*}

/-- The state after feeding a list of inputs. -/
def run (step : ι → σ → σ × List ο) : List ι → σ → σ
  | [], s => s
  | i :: is, s => run step is (step i s).1

/-- Everything emitted while feeding a list of inputs, in order. -/
def outputs (step : ι → σ → σ × List ο) : List ι → σ → List ο
  | [], _ => []
  | i :: is, s => (step i s).2 ++ outputs step is (step i s).1

variable {step : ι → σ → σ × List ο}

@[simp] theorem run_nil (s : σ) : run step [] s = s := rfl

@[simp] theorem run_cons (i : ι) (is : List ι) (s : σ) :
    run step (i :: is) s = run step is (step i s).1 := rfl

@[simp] theorem outputs_nil (s : σ) : outputs step [] s = [] := rfl

@[simp] theorem outputs_cons (i : ι) (is : List ι) (s : σ) :
    outputs step (i :: is) s = (step i s).2 ++ outputs step is (step i s).1 := rfl

theorem run_append (is js : List ι) (s : σ) :
    run step (is ++ js) s = run step js (run step is s) := by
  induction is generalizing s with
  | nil => rfl
  | cons i is ih => exact ih (step i s).1

theorem outputs_append (is js : List ι) (s : σ) :
    outputs step (is ++ js) s = outputs step is s ++ outputs step js (run step is s) := by
  induction is generalizing s with
  | nil => rfl
  | cons i is ih => simp only [List.cons_append, outputs_cons, run_cons, ih, List.append_assoc]

/-- An output of a run is an output of one of its steps. -/
theorem mem_outputs {is : List ι} {s : σ} {o : ο} :
    o ∈ outputs step is s ↔
      ∃ pre i post, is = pre ++ i :: post ∧ o ∈ (step i (run step pre s)).2 := by
  induction is generalizing s with
  | nil => simp
  | cons i is ih =>
      rw [outputs_cons, List.mem_append, ih]
      constructor
      · rintro (h | ⟨pre, j, post, rfl, h⟩)
        · exact ⟨[], i, is, rfl, h⟩
        · exact ⟨i :: pre, j, post, rfl, h⟩
      · rintro ⟨pre, j, post, hsplit, h⟩
        cases pre with
        | nil =>
            simp only [List.nil_append, List.cons.injEq] at hsplit
            obtain ⟨rfl, rfl⟩ := hsplit
            exact Or.inl h
        | cons k pre =>
            simp only [List.cons_append, List.cons.injEq] at hsplit
            obtain ⟨rfl, rfl⟩ := hsplit
            exact Or.inr ⟨pre, j, post, rfl, h⟩

/-! ### Invariants -/

/-- **Run lemma.**  A property that every step preserves holds after every run. -/
theorem run_invariant {P : σ → Prop} (hstep : ∀ i s, P s → P (step i s).1) (is : List ι) {s : σ}
    (hs : P s) : P (run step is s) := by
  induction is generalizing s with
  | nil => exact hs
  | cons i is ih => exact ih (hstep i s hs)

/-- **History lemma.**  A property of the inputs already fed and of the state they led to, which one
more input preserves, holds of every run. -/
theorem run_history {P : List ι → σ → Prop} {s : σ} (hs : P [] s)
    (hstep : ∀ pre i, P pre (run step pre s) → P (pre ++ [i]) (step i (run step pre s)).1)
    (is : List ι) : P is (run step is s) := by
  induction is using List.reverseRecOn with
  | nil => exact hs
  | append_singleton is i ih =>
      rw [run_append]
      exact hstep is i ih

/-- Every step of the run meets the condition `C` at the state it starts from. -/
def AllSteps (step : ι → σ → σ × List ο) (C : ι → σ → Prop) (is : List ι) (s : σ) : Prop :=
  ∀ pre i post, is = pre ++ i :: post → C i (run step pre s)

theorem allSteps_cons {C : ι → σ → Prop} {i : ι} {is : List ι} {s : σ}
    (h : AllSteps step C (i :: is) s) : C i s ∧ AllSteps step C is (step i s).1 := by
  refine ⟨h [] i is rfl, ?_⟩
  intro pre j post hsplit
  exact h (i :: pre) j post (by rw [hsplit]; rfl)

theorem allSteps_nil {C : ι → σ → Prop} (s : σ) : AllSteps step C [] s := by
  intro pre i post hsplit
  exact absurd hsplit.symm (by simp)

theorem AllSteps.cons {C : ι → σ → Prop} {i : ι} {is : List ι} {s : σ} (hi : C i s)
    (h : AllSteps step C is (step i s).1) : AllSteps step C (i :: is) s := by
  intro pre j post hsplit
  cases pre with
  | nil =>
      obtain ⟨rfl, -⟩ := List.cons.inj hsplit
      exact hi
  | cons k pre =>
      obtain ⟨rfl, hrest⟩ := List.cons.inj hsplit
      exact h pre j post hrest

theorem AllSteps.of_append {C : ι → σ → Prop} {is js : List ι} {s : σ}
    (h : AllSteps step C (is ++ js) s) : AllSteps step C is s := by
  intro pre i post hsplit
  exact h pre i (post ++ js) (by rw [hsplit]; simp)

/-- **Run lemma under a condition.**  A property preserved by the steps that meet `C` holds after
every run all of whose steps meet `C`. -/
theorem run_invariant_of_steps {P : σ → Prop} {C : ι → σ → Prop}
    (hstep : ∀ i s, C i s → P s → P (step i s).1) {is : List ι} {s : σ}
    (hC : AllSteps step C is s) (hs : P s) : P (run step is s) := by
  induction is generalizing s with
  | nil => exact hs
  | cons i is ih =>
      obtain ⟨hi, hrest⟩ := allSteps_cons hC
      exact ih hrest (hstep i s hi hs)

/-- A step that leaves the state alone once `Q` holds leaves it alone for the rest of the run. -/
theorem run_eq_of_fixed {α : Type*} {Q : σ → Prop} {f : σ → α}
    (hstep : ∀ i s, Q s → Q (step i s).1 ∧ f (step i s).1 = f s) (is : List ι) {s : σ} (hs : Q s) :
    Q (run step is s) ∧ f (run step is s) = f s := by
  induction is generalizing s with
  | nil => exact ⟨hs, rfl⟩
  | cons i is ih =>
      obtain ⟨hQ, hf⟩ := hstep i s hs
      obtain ⟨hQ', hf'⟩ := ih hQ
      exact ⟨hQ', hf'.trans hf⟩

/-! ### Folds -/

/-- **Fold lemma.**  A property of the items already folded and of the accumulator that one more item
preserves holds for the whole fold. -/
theorem foldl_invariant {α β : Type*} {f : β → α → β} {P : List α → β → Prop} {acc : β}
    (xs : List α) (h : P [] acc)
    (hstep : ∀ done x rest acc, xs = done ++ x :: rest → P done acc → P (done ++ [x]) (f acc x)) :
    P xs (xs.foldl f acc) := by
  have hall : ∀ rest done acc, xs = done ++ rest → P done acc → P xs (rest.foldl f acc) := by
    intro rest
    induction rest with
    | nil =>
        intro done acc hsplit hdone
        rw [hsplit, List.append_nil]
        exact hdone
    | cons x rest ih =>
        intro done acc hsplit hdone
        refine ih (done ++ [x]) (f acc x) ?_ (hstep done x rest acc hsplit hdone)
        rw [hsplit, List.append_assoc]
        rfl
  exact hall xs [] acc rfl h

end OutputMachine
