/-
  Foundation/Exec.lean --- programs over a state that may stop early, and the
  rules by which a property of every run is proved from its steps.

  A program is an `ExceptT` over a state monad, so the state reached so far
  survives a stop.  Two notions carry the proofs:

      Respects R x     every execution of `x` takes a state to one `R` relates it to
      Run step s is t  the labels `is` take `s` to `t`, one step a label

  `R` is asked to be reflexive and transitive and nothing else, which covers
  both an invariant (`fun s t => I s → I t`) and a frame or history condition
  (`t` extends `s`) with one set of rules.
-/
import Mathlib.Order.Defs.Unbundled

set_option autoImplicit false

namespace XplaneServer.Foundation

/-- A program over states `σ` that returns an `α` or stops with an `ε`. -/
abbrev Exec (σ ε α : Type) : Type := ExceptT ε (StateM σ) α

section Programs

variable {σ ε α β : Type}

/-- Run a program from a state: what it returned, and the state it left. -/
def exec (x : Exec σ ε α) (s : σ) : Except ε α × σ := (ExceptT.run x).run s

@[simp] theorem exec_pure (a : α) (s : σ) :
    exec (pure a : Exec σ ε α) s = (.ok a, s) := rfl

@[simp] theorem exec_throw (e : ε) (s : σ) :
    exec (throw e : Exec σ ε α) s = (.error e, s) := rfl

@[simp] theorem exec_get (s : σ) : exec (get : Exec σ ε σ) s = (.ok s, s) := rfl

@[simp] theorem exec_modify (f : σ → σ) (s : σ) :
    exec (modify f : Exec σ ε PUnit) s = (.ok ⟨⟩, f s) := rfl

@[simp] theorem exec_liftExcept (x : Except ε α) (s : σ) :
    exec (liftExcept x : Exec σ ε α) s = (x, s) := by
  cases x <;> rfl

/-- Sequencing: the second program runs from the state the first one left, and
only when the first one returned. -/
theorem exec_bind (x : Exec σ ε α) (f : α → Exec σ ε β) (s : σ) :
    exec (x >>= f) s =
      match exec x s with
      | (.ok a, t) => exec (f a) t
      | (.error e, t) => (.error e, t) := by
  unfold exec
  rw [ExceptT.run_bind, StateT.run_bind]
  rcases (ExceptT.run x).run s with ⟨_ | _, _⟩ <;> rfl

/-- Mapping a function over what a program returns. -/
theorem exec_map (f : α → β) (x : Exec σ ε α) (s : σ) :
    exec (f <$> x) s = ((exec x s).1.map f, (exec x s).2) := by
  unfold exec
  rw [ExceptT.run_map, StateT.run_map]
  rfl

/-- Sequencing after a program that returned. -/
theorem exec_bind_ok {x : Exec σ ε α} {f : α → Exec σ ε β} {s t : σ} {a : α}
    (hx : exec x s = (.ok a, t)) : exec (x >>= f) s = exec (f a) t := by
  rw [exec_bind, hx]

/-- Replacing what a program returns leaves its state alone. -/
theorem exec_bind_pure_snd (x : Exec σ ε α) (b : β) (s : σ) :
    (exec (x >>= fun _ => pure b) s).2 = (exec x s).2 := by
  rw [exec_bind]
  rcases exec x s with ⟨_ | a, t⟩ <;> rfl

@[simp] theorem except_pure (a : α) : (pure a : Except ε α) = .ok a := rfl

@[simp] theorem except_ok_bind (a : α) (f : α → Except ε β) :
    (Except.ok a >>= f) = f a := rfl

@[simp] theorem except_error_bind (e : ε) (f : α → Except ε β) :
    (Except.error e >>= f) = .error e := rfl

/-- A sequence that returned: both halves did. -/
theorem except_bind_eq_ok {x : Except ε α} {f : α → Except ε β} {b : β} :
    x >>= f = .ok b ↔ ∃ a, x = .ok a ∧ f a = .ok b := by
  cases x with
  | error e => simp
  | ok a => simp

/-- Renaming an error does not touch what was returned. -/
theorem except_mapError_eq_ok {δ : Type} {x : Except ε α} {f : ε → δ} {a : α} :
    x.mapError f = .ok a ↔ x = .ok a := by
  cases x with
  | error e => exact ⟨nofun, nofun⟩
  | ok b => exact ⟨fun h => congrArg Except.ok (Except.ok.inj h),
      fun h => congrArg Except.ok (Except.ok.inj h)⟩

/-! ## What every execution of a program respects -/

/-- Whatever it returns, the program takes a state to one related to it. -/
def Respects (R : σ → σ → Prop) (x : Exec σ ε α) : Prop :=
  ∀ s, R s (exec x s).2

namespace Respects

variable {R : σ → σ → Prop}

theorem pure [Std.Refl R] (a : α) : Respects R (Pure.pure a : Exec σ ε α) :=
  fun s => refl_of R s

theorem throw [Std.Refl R] (e : ε) :
    Respects R (MonadExcept.throw e : Exec σ ε α) :=
  fun s => refl_of R s

theorem get [Std.Refl R] : Respects R (MonadState.get : Exec σ ε σ) :=
  fun s => refl_of R s

theorem lift [Std.Refl R] (x : Except ε α) :
    Respects R (liftExcept x : Exec σ ε α) := by
  intro s
  rw [exec_liftExcept]
  exact refl_of R s

theorem modify {f : σ → σ} (hf : ∀ s, R s (f s)) :
    Respects R (modify f : Exec σ ε PUnit) :=
  hf

/-- The rule of sequencing: each half respects a transitive relation, so the
whole does, also when the first half stops. -/
theorem bind [IsTrans σ R] {x : Exec σ ε α} {f : α → Exec σ ε β}
    (hx : Respects R x) (hf : ∀ a, Respects R (f a)) : Respects R (x >>= f) := by
  intro s
  have hfirst : R s (exec x s).2 := hx s
  rw [exec_bind]
  rcases hexec : exec x s with ⟨_ | a, t⟩ <;> rw [hexec] at hfirst
  · exact hfirst
  · exact trans_of R hfirst (hf a t)

theorem ite {c : Prop} [Decidable c] {x y : Exec σ ε α}
    (hx : Respects R x) (hy : Respects R y) : Respects R (if c then x else y) := by
  split
  · exact hx
  · exact hy

end Respects

end Programs

/-! ## Runs -/

/-- A run: the labels of the list, in order, take the first state to the
second. -/
inductive Run {σ ι : Type} (step : σ → ι → σ → Prop) : σ → List ι → σ → Prop
  /-- No label, no change. -/
  | nil (s : σ) : Run step s [] s
  /-- One more step at the end of a run. -/
  | snoc {s t u : σ} {is : List ι} {i : ι} :
      Run step s is t → step t i u → Run step s (is ++ [i]) u

namespace Run

variable {σ ι : Type} {step : σ → ι → σ → Prop}

/-- A property that every step keeps holds in every state a run reaches. -/
theorem invariant {I : σ → Prop} (hstep : ∀ s i t, I s → step s i t → I t)
    {s t : σ} {is : List ι} (hrun : Run step s is t) (hs : I s) : I t := by
  induction hrun with
  | nil => exact hs
  | snoc _ hlast ih => exact hstep _ _ _ ih hlast

/-- A preorder that every step respects relates the ends of every run. -/
theorem respects {R : σ → σ → Prop} [Std.Refl R] [IsTrans σ R]
    (hstep : ∀ s i t, step s i t → R s t)
    {s t : σ} {is : List ι} (hrun : Run step s is t) : R s t := by
  induction hrun with
  | nil => exact refl_of R _
  | snoc _ hlast ih => exact trans_of R ih (hstep _ _ _ hlast)

/-- The last step of a run. -/
theorem last {s u : σ} {is : List ι} {i : ι} (hrun : Run step s (is ++ [i]) u) :
    ∃ t, Run step s is t ∧ step t i u := by
  generalize hlabels : is ++ [i] = labels at hrun
  cases hrun with
  | nil => simp at hlabels
  | snoc hbefore hlast =>
      obtain ⟨rfl, heq⟩ := List.append_inj' hlabels rfl
      obtain rfl := List.head_eq_of_cons_eq heq
      exact ⟨_, hbefore, hlast⟩

/-- More steps, more runs. -/
theorem mono {step' : σ → ι → σ → Prop} (hstep : ∀ s i t, step s i t → step' s i t)
    {s t : σ} {is : List ι} (hrun : Run step s is t) : Run step' s is t := by
  induction hrun with
  | nil => exact .nil _
  | snoc _ hlast ih => exact ih.snoc (hstep _ _ _ hlast)

/-- **Simulation.**  What every step of one system is matched by in another, under
the same label, every run is matched by. -/
theorem simulates {τ : Type} {step' : τ → ι → τ → Prop} {R : σ → τ → Prop}
    (hstep : ∀ s i t s', R s s' → step s i t → ∃ t', step' s' i t' ∧ R t t')
    {s t : σ} {is : List ι} (hrun : Run step s is t) {s' : τ} (hs : R s s') :
    ∃ t', Run step' s' is t' ∧ R t t' := by
  induction hrun with
  | nil => exact ⟨s', .nil s', hs⟩
  | snoc _ hlast ih =>
      obtain ⟨t', hrun', ht⟩ := ih
      obtain ⟨u', hlast', hu⟩ := hstep _ _ _ _ ht hlast
      exact ⟨u', hrun'.snoc hlast', hu⟩

end Run

/-! ## Monitors -/

/-- The events take a monitor, which may refuse an event, from one state to
another. -/
def Follows {σ ε : Type} (next : σ → ε → Option σ) (c : σ) (es : List ε) (c' : σ) : Prop :=
  es.foldlM next c = some c'

namespace Follows

variable {σ ε : Type} {next : σ → ε → Option σ} {c c' c'' : σ} {e : ε} {es es' : List ε}

theorem nil (c : σ) : Follows next c [] c := rfl

theorem cons (h : next c e = some c') (hs : Follows next c' es c'') :
    Follows next c (e :: es) c'' := by
  unfold Follows at hs ⊢
  rw [List.foldlM_cons, h]
  exact hs

theorem append (h : Follows next c es c') (h' : Follows next c' es' c'') :
    Follows next c (es ++ es') c'' := by
  unfold Follows at h h' ⊢
  rw [List.foldlM_append, h]
  exact h'

/-- Events that the monitor ignores in this state. -/
theorem ignored (h : ∀ e ∈ es, next c e = some c) : Follows next c es c := by
  induction es with
  | nil => exact nil c
  | cons e es ih =>
      have hrest := ih fun e' he' => h e' (List.mem_cons_of_mem e he')
      exact cons (h e List.mem_cons_self) hrest

end Follows

end XplaneServer.Foundation
