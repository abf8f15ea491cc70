import Mathlib.Tactic.Common

/-!
# Computations that log effects and may fail

`Trace E ε α` is a run of a function that returns `Result<α, ε>` together
with the effects it had on the world, oldest first. A failed step keeps the
effects it had before failing and ends the run, as `?` does.

The rules below peel a `do` block one step at a time (`bind_of_ok`,
`bind_of_error`, `bind_eq_ok`), and `AllLog` with `allLog_bind` proves a
property of every effect step by step.
-/
namespace Wstunnel

/-- The effects of a run and what it returned. -/
structure Trace (E ε α : Type) where
  log : List E
  result : Except ε α

namespace Trace

variable {E ε α β : Type}

instance : Monad (Trace E ε) where
  pure a := ⟨[], .ok a⟩
  bind x f := match x.result with
    | .ok a => ⟨x.log ++ (f a).log, (f a).result⟩
    | .error e => ⟨x.log, .error e⟩

/-- Have one effect. -/
def emit (e : E) : Trace E ε Unit := ⟨[e], .ok ()⟩

/-- Return an error. -/
def fail (e : ε) : Trace E ε α := ⟨[], .error e⟩

/-- `Option::ok_or`. -/
def ofOption (e : ε) : Option α → Trace E ε α
  | some a => pure a
  | none => fail e

/-- A pure `Result`. -/
def ofExcept : Except ε α → Trace E ε α
  | .ok a => pure a
  | .error e => fail e

/-- `Result::map_err`. -/
def mapErr {ε' : Type} (f : ε → ε') (x : Trace E ε α) : Trace E ε' α :=
  ⟨x.log, match x.result with | .ok a => .ok a | .error e => .error (f e)⟩

/-- The same run, its effects seen as effects of a larger system. -/
def mapLog {E' : Type} (f : E → E') (x : Trace E ε α) : Trace E' ε α := ⟨x.log.map f, x.result⟩

@[simp] theorem pure_result (a : α) : (pure a : Trace E ε α).result = .ok a := rfl
@[simp] theorem fail_result (e : ε) : (fail e : Trace E ε α).result = .error e := rfl
@[simp] theorem ofOption_some (e : ε) (a : α) : (ofOption e (some a) : Trace E ε α) = pure a := rfl
@[simp] theorem ofOption_none (e : ε) : (ofOption e none : Trace E ε α) = fail e := rfl

@[simp] theorem ofExcept_log (x : Except ε α) : (ofExcept x : Trace E ε α).log = [] := by
  cases x <;> rfl

@[simp] theorem ofExcept_result (x : Except ε α) : (ofExcept x : Trace E ε α).result = x := by
  cases x <;> rfl

@[simp] theorem ofOption_log (e : ε) (x : Option α) : (ofOption e x : Trace E ε α).log = [] := by
  cases x <;> rfl

theorem ofOption_eq_ok {e : ε} {x : Option α} {a : α} :
    (ofOption e x : Trace E ε α).result = .ok a ↔ x = some a := by
  cases x <;> simp

@[simp] theorem mapErr_log {ε' : Type} (f : ε → ε') (x : Trace E ε α) :
    (x.mapErr f).log = x.log := rfl

@[simp] theorem mapLog_result {E' : Type} (f : E → E') (x : Trace E ε α) :
    (x.mapLog f).result = x.result := rfl

theorem bind_of_ok {x : Trace E ε α} {a : α} (h : x.result = .ok a) (f : α → Trace E ε β) :
    x >>= f = ⟨x.log ++ (f a).log, (f a).result⟩ := by
  simp only [bind, h]

theorem bind_of_error {x : Trace E ε α} {e : ε} (h : x.result = .error e) (f : α → Trace E ε β) :
    x >>= f = ⟨x.log, .error e⟩ := by
  simp only [bind, h]

theorem emit_bind (e : E) (f : Unit → Trace E ε β) :
    (emit e : Trace E ε Unit) >>= f = ⟨e :: (f ()).log, (f ()).result⟩ := rfl

theorem mapErr_eq_ok {ε' : Type} {f : ε → ε'} {x : Trace E ε α} {a : α} :
    (x.mapErr f).result = .ok a ↔ x.result = .ok a := by
  unfold mapErr
  cases x.result <;> simp

/-- A continuation without effects adds none. -/
theorem bind_log_of_silent {x : Trace E ε α} {f : α → Trace E ε β} (hf : ∀ a, (f a).log = []) :
    (x >>= f).log = x.log := by
  cases hx : x.result with
  | error e => rw [bind_of_error hx]
  | ok a => rw [bind_of_ok hx]; simp [hf]

/-- Every effect of the run has the property. -/
def AllLog (P : E → Prop) (x : Trace E ε α) : Prop := ∀ e ∈ x.log, P e

theorem allLog_of_log_nil {P : E → Prop} {x : Trace E ε α} (h : x.log = []) : x.AllLog P :=
  fun e he => by rw [h] at he; cases he

theorem allLog_emit {P : E → Prop} {e : E} (h : P e) : (emit e : Trace E ε Unit).AllLog P :=
  fun _ he => List.mem_singleton.mp he ▸ h

/-- A sequence of steps keeps a property of effects that each step keeps. -/
theorem allLog_bind {P : E → Prop} {x : Trace E ε α} {f : α → Trace E ε β} (hx : x.AllLog P)
    (hf : ∀ a, x.result = .ok a → (f a).AllLog P) : (x >>= f).AllLog P := by
  cases h : x.result with
  | error e => rw [bind_of_error h]; exact hx
  | ok a =>
    rw [bind_of_ok h]
    intro e he
    rcases List.mem_append.mp he with he | he
    · exact hx e he
    · exact hf a h e he

/-- A run of two steps returns when both do. -/
theorem bind_eq_ok {x : Trace E ε α} {f : α → Trace E ε β} {b : β} :
    (x >>= f).result = .ok b ↔ ∃ a, x.result = .ok a ∧ (f a).result = .ok b := by
  cases hx : x.result with
  | error e => rw [bind_of_error hx]; simp
  | ok a => rw [bind_of_ok hx]; simp

/-- The run has no error but `e`. -/
def FailsWith (e : ε) (x : Trace E ε α) : Prop := ∀ e', x.result = .error e' → e' = e

theorem failsWith_pure (e : ε) (a : α) : (pure a : Trace E ε α).FailsWith e :=
  fun _ h => by cases h

theorem failsWith_fail (e : ε) : (fail e : Trace E ε α).FailsWith e :=
  fun _ h => by cases h; rfl

theorem failsWith_ofOption (e : ε) (x : Option α) : (ofOption e x : Trace E ε α).FailsWith e := by
  intro e' h
  cases x <;> cases h
  rfl

theorem failsWith_mapErr {ε' : Type} (e : ε') (x : Trace E ε α) :
    (x.mapErr fun _ => e).FailsWith e := by
  intro e' h
  unfold mapErr at h
  cases hx : x.result <;> rw [hx] at h <;> cases h
  rfl

theorem failsWith_bind {e : ε} {x : Trace E ε α} {f : α → Trace E ε β} (hx : x.FailsWith e)
    (hf : ∀ a, (f a).FailsWith e) : (x >>= f).FailsWith e := by
  intro e' h
  cases hr : x.result with
  | error _ =>
    rw [bind_of_error hr] at h
    injection h with h
    exact hx e' (h ▸ hr)
  | ok a => rw [bind_of_ok hr] at h; exact hf a e' h

end Trace

end Wstunnel
