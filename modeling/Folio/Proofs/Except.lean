set_option autoImplicit false

/-! # Computations that succeed

A computation in steps gives a result exactly when each of its steps does. An error that is said in other
words is an error of the computation. What results and errors satisfy follows from the steps too
(`meets_bind`). -/

namespace Except

variable {ε ε' α β : Type}

theorem bind_eq_ok_iff {x : Except ε α} {f : α → Except ε β} {b : β} :
    (x >>= f) = .ok b ↔ ∃ a, x = .ok a ∧ f a = .ok b := by
  cases x with
  | error e => simp [bind, Except.bind]
  | ok a => simp [bind, Except.bind]

theorem map_eq_ok_iff {x : Except ε α} {f : α → β} {b : β} :
    x.map f = .ok b ↔ ∃ a, x = .ok a ∧ f a = b := by
  cases x with
  | error e => simp [Except.map]
  | ok a => simp [Except.map]

theorem mapError_eq_ok_iff {x : Except ε α} {f : ε → ε'} {a : α} :
    x.mapError f = .ok a ↔ x = .ok a := by
  cases x with
  | error cause =>
    show Except.error (f cause) = Except.ok a ↔ _
    simp
  | ok b =>
    show Except.ok b = Except.ok a ↔ _
    simp

theorem mapError_eq_error_iff {x : Except ε α} {f : ε → ε'} {e : ε'} :
    x.mapError f = .error e ↔ ∃ cause, x = .error cause ∧ f cause = e := by
  cases x with
  | error cause =>
    show Except.error (f cause) = Except.error e ↔ _
    simp
  | ok a =>
    show Except.ok a = Except.error e ↔ _
    simp

theorem toOption_eq_some_iff {x : Except ε α} {a : α} : x.toOption = some a ↔ x = .ok a := by
  cases x with
  | error e => simp [Except.toOption]
  | ok b => simp [Except.toOption]

theorem pure_eq_ok_iff {a b : α} : (pure a : Except ε α) = .ok b ↔ a = b := by
  simp [pure, Except.pure]

/-! ## What a computation gives -/

/-- Whether what a computation gives satisfies one condition as a result, and another as an error. -/
def Meets (x : Except ε α) (P : α → Prop) (E : ε → Prop) : Prop :=
  match x with
  | .ok a => P a
  | .error e => E e

section

variable {P : α → Prop} {Q : β → Prop} {E : ε → Prop}

@[simp] theorem meets_ok {a : α} : (.ok a : Except ε α).Meets P E ↔ P a := .rfl

@[simp] theorem meets_pure {a : α} : (pure a : Except ε α).Meets P E ↔ P a := .rfl

@[simp] theorem meets_error {e : ε} : (.error e : Except ε α).Meets P E ↔ E e := .rfl

@[simp] theorem meets_bind {x : Except ε α} {f : α → Except ε β} :
    (x >>= f).Meets Q E ↔ x.Meets (fun a => (f a).Meets Q E) E := by
  cases x <;> rfl

@[simp] theorem meets_map {x : Except ε α} {f : α → β} : (x.map f).Meets Q E ↔ x.Meets (fun a => Q (f a)) E := by
  cases x <;> rfl

@[simp] theorem meets_mapError {x : Except ε α} {f : ε → ε'} {E' : ε' → Prop} :
    (x.mapError f).Meets P E' ↔ x.Meets P fun e => E' (f e) := by
  cases x <;> rfl

theorem Meets.mono {x : Except ε α} {P' : α → Prop} {E' : ε → Prop} (h : x.Meets P E)
    (hP : ∀ a, P a → P' a) (hE : ∀ e, E e → E' e) : x.Meets P' E' := by
  cases x with
  | ok a => exact hP a h
  | error e => exact hE e h

theorem Meets.and {x : Except ε α} {P' : α → Prop} {E' : ε → Prop} (h : x.Meets P E) (h' : x.Meets P' E') :
    x.Meets (fun a => P a ∧ P' a) fun e => E e ∧ E' e := by
  cases x with
  | ok a => exact ⟨h, h'⟩
  | error e => exact ⟨h, h'⟩

theorem meets_mapM {l : List α} {f : α → Except ε β} (h : ∀ a ∈ l, (f a).Meets Q E) :
    (l.mapM f).Meets (fun bs => bs.length = l.length ∧ ∀ b ∈ bs, Q b) E := by
  induction l with
  | nil => exact ⟨rfl, fun b hb => absurd hb List.not_mem_nil⟩
  | cons a l ih =>
    obtain ⟨ha, hl⟩ := List.forall_mem_cons.1 h
    rw [List.mapM_cons]
    simp only [meets_bind, meets_pure, List.forall_mem_cons, List.length_cons]
    refine ha.mono (fun b hb => (ih hl).mono (fun bs hbs => ?_) fun _ => id) fun _ => id
    exact ⟨congrArg (· + 1) hbs.1, hb, hbs.2⟩

end

end Except
