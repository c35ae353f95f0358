/-!
When computations that may fail succeed, and with what.
-/

set_option autoImplicit false

namespace Ucan

variable {ε α β : Type}

theorem bind_eq_ok {x : Except ε α} {f : α → Except ε β} {b : β} :
    x >>= f = .ok b ↔ ∃ a, x = .ok a ∧ f a = .ok b := by
  cases x <;> simp [bind, Except.bind]

theorem seq_eq_ok_iff {x : Except ε Unit} {f : Unit → Except ε β} {b : β} :
    x >>= f = .ok b ↔ x = .ok () ∧ f () = .ok b := by
  cases x <;> simp [bind, Except.bind]

theorem forM_eq_ok_iff {as : List α} {f : α → Except ε Unit} :
    forM as f = .ok () ↔ ∀ a ∈ as, f a = .ok () := by
  induction as with
  | nil => simp [pure, Except.pure]
  | cons a rest ih => rw [List.forM_cons, seq_eq_ok_iff, ih, List.forall_mem_cons]

theorem map_eq_ok {x : Except ε α} {f : α → β} {b : β} :
    x.map f = .ok b ↔ ∃ a, x = .ok a ∧ f a = b := by
  cases x <;> simp [Except.map]

theorem eq_ok_of_toOption {x : Except ε α} {a : α} (done : x.toOption = some a) : x = .ok a := by
  cases x <;> simp_all [Except.toOption]

theorem exists_ok_of_any {x : Except ε α} {p : α → Bool} (done : x.toOption.any p = true) :
    ∃ a, x = .ok a ∧ p a = true := by
  cases x with
  | error e => cases done
  | ok a => exact ⟨a, rfl, done⟩

end Ucan
