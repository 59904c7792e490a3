import Mathlib.Data.List.Basic

/-!
# Traces and permits

A trace lists what a component does, in order.  `Justified P` says that
every entry of a trace stands in the relation `P` to the entries before it.
A component that appends to its trace proves it with `Justified.snoc`, entry
by entry.

A permit is opened by some entries and closed by others.  `IsOpen` says that
an entry has opened the permit and that none behind it has closed it.
-/

namespace Traces

variable {α : Type*} {trace : List α} {x : α}

/-! ## Justified traces -/

/-- Every entry is justified by the entries before it. -/
def Justified (P : List α → α → Prop) (trace : List α) : Prop :=
  ∀ before y behind, trace = before ++ y :: behind → P before y

section
variable {P : List α → α → Prop}

theorem justified_nil : Justified P [] := by
  intro before y behind h
  simp at h

/-- One entry more, which the trace justifies. -/
theorem Justified.snoc (h : Justified P trace) (hx : P trace x) :
    Justified P (trace ++ [x]) := by
  intro before y behind heq
  rcases List.eq_nil_or_concat behind with rfl | ⟨behind, z, rfl⟩
  · obtain ⟨rfl, hxy⟩ := List.append_inj' heq rfl
    obtain rfl := (List.cons.inj hxy).1
    exact hx
  · have hcut : trace = before ++ y :: behind := by
      rw [List.concat_eq_append, ← List.cons_append, ← List.append_assoc] at heq
      exact (List.append_inj' heq rfl).1
    exact h before y behind hcut

end

/-! ## Permits -/

section
variable {opens closes : α → Prop}

/-- Some entry opens the permit, and no entry behind it closes it. -/
def IsOpen (opens closes : α → Prop) (trace : List α) : Prop :=
  ∃ before y behind, trace = before ++ y :: behind ∧ opens y ∧ ∀ z ∈ behind, ¬ closes z

theorem isOpen_snoc_of_opens (hx : opens x) : IsOpen opens closes (trace ++ [x]) :=
  ⟨trace, x, [], rfl, hx, by simp⟩

end

end Traces
