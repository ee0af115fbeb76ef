import TpmEmulator.Library.Runs
import Mathlib.Algebra.BigOperators.Group.List.Basic
import Mathlib.Algebra.Order.Ring.Nat

/-!
Admission by key, slot and budget. A ledger lists what has been admitted so far. A
request is admissible when its key is not in the ledger, a slot is free and the cost of
everything admitted stays within the budget.

A system keeps a ledger when it accepts exactly the admissible requests and a request
that it does not accept leaves it as it was. Along every run of such a system the ledger
is the list of the requests it has accepted, and the state is the one that these alone
lead to.
-/
namespace Admission
open Runs

variable {ρ κ : Type}

structure Limits (ρ κ : Type) where
  key : ρ → κ
  cost : ρ → Nat
  slots : Nat
  budget : Nat

/-- The cost of everything in the ledger. -/
def spent (l : Limits ρ κ) (ledger : List ρ) : Nat := (ledger.map l.cost).sum

@[simp] theorem spent_append_singleton (l : Limits ρ κ) (ledger : List ρ) (r : ρ) :
    spent l (ledger ++ [r]) = spent l ledger + l.cost r := by
  simp [spent]

structure Admissible (l : Limits ρ κ) (ledger : List ρ) (r : ρ) : Prop where
  fresh : l.key r ∉ ledger.map l.key
  slot : ledger.length < l.slots
  room : l.cost r + spent l ledger ≤ l.budget

section Keeping

variable {σ : Type} (step : σ → ρ → σ) (Accepts : σ → ρ → Prop)
  [∀ s r, Decidable (Accepts s r)]

/-- The requests accepted along a run. -/
def accepted (s : σ) (requests : List ρ) : List ρ :=
  trace step (fun s r => if Accepts s r then some r else none) s requests

/-- `Holds` relates the states of the system to their ledgers, for requests of the
kind `Proper`. -/
structure Keeps (l : Limits ρ κ) (Proper : ρ → Prop) (Holds : σ → List ρ → Prop) : Prop where
  accepts_iff : ∀ {s ledger r}, Holds s ledger → Proper r →
    (Accepts s r ↔ Admissible l ledger r)
  step_accepted : ∀ {s ledger r}, Holds s ledger → Proper r → Accepts s r →
    Holds (step s r) (ledger ++ [r])
  step_rejected : ∀ {s ledger r}, Holds s ledger → Proper r → ¬ Accepts s r → step s r = s

variable {step Accepts}

theorem Keeps.run {l : Limits ρ κ} {Proper : ρ → Prop} {Holds : σ → List ρ → Prop}
    (h : Keeps step Accepts l Proper Holds) {s : σ} (hstart : Holds s [])
    {requests : List ρ} (hproper : ∀ r ∈ requests, Proper r) :
    Holds (run step s requests) (accepted step Accepts s requests) ∧
      run step s (accepted step Accepts s requests) = run step s requests := by
  -- carried along the run: the ledger fits the state and leads to it
  have hstep : ∀ t r ledger, (Holds t ledger ∧ Runs.run step s ledger = t) → Proper r →
      Holds (step t r) (ledger ++ (if Accepts t r then some r else none).toList) ∧
        Runs.run step s (ledger ++ (if Accepts t r then some r else none).toList) = step t r := by
    rintro t r ledger ⟨hholds, hrun⟩ hr
    by_cases haccepts : Accepts t r
    · rw [if_pos haccepts, Option.toList_some, run_append, hrun]
      exact ⟨h.step_accepted hholds hr haccepts, rfl⟩
    · rw [if_neg haccepts, Option.toList_none, List.append_nil,
        h.step_rejected hholds hr haccepts]
      exact ⟨hholds, hrun⟩
  exact trace_along (P := fun t ledger => Holds t ledger ∧ Runs.run step s ledger = t) hstep s
    requests [] ⟨hstart, rfl⟩ (along_of_forall fun _ r hr => hproper r hr)

end Keeping

end Admission
