import Mathlib.Data.List.Basic
import Mathlib.Logic.Relation

/-! # Acyclic relations

A relation without circles keeps that property under fewer edges, and under one more
edge exactly when its end does not lead back. Finitely many edges have a last one. -/

namespace TerminalCanvas.Acyclicity

open Relation

variable {α : Type} {r fewer : α → α → Prop} {a b source target : α}

/-- Nothing leads back to itself. -/
def Acyclic (r : α → α → Prop) : Prop := ∀ a, ¬ TransGen r a a

theorem Acyclic.mono (acyclic : Acyclic r) (included : ∀ a b, fewer a b → r a b) :
    Acyclic fewer :=
  fun a circle => acyclic a (TransGen.mono included _ _ circle)

def WithEdge (r : α → α → Prop) (source target : α) (a b : α) : Prop :=
  r a b ∨ (a = source ∧ b = target)

theorem path_withEdge (path : TransGen (WithEdge r source target) a b) :
    TransGen r a b ∨ (ReflTransGen r a source ∧ ReflTransGen r target b) := by
  induction path with
  | single edge =>
      rcases edge with old | ⟨rfl, rfl⟩
      · exact .inl (.single old)
      · exact .inr ⟨.refl, .refl⟩
  | tail _ edge induction =>
      rcases edge with old | ⟨rfl, rfl⟩
      · rcases induction with without | ⟨before, behind⟩
        · exact .inl (without.tail old)
        · exact .inr ⟨before, behind.tail old⟩
      · rcases induction with without | ⟨before, -⟩
        · exact .inr ⟨without.to_reflTransGen, .refl⟩
        · exact .inr ⟨before, .refl⟩

/-- One more edge closes a circle exactly when its end leads back to its start. -/
theorem acyclic_withEdge (acyclic : Acyclic r) :
    Acyclic (WithEdge r source target) ↔ ¬ ReflTransGen r target source := by
  constructor
  · intro stays back
    have edge : WithEdge r source target source target := .inr ⟨rfl, rfl⟩
    have included : r ≤ WithEdge r source target := fun _ _ old => .inl old
    exact stays source (.head' edge (ReflTransGen.mono included _ _ back))
  · intro apart a circle
    rcases path_withEdge circle with without | ⟨before, behind⟩
    · exact acyclic a without
    · exact apart (behind.trans before)

/-- Somewhere behind an edge stands an edge whose start leads to ends only. -/
theorem exists_last (acyclic : Acyclic r) {support : List α} [DecidableEq α]
    (listed : ∀ c, ReflTransGen r a c → (∃ d, r c d) → c ∈ support) (edge : r a b) :
    ∃ c d, r c d ∧ ∀ e, r c e → ∀ f, ¬ r e f := by
  -- every step away from `a` leaves one start of the list behind
  induction shorter : support.length generalizing a b support with
  | zero =>
      have nothing : support = [] := List.length_eq_zero_iff.mp shorter
      have member := listed a .refl ⟨b, edge⟩
      rw [nothing] at member
      cases member
  | succ length induction =>
      by_cases last : ∀ e, r a e → ∀ f, ¬ r e f
      · exact ⟨a, b, edge, last⟩
      · push Not at last
        obtain ⟨e, next, f, further⟩ := last
        have member : a ∈ support := listed a .refl ⟨b, edge⟩
        apply @induction e f (support.erase a) ?_ further
        · rw [List.length_erase_of_mem member]
          omega
        · intro c path starts
          refine (List.mem_erase_of_ne ?_).mpr (listed c (.head next path) starts)
          rintro rfl
          exact acyclic c (.head' next path)

end TerminalCanvas.Acyclicity
