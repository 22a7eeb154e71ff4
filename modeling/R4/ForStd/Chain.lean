import Mathlib.Data.List.Basic
import Mathlib.Logic.Relation
import Mathlib.Order.Defs.PartialOrder

/-!
# Chains

A process visits points, each of which is to come behind all that were visited before. It keeps a
pointer to the last one, from which there is a path to the next. In between, other points may
contribute to the next visit: they are pending until it joins them.

## Key results

- `Chain.visit`: the next point comes behind everything
- `Chain.path`: what was visited or has contributed has a path to every later visit
-/

open Relation

/-- The points that were visited reach the last one, and so do those that have contributed, unless
    they are pending. -/
structure Chain {α : Type} [LT α] (R : α → α → Prop) (visited contributed pending : List α)
    (last : Option α) : Prop where
  reaches : ∀ a ∈ visited, ∃ l ∈ last, ReflTransGen R a l
  joins : ∀ a ∈ contributed, a ∈ pending ∨ ∃ l ∈ last, ReflTransGen R a l
  ordered : ∀ a ∈ visited ++ contributed, ∀ b ∈ visited, a < b → ReflTransGen R a b

namespace Chain

variable {α : Type} {R R' : α → α → Prop} {visited contributed pending pending' : List α}
  {last : Option α}

/-- Nothing is a chain. -/
theorem empty [LT α] (R : α → α → Prop) (pending : List α) : Chain R [] [] pending none :=
  ⟨by simp, by simp, by simp⟩

/-- Steps may be added, and points may become pending. -/
theorem mono [LT α] (h : Chain R visited contributed pending last)
    (hstep : ∀ a b, R a b → R' a b) (hpending : ∀ a ∈ pending, a ∈ pending') :
    Chain R' visited contributed pending' last where
  reaches a ha := by
    obtain ⟨l, hl, hpath⟩ := h.reaches a ha
    exact ⟨l, hl, ReflTransGen.mono hstep _ _ hpath⟩
  joins a ha := by
    rcases h.joins a ha with hmem | ⟨l, hl, hpath⟩
    · exact Or.inl (hpending a hmem)
    · exact Or.inr ⟨l, hl, ReflTransGen.mono hstep _ _ hpath⟩
  ordered a ha b hb hlt := ReflTransGen.mono hstep _ _ (h.ordered a ha b hb hlt)

/-- A point that is pending contributes. -/
theorem contribute [Preorder α] (h : Chain R visited contributed pending last) {c : α}
    (hpending : c ∈ pending) (hle : ∀ a ∈ visited, a ≤ c) :
    Chain R visited (contributed ++ [c]) pending last where
  reaches := h.reaches
  joins a ha := by
    rcases List.mem_append.mp ha with ha | ha
    · exact h.joins a ha
    · obtain rfl := List.mem_singleton.mp ha
      exact Or.inl hpending
  ordered a ha b hb hlt := by
    rw [← List.append_assoc] at ha
    rcases List.mem_append.mp ha with ha | ha
    · exact h.ordered a ha b hb hlt
    · -- nothing that was visited is later
      obtain rfl := List.mem_singleton.mp ha
      exact absurd (hle b hb) (not_le_of_gt hlt)

/-- The last point and all that is pending have a path to the next point. -/
theorem visit [Preorder α] (h : Chain R visited contributed pending last) {c : α}
    (hlast : ∀ l ∈ last, ReflTransGen R l c) (hjoin : ∀ a ∈ pending, ReflTransGen R a c)
    (hle : ∀ a ∈ visited, a ≤ c) : Chain R (visited ++ [c]) contributed [] (some c) := by
  have hvisited : ∀ a ∈ visited ++ [c], ReflTransGen R a c := by
    intro a ha
    rcases List.mem_append.mp ha with ha | ha
    · obtain ⟨l, hl, hpath⟩ := h.reaches a ha
      exact hpath.trans (hlast l hl)
    · obtain rfl := List.mem_singleton.mp ha
      exact .refl
  have hcontributed : ∀ a ∈ contributed, ReflTransGen R a c := by
    intro a ha
    rcases h.joins a ha with hmem | ⟨l, hl, hpath⟩
    · exact hjoin a hmem
    · exact hpath.trans (hlast l hl)
  refine ⟨fun a ha => ⟨c, rfl, hvisited a ha⟩, fun a ha => Or.inr ⟨c, rfl, hcontributed a ha⟩, ?_⟩
  intro a ha b hb' hlt
  rcases List.mem_append.mp hb' with hb | hb
  · -- between points that were there before, or from the new one, which is not earlier
    rcases List.mem_append.mp ha with ha | ha
    · rcases List.mem_append.mp ha with ha | ha
      · exact h.ordered a (List.mem_append_left _ ha) b hb hlt
      · obtain rfl := List.mem_singleton.mp ha
        exact absurd (hle b hb) (not_le_of_gt hlt)
    · exact h.ordered a (List.mem_append_right _ ha) b hb hlt
  · obtain rfl := List.mem_singleton.mp hb
    rcases List.mem_append.mp ha with ha | ha
    · exact hvisited a ha
    · exact hcontributed a ha

/-- A path to every later visit. -/
theorem path [Preorder α] (h : Chain R visited contributed pending last) {a b : α}
    (ha : a ∈ visited ++ contributed) (hb : b ∈ visited) (hlt : a < b) : TransGen R a b := by
  rcases reflTransGen_iff_eq_or_transGen.mp (h.ordered a ha b hb hlt) with rfl | hpath
  · exact absurd hlt (lt_irrefl _)
  · exact hpath

end Chain
