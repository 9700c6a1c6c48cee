-- Lists of messages in flight: what is left when one of them, at any place,
-- is taken out. And the parties that send them, of which one moves at a time.
import Mathlib.Algebra.BigOperators.Group.Finset.Basic
import Mathlib.Data.Fintype.Basic
import Mathlib.Data.List.Basic

namespace in_flight

variable {α : Type*}

/-- A message taken out at place `k` stood between two parts, which stay. -/
theorem split_eraseIdx {l : List α} {k : Nat} {x : α} (h : l[k]? = some x) :
    ∃ l₁ l₂, l = l₁ ++ x :: l₂ ∧ l.eraseIdx k = l₁ ++ l₂ := by
  obtain ⟨hk, hx⟩ := List.getElem?_eq_some_iff.mp h
  refine ⟨l.take k, l.drop (k + 1), ?_, List.eraseIdx_eq_take_drop_succ l k⟩
  rw [← hx, List.getElem_cons_drop, List.take_append_drop]

theorem forall_eraseIdx {P : α → Prop} {l : List α} (h : ∀ x ∈ l, P x) (k : Nat) :
    ∀ x ∈ l.eraseIdx k, P x :=
  fun x hx => h x (List.mem_of_mem_eraseIdx hx)

variable {p : α → Bool}

theorem filter_eraseIdx_of_neg {l : List α} {k : Nat} {x : α} (h : l[k]? = some x)
    (hp : p x = false) : (l.eraseIdx k).filter p = l.filter p := by
  obtain ⟨l₁, l₂, hl, he⟩ := split_eraseIdx h
  rw [he, hl]
  simp [List.filter_append, hp]

/-- When only one message of a kind is in flight and it is taken out, no
message of the kind is left. -/
theorem filter_eraseIdx_single {l : List α} {k : Nat} {x y : α} (h : l[k]? = some x)
    (hp : p x = true) (hl : l.filter p = [y]) : x = y ∧ (l.eraseIdx k).filter p = [] := by
  obtain ⟨l₁, l₂, hs, he⟩ := split_eraseIdx h
  rw [hs, List.filter_append, List.filter_cons_of_pos hp] at hl
  rw [he, List.filter_append]
  rcases h1 : l₁.filter p with _ | ⟨z, zs⟩
  · rw [h1, List.nil_append, List.cons.injEq] at hl
    exact ⟨hl.1, by rw [hl.2]; rfl⟩
  · rw [h1] at hl
    simp at hl

/-- Taking a message out takes it off the count of its kind. -/
theorem countP_eraseIdx {l : List α} {k : Nat} {x : α} (h : l[k]? = some x) :
    l.countP p = (l.eraseIdx k).countP p + if p x then 1 else 0 := by
  obtain ⟨l₁, l₂, hl, he⟩ := split_eraseIdx h
  rw [he, hl]
  simp only [List.countP_append, List.countP_cons]
  omega

theorem countP_eraseIdx_add {l : List α} {k : Nat} {x : α} (h : l[k]? = some x) :
    (l.eraseIdx k).countP p + (p x).toNat = l.countP p := by
  rw [countP_eraseIdx h]
  cases p x with
  | true => rfl
  | false => rfl

/-! ## One party moves -/

/-- A step of party `i` that keeps its value under `g` keeps that of every
party. -/
theorem update_keeps {ι κ β : Type*} [DecidableEq ι] {f : ι → κ} {g : κ → β} {i : ι} {c : κ}
    (hc : g c = g (f i)) (j : ι) : g (Function.update f i c j) = g (f j) := by
  by_cases hj : j = i
  · subst hj
    rw [Function.update_self, hc]
  · rw [Function.update_of_ne hj]

/-- The sum over all parties changes by what the one that moves brings. -/
theorem sum_update {ι κ : Type*} [Fintype ι] [DecidableEq ι] (g : κ → Nat) (f : ι → κ) (i : ι)
    (c : κ) : (∑ j, g (Function.update f i c j)) + g (f i) = (∑ j, g (f j)) + g c := by
  have hresto : ∑ j ∈ Finset.univ.erase i, g (Function.update f i c j) =
      ∑ j ∈ Finset.univ.erase i, g (f j) := by
    apply Finset.sum_congr rfl
    intro j hj
    rw [Function.update_of_ne (Finset.ne_of_mem_erase hj)]
  rw [← Finset.add_sum_erase _ _ (Finset.mem_univ i), hresto, Function.update_self,
    ← Finset.add_sum_erase _ (fun j => g (f j)) (Finset.mem_univ i)]
  omega

end in_flight
