-- Stacks of a bounded size whose items have different names and whose ranks
-- grow from the top down, so that the top has the least rank.
import Mathlib.Order.Defs.Unbundled

namespace ordered_stack

structure Stack {α κ ρ : Type*} [LT ρ] (name : α → κ) (rank : α → ρ) (cap : Nat) where
  items : List α
  ordered : items.Pairwise fun x y => rank x < rank y
  distinct : (items.map name).Nodup
  fits : items.length ≤ cap

variable {α κ ρ : Type*} [LT ρ] {name : α → κ} {rank : α → ρ} {cap : Nat}

def empty : Stack name rank cap where
  items := []
  ordered := .nil
  distinct := .nil
  fits := Nat.zero_le _

/-- The top has the name of `x`. -/
def Stack.OnTop (s : Stack name rank cap) (x : α) : Prop := s.items.head?.map name = some (name x)

/-- There is room for `x`, whose name is new and whose rank is below the top. -/
def Stack.Takes (s : Stack name rank cap) (x : α) : Prop :=
  s.items.length < cap ∧ name x ∉ s.items.map name ∧ ∀ y ∈ s.items.head?, rank x < rank y

instance [DecidableEq κ] (s : Stack name rank cap) (x : α) : Decidable (s.OnTop x) :=
  inferInstanceAs (Decidable (s.items.head?.map name = some (name x)))

instance [DecidableEq κ] [DecidableLT ρ] (s : Stack name rank cap) (x : α) :
    Decidable (s.Takes x) :=
  inferInstanceAs (Decidable (s.items.length < cap ∧ name x ∉ s.items.map name ∧
    ∀ y ∈ s.items.head?, rank x < rank y))

def Stack.pop (s : Stack name rank cap) : Stack name rank cap where
  items := s.items.tail
  ordered := s.ordered.tail
  distinct := s.distinct.sublist ((List.tail_sublist _).map _)
  fits := by
    have hfits := s.fits
    rw [List.length_tail]
    omega

variable [IsTrans ρ (· < ·)]

/-- What is below the top is below every item. -/
theorem Stack.Takes.below {s : Stack name rank cap} {x : α} (h : s.Takes x) :
    ∀ y ∈ s.items, rank x < rank y := by
  obtain ⟨-, -, htop⟩ := h
  have hord := s.ordered
  cases hl : s.items with
  | nil =>
    intro y hy
    cases hy
  | cons z zs =>
    rw [hl] at htop hord
    have hz : rank x < rank z := htop z rfl
    intro y hy
    rcases List.mem_cons.mp hy with rfl | hy
    · exact hz
    · exact IsTrans.trans _ _ _ hz (List.rel_of_pairwise_cons hord hy)

def Stack.push (s : Stack name rank cap) (x : α) (h : s.Takes x) : Stack name rank cap where
  items := x :: s.items
  ordered := List.pairwise_cons.mpr ⟨h.below, s.ordered⟩
  distinct := List.nodup_cons.mpr ⟨h.2.1, s.distinct⟩
  fits := h.1

end ordered_stack
