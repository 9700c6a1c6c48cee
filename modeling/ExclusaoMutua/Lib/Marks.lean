-- Marks in a trace. Some events set a mark and some take it away, and a
-- trace is `Separated` when a mark is taken away before the next one is set.
import Mathlib.Data.List.Induction

namespace marks

variable {ε : Type*} (mark reset : ε → Bool)

/-- Between any two marks stands a reset. -/
def Separated (t : List ε) : Prop :=
  ∀ l₁ x l₂ y l₃, t = l₁ ++ x :: (l₂ ++ y :: l₃) → mark x = true → mark y = true →
    ∃ z ∈ l₂, reset z = true

/-- The last mark of the trace, unless a reset came after it. -/
def standing (t : List ε) : Option ε :=
  t.foldl (fun o x => if mark x then some x else if reset x then none else o) none

@[simp] theorem standing_nil : standing mark reset [] = none := rfl

theorem standing_snoc (t : List ε) (x : ε) :
    standing mark reset (t ++ [x]) =
      if mark x then some x else if reset x then none else standing mark reset t := by
  unfold standing
  simp

variable {mark reset}

/-- A mark stands when it is in the trace with no reset behind it. -/
theorem standing_eq_none_iff (t : List ε) :
    standing mark reset t = none ↔
      ∀ l₁ x l₂, t = l₁ ++ x :: l₂ → mark x = true → ∃ z ∈ l₂, reset z = true := by
  induction t using List.reverseRecOn with
  | nil => simp
  | append_singleton t y ih =>
    rw [standing_snoc]
    constructor
    · intro h l₁ x l₂ hs hx
      rcases List.eq_nil_or_concat l₂ with rfl | ⟨m, z, rfl⟩
      · obtain ⟨rfl, hxy⟩ := List.append_inj' hs rfl
        simp only [List.cons.injEq, and_true] at hxy
        subst hxy
        simp [hx] at h
      · have hs' : t ++ [y] = (l₁ ++ x :: m) ++ [z] := by simp [hs]
        obtain ⟨rfl, hyz⟩ := List.append_inj' hs' rfl
        simp only [List.cons.injEq, and_true] at hyz
        subst hyz
        by_cases hr : reset y = true
        · exact ⟨y, by simp, hr⟩
        · have hm : mark y = false := Bool.eq_false_iff.mpr fun hm => by simp [hm] at h
          simp only [hm, Bool.false_eq_true, if_false, hr] at h
          obtain ⟨w, hw, hwr⟩ := ih.mp h l₁ x m rfl hx
          exact ⟨w, by simp [hw], hwr⟩
    · intro h
      have hm : mark y = false := by
        apply Bool.eq_false_iff.mpr
        intro hm
        obtain ⟨z, hz, _⟩ := h t y [] rfl hm
        cases hz
      simp only [hm, Bool.false_eq_true, if_false]
      split
      · rfl
      · rename_i hr
        apply ih.mpr
        intro l₁ x l₂ hs hx
        obtain ⟨z, hz, hzr⟩ := h l₁ x (l₂ ++ [y]) (by simp [hs]) hx
        rcases List.mem_append.mp hz with hz | hz
        · exact ⟨z, hz, hzr⟩
        · rw [List.mem_singleton.mp hz] at hzr
          exact absurd hzr hr

theorem separated_nil : Separated mark reset [] := by
  intro l₁ x l₂ y l₃ h
  simp at h

/-- One more event keeps the marks apart unless it sets a mark where one
stands. -/
theorem separated_snoc (t : List ε) (y : ε) :
    Separated mark reset (t ++ [y]) ↔
      Separated mark reset t ∧ (mark y = true → standing mark reset t = none) := by
  constructor
  · intro h
    refine ⟨?_, ?_⟩
    · intro l₁ x l₂ z l₃ hs
      exact h l₁ x l₂ z (l₃ ++ [y]) (by simp [hs])
    · intro hy
      rw [standing_eq_none_iff]
      intro l₁ x l₂ hs hx
      exact h l₁ x l₂ y [] (by simp [hs]) hx hy
  · rintro ⟨h, hy⟩ l₁ x l₂ z l₃ hs hx hz
    rcases List.eq_nil_or_concat l₃ with rfl | ⟨m, w, rfl⟩
    · have hs' : t ++ [y] = (l₁ ++ x :: l₂) ++ [z] := by simp [hs]
      obtain ⟨rfl, hyz⟩ := List.append_inj' hs' rfl
      simp only [List.cons.injEq, and_true] at hyz
      subst hyz
      exact (standing_eq_none_iff _).mp (hy hz) l₁ x l₂ rfl hx
    · have hs' : t ++ [y] = (l₁ ++ x :: (l₂ ++ z :: m)) ++ [w] := by simp [hs]
      obtain ⟨rfl, _⟩ := List.append_inj' hs' rfl
      exact h l₁ x l₂ z m rfl hx hz

/-- An event that is no mark and no reset changes nothing. -/
theorem standing_skip {t : List ε} {x : ε} (hm : mark x = false) (hr : reset x = false) :
    standing mark reset (t ++ [x]) = standing mark reset t := by
  simp [standing_snoc, hm, hr]

theorem separated_skip {t : List ε} {x : ε} (hm : mark x = false) :
    Separated mark reset (t ++ [x]) ↔ Separated mark reset t := by
  simp [separated_snoc, hm]

/-! ## A check that runs -/

/-- Are the marks apart, and does one stand: one pass over the trace. -/
def scan (mark reset : ε → Bool) (t : List ε) : Bool × Bool :=
  t.foldl (fun o x => (o.1 && !(mark x && o.2), mark x || (o.2 && !reset x))) (true, false)

theorem scan_eq (t : List ε) :
    ((scan mark reset t).1 = true ↔ Separated mark reset t) ∧
      (scan mark reset t).2 = (standing mark reset t).isSome := by
  induction t using List.reverseRecOn with
  | nil => simp [scan, separated_nil]
  | append_singleton t x ih =>
    have hscan : scan mark reset (t ++ [x]) =
        ((scan mark reset t).1 && !(mark x && (scan mark reset t).2),
          mark x || ((scan mark reset t).2 && !reset x)) := by
      unfold scan
      simp
    rw [hscan, separated_snoc, standing_snoc, ← ih.1, ih.2]
    cases mark x <;> cases reset x <;> simp

instance (t : List ε) : Decidable (Separated mark reset t) :=
  decidable_of_iff _ (scan_eq t).1

end marks
