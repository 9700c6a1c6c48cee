-- Machines that take one action at a time and leave a trace of events.
-- A run is a list of actions, and each law of a run follows from a law of
-- one step by the rules of this file.
import Mathlib.Data.List.Induction

namespace machine

/-- A machine: `step s a` is `none` when `s` cannot take the action `a`, and
else the next state with the events of the step. -/
structure Machine (σ α ε : Type*) where
  step : σ → α → Option (σ × List ε)

variable {σ α ε : Type*} {m : Machine σ α ε}

/-! ## Runs -/

/-- The state and the trace after the actions of a list, taken in order. -/
def Machine.run (m : Machine σ α ε) (s : σ) : List α → Option (σ × List ε)
  | [] => some (s, [])
  | a :: as => (m.step s a).bind fun p => (m.run p.1 as).map fun q => (q.1, p.2 ++ q.2)

@[simp] theorem run_nil (m : Machine σ α ε) (s : σ) : m.run s [] = some (s, []) := rfl

theorem of_run_nil {s u : σ} {t : List ε} (h : m.run s [] = some (u, t)) : s = u ∧ t = [] := by
  rw [run_nil, Option.some.injEq, Prod.mk.injEq] at h
  exact ⟨h.1, h.2.symm⟩

theorem run_cons {s u : σ} {t : List ε} {a : α} {as : List α} :
    m.run s (a :: as) = some (u, t) ↔
      ∃ s₁ t₁ t₂, m.step s a = some (s₁, t₁) ∧ m.run s₁ as = some (u, t₂) ∧ t = t₁ ++ t₂ := by
  simp only [Machine.run, Option.bind_eq_some_iff, Option.map_eq_some_iff, Prod.exists,
    Prod.mk.injEq]
  constructor
  · rintro ⟨s₁, t₁, h1, u', t₂, h2, rfl, rfl⟩
    exact ⟨s₁, t₁, t₂, h1, h2, rfl⟩
  · rintro ⟨s₁, t₁, t₂, h1, h2, rfl⟩
    exact ⟨s₁, t₁, h1, u, t₂, h2, rfl, rfl⟩

@[simp] theorem run_single {s u : σ} {t : List ε} {a : α} :
    m.run s [a] = some (u, t) ↔ m.step s a = some (u, t) := by
  rw [run_cons]
  constructor
  · rintro ⟨s₁, t₁, t₂, h1, h2, rfl⟩
    obtain ⟨rfl, rfl⟩ := of_run_nil h2
    simpa using h1
  · intro h
    exact ⟨u, t, [], h, rfl, by simp⟩

theorem run_append {s u : σ} {t : List ε} {as bs : List α} :
    m.run s (as ++ bs) = some (u, t) ↔
      ∃ v t₁ t₂, m.run s as = some (v, t₁) ∧ m.run v bs = some (u, t₂) ∧ t = t₁ ++ t₂ := by
  induction as generalizing s t with
  | nil =>
    constructor
    · intro h
      exact ⟨s, [], t, rfl, h, rfl⟩
    · rintro ⟨v, t₁, t₂, h1, h2, rfl⟩
      obtain ⟨rfl, rfl⟩ := of_run_nil h1
      exact h2
  | cons a as ih =>
    rw [List.cons_append, run_cons]
    constructor
    · rintro ⟨s₁, t₁, t₂, h1, h2, rfl⟩
      obtain ⟨v, u₁, u₂, h3, h4, rfl⟩ := ih.mp h2
      exact ⟨v, t₁ ++ u₁, u₂, run_cons.mpr ⟨s₁, t₁, u₁, h1, h3, rfl⟩, h4,
        (List.append_assoc _ _ _).symm⟩
    · rintro ⟨v, t₁, t₂, h1, h2, rfl⟩
      obtain ⟨s₁, u₁, u₂, h3, h4, rfl⟩ := run_cons.mp h1
      exact ⟨s₁, u₁, u₂ ++ t₂, h3, ih.mpr ⟨v, u₂, t₂, h4, h2, rfl⟩, List.append_assoc _ _ _⟩

theorem run_snoc {s u : σ} {t : List ε} {as : List α} {a : α} :
    m.run s (as ++ [a]) = some (u, t) ↔
      ∃ v t₁ t₂, m.run s as = some (v, t₁) ∧ m.step v a = some (u, t₂) ∧ t = t₁ ++ t₂ := by
  rw [run_append]
  simp only [run_single]

/-- What an evaluation finds in a result. -/
theorem exists_some {P : σ → List ε → Prop} [∀ s t, Decidable (P s t)] {o : Option (σ × List ε)}
    (h : (o.any fun r => decide (P r.1 r.2)) = true) : ∃ u t, o = some (u, t) ∧ P u t := by
  rcases o with _ | ⟨u, t⟩
  · simp at h
  · exact ⟨u, t, rfl, by simpa using h⟩

/-- A run on fixed actions, by evaluation. -/
theorem exists_run {P : σ → List ε → Prop} [∀ s t, Decidable (P s t)] {s : σ} {as : List α}
    (h : ((m.run s as).any fun r => decide (P r.1 r.2)) = true) :
    ∃ u t, m.run s as = some (u, t) ∧ P u t :=
  exists_some h

/-! ## Laws of every step of a run -/

/-- Every step of the run keeps the law `C`: it holds of the state before the
step, of the trace so far and of the action. -/
def Machine.Along (m : Machine σ α ε) (C : σ → List ε → α → Prop) (s : σ) (as : List α) : Prop :=
  ∀ as₁ a as₂, as = as₁ ++ a :: as₂ → ∀ u t, m.run s as₁ = some (u, t) → C u t a

theorem along_nil (C : σ → List ε → α → Prop) (s : σ) : m.Along C s [] := by
  intro as₁ a as₂ h
  simp at h

theorem along_front {C : σ → List ε → α → Prop} {s : σ} {as bs : List α}
    (h : m.Along C s (as ++ bs)) : m.Along C s as := by
  intro as₁ a as₂ hs
  exact h as₁ a (as₂ ++ bs) (by simp [hs])

theorem along_last {C : σ → List ε → α → Prop} {s u : σ} {t : List ε} {as : List α} {a : α}
    (h : m.Along C s (as ++ [a])) (hr : m.run s as = some (u, t)) : C u t a :=
  h as a [] rfl u t hr

/-- A run keeps the law when its part before the last step does, and the last
step does. -/
theorem along_snoc {C : σ → List ε → α → Prop} {s u : σ} {t : List ε} {as : List α} {a : α}
    (hr : m.run s as = some (u, t)) : m.Along C s (as ++ [a]) ↔ m.Along C s as ∧ C u t a := by
  constructor
  · intro h
    exact ⟨along_front h, along_last h hr⟩
  · rintro ⟨h, hlast⟩ as₁ b as₂ hs v e hv
    rcases List.eq_nil_or_concat as₂ with rfl | ⟨bs, c, rfl⟩
    · obtain ⟨rfl, hb⟩ := List.append_inj' hs rfl
      simp only [List.cons.injEq, and_true] at hb
      rw [hr, Option.some.injEq, Prod.mk.injEq] at hv
      rw [← hb, ← hv.1, ← hv.2]
      exact hlast
    · have hs' : as ++ [a] = (as₁ ++ b :: bs) ++ [c] := by simp [hs]
      obtain ⟨rfl, _⟩ := List.append_inj' hs' rfl
      exact h as₁ b bs rfl v e hv

theorem along_mono {C D : σ → List ε → α → Prop} {s : σ} {as : List α}
    (h : m.Along C s as) (hcd : ∀ u t a, C u t a → D u t a) : m.Along D s as :=
  fun as₁ a as₂ hs u t hr => hcd u t a (h as₁ a as₂ hs u t hr)

theorem along_and {C D : σ → List ε → α → Prop} {s : σ} {as : List α} :
    m.Along (fun u t a => C u t a ∧ D u t a) s as ↔ m.Along C s as ∧ m.Along D s as := by
  constructor
  · intro h
    exact ⟨along_mono h fun _ _ _ hcd => hcd.1, along_mono h fun _ _ _ hcd => hcd.2⟩
  · rintro ⟨hc, hd⟩ as₁ a as₂ hs u t hr
    exact ⟨hc as₁ a as₂ hs u t hr, hd as₁ a as₂ hs u t hr⟩

theorem along_all {P : α → Prop} {s : σ} {as : List α} (h : ∀ a ∈ as, P a) :
    m.Along (fun _ _ a => P a) s as := by
  intro as₁ a as₂ hs _ _ _
  exact h a (by simp [hs])

/-- Every state of the run has the property `P`. -/
def Machine.Always (m : Machine σ α ε) (P : σ → Prop) (s : σ) (as : List α) : Prop :=
  ∀ as₁ as₂, as = as₁ ++ as₂ → ∀ u t, m.run s as₁ = some (u, t) → P u

theorem always_front {P : σ → Prop} {s : σ} {as bs : List α} (h : m.Always P s (as ++ bs)) :
    m.Always P s as := by
  intro as₁ as₂ hs
  exact h as₁ (as₂ ++ bs) (by simp [hs])

theorem always_last {P : σ → Prop} {s u : σ} {t : List ε} {as : List α} (h : m.Always P s as)
    (hr : m.run s as = some (u, t)) : P u :=
  h as [] (by simp) u t hr

/-- The check of `P` at every state of a run on fixed actions. -/
def Machine.check (m : Machine σ α ε) (p : σ → Bool) (s : σ) : List α → Bool
  | [] => p s
  | a :: as => p s && (m.step s a).all fun r => m.check p r.1 as

theorem always_of_check {P : σ → Prop} [∀ s, Decidable (P s)] {s : σ} {as : List α}
    (h : m.check (fun s => decide (P s)) s as = true) : m.Always P s as := by
  intro as₁ as₂ hs u t hr
  induction as₁ generalizing s as t with
  | nil =>
    obtain ⟨rfl, rfl⟩ := of_run_nil hr
    cases as with
    | nil => exact of_decide_eq_true h
    | cons a as =>
      simp only [Machine.check, Bool.and_eq_true] at h
      exact of_decide_eq_true h.1
  | cons a as₁ ih =>
    obtain ⟨s₁, t₁, t₂, h1, h2, -⟩ := run_cons.mp hr
    subst hs
    simp only [List.cons_append, Machine.check, Bool.and_eq_true, h1, Option.all_some] at h
    exact ih h.2 rfl t₂ h2

/-- The check of a law at every step of a run on fixed actions, behind the
trace `t`. -/
def Machine.checkSteps (m : Machine σ α ε) (c : σ → List ε → α → Bool) (s : σ) (t : List ε) :
    List α → Bool
  | [] => true
  | a :: as => c s t a && (m.step s a).all fun r => m.checkSteps c r.1 (t ++ r.2) as

theorem along_of_check {C : σ → List ε → α → Prop} [∀ s t a, Decidable (C s t a)] {s : σ}
    {as : List α} (h : m.checkSteps (fun s t a => decide (C s t a)) s [] as = true) :
    m.Along C s as := by
  suffices hgen : ∀ t₀ as₁ a as₂ s, as = as₁ ++ a :: as₂ →
      m.checkSteps (fun s t a => decide (C s t a)) s t₀ as = true →
      ∀ u t, m.run s as₁ = some (u, t) → C u (t₀ ++ t) a from
    fun as₁ a as₂ hs u t hr => hgen [] as₁ a as₂ s hs h u t hr
  clear h s
  intro t₀ as₁
  induction as₁ generalizing t₀ as with
  | nil =>
    intro a as₂ s hs h u t hr
    obtain ⟨rfl, rfl⟩ := of_run_nil hr
    subst hs
    simp only [List.nil_append, Machine.checkSteps, Bool.and_eq_true] at h
    rw [List.append_nil]
    exact of_decide_eq_true h.1
  | cons b as₁ ih =>
    intro a as₂ s hs h u t hr
    obtain ⟨s₁, t₁, t₂, h1, h2, rfl⟩ := run_cons.mp hr
    subst hs
    simp only [List.cons_append, Machine.checkSteps, Bool.and_eq_true, h1, Option.all_some] at h
    rw [← List.append_assoc]
    exact ih (t₀ ++ t₁) a as₂ s₁ rfl h.2 u t₂ h2

/-! ## The rules -/

/-- An invariant of the state and the trace, when each step that keeps `C`
keeps the invariant, holds after every run whose steps keep `C`. -/
theorem run_invariant_along {C : σ → List ε → α → Prop} {I : σ → List ε → Prop} {s : σ}
    (h0 : I s [])
    (hstep : ∀ u t a v e, I u t → C u t a → m.step u a = some (v, e) → I v (t ++ e))
    {as : List α} (hc : m.Along C s as) {u : σ} {t : List ε}
    (hr : m.run s as = some (u, t)) : I u t := by
  induction as using List.reverseRecOn generalizing u t with
  | nil =>
    obtain ⟨rfl, rfl⟩ := of_run_nil hr
    exact h0
  | append_singleton as a ih =>
    obtain ⟨v, t₁, t₂, h1, h2, rfl⟩ := run_snoc.mp hr
    exact hstep v t₁ a u t₂ (ih (along_front hc) h1) (along_last hc h1) h2

theorem run_invariant {I : σ → List ε → Prop} {s : σ} (h0 : I s [])
    (hstep : ∀ u t a v e, I u t → m.step u a = some (v, e) → I v (t ++ e))
    {as : List α} {u : σ} {t : List ε} (hr : m.run s as = some (u, t)) : I u t :=
  run_invariant_along h0
    (fun u t a v e hI _ hs => hstep u t a v e hI hs) (fun _ _ _ _ _ _ _ => trivial) hr

/-- Two laws agree along a run when they agree at each step behind an
invariant, and a step that keeps the second of them keeps the invariant. -/
theorem along_iff {C D : σ → List ε → α → Prop} {I : σ → List ε → Prop} {s : σ} (h0 : I s [])
    (hstep : ∀ u t a v e, I u t → D u t a → m.step u a = some (v, e) → I v (t ++ e))
    (hiff : ∀ u t a v e, I u t → m.step u a = some (v, e) → (C u t a ↔ D u t a))
    {as : List α} {w : σ} {t : List ε} (hr : m.run s as = some (w, t)) :
    m.Along C s as ↔ m.Along D s as := by
  induction as using List.reverseRecOn generalizing w t with
  | nil => simp [along_nil]
  | append_singleton as a ih =>
    obtain ⟨v, t₁, t₂, h1, h2, rfl⟩ := run_snoc.mp hr
    rw [along_snoc h1, along_snoc h1, ih h1]
    apply and_congr_right
    intro hd
    exact hiff v t₁ a w t₂ (run_invariant_along h0 hstep hd h1) h2

/-- The rule for an invariant of the state alone. -/
theorem run_state_invariant {I : σ → Prop} {s : σ} (h0 : I s)
    (hstep : ∀ u a v e, I u → m.step u a = some (v, e) → I v)
    {as : List α} {u : σ} {t : List ε} (hr : m.run s as = some (u, t)) : I u :=
  run_invariant h0 (fun u _ a v e hI hs => hstep u a v e hI hs) hr

/-- The rule for an invariant of the state and the trace, in a run whose
states all have the property `P`. -/
theorem run_invariant_always {P : σ → Prop} {I : σ → List ε → Prop} {s : σ} (h0 : I s [])
    (hstep : ∀ u t a v e, I u t → P u → P v → m.step u a = some (v, e) → I v (t ++ e))
    {as : List α} (hp : m.Always P s as) {u : σ} {t : List ε}
    (hr : m.run s as = some (u, t)) : I u t := by
  induction as using List.reverseRecOn generalizing u t with
  | nil =>
    obtain ⟨rfl, rfl⟩ := of_run_nil hr
    exact h0
  | append_singleton as a ih =>
    obtain ⟨v, t₁, t₂, h1, h2, rfl⟩ := run_snoc.mp hr
    have hfront := always_front hp
    exact hstep v t₁ a u t₂ (ih hfront h1) (always_last hfront h1) (always_last hp hr) h2

theorem run_state_invariant_always {P I : σ → Prop} {s : σ} (h0 : I s)
    (hstep : ∀ u a v e, I u → P u → P v → m.step u a = some (v, e) → I v)
    {as : List α} (hp : m.Always P s as) {u : σ} {t : List ε}
    (hr : m.run s as = some (u, t)) : I u :=
  run_invariant_always h0 (fun u _ a v e hI hu hv hs => hstep u a v e hI hu hv hs) hp hr

/-- The rule for an invariant that tells the number of steps too. -/
theorem run_invariant_length {C : σ → List ε → α → Prop} {I : σ → List ε → Nat → Prop} {s : σ}
    (h0 : I s [] 0)
    (hstep : ∀ u t n a v e, I u t n → C u t a → m.step u a = some (v, e) → I v (t ++ e) (n + 1))
    {as : List α} (hc : m.Along C s as) {u : σ} {t : List ε}
    (hr : m.run s as = some (u, t)) : I u t as.length := by
  induction as using List.reverseRecOn generalizing u t with
  | nil =>
    obtain ⟨rfl, rfl⟩ := of_run_nil hr
    exact h0
  | append_singleton as a ih =>
    obtain ⟨v, t₁, t₂, h1, h2, rfl⟩ := run_snoc.mp hr
    rw [List.length_append, List.length_singleton]
    exact hstep v t₁ as.length a u t₂ (ih (along_front hc) h1) (along_last hc h1) h2

/-! ## Counted steps -/

/-- The number of steps of the run that `p` picks. -/
def Machine.count (m : Machine σ α ε) (p : σ → α → Bool) (s : σ) : List α → Nat
  | [] => 0
  | a :: as => (p s a).toNat + (m.step s a).elim 0 fun r => m.count p r.1 as

theorem count_snoc {p : σ → α → Bool} {s v : σ} {t : List ε} {as : List α} {a : α}
    (hr : m.run s as = some (v, t)) : m.count p s (as ++ [a]) = m.count p s as + (p v a).toNat := by
  induction as generalizing s t with
  | nil =>
    obtain ⟨rfl, -⟩ := of_run_nil hr
    rcases h : m.step s a with _ | r <;> simp [Machine.count, h]
  | cons b as ih =>
    obtain ⟨s₁, t₁, t₂, h1, h2, -⟩ := run_cons.mp hr
    simp only [List.cons_append, Machine.count, h1, Option.elim_some, ih h2, Nat.add_assoc]

/-- The rule for an invariant that tells the number of counted steps. -/
theorem run_invariant_count {p : σ → α → Bool} {I : σ → List ε → Nat → Prop} {s : σ}
    (h0 : I s [] 0)
    (hstep : ∀ u t n a v e, I u t n → m.step u a = some (v, e) →
      I v (t ++ e) (n + (p u a).toNat))
    {as : List α} {u : σ} {t : List ε} (hr : m.run s as = some (u, t)) :
    I u t (m.count p s as) := by
  induction as using List.reverseRecOn generalizing u t with
  | nil =>
    obtain ⟨rfl, rfl⟩ := of_run_nil hr
    exact h0
  | append_singleton as a ih =>
    obtain ⟨v, t₁, t₂, h1, h2, rfl⟩ := run_snoc.mp hr
    rw [count_snoc h1]
    exact hstep v t₁ _ a u t₂ (ih h1) h2

/-- A law that each step keeps exactly when it stays within a number `N` of
counted steps: a run keeps the law exactly when it counts no more than `N`. The
invariant tells the number of counted steps so far. -/
theorem along_iff_count {p : σ → α → Bool} {N : Nat} {C : σ → List ε → α → Prop}
    {I : σ → Nat → Prop} {s : σ} (h0 : I s 0)
    (hstep : ∀ u n a v e, I u n → n + (p u a).toNat ≤ N → m.step u a = some (v, e) →
      I v (n + (p u a).toNat))
    (hiff : ∀ u t n a v e, I u n → n ≤ N → m.step u a = some (v, e) →
      (C u t a ↔ n + (p u a).toNat ≤ N))
    {as : List α} {w : σ} {t : List ε} (hr : m.run s as = some (w, t)) :
    m.Along C s as ↔ m.count p s as ≤ N := by
  suffices h : (m.Along C s as ↔ m.count p s as ≤ N) ∧
      (m.count p s as ≤ N → I w (m.count p s as)) from h.1
  induction as using List.reverseRecOn generalizing w t with
  | nil =>
    obtain ⟨rfl, -⟩ := of_run_nil hr
    exact ⟨iff_of_true (along_nil C s) (Nat.zero_le N), fun _ => h0⟩
  | append_singleton as a ih =>
    obtain ⟨v, t₁, t₂, h1, h2, rfl⟩ := run_snoc.mp hr
    obtain ⟨hfront, hI⟩ := ih h1
    rw [along_snoc h1, hfront, count_snoc h1]
    refine ⟨?_, fun hle => hstep v _ a w t₂ (hI (by omega)) hle h2⟩
    constructor
    · rintro ⟨hle, hlast⟩
      exact (hiff v t₁ _ a w t₂ (hI hle) hle h2).mp hlast
    · intro hle
      refine ⟨by omega, ?_⟩
      exact (hiff v t₁ _ a w t₂ (hI (by omega)) (by omega) h2).mpr hle

/-! ## Refinement -/

/-- The runs of an abstract system: each step takes an action and gives what
an outsider sees of it. -/
inductive Runs {β ω : Type*} (astep : β → α → List ω → β → Prop) (b : β) :
    List α → List ω → β → Prop
  | nil : Runs astep b [] [] b
  | snoc {as : List α} {os ps : List ω} {c d : β} {a : α} (h : Runs astep b as os c)
      (hs : astep c a ps d) : Runs astep b (as ++ [a]) (os ++ ps) d

/-- When every step of the machine that keeps `C` is a step of the abstract
system under `R`, every run of the machine is a run of the abstract system. -/
theorem run_refines {β ω : Type*} {astep : β → α → List ω → β → Prop} {R : σ → β → Prop}
    {see : List ε → List ω} (hsee : see [] = [])
    (happ : ∀ t e, see (t ++ e) = see t ++ see e) {C : σ → List ε → α → Prop} {s : σ} {b : β}
    (h0 : R s b)
    (hstep : ∀ u t a v e c, R u c → C u t a → m.step u a = some (v, e) →
      ∃ d, astep c a (see e) d ∧ R v d)
    {as : List α} (hc : m.Along C s as) {u : σ} {t : List ε}
    (hr : m.run s as = some (u, t)) : ∃ c, Runs astep b as (see t) c ∧ R u c := by
  induction as using List.reverseRecOn generalizing u t with
  | nil =>
    obtain ⟨rfl, rfl⟩ := of_run_nil hr
    exact ⟨b, hsee ▸ .nil, h0⟩
  | append_singleton as a ih =>
    obtain ⟨v, t₁, t₂, h1, h2, rfl⟩ := run_snoc.mp hr
    obtain ⟨c, hruns, hR⟩ := ih (along_front hc) h1
    obtain ⟨d, hs, hR'⟩ := hstep v t₁ a u t₂ c hR (along_last hc h1) h2
    exact ⟨d, happ t₁ t₂ ▸ .snoc hruns hs, hR'⟩

/-- A machine over another one that knows only some of its actions: each step
that keeps `C` is a step of the other under `R`, with traces under `T`, or one that
the other does not see. Then each run is a run of the other on the actions that it
knows. -/
theorem run_simulates {τ β δ : Type*} {n : Machine τ β δ} {dec : α → Option β}
    {R : σ → τ → Prop} {T : List ε → List δ → Prop} (hnil : T [] [])
    (happ : ∀ t f e g, T t f → T e g → T (t ++ e) (f ++ g)) {C : σ → List ε → α → Prop} {s : σ}
    {b : τ} (h0 : R s b)
    (hskip : ∀ u t c a v e, R u c → C u t a → dec a = none → m.step u a = some (v, e) →
      R v c ∧ T e [])
    (hstep : ∀ u t c a b v e, R u c → C u t a → dec a = some b → m.step u a = some (v, e) →
      ∃ d f, n.step c b = some (d, f) ∧ R v d ∧ T e f)
    {as : List α} (hc : m.Along C s as) {u : σ} {t : List ε} (hr : m.run s as = some (u, t)) :
    ∃ c f, n.run b (as.filterMap dec) = some (c, f) ∧ R u c ∧ T t f := by
  induction as using List.reverseRecOn generalizing u t with
  | nil =>
    obtain ⟨rfl, rfl⟩ := of_run_nil hr
    exact ⟨b, [], rfl, h0, hnil⟩
  | append_singleton as a ih =>
    obtain ⟨v, t₁, t₂, h1, h2, rfl⟩ := run_snoc.mp hr
    obtain ⟨c, f, hrun, hR, hT⟩ := ih (along_front hc) h1
    have hlast := along_last hc h1
    rw [List.filterMap_append]
    cases hd : dec a with
    | none =>
      obtain ⟨hR', hT'⟩ := hskip v t₁ c a u t₂ hR hlast hd h2
      refine ⟨c, f ++ [], ?_, hR', happ _ _ _ _ hT hT'⟩
      simpa [hd] using hrun
    | some b' =>
      obtain ⟨d, g, hs, hR', hT'⟩ := hstep v t₁ c a b' u t₂ hR hlast hd h2
      refine ⟨d, f ++ g, ?_, hR', happ _ _ _ _ hT hT'⟩
      rw [show List.filterMap dec [a] = [b'] by simp [hd]]
      exact run_snoc.mpr ⟨c, f, g, hrun, hs, rfl⟩

/-- Two machines in step: what one of them can take the other can, with the same
events under `f`. Then they take the same runs. -/
theorem run_lockstep {τ δ : Type*} {n : Machine τ α δ} {f : ε → δ} {R : σ → τ → Prop} {s : σ}
    {b : τ} (h0 : R s b)
    (hstep : ∀ u c a, R u c → (m.step u a = none ∧ n.step c a = none) ∨
      ∃ v d e, m.step u a = some (v, e) ∧ n.step c a = some (d, e.map f) ∧ R v d) (as : List α) :
    (m.run s as = none ∧ n.run b as = none) ∨
      ∃ u c t, m.run s as = some (u, t) ∧ n.run b as = some (c, t.map f) ∧ R u c := by
  induction as generalizing s b with
  | nil => exact Or.inr ⟨s, b, [], rfl, rfl, h0⟩
  | cons a as ih =>
    unfold Machine.run
    rcases hstep s b a h0 with ⟨hm, hn⟩ | ⟨v, d, e, hm, hn, hR⟩
    · rw [hm, hn]
      exact Or.inl ⟨rfl, rfl⟩
    · rw [hm, hn, Option.bind_some, Option.bind_some]
      rcases ih hR with ⟨h1, h2⟩ | ⟨u, c, t, h1, h2, hR'⟩
      · rw [h1, h2]
        exact Or.inl ⟨rfl, rfl⟩
      · rw [h1, h2]
        refine Or.inr ⟨u, c, e ++ t, rfl, ?_, hR'⟩
        rw [List.map_append]
        rfl

/-! ## Up to the first refusal -/

/-- `m` up to the first action that it cannot take. That one is kept, and is the
last. -/
def Machine.halting (m : Machine σ α ε) : Machine (σ × Option α) α ε where
  step p a :=
    match p.2 with
    | some _ => none
    | none =>
      match m.step p.1 a with
      | some (u, e) => some ((u, none), e)
      | none => some ((p.1, some a), [])

theorem halting_step {p : σ × Option α} {a : α} {q : σ × Option α} {e : List ε}
    (h : m.halting.step p a = some (q, e)) : p.2 = none ∧
      ((q.2 = none ∧ m.step p.1 a = some (q.1, e)) ∨
        (q = (p.1, some a) ∧ e = [] ∧ m.step p.1 a = none)) := by
  unfold Machine.halting at h
  dsimp only at h
  split at h
  · cases h
  · rename_i hnone
    refine ⟨hnone, ?_⟩
    split at h
    · rename_i u f hs
      rw [Option.some.injEq, Prod.mk.injEq] at h
      obtain ⟨rfl, rfl⟩ := h
      exact Or.inl ⟨rfl, hs⟩
    · rename_i hs
      rw [Option.some.injEq, Prod.mk.injEq] at h
      exact Or.inr ⟨h.1.symm, h.2.symm, hs⟩

/-- A run up to the first refusal is a run, and the refused action behind it when
there is one. -/
theorem run_halting {s : σ} {as : List α} {q : σ × Option α} {t : List ε}
    (h : m.halting.run (s, none) as = some (q, t)) : ∃ bs, m.run s bs = some (q.1, t) ∧
      as = bs ++ q.2.toList ∧ ∀ a ∈ q.2, m.step q.1 a = none := by
  induction as using List.reverseRecOn generalizing q t with
  | nil =>
    obtain ⟨rfl, rfl⟩ := of_run_nil h
    exact ⟨[], rfl, rfl, fun a ha => by cases ha⟩
  | append_singleton as a ih =>
    obtain ⟨p, t₁, t₂, h1, h2, rfl⟩ := run_snoc.mp h
    obtain ⟨bs, hrun, has, -⟩ := ih h1
    obtain ⟨hnone, ⟨hq, hs⟩ | ⟨rfl, rfl, hs⟩⟩ := halting_step h2
    · refine ⟨bs ++ [a], run_snoc.mpr ⟨_, _, _, hrun, hs, rfl⟩, ?_, ?_⟩
      · rw [hq, has, hnone]
        simp
      · intro b hb
        rw [hq] at hb
        cases hb
    · refine ⟨bs, by rwa [List.append_nil], ?_, ?_⟩
      · rw [has, hnone]
        simp
      · intro b hb
        rw [Option.mem_some.mp hb] at hs
        exact hs

end machine
