-- The waiting queue. `fila.c` and the two servers each hold a copy of it: a
-- list linked by `next`, ordered by `tempo`, with a counter `tamanho` and a
-- bound `N`. The copies differ in the types of `PID` and `tempo`, in what
-- else an item holds, and in the test for a PID that already waits.
import Mathlib.Data.List.Sort
import ExclusaoMutua.Lib.SignedOrder

namespace fila

variable {τ δ : Type}

/-! ## The code -/

/-- `struct Sitem`. The `next` pointers are the order of the list. -/
structure Item (τ δ : Type) where
  PID : τ
  tempo : τ
  dados : δ
  deriving DecidableEq

/-- `struct Sfila`. -/
structure Fila (τ δ : Type) where
  tamanho : Int
  N : Int
  head : List (Item τ δ)
  deriving DecidableEq

def init (N : Int) : Fila τ δ := { tamanho := 0, N, head := [] }

def estaNaFila [DecidableEq τ] (fila : Fila τ δ) (Cliente : Item τ δ) : Bool :=
  fila.head.any fun aux => aux.PID = Cliente.PID

/-- The `while` of `insere`, from the item `aux` with `next` behind it. -/
def insereDepois [LT τ] [DecidableLT τ] (novo aux : Item τ δ) : List (Item τ δ) → List (Item τ δ)
  | [] => [aux, novo]
  | prox :: resto =>
    if prox.tempo < novo.tempo then aux :: insereDepois novo prox resto
    else aux :: novo :: prox :: resto

/-- `insere`, with the test `repetido` for an item that already waits. The
result is `none` where the code reads `head->tempo` of a null head. -/
def insereSe [LT τ] [DecidableLT τ] (repetido : Fila τ δ → Item τ δ → Bool) (fila : Fila τ δ)
    (novo : Item τ δ) : Option (Int32 × Fila τ δ) :=
  if fila.tamanho < fila.N then
    if repetido fila novo then some (0, fila)
    else if fila.tamanho = 0 then
      some (1, { fila with head := [novo], tamanho := fila.tamanho + 1 })
    else
      match fila.head with
      | [] => none
      | aux :: next =>
        if aux.tempo > novo.tempo then
          some (1, { fila with head := novo :: aux :: next, tamanho := fila.tamanho + 1 })
        else
          some (1, { fila with head := insereDepois novo aux next, tamanho := fila.tamanho + 1 })
  else some (0, fila)

/-- `removeItem` of the servers. `item` is the memory that `malloc` gives: a
queue with a null head leaves it as it is. -/
def removeItem (item : Item τ δ) (fila : Fila τ δ) : Item τ δ × Fila τ δ :=
  match fila.head with
  | [] => (item, fila)
  | aux :: resto => (aux, { fila with head := resto, tamanho := fila.tamanho - 1 })

/-! ## The front of the list -/

/-- The items in front of the first one that `p` picks. -/
def frente (p : Item τ δ → Bool) (l : List (Item τ δ)) : List (Item τ δ) :=
  l.takeWhile fun x => !p x

theorem countP_frente_le (p q : Item τ δ → Bool) (l : List (Item τ δ)) :
    (frente p l).countP q ≤ l.countP q := (List.takeWhile_sublist _).countP_le

theorem frente_cons {p : Item τ δ → Bool} {x : Item τ δ} (hx : p x = false)
    (l : List (Item τ δ)) : frente p (x :: l) = x :: frente p l := by
  unfold frente
  simp [hx]

theorem frente_append {p : Item τ δ → Bool} {l₁ : List (Item τ δ)} {x : Item τ δ} (hx : x ∈ l₁)
    (hp : p x = true) (l₂ : List (Item τ δ)) : frente p (l₁ ++ l₂) = frente p l₁ := by
  unfold frente
  induction l₁ with
  | nil => cases hx
  | cons y ys ih =>
    rcases List.mem_cons.mp hx with rfl | hx
    · simp [hp]
    · by_cases hy : p y = true
      · simp [hy]
      · simp [hy, ih hx]

/-! ## Where an item lands -/

section Colocada

variable [LinearOrder τ]

/-- The list after `insere` linked `novo` into it. -/
def colocada (novo : Item τ δ) : List (Item τ δ) → List (Item τ δ)
  | [] => [novo]
  | aux :: next =>
    if aux.tempo > novo.tempo then novo :: aux :: next else insereDepois novo aux next

/-- No item waits before one with a smaller `tempo`. -/
def Ordenada (l : List (Item τ δ)) : Prop := l.Pairwise fun a b => a.tempo ≤ b.tempo

/-- The walk of `insere` passes the items with a smaller `tempo`, and stops
at the first one that has none. -/
theorem insereDepois_split (novo aux : Item τ δ) (l : List (Item τ δ)) :
    ∃ l₁ l₂, l = l₁ ++ l₂ ∧ insereDepois novo aux l = aux :: l₁ ++ novo :: l₂ ∧
      (∀ x ∈ l₁, x.tempo < novo.tempo) ∧ ∀ x, l₂.head? = some x → novo.tempo ≤ x.tempo := by
  induction l generalizing aux with
  | nil => exact ⟨[], [], rfl, rfl, by simp, by simp⟩
  | cons prox resto ih =>
    rw [insereDepois]
    split
    · rename_i hlt
      obtain ⟨l₁, l₂, rfl, heq, hmenor, hmaior⟩ := ih prox
      refine ⟨prox :: l₁, l₂, rfl, by rw [heq]; rfl, ?_, hmaior⟩
      intro x hx
      rcases List.mem_cons.mp hx with rfl | hx
      · exact hlt
      · exact hmenor x hx
    · rename_i hge
      refine ⟨[], prox :: resto, rfl, rfl, by simp, ?_⟩
      intro x hx
      simp only [List.head?_cons, Option.some.injEq] at hx
      subst hx
      exact not_lt.mp hge

/-- `novo` comes to the head exactly when its `tempo` is smaller than that of
the old head. -/
theorem colocada_head (novo aux : Item τ δ) (next : List (Item τ δ)) :
    (colocada novo (aux :: next)).head? = some (if aux.tempo > novo.tempo then novo else aux) := by
  rw [colocada]
  split
  · rfl
  · obtain ⟨l₁, l₂, -, heq, -⟩ := insereDepois_split novo aux next
    rw [heq]
    rfl

/-- `insere` loses no item and adds only the new one. -/
theorem colocada_perm (novo : Item τ δ) (l : List (Item τ δ)) :
    (colocada novo l).Perm (novo :: l) := by
  cases l with
  | nil => exact List.Perm.refl _
  | cons aux next =>
    rw [colocada]
    split
    · exact List.Perm.refl _
    · obtain ⟨l₁, l₂, rfl, heq, -, -⟩ := insereDepois_split novo aux next
      rw [heq]
      exact List.perm_middle

theorem mem_colocada {novo x : Item τ δ} {l : List (Item τ δ)} :
    x ∈ colocada novo l ↔ x = novo ∨ x ∈ l := by
  rw [(colocada_perm novo l).mem_iff, List.mem_cons]

/-- What `insere` does to an ordered list: it puts `novo` between two parts,
behind every item with a smaller `tempo`, and behind a head with the same. -/
structure Separa (novo : Item τ δ) (l l₁ l₂ : List (Item τ δ)) : Prop where
  partes : l = l₁ ++ l₂
  junta : colocada novo l = l₁ ++ novo :: l₂
  antes : ∀ x ∈ l₁, x.tempo ≤ novo.tempo
  depois : ∀ x ∈ l₂, novo.tempo ≤ x.tempo
  cabeca : ∀ x, l.head? = some x → x.tempo ≤ novo.tempo → x ∈ l₁

theorem head_le_of_ordenada {l : List (Item τ δ)} (h : Ordenada l) {t : τ}
    (ht : ∀ x, l.head? = some x → t ≤ x.tempo) : ∀ x ∈ l, t ≤ x.tempo := by
  cases l with
  | nil => simp
  | cons a l =>
    have ha : t ≤ a.tempo := ht a rfl
    intro x hx
    rcases List.mem_cons.mp hx with rfl | hx
    · exact ha
    · exact le_trans ha ((List.pairwise_cons.mp h).1 x hx)

/-- The head of an ordered list has the smallest `tempo`. -/
theorem Ordenada.cabeca_le {aux : Item τ δ} {resto : List (Item τ δ)}
    (h : Ordenada (aux :: resto)) : ∀ x ∈ aux :: resto, aux.tempo ≤ x.tempo := by
  apply head_le_of_ordenada h
  intro x hx
  rw [List.head?_cons, Option.some.injEq] at hx
  rw [hx]

theorem colocada_separa (novo : Item τ δ) (l : List (Item τ δ)) (h : Ordenada l) :
    ∃ l₁ l₂, Separa novo l l₁ l₂ := by
  cases l with
  | nil => exact ⟨[], [], ⟨rfl, rfl, by simp, by simp, by simp⟩⟩
  | cons aux next =>
    by_cases hgt : aux.tempo > novo.tempo
    · refine ⟨[], aux :: next, ⟨rfl, by simp [colocada, hgt], by simp, ?_, ?_⟩⟩
      · apply head_le_of_ordenada h
        intro x hx
        simp only [List.head?_cons, Option.some.injEq] at hx
        subst hx
        exact le_of_lt hgt
      · intro x hx hle
        simp only [List.head?_cons, Option.some.injEq] at hx
        subst hx
        exact absurd hgt (not_lt.mpr hle)
    · obtain ⟨l₁, l₂, rfl, heq, hmenor, hmaior⟩ := insereDepois_split novo aux next
      have hord : Ordenada l₂ := (List.pairwise_append.mp (List.pairwise_cons.mp h).2).2.1
      refine ⟨aux :: l₁, l₂, ⟨rfl, by rw [colocada, if_neg hgt, heq], ?_,
        head_le_of_ordenada hord hmaior, ?_⟩⟩
      · intro x hx
        rcases List.mem_cons.mp hx with rfl | hx
        · exact not_lt.mp hgt
        · exact le_of_lt (hmenor x hx)
      · intro x hx _
        simp only [List.head?_cons, Option.some.injEq] at hx
        subst hx
        exact List.mem_cons_self

theorem Separa.ordenada {novo : Item τ δ} {l l₁ l₂ : List (Item τ δ)} (h : Separa novo l l₁ l₂)
    (hl : Ordenada l) : Ordenada (colocada novo l) := by
  rw [h.partes] at hl
  obtain ⟨h1, h2, h12⟩ := List.pairwise_append.mp hl
  rw [h.junta]
  apply List.pairwise_append.mpr
  refine ⟨h1, List.pairwise_cons.mpr ⟨h.depois, h2⟩, ?_⟩
  intro a ha b hb
  rcases List.mem_cons.mp hb with rfl | hb
  · exact h.antes a ha
  · exact h12 a ha b hb

theorem Separa.mem_antes {novo x : Item τ δ} {l l₁ l₂ : List (Item τ δ)} (h : Separa novo l l₁ l₂)
    (hx : x ∈ l) (hlt : x.tempo < novo.tempo) : x ∈ l₁ := by
  rw [h.partes] at hx
  rcases List.mem_append.mp hx with hx | hx
  · exact hx
  · exact absurd (h.depois x hx) (not_le.mpr hlt)

theorem countP_colocada (p : Item τ δ → Bool) (novo : Item τ δ) (l : List (Item τ δ)) :
    (colocada novo l).countP p = l.countP p + if p novo then 1 else 0 := by
  rw [(colocada_perm novo l).countP_eq, List.countP_cons]

theorem filter_colocada {l : List (Item τ δ)} (h : Ordenada l) (p : Item τ δ → Bool)
    (novo : Item τ δ) (hp : p novo = false) : (colocada novo l).filter p = l.filter p := by
  obtain ⟨l₁, l₂, hs⟩ := colocada_separa novo l h
  rw [hs.junta, hs.partes, List.filter_append, List.filter_append,
    List.filter_cons_of_neg (by simp [hp])]

theorem filter_colocada_nil {l : List (Item τ δ)} {p : Item τ δ → Bool} {novo : Item τ δ}
    (hp : p novo = true) (hl : l.filter p = []) : (colocada novo l).filter p = [novo] := by
  have hperm := (colocada_perm novo l).filter p
  rw [List.filter_cons_of_pos hp, hl] at hperm
  exact List.perm_singleton.mp hperm

/-- An item that lands behind the one that `p` picks leaves its front alone. -/
theorem Separa.frente_eq {novo x : Item τ δ} {l l₁ l₂ : List (Item τ δ)} (h : Separa novo l l₁ l₂)
    {p : Item τ δ → Bool} (hx : x ∈ l₁) (hp : p x = true) :
    frente p (colocada novo l) = frente p l := by
  rw [h.junta, h.partes, frente_append hx hp, frente_append hx hp]

/-- An item that lands anywhere adds itself to the front at most. -/
theorem Separa.countP_frente {novo : Item τ δ} {l l₁ l₂ : List (Item τ δ)}
    (h : Separa novo l l₁ l₂) {p : Item τ δ → Bool} (hp : p novo = false) (q : Item τ δ → Bool) :
    (frente p (colocada novo l)).countP q ≤ (frente p l).countP q + if q novo then 1 else 0 := by
  by_cases hx : ∃ x ∈ l₁, p x = true
  · obtain ⟨x, hx, hpx⟩ := hx
    rw [h.frente_eq hx hpx]
    exact Nat.le_add_right _ _
  · have hl : ∀ x ∈ l₁, (!p x) = true := by
      intro x hxl
      by_contra hpx
      exact hx ⟨x, hxl, by simpa using hpx⟩
    unfold frente
    rw [h.junta, h.partes, List.takeWhile_append_of_pos hl, List.takeWhile_append_of_pos hl,
      List.takeWhile_cons_of_pos (by simp [hp])]
    simp only [List.countP_append, List.countP_cons]
    omega

end Colocada

/-! ## The invariant of a queue -/

theorem removeItem_nil {item : Item τ δ} {f : Fila τ δ} (h : f.head = []) :
    removeItem item f = (item, f) := by
  unfold removeItem
  simp [h]

/-- `removeItem` takes the head, and every other item waits as before. -/
theorem removeItem_cons {item aux : Item τ δ} {f : Fila τ δ} {resto : List (Item τ δ)}
    (h : f.head = aux :: resto) :
    removeItem item f = (aux, { f with head := resto, tamanho := f.tamanho - 1 }) := by
  unfold removeItem
  simp [h]

@[simp] theorem removeItem_head (item : Item τ δ) (f : Fila τ δ) :
    (removeItem item f).2.head = f.head.tail := by
  unfold removeItem
  split
  · rename_i hh
    simp [hh]
  · rename_i hh
    simp [hh]

@[simp] theorem removeItem_N (item : Item τ δ) (f : Fila τ δ) : (removeItem item f).2.N = f.N := by
  unfold removeItem
  split
  · rfl
  · rfl

/-- No PID waits twice. -/
def Fila.Distintos (f : Fila τ δ) : Prop := (f.head.map Item.PID).Nodup

theorem Fila.Distintos.remove {f : Fila τ δ} (h : f.Distintos) {aux : Item τ δ}
    {resto : List (Item τ δ)} (hh : f.head = aux :: resto) (n : Int) :
    ({ f with head := resto, tamanho := n } : Fila τ δ).Distintos := by
  unfold Fila.Distintos at h ⊢
  rw [hh, List.map_cons, List.nodup_cons] at h
  exact h.2

section Valida

variable [LinearOrder τ]

/-- The counter counts the items, the bound holds, and the list is ordered. -/
structure Fila.Valida (f : Fila τ δ) : Prop where
  tam : f.tamanho = f.head.length
  cabe : f.tamanho ≤ f.N
  ordem : Ordenada f.head

theorem valida_init (N : Int) (h : 0 ≤ N) : (init N : Fila τ δ).Valida :=
  ⟨rfl, h, List.Pairwise.nil⟩

theorem Fila.Valida.tamanho_zero {f : Fila τ δ} (h : f.Valida) : f.tamanho = 0 ↔ f.head = [] := by
  rw [h.tam]
  simp

/-- `insere` on a valid queue never reads a null head. It links the new item
in when there is room and the test lets it pass, and else changes nothing. -/
theorem insereSe_eq {repetido : Fila τ δ → Item τ δ → Bool} {f : Fila τ δ} (h : f.Valida)
    (novo : Item τ δ) :
    insereSe repetido f novo =
      if f.tamanho < f.N ∧ repetido f novo = false then
        some (1, { f with head := colocada novo f.head, tamanho := f.tamanho + 1 })
      else some (0, f) := by
  unfold insereSe
  by_cases hN : f.tamanho < f.N
  · cases hr : repetido f novo with
    | true => simp [hN]
    | false =>
      by_cases h0 : f.tamanho = 0
      · have hnil := h.tamanho_zero.mp h0
        simp [h0, hnil, colocada, h0 ▸ hN]
      · rcases hh : f.head with _ | ⟨aux, next⟩
        · exact absurd (h.tamanho_zero.mpr hh) h0
        · by_cases hgt : aux.tempo > novo.tempo
          · simp [hN, h0, colocada, hgt]
          · simp [hN, h0, colocada, hgt]
  · simp [hN]

theorem Fila.Valida.colocada {f : Fila τ δ} (h : f.Valida) (novo : Item τ δ)
    (hN : f.tamanho < f.N) :
    ({ f with head := fila.colocada novo f.head, tamanho := f.tamanho + 1 } : Fila τ δ).Valida := by
  obtain ⟨l₁, l₂, hs⟩ := colocada_separa novo f.head h.ordem
  refine ⟨?_, by simp only; omega, hs.ordenada h.ordem⟩
  simp only [(colocada_perm novo f.head).length_eq, List.length_cons, h.tam]
  omega

theorem estaNaFila_iff {f : Fila τ δ} {Cliente : Item τ δ} :
    estaNaFila f Cliente = true ↔ Cliente.PID ∈ f.head.map Item.PID := by
  unfold estaNaFila
  simp

theorem estaNaFila_false {f : Fila τ δ} {Cliente : Item τ δ} :
    estaNaFila f Cliente = false ↔ Cliente.PID ∉ f.head.map Item.PID := by
  rw [← estaNaFila_iff]
  simp

theorem Fila.Distintos.colocada {f : Fila τ δ} (h : f.Distintos) (novo : Item τ δ)
    (hn : estaNaFila f novo = false) (n : Int) :
    ({ f with head := fila.colocada novo f.head, tamanho := n } : Fila τ δ).Distintos := by
  unfold Fila.Distintos
  simp only
  rw [((colocada_perm novo f.head).map Item.PID).nodup_iff, List.map_cons, List.nodup_cons]
  exact ⟨estaNaFila_false.mp hn, h⟩

theorem Fila.Valida.remove {f : Fila τ δ} (h : f.Valida) {aux : Item τ δ}
    {resto : List (Item τ δ)} (hh : f.head = aux :: resto) :
    ({ f with head := resto, tamanho := f.tamanho - 1 } : Fila τ δ).Valida := by
  have htam := h.tam
  have hcabe := h.cabe
  have hord := h.ordem
  rw [hh] at htam hord
  refine ⟨?_, by simp only; omega, (List.pairwise_cons.mp hord).2⟩
  simp only [htam, List.length_cons]
  omega

theorem Fila.Valida.removeItem {f : Fila τ δ} (h : f.Valida) (item : Item τ δ) :
    (fila.removeItem item f).2.Valida := by
  rcases hh : f.head with _ | ⟨aux, resto⟩
  · simpa [fila.removeItem, hh] using h
  · rw [removeItem_cons hh]
    exact h.remove hh

/-- The head of a valid queue has the smallest `tempo` of all that wait. -/
theorem Fila.Valida.head_min {f : Fila τ δ} (h : f.Valida) {aux : Item τ δ}
    {resto : List (Item τ δ)} (hh : f.head = aux :: resto) : ∀ x ∈ f.head, aux.tempo ≤ x.tempo := by
  have hord := h.ordem
  rw [hh] at hord ⊢
  exact hord.cabeca_le

end Valida

end fila
