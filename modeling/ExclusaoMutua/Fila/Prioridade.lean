-- The queue under calls of `insere` and `removeItem`: what each call does to the
-- items that wait, whatever calls came before, and in what order the items come
-- out.
import ExclusaoMutua.Fila
import ExclusaoMutua.Lib.Machine

open machine

namespace fila

variable {τ δ : Type}

/-! ## Calls on a queue -/

/-- A call of `insere`, or one of `removeItem` with the memory that `malloc` gives
to it. -/
inductive Operacao (τ δ : Type) where
  | insere (novo : Item τ δ)
  | removeItem (item : Item τ δ)

/-- What comes of a call: the result of `insere`, or the item that left. -/
inductive Efeito (τ δ : Type) where
  | insere (novo : Item τ δ) (n : Int32)
  | removeItem (item : Option (Item τ δ))

/-- The queue under calls of `insere`, with the test `repetido` of its copy, and
of `removeItem`. -/
def operacoes [LT τ] [DecidableLT τ] (repetido : Fila τ δ → Item τ δ → Bool) :
    Machine (Fila τ δ) (Operacao τ δ) (Efeito τ δ) where
  step f a := match a with
    | .insere novo => (insereSe repetido f novo).map fun r => (r.2, [.insere novo r.1])
    | .removeItem item =>
      let r := removeItem item f
      some (r.2, [.removeItem (if f.head.isEmpty then none else some r.1)])

/-- The items that calls of `removeItem` took out, in order. -/
def saidas (t : List (Efeito τ δ)) : List (Item τ δ) :=
  t.filterMap fun e => match e with
    | .insere .. => none
    | .removeItem item => item

theorem saidas_append (t u : List (Efeito τ δ)) : saidas (t ++ u) = saidas t ++ saidas u :=
  List.filterMap_append

section Contada

variable [LinearOrder τ] {repetido : Fila τ δ → Item τ δ → Bool}

/-- The queue as `init` and the calls leave it, also for a negative `N`. -/
structure Fila.Contada (f : Fila τ δ) : Prop where
  tam : f.tamanho = f.head.length
  cabe : f.tamanho ≤ f.N ∨ f.head = []
  ordem : Ordenada f.head

theorem contada_init (N : Int) : (init N : Fila τ δ).Contada :=
  ⟨rfl, Or.inr rfl, List.Pairwise.nil⟩

/-- A queue with room is valid. -/
theorem Fila.Contada.valida {f : Fila τ δ} (h : f.Contada) (hN : f.tamanho < f.N) : f.Valida :=
  ⟨h.tam, le_of_lt hN, h.ordem⟩

/-- `insere` never reads a null head. It takes the item in when there is room
and the test lets it pass, and else changes nothing. -/
theorem Fila.Contada.insereSe_eq {f : Fila τ δ} (h : f.Contada) (novo : Item τ δ) :
    insereSe repetido f novo =
      if f.tamanho < f.N ∧ repetido f novo = false then
        some (1, { f with head := colocada novo f.head, tamanho := f.tamanho + 1 })
      else some (0, f) := by
  by_cases hN : f.tamanho < f.N
  · exact fila.insereSe_eq (h.valida hN) novo
  · unfold insereSe
    simp [hN]

theorem Fila.Contada.colocada {f : Fila τ δ} (h : f.Contada) (novo : Item τ δ)
    (hN : f.tamanho < f.N) :
    ({ f with
      head := fila.colocada novo f.head, tamanho := f.tamanho + 1 } : Fila τ δ).Contada := by
  have hv := (h.valida hN).colocada novo hN
  exact ⟨hv.tam, Or.inl hv.cabe, hv.ordem⟩

theorem Fila.Contada.removeItem {f : Fila τ δ} (h : f.Contada) (item : Item τ δ) :
    (fila.removeItem item f).2.Contada := by
  rcases hh : f.head with _ | ⟨aux, resto⟩
  · rw [removeItem_nil hh]
    exact h
  · rw [removeItem_cons hh]
    have htam := h.tam
    have hord := h.ordem
    rw [hh] at htam hord
    rw [List.length_cons] at htam
    refine ⟨?_, Or.inl ?_, (List.pairwise_cons.mp hord).2⟩
    · simp only
      omega
    · rcases h.cabe with hcabe | hvazia
      · simp only
        omega
      · rw [hvazia] at hh
        cases hh

/-- What a call on a queue can do. -/
inductive Chama (repetido : Fila τ δ → Item τ δ → Bool) (f : Fila τ δ) :
    Operacao τ δ → Fila τ δ → List (Efeito τ δ) → Prop
  | entra (novo : Item τ δ) (hN : f.tamanho < f.N) (hr : repetido f novo = false) :
      Chama repetido f (.insere novo)
        { f with head := colocada novo f.head, tamanho := f.tamanho + 1 } [.insere novo 1]
  | recusa (novo : Item τ δ) (hn : ¬ (f.tamanho < f.N ∧ repetido f novo = false)) :
      Chama repetido f (.insere novo) f [.insere novo 0]
  | sai (item aux : Item τ δ) (resto : List (Item τ δ)) (hh : f.head = aux :: resto) :
      Chama repetido f (.removeItem item) { f with head := resto, tamanho := f.tamanho - 1 }
        [.removeItem (some aux)]
  | vazia (item : Item τ δ) (hh : f.head = []) :
      Chama repetido f (.removeItem item) f [.removeItem none]

theorem chama_cases {f f' : Fila τ δ} (h : f.Contada) {a : Operacao τ δ} {t : List (Efeito τ δ)}
    (hs : (operacoes repetido).step f a = some (f', t)) : Chama repetido f a f' t := by
  unfold operacoes at hs
  cases a with
  | insere novo =>
    simp only [h.insereSe_eq novo] at hs
    split at hs
    · rename_i hcabe
      simp only [Option.map_some, Option.some.injEq, Prod.mk.injEq] at hs
      obtain ⟨rfl, rfl⟩ := hs
      exact .entra novo hcabe.1 hcabe.2
    · rename_i hcheia
      simp only [Option.map_some, Option.some.injEq, Prod.mk.injEq] at hs
      obtain ⟨rfl, rfl⟩ := hs
      exact .recusa novo hcheia
  | removeItem item =>
    simp only [Option.some.injEq, Prod.mk.injEq] at hs
    obtain ⟨rfl, rfl⟩ := hs
    rcases hh : f.head with _ | ⟨aux, resto⟩
    · rw [removeItem_nil hh]
      exact .vazia item hh
    · rw [removeItem_cons hh]
      exact .sai item aux resto hh

theorem chama_contada {f f' : Fila τ δ} (h : f.Contada) {a : Operacao τ δ}
    {t : List (Efeito τ δ)} (hc : Chama repetido f a f' t) : f'.Contada ∧ f'.N = f.N := by
  cases hc with
  | entra novo hN hr => exact ⟨h.colocada novo hN, rfl⟩
  | recusa | vazia => exact ⟨h, rfl⟩
  | sai item aux resto hh =>
    have hsai := h.removeItem item
    rw [removeItem_cons hh] at hsai
    exact ⟨hsai, rfl⟩

theorem operacoes_contada {N : Int} {as : List (Operacao τ δ)} {f : Fila τ δ}
    {t : List (Efeito τ δ)} (hr : (operacoes repetido).run (init N) as = some (f, t)) :
    f.Contada ∧ f.N = N := by
  apply run_state_invariant _ _ hr
  · exact ⟨contada_init N, rfl⟩
  · rintro u a v e ⟨hu, hN⟩ hs
    obtain ⟨hv, hvN⟩ := chama_contada hu (chama_cases hu hs)
    exact ⟨hv, hvN.trans hN⟩

/-- No call gets stuck. -/
theorem operacoes_total (repetido : Fila τ δ → Item τ δ → Bool) {f : Fila τ δ} (h : f.Contada)
    (as : List (Operacao τ δ)) :
    ∃ f' t, (operacoes repetido).run f as = some (f', t) := by
  induction as generalizing f with
  | nil => exact ⟨f, [], rfl⟩
  | cons a as ih =>
    obtain ⟨f₁, t₁, hs⟩ : ∃ f₁ t₁, (operacoes repetido).step f a = some (f₁, t₁) := by
      cases a with
      | insere novo =>
        unfold operacoes
        simp only [h.insereSe_eq novo]
        split
        · exact ⟨_, _, rfl⟩
        · exact ⟨_, _, rfl⟩
      | removeItem item => exact ⟨_, _, rfl⟩
    obtain ⟨f', t₂, hr⟩ := ih (chama_contada h (chama_cases h hs)).1
    exact ⟨f', t₁ ++ t₂, run_cons.mpr ⟨f₁, t₁, t₂, hs, hr, rfl⟩⟩

/-! ## Filling and emptying -/

/-- The calls of `main` of `fila.c`: each item of the list goes in, and as many
come out. `item` is the memory that `malloc` gives each time. -/
def encheEsvazia (item : Item τ δ) (l : List (Item τ δ)) : List (Operacao τ δ) :=
  l.map .insere ++ List.replicate l.length (.removeItem item)

/-- With room for a whole list every item of it goes in. -/
theorem run_insere {f : Fila τ δ} (h : f.Contada) {l : List (Item τ δ)}
    (hl : f.tamanho + l.length ≤ f.N) :
    ∃ f' t, (operacoes fun _ _ => false).run f (l.map .insere) = some (f', t) ∧ f'.Contada ∧
      f'.head.Perm (l ++ f.head) ∧ saidas t = [] := by
  induction l generalizing f with
  | nil => exact ⟨f, [], rfl, h, List.Perm.refl _, rfl⟩
  | cons novo l ih =>
    rw [List.length_cons] at hl
    have hN : f.tamanho < f.N := by omega
    have hs : (operacoes fun _ _ => false).step f (.insere novo) = some
        ({ f with head := colocada novo f.head, tamanho := f.tamanho + 1 }, [.insere novo 1]) := by
      unfold operacoes
      simp [h.insereSe_eq novo, hN]
    obtain ⟨f', t, hr, hf', hperm, hsai⟩ := ih (h.colocada novo hN) (by simp only; omega)
    refine ⟨f', .insere novo 1 :: t, run_cons.mpr ⟨_, _, t, hs, hr, rfl⟩, hf', ?_, hsai⟩
    have hnovo : (l ++ colocada novo f.head).Perm (l ++ novo :: f.head) :=
      (colocada_perm novo f.head).append_left l
    exact (hperm.trans hnovo).trans List.perm_middle

/-- As many calls of `removeItem` as there are items give them back in the
order of the list. -/
theorem run_removeItem (repetido : Fila τ δ → Item τ δ → Bool) (item : Item τ δ) {f : Fila τ δ}
    {l : List (Item τ δ)} (hl : f.head = l) :
    ∃ f' t, (operacoes repetido).run f (List.replicate l.length (.removeItem item)) =
      some (f', t) ∧ f'.head = [] ∧ saidas t = l := by
  induction l generalizing f with
  | nil => exact ⟨f, [], rfl, hl, rfl⟩
  | cons aux resto ih =>
    have hs : (operacoes repetido).step f (.removeItem item) = some
        ({ f with head := resto, tamanho := f.tamanho - 1 }, [.removeItem (some aux)]) := by
      unfold operacoes
      simp [removeItem_cons hl, hl]
    obtain ⟨f', t, hr, hvazia, hsai⟩ :=
      ih (f := { f with head := resto, tamanho := f.tamanho - 1 }) rfl
    refine ⟨f', .removeItem (some aux) :: t, run_cons.mpr ⟨_, _, t, hs, hr, rfl⟩, hvazia, ?_⟩
    rw [← hsai]
    rfl

/-- A list that fits comes out in the order of its stamps. -/
theorem run_encheEsvazia {N : Int} (item : Item τ δ) {l : List (Item τ δ)}
    (hl : (l.length : Int) ≤ N) :
    ∃ f t, (operacoes fun _ _ => false).run (init N) (encheEsvazia item l) = some (f, t) ∧
      f.head = [] ∧ (saidas t).Perm l ∧ Ordenada (saidas t) := by
  have h0 : (init N : Fila τ δ).Contada := contada_init N
  obtain ⟨f₁, t₁, hr₁, hf₁, hperm, hsai₁⟩ := run_insere h0 (l := l) (by simpa [init] using hl)
  obtain ⟨f₂, t₂, hr₂, hvazia, hsai₂⟩ := run_removeItem (fun _ _ => false) item (f := f₁) rfl
  have hlen : f₁.head.length = l.length := by
    rw [hperm.length_eq]
    unfold init
    simp
  rw [hlen] at hr₂
  refine ⟨f₂, t₁ ++ t₂, run_append.mpr ⟨f₁, t₁, t₂, hr₁, hr₂, rfl⟩, hvazia, ?_, ?_⟩
  · rw [saidas_append, hsai₁, hsai₂, List.nil_append]
    simpa [init] using hperm
  · rw [saidas_append, hsai₁, hsai₂, List.nil_append]
    exact hf₁.ordem

/-- Items with different stamps stand in one order only. -/
theorem ordenada_unica {l l' : List (Item τ δ)} (hperm : l.Perm l')
    (hdist : (l.map Item.tempo).Nodup) (h : Ordenada l) (h' : Ordenada l') : l = l' := by
  apply List.Perm.eq_of_pairwise _ h h' hperm
  intro a b ha hb hab hba
  exact List.inj_on_of_nodup_map hdist ha (hperm.mem_iff.mpr hb) (le_antisymm hab hba)

end Contada

end fila
