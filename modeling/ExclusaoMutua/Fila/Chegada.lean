-- Equal stamps. The walk of `insere` stops before the first item that is not
-- smaller, so a new item comes in front of all items with its stamp but the
-- head of the queue: of three equal stamps the third overtakes the second.
import ExclusaoMutua.Fila.Prioridade

open machine

namespace fila

variable {τ δ : Type}

/-- The items that calls of `insere` took in, in order. -/
def entradas (t : List (Efeito τ δ)) : List (Item τ δ) :=
  t.filterMap fun e => match e with
    | .insere novo n => if n = 1 then some novo else none
    | .removeItem _ => none

theorem entradas_append (t u : List (Efeito τ δ)) : entradas (t ++ u) = entradas t ++ entradas u :=
  List.filterMap_append

section Chegada

variable [LinearOrder τ] {repetido : Fila τ δ → Item τ δ → Bool}

/-! ## Stable insertion -/

/-- The items with stamp `k`, in their order. -/
def classe (k : τ) (l : List (Item τ δ)) : List (Item τ δ) := l.filter fun x => x.tempo = k

theorem classe_append (k : τ) (l m : List (Item τ δ)) :
    classe k (l ++ m) = classe k l ++ classe k m := by
  unfold classe
  exact List.filter_append l m

/-- The list with `novo` behind every item whose stamp is not larger. -/
def estavel (novo : Item τ δ) (l : List (Item τ δ)) : List (Item τ δ) :=
  l.orderedInsert (fun a b => a.tempo < b.tempo) novo

/-- Stable insertion puts the new item behind the others with its stamp. -/
theorem classe_estavel {l : List (Item τ δ)} (h : Ordenada l) (novo : Item τ δ) (k : τ) :
    classe k (estavel novo l) = classe k l ++ classe k [novo] := by
  unfold estavel
  induction l with
  | nil => rfl
  | cons b l ih =>
    obtain ⟨hb, hl⟩ := List.pairwise_cons.mp h
    rw [List.orderedInsert_cons]
    by_cases hlt : novo.tempo < b.tempo
    · rw [if_pos hlt]
      by_cases hk : novo.tempo = k
      · -- no other item has this stamp
        have hnada : classe k (b :: l) = [] := by
          apply List.filter_eq_nil_iff.mpr
          intro x hx
          have hle : b.tempo ≤ x.tempo := by
            rcases List.mem_cons.mp hx with rfl | hx
            · exact le_refl _
            · exact hb x hx
          simp only [decide_eq_true_eq]
          rw [← hk]
          exact ne_of_gt (lt_of_lt_of_le hlt hle)
        rw [hnada, ← List.singleton_append, classe_append, hnada, List.append_nil, List.nil_append]
      · unfold classe
        simp [hk]
    · rw [if_neg hlt, ← List.singleton_append, classe_append, ih hl, ← List.append_assoc,
        ← classe_append, List.singleton_append]

/-- The walk of `insere` is an insertion too, before equal stamps. -/
theorem insereDepois_eq (novo aux : Item τ δ) (l : List (Item τ δ)) :
    insereDepois novo aux l = aux :: l.orderedInsert (fun a b => a.tempo ≤ b.tempo) novo := by
  induction l generalizing aux with
  | nil => rfl
  | cons prox resto ih =>
    rw [insereDepois, List.orderedInsert_cons]
    by_cases hlt : prox.tempo < novo.tempo
    · rw [if_pos hlt, if_neg (not_le.mpr hlt), ih]
    · rw [if_neg hlt, if_pos (not_lt.mp hlt)]

/-- Insertion before equal stamps is insertion behind them when there is none
to pass but copies of the new item. -/
theorem orderedInsert_empate {l : List (Item τ δ)} (h : Ordenada l) (novo : Item τ δ) :
    l.orderedInsert (fun a b => a.tempo ≤ b.tempo) novo = estavel novo l ↔
      ∀ x ∈ l, x.tempo = novo.tempo → x = novo := by
  unfold estavel
  induction l with
  | nil => simp
  | cons b l ih =>
    obtain ⟨hb, hl⟩ := List.pairwise_cons.mp h
    rw [List.orderedInsert_cons, List.orderedInsert_cons, List.forall_mem_cons]
    rcases lt_trichotomy novo.tempo b.tempo with hlt | heq | hgt
    · rw [if_pos (le_of_lt hlt), if_pos hlt]
      refine iff_of_true rfl ⟨fun heq => absurd heq (ne_of_gt hlt), fun x hx heq => ?_⟩
      exact absurd heq (ne_of_gt (lt_of_lt_of_le hlt (hb x hx)))
    · rw [if_pos (le_of_eq heq), if_neg (not_lt.mpr (le_of_eq heq.symm)), List.cons.injEq]
      -- the new item comes in front of `b`, and of the rest as well
      have hfrente : l.orderedInsert (fun a b => a.tempo ≤ b.tempo) novo = novo :: l := by
        cases l with
        | nil => rfl
        | cons c l => exact List.orderedInsert_cons_of_le _ l (heq ▸ hb c List.mem_cons_self)
      rw [← ih hl, hfrente]
      constructor
      · rintro ⟨rfl, hresto⟩
        exact ⟨fun _ => rfl, hresto⟩
      · rintro ⟨hnovo, hresto⟩
        obtain rfl := hnovo heq.symm
        exact ⟨rfl, hresto⟩
    · rw [if_neg (not_le.mpr hgt), if_neg (not_lt.mpr (le_of_lt hgt)), List.cons.injEq,
        and_iff_right rfl, ih hl]
      exact (and_iff_right fun heq => absurd heq (ne_of_lt hgt)).symm

/-- No item behind the head has the stamp of `novo`, but copies of it. -/
def SemEmpate (novo : Item τ δ) (l : List (Item τ δ)) : Prop :=
  ∀ x ∈ l.tail, x.tempo = novo.tempo → x = novo

/-- `insere` is the stable insertion exactly when it meets no equal stamp behind
the head. -/
theorem colocada_estavel {l : List (Item τ δ)} (h : Ordenada l) (novo : Item τ δ) :
    colocada novo l = estavel novo l ↔ SemEmpate novo l := by
  unfold SemEmpate
  cases l with
  | nil => simp [colocada, estavel]
  | cons aux next =>
    obtain ⟨haux, hnext⟩ := List.pairwise_cons.mp h
    rw [colocada, List.tail_cons]
    by_cases hgt : aux.tempo > novo.tempo
    · rw [if_pos hgt]
      refine iff_of_true (List.orderedInsert_cons_of_le _ next hgt).symm fun x hx heq => ?_
      exact absurd heq (ne_of_gt (lt_of_lt_of_le hgt (haux x hx)))
    · have hest : estavel novo (aux :: next) = aux :: estavel novo next :=
        List.orderedInsert_of_not_le _ next hgt
      rw [if_neg hgt, insereDepois_eq, hest, List.cons.injEq, and_iff_right rfl,
        orderedInsert_empate hnext]

/-! ## Every run -/

/-- An item that the call takes in goes into the list by stable insertion. -/
def InsereEstavel (repetido : Fila τ δ → Item τ δ → Bool) (f : Fila τ δ) (a : Operacao τ δ) :
    Prop :=
  ∀ novo f', a = .insere novo → insereSe repetido f novo = some (1, f') →
    f'.head = estavel novo f.head

/-- An item that the call takes in meets no equal stamp behind the head. -/
def InsereSemEmpate (repetido : Fila τ δ → Item τ δ → Bool) (f : Fila τ δ) (a : Operacao τ δ) :
    Prop :=
  ∀ novo, a = .insere novo → f.tamanho < f.N → repetido f novo = false → SemEmpate novo f.head

/-- Equal stamps leave, and wait, in the order in which they came in. -/
def EmOrdem (f : Fila τ δ) (t : List (Efeito τ δ)) : Prop :=
  ∀ k, classe k (saidas t ++ f.head) = classe k (entradas t)

theorem insereEstavel_iff {f : Fila τ δ} (h : f.Contada) (a : Operacao τ δ) :
    InsereEstavel repetido f a ↔ InsereSemEmpate repetido f a := by
  unfold InsereEstavel InsereSemEmpate
  constructor
  · rintro hest novo rfl hN hr
    apply (colocada_estavel h.ordem novo).mp
    refine hest novo { f with head := colocada novo f.head, tamanho := f.tamanho + 1 } rfl ?_
    rw [h.insereSe_eq, if_pos ⟨hN, hr⟩]
  · rintro hsem novo f' rfl hins
    rw [h.insereSe_eq] at hins
    split at hins
    · rename_i hcabe
      simp only [Option.some.injEq, Prod.mk.injEq, true_and] at hins
      subst hins
      exact (colocada_estavel h.ordem novo).mpr (hsem novo rfl hcabe.1 hcabe.2)
    · simp at hins

theorem chama_emOrdem {f f' : Fila τ δ} {a : Operacao τ δ} {t e : List (Efeito τ δ)}
    (h : f.Contada) (ho : EmOrdem f t) (ha : InsereSemEmpate repetido f a)
    (hc : Chama repetido f a f' e) : EmOrdem f' (t ++ e) := by
  intro k
  rw [saidas_append, entradas_append]
  cases hc with
  | entra novo hN hr =>
    have hest := (colocada_estavel h.ordem novo).mpr (ha novo rfl hN hr)
    have hentra : entradas [(.insere novo 1 : Efeito τ δ)] = [novo] := rfl
    have hsai : saidas [(.insere novo 1 : Efeito τ δ)] = [] := rfl
    rw [hentra, hsai, List.append_nil, classe_append, hest, classe_estavel h.ordem,
      ← List.append_assoc, ← classe_append, ho k, classe_append]
  | recusa novo hn =>
    have hentra : entradas [(.insere novo 0 : Efeito τ δ)] = [] := rfl
    have hsai : saidas [(.insere novo 0 : Efeito τ δ)] = [] := rfl
    rw [hentra, hsai, List.append_nil, List.append_nil, ho k]
  | sai item aux resto hh =>
    have hsai : saidas [(.removeItem (some aux) : Efeito τ δ)] = [aux] := rfl
    have hentra : entradas [(.removeItem (some aux) : Efeito τ δ)] = [] := rfl
    rw [hentra, hsai, List.append_nil, List.append_assoc, List.singleton_append, ← hh, ho k]
  | vazia item hh =>
    have hsai : saidas [(.removeItem none : Efeito τ δ)] = [] := rfl
    have hentra : entradas [(.removeItem none : Efeito τ δ)] = [] := rfl
    rw [hentra, hsai, List.append_nil, List.append_nil, ho k]

/-- First come, first served among equal stamps, for the three copies of the
queue, which are `insereSe` with the test `estaNaFila` or with none (that of
`fila.c` as far as its `removeItem` stays in its block). Each insertion is the
stable one exactly when it meets no equal stamp behind the head; and when all are,
equal stamps leave in the order in which they came. -/
theorem equal_stamps_leave_as_they_came_when_none_meets_another_behind_the_head {N : Int}
    {as : List (Operacao τ δ)} {f : Fila τ δ} {t : List (Efeito τ δ)}
    (hr : (operacoes repetido).run (init N) as = some (f, t)) :
    ((operacoes repetido).Along (fun u _ a => InsereEstavel repetido u a) (init N) as ↔
        (operacoes repetido).Along (fun u _ a => InsereSemEmpate repetido u a) (init N) as) ∧
      ((operacoes repetido).Along (fun u _ a => InsereSemEmpate repetido u a) (init N) as →
        ∀ k, classe k (saidas t) <+: classe k (entradas t)) := by
  refine ⟨?_, ?_⟩
  · apply along_iff (I := fun u _ => u.Contada) _ _ _ hr
    · exact contada_init N
    · intro u t a v e hu _ hs
      exact (chama_contada hu (chama_cases hu hs)).1
    · intro u t a v e hu _
      exact insereEstavel_iff hu a
  · intro hsem k
    have hinv : f.Contada ∧ EmOrdem f t := by
      apply run_invariant_along _ _ hsem hr
      · exact ⟨contada_init N, fun _ => rfl⟩
      · rintro u t a v e ⟨hu, ho⟩ ha hs
        have hc := chama_cases hu hs
        exact ⟨(chama_contada hu hc).1, chama_emOrdem hu ho ha hc⟩
    rw [← hinv.2 k, classe_append]
    exact List.prefix_append _ _

end Chegada

/-- Items with one stamp, from the PIDs given. -/
def empatados (pids : List Int32) : List (Item Int32 Unit) :=
  pids.map fun PID => { PID, tempo := 1, dados := () }

/-- What `malloc` gives to `removeItem`. -/
def lixo : Item Int32 Unit := { PID := 0, tempo := 0, dados := () }

theorem two_equal_stamps_leave_as_they_came : ∃ f t,
    (operacoes estaNaFila).run (init 10) (encheEsvazia lixo (empatados [7, 8])) = some (f, t) ∧
      classe 1 (saidas t) <+: classe 1 (entradas t) := by
  obtain ⟨f, t, h, -⟩ : ∃ f t, (operacoes estaNaFila).run (init 10)
      (encheEsvazia lixo (empatados [7, 8])) = some (f, t) ∧ True := exists_run (by decide)
  have hso : (operacoes estaNaFila).Along (fun u _ a => (match a with
      | .insere _ => u.head.tail.isEmpty
      | .removeItem _ => true) = true) (init 10) (encheEsvazia lixo (empatados [7, 8])) :=
    along_of_check (by decide)
  refine ⟨f, t, h, ?_⟩
  apply (equal_stamps_leave_as_they_came_when_none_meets_another_behind_the_head h).2
  refine along_mono hso fun u _ a ha novo hnovo _ _ => ?_
  subst hnovo
  intro x hx
  rw [List.isEmpty_iff.mp ha] at hx
  cases hx

/-- Of three equal stamps the third leaves before the second, with the test for
a PID that waits and without. -/
theorem the_third_of_three_equal_stamps_overtakes :
    (∃ f t, (operacoes estaNaFila).run (init 10) (encheEsvazia lixo (empatados [1, 2, 3])) =
        some (f, t) ∧ entradas t = empatados [1, 2, 3] ∧ saidas t = empatados [1, 3, 2]) ∧
      ∃ f t, (operacoes fun _ _ => false).run (init 10) (encheEsvazia lixo (empatados [1, 2, 3])) =
        some (f, t) ∧ entradas t = empatados [1, 2, 3] ∧ saidas t = empatados [1, 3, 2] :=
  ⟨exists_run (by decide), exists_run (by decide)⟩

end fila
