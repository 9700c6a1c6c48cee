-- Releases in LAB07-SD/backup. `rel_1_svc` takes the head of the queue away and
-- does not look at `pid_c`: it hits the entry of its caller exactly when the
-- clients give the token back in the reverse order of their replies.
import ExclusaoMutua.Lab07.Exclusao

open fila in_flight machine

namespace lab07

variable {ι : Type}

/-! ## The law of a release -/

/-- `l'` is `l` without one entry, which carries the PID `p`. -/
def SemSoEste (p : Int64) (l l' : List (Item Int64 Unit)) : Prop :=
  ∃ l₁ aux l₂, l = l₁ ++ aux :: l₂ ∧ aux.PID = p ∧ l' = l₁ ++ l₂

/-- A call of `rel_1` that the step takes removes the entry of its caller from
the queue and leaves all others as they are. -/
def TiraQuemDevolve (pid : ι → Int32) (s : Sistema ι) (a : Acao ι) : Prop :=
  ∀ i r, s.atendida a = some (i, .REL r) →
    SemSoEste (pid i).toInt64 s.servidor.suaFila.head (rel1Svc s.servidor r).1.suaFila.head

/-- Among entries with different PIDs the head alone can go by `tail`. -/
theorem semSoEste_tail {p : Int64} {l : List (Item Int64 Unit)} (h : (l.map Item.PID).Nodup) :
    SemSoEste p l l.tail ↔ (l.map Item.PID).head? = some p := by
  constructor
  · rintro ⟨l₁, aux, l₂, rfl, rfl, htail⟩
    cases l₁ with
    | nil => rfl
    | cons b l₁ =>
      -- the head would stand twice in the list
      rw [List.cons_append, List.map_cons, List.nodup_cons] at h
      have hmem : b ∈ l₁ ++ aux :: l₂ := by
        rw [List.cons_append, List.tail_cons] at htail
        rw [htail]
        exact List.mem_cons_self
      exact absurd (List.mem_map_of_mem hmem) h.1
  · intro hp
    cases l with
    | nil => cases hp
    | cons aux l₂ => exact ⟨[], aux, l₂, rfl, by simpa using hp, rfl⟩

variable [DecidableEq ι]

/-! ## The clients with the token, by their replies -/

/-- The clients with a reply to `req_1` and no call of `rel_1` handled since,
the last reply first. -/
def donos (t : List (Evento ι)) : List ι :=
  t.foldl (fun l e => match e with
    | .req i _ _ => i :: l.erase i
    | .rel i _ _ => l.erase i) []

theorem donos_req (t : List (Evento ι)) (i : ι) (r : RequestIn) (rep : ReplyOut) :
    donos (t ++ [.req i r rep]) = i :: (donos t).erase i := by
  unfold donos
  simp

theorem donos_rel (t : List (Evento ι)) (i : ι) (r : Release) (n : Int32) :
    donos (t ++ [.rel i r n]) = (donos t).erase i := by
  unfold donos
  simp

/-- A call of `rel_1` that the step takes comes from the client with the last
reply. -/
def UltimoDevolve (s : Sistema ι) (t : List (Evento ι)) (a : Acao ι) : Prop :=
  ∀ i r, s.atendida a = some (i, .REL r) → (donos t).head? = some i

/-- While no call waits in `req_1_svc`, the queue holds the clients with the
token and nobody else, in the order of their replies. -/
def FilaDosDonos (pid : ι → Int32) (s : Sistema ι) (t : List (Evento ι)) : Prop :=
  s.servidor.atual = none →
    s.servidor.suaFila.head.map Item.PID = (donos t).map fun i => (pid i).toInt64

theorem inicio_filaDosDonos (pid : ι → Int32) : FilaDosDonos pid (Sistema.inicio pid) [] :=
  fun _ => rfl

/-- `insere` with the caller at the head behind it: the caller came in front of
the queue, or it stood there. -/
theorem comItem_cabeca {f : Fila Int64 Unit} {novo aux : Item Int64 Unit}
    {resto : List (Item Int64 Unit)} (hh : (comItem f novo).head = aux :: resto)
    (hp : aux.PID = novo.PID) :
    (comItem f novo).head = novo :: f.head ∧ novo.PID ∉ f.head.map Item.PID ∨
      (comItem f novo).head = f.head ∧ (f.head.map Item.PID).head? = some novo.PID := by
  unfold comItem at hh ⊢
  by_cases hcabe : f.tamanho < f.N ∧ estaNaFila f novo = false
  · rw [if_pos hcabe] at hh ⊢
    have hfora := estaNaFila_false.mp hcabe.2
    refine Or.inl ⟨?_, hfora⟩
    rcases hl : f.head with _ | ⟨cab, next⟩
    · rfl
    · by_cases hgt : cab.tempo > novo.tempo
      · unfold colocada
        simp [hgt]
      · -- the old head keeps its place, and it carries another PID
        have hcab := colocada_head novo cab next
        rw [if_neg hgt, ← hl] at hcab
        simp only at hh
        rw [hh, List.head?_cons, Option.some.injEq] at hcab
        subst hcab
        exact absurd (hp ▸ List.mem_map_of_mem (hl ▸ List.mem_cons_self)) hfora
  · rw [if_neg hcabe] at hh ⊢
    exact Or.inr ⟨rfl, by simp [hh, hp]⟩

/-- A step in which the client with the last reply gives the token back keeps
the clients with the token in the queue. -/
theorem passo_filaDosDonos {pid : ι → Int32} (hpid : Function.Injective pid) {s s' : Sistema ι}
    {a : Acao ι} {t e : List (Evento ι)} (h : Ordeiro pid s) (hf : FilaDosDonos pid s t)
    (ha : UltimoDevolve s t a) (hp : Passo s a s' e) : FilaDosDonos pid s' (t ++ e) := by
  intro hlivre
  cases hp with
  | atende k i c hk hl srv e hat =>
    have hfila := hf hl
    cases hat with
    | responde r aux resto hh hcab =>
      have hpidr : r.pid_c = (pid i).toInt64 := (h.chamadas _ (List.mem_of_getElem? hk)).1
      have hitem : r.item.PID = (pid i).toInt64 := by simp [RequestIn.item, hpidr]
      rw [donos_req, List.map_cons]
      have hnovo := comItem_cabeca hh (by rw [hcab, hitem, hpidr])
      unfold Servidor.suaFila at hnovo hfila ⊢
      simp only [Option.getD_some] at hnovo hfila ⊢
      rw [hitem, hfila] at hnovo
      rcases hnovo with ⟨hnovo, hfora⟩ | ⟨hnovo, hcabeca⟩
      · have hnao : i ∉ donos t := fun hi => hfora (List.mem_map_of_mem hi)
        rw [hnovo, List.map_cons, hitem, hfila, List.erase_of_not_mem hnao, List.map_cons]
      · rw [hnovo, hfila]
        rcases hd : donos t with _ | ⟨j, ds⟩
        · simp [hd] at hcabeca
        · rw [hd, List.map_cons, List.head?_cons, Option.some.injEq] at hcabeca
          obtain rfl := toInt64_injective hpid hcabeca
          simp
    | espera r aux resto hh hcab => cases hlivre
    | libera r =>
      have hultimo := ha i r hk
      obtain ⟨ds, hd⟩ := List.head?_eq_some_iff.mp hultimo
      rw [donos_rel, hd, List.erase_cons_head]
      rw [hd, List.map_cons] at hfila
      simp only
      rw [rel1Svc_suaFila, removeItem_head, List.map_tail, hfila, List.tail_cons]
  | pede | devolve | gira | chega | desiste =>
    rw [List.append_nil]
    exact hf hlivre

/-- In every run, each call of `rel_1` removes the entry of its caller exactly
when each comes from the client that the server replied to last, of those that
still have the token. -/
theorem releases_remove_the_releaser_iff_the_last_reply_goes_first {pid : ι → Int32}
    (hpid : Function.Injective pid) {as : List (Acao ι)} {s : Sistema ι} {t : List (Evento ι)}
    (hr : (sistema ι).run (Sistema.inicio pid) as = some (s, t)) :
    (sistema ι).Along (fun u _ a => TiraQuemDevolve pid u a) (Sistema.inicio pid) as ↔
      (sistema ι).Along UltimoDevolve (Sistema.inicio pid) as := by
  apply along_iff (I := fun u t => Ordeiro pid u ∧ FilaDosDonos pid u t) _ _ _ hr
  · exact ⟨inicio_ordeiro pid, inicio_filaDosDonos pid⟩
  · rintro u t a v e ⟨hu, hf⟩ ha hs
    have hp := passo_cases hu.toHonesto hs
    exact ⟨passo_ordeiro hu hp, passo_filaDosDonos hpid hu hf ha hp⟩
  · rintro u t a v e ⟨hu, hf⟩ hs
    have hp := passo_cases hu.toHonesto hs
    unfold TiraQuemDevolve UltimoDevolve
    apply forall_congr'
    intro i
    apply forall_congr'
    intro r
    apply imp_congr_right
    intro hk
    cases hp with
    | atende k j c hk' hl =>
      rw [rel1Svc_suaFila, removeItem_head, semSoEste_tail hu.bom.distintos, hf hl, List.head?_map,
        Option.map_eq_some_iff]
      constructor
      · rintro ⟨j, hj, hij⟩
        rwa [toInt64_injective hpid hij] at hj
      · intro hi
        exact ⟨i, hi, rfl⟩
    | pede | devolve | gira | chega | desiste => cases hk

/-- Client `i` uses the token and gives it back. -/
def umaRodada (i : ι) : List (Acao ι) := [.pede i, .atende 0, .chega 0, .devolve i, .atende 0]

/-- Client `i` has the token with stamp 4, and the newcomer `j` gets it in front of
it and gives it back first. -/
def oNovoDevolveAntes (i j : ι) : List (Acao ι) :=
  umaRodada i ++ [.chega 0, .pede i, .atende 0, .chega 0, .pede j, .atende 0, .chega 0,
    .devolve j, .atende 0, .chega 0, .devolve i, .atende 0]

/-- Each of the three calls of `rel_1` removes the entry of its caller, the one of
the newcomer from in front of that of the other holder. -/
theorem releases_in_turn_remove_the_releasers :
    (∃ s t, (sistema (Fin 2)).run (Sistema.inicio doisPids) ((oNovoDevolveAntes 0 1).take 13) =
      some (s, t) ∧ s.servidor.suaFila.head.map Item.PID = [101, 100]) ∧
    (sistema (Fin 2)).Along (fun u _ a => TiraQuemDevolve doisPids u a) (Sistema.inicio doisPids)
      (oNovoDevolveAntes 0 1) := by
  refine ⟨exists_run (by decide), ?_⟩
  obtain ⟨s, t, h, -⟩ : ∃ s t, (sistema (Fin 2)).run (Sistema.inicio doisPids)
      (oNovoDevolveAntes 0 1) = some (s, t) ∧ True := exists_run (by decide)
  have hultimo : (sistema (Fin 2)).Along (fun u t a => ∀ x ∈ u.atendida a,
      x.2 = .REQ { pid_c := 100, tempo_c := 1 } ∨ x.2 = .REQ { pid_c := 100, tempo_c := 4 } ∨
        x.2 = .REQ { pid_c := 101, tempo_c := 1 } ∨ (donos t).head? = some x.1)
      (Sistema.inicio doisPids) (oNovoDevolveAntes 0 1) := along_of_check (by decide)
  apply (releases_remove_the_releaser_iff_the_last_reply_goes_first doisPids_injective h).mpr
  refine along_mono hultimo fun u t a ha i r hk => ?_
  rcases ha _ hk with hreq | hreq | hreq | hultimo
  · cases hreq
  · cases hreq
  · cases hreq
  · exact hultimo

/-- Client 0 has the token with stamp 4 when the newcomer 1 gets it with stamp
1. The call of `rel_1` of client 0 then removes the entry of client 1. -/
theorem a_release_removes_the_entry_of_another_client : Function.Injective doisPids ∧ ∃ s t,
    (sistema (Fin 2)).run (Sistema.inicio doisPids)
        (umaRodada 0 ++ [.chega 0, .pede 0, .atende 0, .chega 0, .pede 1, .atende 0, .chega 0,
          .devolve 0]) = some (s, t) ∧
      s.servidor.atual = none ∧ (s.clientes 0).fase = .esperaResult ∧
      s.atendida (.atende 0) = some (0, .REL { pid_c := 100, tempo_c := 7, recurso_n := 4 }) ∧
      s.servidor.suaFila.head.map Item.PID = [101, 100] ∧
      ¬ TiraQuemDevolve doisPids s (.atende 0) := by
  obtain ⟨s, t, h, hlivre, hfase, hk, hfila⟩ : ∃ s t,
      (sistema (Fin 2)).run (Sistema.inicio doisPids)
        (umaRodada 0 ++ [.chega 0, .pede 0, .atende 0, .chega 0, .pede 1, .atende 0, .chega 0,
          .devolve 0]) = some (s, t) ∧
      s.servidor.atual = none ∧ (s.clientes 0).fase = .esperaResult ∧
      s.atendida (.atende 0) = some (0, .REL { pid_c := 100, tempo_c := 7, recurso_n := 4 }) ∧
      s.servidor.suaFila.head.map Item.PID = [101, 100] := exists_run (by decide)
  refine ⟨doisPids_injective, s, t, h, hlivre, hfase, hk, hfila, ?_⟩
  intro htira
  have hcabeca := htira 0 _ hk
  rw [rel1Svc_suaFila, removeItem_head, semSoEste_tail (by rw [hfila]; decide), hfila] at hcabeca
  exact absurd hcabeca (by decide)

end lab07
