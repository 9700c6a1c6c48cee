-- The server of LAB07-SD/backup alone, under any calls: `server_cent_1` takes
-- one call at a time, with whatever values the client put into it, and a call
-- of `req_1` that does not find itself at the head spins in its loop.
import ExclusaoMutua.Lab07.Servidor
import ExclusaoMutua.Lib.Machine

open fila machine

namespace lab07

variable {ι : Type}

inductive Turno (ι : Type) where
  /-- `svc_run` takes a call of client `i`. -/
  | chama (i : ι) (c : Chamada)
  /-- One turn of the loop of `req_1_svc`. -/
  | gira

def servico (ι : Type) : Machine (Servidor ι) (Turno ι) (Evento ι) where
  step s a :=
    if s.vivo then
      match a with
      | .chama i c => if s.atual.isNone then some (serverCent1 s i c) else none
      | .gira => s.atual.map fun p => gira s p.1 p.2
    else none

/-! ## What the queue is -/

/-- `fila` is null, or an ordered list of at most ten items with different
PIDs, which `tamanho` counts. -/
def FilaBemFormada (s : Servidor ι) : Prop :=
  s.fila = none ∨ ∃ f, s.fila = some f ∧ Ordenada f.head ∧ (f.head.map Item.PID).Nodup ∧
    f.tamanho = f.head.length ∧ 0 ≤ f.tamanho ∧ f.tamanho ≤ 10

/-- Neither `fila` nor `fila->head` is null. -/
def TemCabeca (s : Servidor ι) : Prop := ∃ f aux resto, s.fila = some f ∧ f.head = aux :: resto

/-- `fila` is null, or it holds no item. -/
def SemItem (s : Servidor ι) : Prop := s.fila = none ∨ ∃ f, s.fila = some f ∧ f.head = []

theorem Servidor.Bom.bemFormada {s : Servidor ι} (h : s.Bom) : FilaBemFormada s := by
  rcases hf : s.fila with _ | f
  · exact Or.inl hf
  · have hsua : s.suaFila = f := by simp [Servidor.suaFila, hf]
    have hv := hsua ▸ h.valida
    have hdez := hsua ▸ h.dez
    have hcabe := hv.cabe
    have htam := hv.tam
    exact Or.inr ⟨f, hf, hv.ordem, hsua ▸ h.distintos, htam, by omega, by omega⟩

/-- Behind `insere`, whatever it gave back, the test of the loop has a head to
read. -/
theorem entraNaFila_temCabeca {s : Servidor ι} (h : s.Bom) (r : RequestIn) :
    ∃ s₁, entraNaFila s r = some s₁ ∧ TemCabeca s₁ := by
  obtain ⟨aux, resto, hh⟩ := comItem_head h.valida h.dez r.item
  exact ⟨_, entraNaFila_eq h r, _, aux, resto, rfl, hh⟩

theorem espera_temCabeca {s : Servidor ι} (h : TemCabeca s) (r : RequestIn) :
    ∃ b, espera s r = some b := by
  obtain ⟨f, aux, resto, hf, hh⟩ := h
  exact ⟨decide (aux.PID ≠ r.pid_c), by simp [espera, hf, hh]⟩

/-- `rel_1_svc` finds nothing to take away. -/
theorem rel1Svc_semItem {s : Servidor ι} (h : SemItem s) (r : Release) :
    (rel1Svc s r).1.fila = s.fila := by
  unfold rel1Svc
  rcases h with hf | ⟨f, hf, hh⟩
  · simp [hf]
  · simp [hf, removeItem, hh]

/-! ## One step -/

/-- What every reachable state has: a good queue, no read through a null
pointer so far, and a head for the call that spins. -/
structure Seguro (s : Servidor ι) : Prop where
  bom : s.Bom
  vivo : s.vivo = true
  cabeca : ∀ p, s.atual = some p → TemCabeca s

theorem inicio_seguro : Seguro (Servidor.inicio : Servidor ι) where
  bom := inicio_bom
  vivo := rfl
  cabeca p hp := by cases hp

theorem atende_seguro {s s' : Servidor ι} {i : ι} {c : Chamada} {t : List (Evento ι)}
    (h : Seguro s) (hl : s.atual = none) (ha : Atende s i c s' t) : Seguro s' := by
  refine ⟨atende_bom h.bom ha, ?_, ?_⟩
  · cases ha with
    | responde | espera | libera => exact h.vivo
  · intro p hp
    cases ha with
    | responde => cases hp
    | espera r aux resto hh => exact ⟨_, aux, resto, rfl, hh⟩
    | libera r =>
      have hnada : s.atual = some p := hp
      rw [hl] at hnada
      cases hnada

/-- A turn of the loop changes nothing, or it ends the call. -/
theorem gira_seguro {s : Servidor ι} (h : Seguro s) {i : ι} {r : RequestIn}
    (hp : s.atual = some (i, r)) : Seguro (gira s i r).1 := by
  obtain ⟨b, hb⟩ := espera_temCabeca (h.cabeca _ hp) r
  unfold gira
  rw [hb]
  cases b with
  | true => exact ⟨⟨h.bom.valida, h.bom.dez, h.bom.distintos⟩, h.vivo, fun _ _ => h.cabeca _ hp⟩
  | false => exact ⟨⟨h.bom.valida, h.bom.dez, h.bom.distintos⟩, h.vivo, fun _ hq => by cases hq⟩

theorem servico_seguro {s s' : Servidor ι} {a : Turno ι} {t : List (Evento ι)} (h : Seguro s)
    (hs : (servico ι).step s a = some (s', t)) : Seguro s' := by
  unfold servico at hs
  simp only [h.vivo, if_true] at hs
  cases a with
  | chama i c =>
    simp only at hs
    split at hs
    · rename_i hl
      have ha := serverCent1_cases h.bom i c
      simp only [Option.some.injEq] at hs
      rw [hs] at ha
      exact atende_seguro h (Option.isNone_iff_eq_none.mp hl) ha
    · cases hs
  | gira =>
    simp only [Option.map_eq_some_iff] at hs
    obtain ⟨⟨i, r⟩, hp, hg⟩ := hs
    have hseg := gira_seguro h hp
    rw [hg] at hseg
    exact hseg

/-! ## Every run -/

/-- For every sequence of calls: `fila` is null or well formed, `req_1_svc`
never reads through a null `fila` or a null head, in the first test of its loop
nor in any later one, and `rel_1_svc` leaves a null or empty queue as it is. -/
theorem the_queue_is_well_formed_and_its_head_is_safe_to_read {as : List (Turno ι)}
    {s : Servidor ι} {t : List (Evento ι)}
    (hr : (servico ι).run Servidor.inicio as = some (s, t)) :
    s.vivo = true ∧ FilaBemFormada s ∧
      (∀ r, ∃ s₁, entraNaFila s r = some s₁ ∧ TemCabeca s₁) ∧
      (∀ i r, s.atual = some (i, r) → TemCabeca s) ∧
      ∀ r, SemItem s → (rel1Svc s r).1.fila = s.fila := by
  have h : Seguro s := by
    apply run_state_invariant inicio_seguro _ hr
    intro u a v e hu hs
    exact servico_seguro hu hs
  refine ⟨h.vivo, h.bom.bemFormada, ?_, ?_, ?_⟩
  · intro r
    exact entraNaFila_temCabeca h.bom r
  · intro i r hp
    exact h.cabeca _ hp
  · intro r hv
    exact rel1Svc_semItem hv r

/-- A call of `rel_1` comes first. Then each of ten calls of `req_1` comes in
front of the queue, and the eleventh finds it full and spins. -/
def devolveEPede : List (Turno Unit) :=
  .chama () (.REL { pid_c := 1, tempo_c := 1, recurso_n := 2 }) ::
    ((List.range 11).map fun k =>
      .chama () (.REQ { pid_c := 100 - Int64.ofNat k, tempo_c := 20 - Int64.ofNat k })) ++ [.gira]

theorem the_eleventh_call_reads_the_head_of_a_full_queue : ∃ s t,
    (servico Unit).run Servidor.inicio devolveEPede = some (s, t) ∧
      s.atual = some ((), { pid_c := 90, tempo_c := 10 }) ∧ s.vivo = true ∧
      FilaBemFormada s ∧ TemCabeca s := by
  obtain ⟨s, t, h, hp⟩ : ∃ s t, (servico Unit).run Servidor.inicio devolveEPede = some (s, t) ∧
      s.atual = some ((), { pid_c := 90, tempo_c := 10 }) := exists_run (by decide)
  obtain ⟨hvivo, hforma, -, hcabeca, -⟩ :=
    the_queue_is_well_formed_and_its_head_is_safe_to_read h
  exact ⟨s, t, h, hp, hvivo, hforma, hcabeca _ _ hp⟩

end lab07
