-- How the token of LAB2-NETKIT gets lost. It is a datagram like any other, so
-- a network that loses it, or a `sendto` that fails, takes it out of the
-- system. Nothing makes a new one: the clients that wait then wait for ever.
import ExclusaoMutua.Lab2.Progresso

open fila in_flight machine

namespace lab2

variable {ι : Type}

/-- The `sendto` of a REPLY_ALLOW fails in a turn that answers with one. -/
def perdeAllow (s : Servidor ι) (nsRep : Int32) (req : Request) : Bool :=
  nsRep < 0 ∧ (req.cod = REQUEST_TOKEN ∧ s.Token.flag = -1 ∨
    req.cod = RELEASE_TOKEN ∧ s.fila.head ≠ [])

/-- The step loses the token: the network loses it on its way, the server ends
before it comes to read it, or the `sendto` fails that should send it. -/
def perdeFicha (s : Sistema ι) : Acao ι → Bool
  | .devolve _ ns => ns < 0
  | .serve k amb => s.paraServidor[k]?.any fun x =>
    if amb.nsAck < 0 then ehRelease x else perdeAllow s.servidor amb.nsRep x.2.conteudo
  | .perdeServidor k => s.paraServidor[k]?.any ehRelease
  | .perdeCliente k => s.paraClientes[k]?.any ehAllow
  | _ => false

/-! ## One step -/

/-- The tokens in a client: one in its critical section. -/
def Fase.ficha (f : Fase) : Nat := if f = .regiao then 1 else 0

@[simp] theorem ficha_pede : Fase.pede.ficha = 0 := rfl

@[simp] theorem ficha_espera : Fase.espera.ficha = 0 := rfl

@[simp] theorem ficha_regiao : Fase.regiao.ficha = 1 := rfl

@[simp] theorem ficha_fim : Fase.fim.ficha = 0 := rfl

theorem fichas_eq [Fintype ι] (s : Sistema ι) :
    s.fichas = (if s.servidor.Token.flag = -1 then 1 else 0) + s.paraClientes.countP ehAllow +
      (∑ i, (s.clientes i).fase.ficha) + s.paraServidor.countP ehRelease := by
  unfold Sistema.fichas
  rw [Finset.card_filter]
  rfl

/-- What the turn of the server behind its ACK does to the token, with a
RELEASE_TOKEN only when the token is on its way back. -/
theorem trata_fichas {pid : ι → Int32} (hpid : ∀ i, (pid i).toInt8 ≠ -1) {s s' : Servidor ι}
    {e : Entrada ι} {t : List (Evento ι)} (ht : Trata s e s' t)
    (hreq : s.req.PID = pid e.origem.caddr)
    (hfila : ∀ w ∈ s.fila.head, w.PID = pid w.dados.caddr)
    (hvolta : s.req.cod = RELEASE_TOKEN → s.Token.flag ≠ -1) :
    (if s'.Token.flag = -1 then 1 else 0) + concedidas t + (perdeAllow s e.nsRep s.req).toNat =
      (if s.Token.flag = -1 then 1 else 0) + if s.req.cod = RELEASE_TOKEN then 1 else 0 := by
  unfold perdeAllow
  have hne : REQUEST_TOKEN ≠ RELEASE_TOKEN := by decide
  cases ht with
  | concede hc hf hn =>
    have hflag : s.req.PID.toInt8 ≠ -1 := by rw [hreq]; exact hpid _
    simp [preencheRep, hf, hflag, hc, hne, not_lt.mpr hn, concedidas, Evento.concede]
  | concedeFalha hc hf hn =>
    have hflag : s.req.PID.toInt8 ≠ -1 := by rw [hreq]; exact hpid _
    simp [preencheRep, hf, hflag, hc, hne, hn]
  | enfileira hc hf | recusa hc hf => simp [hf, hc, hne]
  | libera hc hv => simp [hc, hne.symm, hv, hvolta hc]
  | passa hc aux resto hh hn s' hs =>
    have hflag : aux.PID.toInt8 ≠ -1 := by
      rw [hfila aux (hh ▸ List.mem_cons_self)]
      exact hpid _
    subst hs
    simp [preencheRep, hflag, hc, hne.symm, not_lt.mpr hn, hvolta hc, concedidas, Evento.concede]
  | passaFalha hc aux resto hh hn s' hs =>
    have hflag : aux.PID.toInt8 ≠ -1 := by
      rw [hfila aux (hh ▸ List.mem_cons_self)]
      exact hpid _
    subst hs
    simp [preencheRep, hflag, hc, hne.symm, hn, hvolta hc, hh]
  | ignora h1 h2 => simp [h1, h2]

variable [DecidableEq ι] [Fintype ι]

theorem toNat_decide (P : Prop) [Decidable P] : (decide P).toNat = if P then 1 else 0 := by
  by_cases h : P
  · simp [h]
  · simp [h]

/-- A token leaves the system in the steps of `perdeFicha`, and in no other. -/
theorem passo_fichas {pid : ι → Int32} (hpid : ∀ i, (pid i).toInt8 ≠ -1) {s s' : Sistema ι}
    {l : Lugar ι} {a : Acao ι} {e : List (Evento ι)} (h : Honesto pid s) (hf : Ficha s l)
    (hp : Passo s a s' e) : s'.fichas + (perdeFicha s a).toNat = s.fichas := by
  have hsoma := fun i c => sum_update (fun c : Cliente => c.fase.ficha) s.clientes i c
  rw [fichas_eq, fichas_eq]
  unfold perdeFicha
  cases hp with
  | pede i ns hfase hn c hc =>
    have hi := hsoma i { c with fase := .espera }
    have hreq : ehRelease (i, { conteudo := c.req, nbytes := sizeofRequest }) = false := by
      rw [hc]
      rfl
    rw [hfase, ficha_pede, ficha_espera] at hi
    simp only [List.countP_append, List.countP_singleton, hreq, Bool.toNat_false,
      Bool.false_eq_true, if_false]
    omega
  | pedeFalha i ns hfase hn c hc =>
    have hi := hsoma i { c with fase := .fim }
    rw [hfase, ficha_pede, ficha_fim] at hi
    simp only [Bool.toNat_false]
    omega
  | devolve i ns hfase hn c resp hc f hfim =>
    have hi := hsoma i { c with aguardar := 0, fase := f }
    have hrel : ehRelease (i, { conteudo := c.req, nbytes := sizeofRequest }) = true := by
      rw [hc]
      rfl
    have hf0 : f.ficha = 0 := by
      rcases hfim with rfl | rfl
      · rfl
      · rfl
    rw [hfase, ficha_regiao, hf0] at hi
    simp only [List.countP_append, List.countP_singleton, hrel, if_true, not_lt.mpr hn,
      decide_false, Bool.toNat_false]
    omega
  | devolveFalha i ns hfase hn c resp hc =>
    have hi := hsoma i { c with fase := .fim }
    rw [hfase, ficha_regiao, ficha_fim] at hi
    simp only [hn, decide_true, Bool.toNat_true]
    omega
  | ack k i d hk hfase hc =>
    have hi := hsoma i { s.clientes i with resp := d.conteudo }
    have hum := countP_eraseIdx_add (p := ehAllow) hk
    rw [show ehAllow (i, d) = false by simp [ehAllow, hc, ACK, REPLY_ALLOW]] at hum
    dsimp only at hi
    simp only [Bool.toNat_false] at hum ⊢
    omega
  | allow k i d hk hfase hc resp hr =>
    have hi := hsoma i { s.clientes i with
      resp
      TEMPO := ((s.clientes i).TEMPO + 1) % INT_MAX
      fase := .regiao }
    have hum := countP_eraseIdx_add (p := ehAllow) hk
    rw [show ehAllow (i, d) = true by simp [ehAllow, hc]] at hum
    rw [hfase, ficha_espera, ficha_regiao] at hi
    dsimp only at hi
    simp only [Bool.toNat_false, Bool.toNat_true] at hum ⊢
    omega
  | recvFalha i hfase =>
    have hi := hsoma i { s.clientes i with fase := .fim }
    rw [hfase, ficha_espera, ficha_fim] at hi
    dsimp only at hi
    simp only [Bool.toNat_false]
    omega
  | ackFalha k amb i d hk hv hn hreq =>
    have hum := countP_eraseIdx_add (p := ehRelease) hk
    have htoken : (recebe s.servidor d.dados).Token = s.servidor.Token := rfl
    simp only [hk, Option.any_some, if_pos hn, htoken]
    omega
  | serve k amb i d hk hv hn hreq srv t ht =>
    have hmem := List.mem_of_getElem? hk
    have hum := countP_eraseIdx_add (p := ehRelease) hk
    have hvolta : d.conteudo.cod = RELEASE_TOKEN → s.servidor.Token.flag ≠ -1 := by
      intro hc hflag
      obtain ⟨rfl, -, -⟩ := hf.tira_release hk hc
      cases hf.livre.mp hflag
    have htrata := trata_fichas hpid ht (hreq ▸ (h.pedidos _ hmem).2.1)
      (fun w hw => (h.entradas w hw).1) (hreq ▸ hvolta)
    have hack : ehAllow (i, { conteudo := (recebe s.servidor d.dados).ack
                              nbytes := sizeofRequest }) = false := by
      unfold ehAllow
      simp [recebe, ACK, REPLY_ALLOW]
    have hperde : perdeAllow (recebe s.servidor d.dados) amb.nsRep d.conteudo =
        perdeAllow s.servidor amb.nsRep d.conteudo := rfl
    have htoken : (recebe s.servidor d.dados).Token = s.servidor.Token := rfl
    have hrel : (ehRelease (i, d)).toNat = if d.conteudo.cod = RELEASE_TOKEN then 1 else 0 :=
      toNat_decide _
    rw [hreq, htoken] at htrata
    simp only [Ambiente.entrada, hperde] at htrata
    simp only [hk, Option.any_some, if_neg (not_lt.mpr hn), List.countP_append, List.countP_cons,
      hack, ← concedidas_enviados, Bool.false_eq_true, if_false]
    omega
  | servidorFalha => simp
  | perdeServidor k x hk =>
    have hum := countP_eraseIdx_add (p := ehRelease) hk
    simp only [hk, Option.any_some]
    omega
  | perdeCliente k x hk =>
    have hum := countP_eraseIdx_add (p := ehAllow) hk
    simp only [hk, Option.any_some]
    omega

omit [DecidableEq ι] [Fintype ι] in
theorem move_perdido {l l' : Lugar ι} {v v' : Int32} (h : l.Move v l' v') (hl : l = .perdido) :
    l' = .perdido := by
  cases h with
  | fica => exact hl
  | perde | perdeDepois => rfl
  | concede | entra | devolve | libera | passa => cases hl

omit [Fintype ι] in
/-- Where there is no token the server grants nothing and takes nobody out of its
queue. -/
theorem passo_perdido {pid : ι → Int32} (hpid : ∀ i, (pid i).toInt8 ≠ -1) {s s' : Sistema ι}
    {a : Acao ι} {e : List (Evento ι)} (h : Honesto pid s) (hf : Ficha s .perdido)
    (hp : Passo s a s' e) :
    Ficha s' .perdido ∧ concedidas e = 0 ∧ s'.servidor.Token = s.servidor.Token ∧
      ∀ w ∈ s.servidor.fila.head, w ∈ s'.servidor.fila.head := by
  refine ⟨?_, ?_⟩
  · obtain ⟨l', hf', hmove, -⟩ := passo_ficha hpid h hf hp
    exact move_perdido hmove rfl ▸ hf'
  · cases hp with
    | serve k amb i d hk hv hn hreq srv t ht =>
      have hlivre : (recebe s.servidor d.dados).Token.flag ≠ -1 := by
        intro hflag
        cases hf.livre.mp hflag
      have hrel : (recebe s.servidor d.dados).req.cod ≠ RELEASE_TOKEN := by
        intro hc
        rw [hreq] at hc
        cases (hf.tira_release hk hc).1
      rw [concedidas_turno]
      cases ht with
      | concede hc hflag | concedeFalha hc hflag => exact absurd hflag hlivre
      | enfileira => exact ⟨rfl, rfl, fun w hw => mem_colocada.mpr (Or.inr hw)⟩
      | recusa | ignora => exact ⟨rfl, rfl, fun w hw => hw⟩
      | libera hc | passa hc | passaFalha hc => exact absurd hc hrel
    | pede | pedeFalha | devolve | devolveFalha | ack | allow | recvFalha | ackFalha
    | servidorFalha | perdeServidor | perdeCliente => exact ⟨rfl, rfl, fun w hw => hw⟩

/-! ## Every run -/

/-- In every run the tokens in the system and the steps that lost one are one
together. So a run loses the token once at most, and only in such a step. -/
theorem the_token_is_in_the_system_until_a_step_loses_it {c : Config ι}
    (hpid : ∀ i, (c.pid i).toInt8 ≠ -1) {as : List (Acao ι)} {s : Sistema ι} {t : List (Evento ι)}
    (hr : (sistema ι).run (Sistema.inicio c) as = some (s, t)) :
    s.fichas + (sistema ι).count perdeFicha (Sistema.inicio c) as = 1 := by
  have hinv : Honesto c.pid s ∧ (∃ l, Ficha s l) ∧
      s.fichas + (sistema ι).count perdeFicha (Sistema.inicio c) as = 1 := by
    apply run_invariant_count (I := fun u _ n => Honesto c.pid u ∧ (∃ l, Ficha u l) ∧
      u.fichas + n = 1) _ _ hr
    · exact ⟨inicio_honesto c, ⟨.livre, inicio_ficha c⟩, by rw [(inicio_ficha c).fichas]; rfl⟩
    · rintro u t n a v e ⟨hu, ⟨l, hf⟩, heq⟩ hs
      have hp := passo_cases hu hs
      obtain ⟨l', hf', -⟩ := passo_ficha hpid hu hf hp
      have hperde := passo_fichas hpid hu hf hp
      exact ⟨passo_honesto hu hp, ⟨l', hf'⟩, by omega⟩
  exact hinv.2.2

theorem the_run_of_two_clients_loses_the_token_once : ∃ s t,
    (sistema (Fin 2)).run (Sistema.inicio (comPids ![7, 8])) [.pede 0 16, .pede 1 16,
      .serve 0 (bemServida 0), .serve 0 (bemServida 1), .perdeCliente 1] = some (s, t) ∧
    (sistema (Fin 2)).count perdeFicha (Sistema.inicio (comPids ![7, 8])) [.pede 0 16, .pede 1 16,
      .serve 0 (bemServida 0), .serve 0 (bemServida 1), .perdeCliente 1] = 1 ∧ s.fichas = 0 := by
  obtain ⟨s, t, h, hlost⟩ : ∃ s t, (sistema (Fin 2)).run (Sistema.inicio (comPids ![7, 8]))
      [.pede 0 16, .pede 1 16, .serve 0 (bemServida 0), .serve 0 (bemServida 1),
        .perdeCliente 1] = some (s, t) ∧ s.fichas = 0 := exists_run (by decide)
  have hum := the_token_is_in_the_system_until_a_step_loses_it (by decide) h
  rw [hlost, Nat.zero_add] at hum
  exact ⟨s, t, h, hum, hlost⟩

/-- A token that is lost is lost for good: nothing is granted any more, the value
stays, and who waits in the queue goes on waiting. -/
theorem a_lost_token_is_never_granted_again {c : Config ι} (hpid : ∀ i, (c.pid i).toInt8 ≠ -1)
    {as₁ as₂ : List (Acao ι)} {s₁ s₂ : Sistema ι} {t₁ t₂ : List (Evento ι)}
    (hr₁ : (sistema ι).run (Sistema.inicio c) as₁ = some (s₁, t₁))
    (hr₂ : (sistema ι).run s₁ as₂ = some (s₂, t₂)) (hlost : s₁.fichas = 0) :
    s₂.fichas = 0 ∧ concedidas t₂ = 0 ∧ s₂.servidor.Token = s₁.servidor.Token ∧
      ∀ i, s₁.Espera i → s₂.Espera i := by
  obtain ⟨l, hf, -⟩ := sistema_ficha hpid hr₁
  have hl : l = .perdido := by
    by_contra hne
    rw [hf.fichas, if_neg hne] at hlost
    cases hlost
  subst hl
  have hinv : Honesto c.pid s₂ ∧ Ficha s₂ .perdido ∧ concedidas t₂ = 0 ∧
      s₂.servidor.Token = s₁.servidor.Token ∧
      ∀ w ∈ s₁.servidor.fila.head, w ∈ s₂.servidor.fila.head := by
    apply run_invariant (I := fun u t => Honesto c.pid u ∧ Ficha u .perdido ∧ concedidas t = 0 ∧
      u.servidor.Token = s₁.servidor.Token ∧
      ∀ w ∈ s₁.servidor.fila.head, w ∈ u.servidor.fila.head) _ _ hr₂
    · exact ⟨sistema_honesto hr₁, hf, rfl, rfl, fun w hw => hw⟩
    · rintro u t a v e ⟨hu, hf, hzero, htoken, hfila⟩ hs
      have hp := passo_cases hu hs
      obtain ⟨hf', hzero', htoken', hfila'⟩ := passo_perdido hpid hu hf hp
      refine ⟨passo_honesto hu hp, hf', ?_, htoken'.trans htoken, fun w hw => hfila' w (hfila w hw)⟩
      rw [concedidas_append, hzero, hzero']
  obtain ⟨-, hf', hzero, htoken, hfila⟩ := hinv
  refine ⟨by rw [hf'.fichas]; rfl, hzero, htoken, ?_⟩
  rintro i ⟨w, hw, hwi⟩
  exact ⟨w, hfila w hw, hwi⟩

/-- The REPLY_ALLOW to the first of two clients is lost, and the second waits. -/
theorem the_second_of_two_clients_waits_for_a_lost_token : ∃ s₁ t₁ s₂ t₂,
    (sistema (Fin 2)).run (Sistema.inicio (comPids ![7, 8]))
      [.pede 0 16, .pede 1 16, .serve 0 (bemServida 0), .serve 0 (bemServida 1), .perdeCliente 1] =
      some (s₁, t₁) ∧
    (sistema (Fin 2)).run s₁ [.chega 0, .chega 0] = some (s₂, t₂) ∧ s₁.Espera 1 ∧ s₂.Espera 1 := by
  obtain ⟨s₁, t₁, h₁, hlost, hi, hstep⟩ : ∃ s t, (sistema (Fin 2)).run
      (Sistema.inicio (comPids ![7, 8])) [.pede 0 16, .pede 1 16, .serve 0 (bemServida 0),
        .serve 0 (bemServida 1), .perdeCliente 1] = some (s, t) ∧ s.fichas = 0 ∧ s.Espera 1 ∧
      (((sistema (Fin 2)).run s [.chega 0, .chega 0]).any fun _ => true) = true :=
    exists_run (by decide)
  obtain ⟨⟨s₂, t₂⟩, h₂, -⟩ := (Option.any_eq_true _ _).mp hstep
  exact ⟨s₁, t₁, s₂, t₂, h₁, h₂, hi,
    (a_lost_token_is_never_granted_again (by decide) h₁ h₂ hlost).2.2.2 1 hi⟩

end lab2
