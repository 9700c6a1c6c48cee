-- Overtaking in the queue of LAB2-NETKIT. While client `A` waits, another
-- client can get the token once, with a request that was before that of `A`
-- or came to stand in front of it. It gets the token again when its next
-- request carries a smaller stamp than that of `A`, as the clock of a client
-- that has slept does.
import ExclusaoMutua.Lab2.Relogio

open fila in_flight machine

namespace lab2

variable {ι : Type} [DecidableEq ι]

/-! ## The front of the queue -/

/-- An item with stamp `tempo` would land behind the entry of client `A`. -/
def Atras (A : ι) (s : Servidor ι) (tempo : Int32) : Prop :=
  ∃ w ∈ s.fila.head, deCliente A w = true ∧
    (w.tempo < tempo ∨ w.tempo = tempo ∧ s.fila.head.head? = some w)

theorem Atras.frente_eq {A : ι} {s : Servidor ι} (h : s.Bom) {novo : Item Int32 (Origem ι)}
    (ha : Atras A s novo.tempo) :
    frente (deCliente A) (colocada novo s.fila.head) = frente (deCliente A) s.fila.head := by
  obtain ⟨w, hw, hA, hor⟩ := ha
  obtain ⟨l₁, l₂, hs⟩ := colocada_separa novo s.fila.head h.valida.ordem
  refine hs.frente_eq ?_ hA
  rcases hor with hlt | ⟨heq, hhead⟩
  · exact hs.mem_antes hw hlt
  · exact hs.cabeca w hhead (le_of_eq heq)

theorem countP_concede {o : Origem ι} {d : Datagrama} (hc : d.conteudo.cod = REPLY_ALLOW) (B : ι) :
    [Evento.envia o d].countP (Evento.concedeA B) = if o.caddr = B then 1 else 0 := by
  by_cases hB : o.caddr = B
  · unfold Evento.concedeA
    simp [hc, hB]
  · unfold Evento.concedeA
    simp [hB]

theorem ack_nao_concedeA (s : Servidor ι) (dados : List UInt8) (o : Origem ι) (n : Nat) (B : ι) :
    (Evento.envia o { conteudo := (recebe s dados).ack, nbytes := n }).concedeA B = false := by
  unfold Evento.concedeA
  simp [recebe, ACK, REPLY_ALLOW]

/-- The test of `req->cod`, while client `A` waits in the queue. Client `B` has
had the token `n` times, and had it or is to have it before `A` once at most. -/
theorem trata_frente {s s' : Servidor ι} {e : Entrada ι} {t : List (Evento ι)} (h : s.Bom)
    (ht : Trata s e s' t) (hvazia : s.Token.flag = -1 → s.fila.head = []) {A B : ι}
    (hA : s.fila.head.filter (deCliente A) ≠ []) (hn : 0 ≤ e.nsRep)
    (hnoA : ∀ x ∈ t, x.concedeA A = false)
    (hpedA : e.origem.caddr = A → s.req.cod ≠ REQUEST_TOKEN) {n : Nat}
    (hpedB : e.origem.caddr = B → s.req.cod = REQUEST_TOKEN →
      s.fila.head.filter (deCliente B) = [])
    (hatras : 0 < n → e.origem.caddr = B → s.req.cod = REQUEST_TOKEN → Atras A s s.req.tempo)
    (hle : n + (frente (deCliente A) s.fila.head).countP (deCliente B) ≤ 1) :
    n + t.countP (Evento.concedeA B) +
      (frente (deCliente A) s'.fila.head).countP (deCliente B) ≤ 1 := by
  cases ht with
  | concede hc hf | concedeFalha hc hf =>
    rw [hvazia hf] at hA
    exact absurd rfl hA
  | recusa | libera | ignora => simpa using hle
  | enfileira hc hf hcabe hnov =>
    have hnovoA : deCliente A ⟨s.req.PID, s.req.tempo, e.origem⟩ = false := by
      simpa [deCliente] using fun hA => hpedA hA hc
    obtain ⟨l₁, l₂, hs⟩ := colocada_separa ⟨s.req.PID, s.req.tempo, e.origem⟩ s.fila.head
      h.valida.ordem
    have hmais := hs.countP_frente hnovoA (deCliente B)
    simp only [List.countP_nil, Nat.add_zero]
    by_cases hB : e.origem.caddr = B
    · by_cases hn0 : n = 0
      · -- the first request of `B` behind the back of `A`
        have hnada : (frente (deCliente A) s.fila.head).countP (deCliente B) = 0 := by
          have hsub := countP_frente_le (deCliente A) (deCliente B) s.fila.head
          rw [List.countP_eq_length_filter (l := s.fila.head), hpedB hB hc] at hsub
          exact Nat.le_zero.mp hsub
        split at hmais
        · omega
        · omega
      · rw [(hatras (Nat.pos_of_ne_zero hn0) hB hc).frente_eq h]
        exact hle
    · rw [if_neg (by simpa [deCliente] using hB)] at hmais
      omega
  | passa hc aux resto hh hrep s' hs =>
    subst hs
    have haux : deCliente A aux = false := by
      have := hnoA _ (List.mem_singleton.mpr rfl)
      simpa [Evento.concedeA, preencheRep, deCliente] using this
    rw [hh, frente_cons haux, List.countP_cons] at hle
    rw [countP_concede rfl]
    simp only [deCliente, decide_eq_true_eq] at hle
    simp only [preencheRep]
    omega
  | passaFalha hc aux resto hh hrep => exact absurd hrep (not_lt.mpr hn)

/-! ## One step -/

/-- The step handles no REQUEST_TOKEN that would land in front of the entry of
`A`, from a client that has had the token while `A` waits. -/
def NaoVoltaNaFrente (A : ι) (s : Sistema ι) (t : List (Evento ι)) : Acao ι → Prop
  | .serve k _ => ∀ x ∈ s.paraServidor[k]?, x.2.conteudo.cod = REQUEST_TOKEN → x.1 ≠ A →
      0 < t.countP (Evento.concedeA x.1) → Atras A s.servidor x.2.conteudo.tempo
  | _ => True

instance (A : ι) (s : Servidor ι) (tempo : Int32) : Decidable (Atras A s tempo) :=
  inferInstanceAs (Decidable (∃ w ∈ s.fila.head, _))

instance (A : ι) (s : Sistema ι) (t : List (Evento ι)) :
    (a : Acao ι) → Decidable (NaoVoltaNaFrente A s t a)
  | .serve k _ => inferInstanceAs (Decidable (∀ x ∈ s.paraServidor[k]?, _))
  | .pede _ _ | .devolve _ _ | .chega _ | .recvFalha _ | .servidorFalha | .perdeServidor _
  | .perdeCliente _ => .isTrue trivial

/-- Client `A` waits, and each other client has had the token, or is to have it
before `A`, once at most. -/
structure UmaVez (A : ι) (s : Sistema ι) (t : List (Evento ι)) : Prop where
  espera : s.servidor.fila.head.filter (deCliente A) ≠ []
  vezes : ∀ B, B ≠ A → t.countP (Evento.concedeA B) +
    (frente (deCliente A) s.servidor.fila.head).countP (deCliente B) ≤ 1

theorem passo_umaVez {pid : ι → Int32} {s s' : Sistema ι} {a : Acao ι} {t e : List (Evento ι)}
    (h : Ordeiro pid s) (hvazia : s.servidor.Token.flag = -1 → s.servidor.fila.head = [])
    (hp : Passo s a s' e) (ha : a.SemPerda) {A : ι} (hno : ∀ x ∈ e, x.concedeA A = false)
    (hfrente : NaoVoltaNaFrente A s t a) (hv : UmaVez A s t) : UmaVez A s' (t ++ e) := by
  obtain ⟨w, hw⟩ := h.uma_entrada hv.espera
  have hw' := passo_espera h hp ha hno hw
  refine ⟨by simp [hw'], ?_⟩
  intro B hB
  cases hp with
  | serve k amb j d hk _ hn hreq srv t' ht =>
    have hmsg := hfrente _ hk
    have hconta : (t ++ .envia (Origem.de j)
        { conteudo := (recebe s.servidor d.dados).ack, nbytes := sizeofRequest } ::
        .trata (Origem.de j) d.conteudo :: t').countP (Evento.concedeA B) =
        t.countP (Evento.concedeA B) + t'.countP (Evento.concedeA B) := by
      simp [List.countP_append, List.countP_cons, ack_nao_concedeA]
      rfl
    rw [hconta]
    refine trata_frente (recebe_bom h.bom _) ht hvazia hv.espera ha.2
      (fun x hx => hno x (by simp [hx])) ?_ ?_ ?_ (hv.vezes B hB)
    · -- `A` waits already, so no REQUEST_TOKEN of `A` is in flight
      intro hj hc
      have hj : j = A := hj
      subst hj
      rw [hreq] at hc
      exact hv.espera (h.pedido hk hc).2.1
    · intro hj hc
      have hj : j = B := hj
      subst hj
      rw [hreq] at hc
      exact (h.pedido hk hc).2.1
    · intro hn hj hc
      have hj : j = B := hj
      subst hj
      rw [hreq] at hc ⊢
      exact hmsg hc hB hn
  | ackFalha =>
    rw [List.append_nil]
    exact hv.vezes B hB
  | pede | pedeFalha | devolve | devolveFalha | ack | allow | recvFalha | servidorFalha
  | perdeServidor | perdeCliente => simpa using hv.vezes B hB

/-- The step that puts client `A` into the queue grants the token to nobody. -/
theorem passo_entra {s s' : Sistema ι} {a : Acao ι} {t : List (Evento ι)} (hp : Passo s a s' t)
    {A : ι} (hfora : s.servidor.fila.head.filter (deCliente A) = [])
    (hentra : s'.servidor.fila.head.filter (deCliente A) ≠ []) (B : ι) :
    t.countP (Evento.concedeA B) = 0 := by
  cases hp with
  | serve k amb j d hk hv hn hreq srv t' ht =>
    have hresto : ∀ {aux resto}, (recebe s.servidor d.dados).fila.head = aux :: resto →
        resto.filter (deCliente A) = [] := by
      intro aux resto hh
      rw [recebe_fila] at hh
      rw [hh, List.filter_eq_nil_iff] at hfora
      rw [List.filter_eq_nil_iff]
      exact fun w hw => hfora w (List.mem_cons_of_mem _ hw)
    cases ht with
    | enfileira =>
      simp only [List.countP_cons, List.countP_nil, ack_nao_concedeA]
      rfl
    | passa hc aux resto hh hrep s' hs =>
      subst hs
      exact absurd (hresto hh) hentra
    | passaFalha hc aux resto hh hrep s' hs =>
      subst hs
      exact absurd (hresto hh) hentra
    | concede | concedeFalha | recusa | libera | ignora => exact absurd hfora hentra
  | pede | pedeFalha | devolve | devolveFalha | ack | allow | recvFalha | ackFalha | servidorFalha
  | perdeServidor | perdeCliente => exact absurd hfora hentra

/-! ## Every run -/

/-- Bounded overtaking: from the step that puts client `A` into the queue to
the grant to `A`, each other client is granted the token once at most, when
none of them comes back in front of `A`. -/
theorem nobody_overtakes_twice_unless_it_comes_back_in_front {c : Config ι}
    (hpid : ∀ i, (c.pid i).toInt8 ≠ -1) {as₁ as₂ : List (Acao ι)} {a : Acao ι}
    {s₁ s₂ s₃ : Sistema ι} {t₁ t₂ t₃ : List (Evento ι)}
    (hr₁ : (sistema ι).run (Sistema.inicio c) as₁ = some (s₁, t₁))
    (hs : (sistema ι).step s₁ a = some (s₂, t₂)) (hr₂ : (sistema ι).run s₂ as₂ = some (s₃, t₃))
    {A : ι} (hfora : s₁.servidor.fila.head.filter (deCliente A) = [])
    (hentra : s₂.servidor.fila.head.filter (deCliente A) ≠ [])
    (hsem : ∀ b ∈ as₂, b.SemPerda) (hno : ∀ x ∈ t₃, x.concedeA A = false)
    (hfrente : (sistema ι).Along (NaoVoltaNaFrente A) s₂ as₂) :
    ∀ B, B ≠ A → (t₂ ++ t₃).countP (Evento.concedeA B) ≤ 1 := by
  intro B hB
  obtain ⟨l, hf₁, -⟩ := sistema_ficha hpid hr₁
  have h₁ := sistema_ordeiro hr₁
  have hp := passo_cases h₁.toHonesto hs
  obtain ⟨l₂, hf₂, -⟩ := passo_ficha hpid h₁.toHonesto hf₁ hp
  have h₂ := passo_ordeiro h₁ hp
  have hlei : (sistema ι).Along (fun u t b => b.SemPerda ∧ NaoVoltaNaFrente A u t b) s₂ as₂ :=
    fun bs₁ b bs₂ hbs u t hr => ⟨along_all hsem bs₁ b bs₂ hbs u t hr, hfrente bs₁ b bs₂ hbs u t hr⟩
  have hinv : Ordeiro c.pid s₃ ∧ (∃ l, Ficha s₃ l) ∧
      ((∀ x ∈ t₃, x.concedeA A = false) → UmaVez A s₃ t₃) := by
    apply run_invariant_along _ _ hlei hr₂
    · refine ⟨h₂, ⟨l₂, hf₂⟩, fun _ => ⟨hentra, fun B hB => ?_⟩⟩
      have hum := h₂.entradas_le_one B
      have hmenos := countP_frente_le (deCliente A) (deCliente B) s₂.servidor.fila.head
      rw [List.countP_nil]
      omega
    · rintro u t b v e ⟨hu, ⟨l, hf⟩, humaVez⟩ ⟨hb, hnao⟩ hs
      have hp := passo_cases hu.toHonesto hs
      obtain ⟨l', hf', -⟩ := passo_ficha hpid hu.toHonesto hf hp
      refine ⟨passo_ordeiro hu hp, ⟨l', hf'⟩, fun hno => ?_⟩
      exact passo_umaVez hu hf.vazia hp hb (fun x hx => hno x (List.mem_append_right _ hx)) hnao
        (humaVez fun x hx => hno x (List.mem_append_left _ hx))
  have huma := (hinv.2.2 hno).vezes B hB
  rw [List.countP_append, passo_entra hp hfora hentra B]
  omega

/-- The step hands over no datagram before an older one of the same client. -/
def EmOrdem (s : Sistema ι) : Acao ι → Prop
  | .serve k _ => ∀ x ∈ s.paraServidor[k]?, ∀ y ∈ s.paraServidor.take k, y.1 ≠ x.1
  | .chega k => ∀ x ∈ s.paraClientes[k]?, ∀ y ∈ s.paraClientes.take k, y.1 ≠ x.1
  | _ => True

instance (s : Sistema ι) : (a : Acao ι) → Decidable (EmOrdem s a)
  | .serve k _ => inferInstanceAs (Decidable (∀ x ∈ s.paraServidor[k]?, _))
  | .chega k => inferInstanceAs (Decidable (∀ x ∈ s.paraClientes[k]?, _))
  | .pede _ _ | .devolve _ _ | .recvFalha _ | .servidorFalha | .perdeServidor _
  | .perdeCliente _ => .isTrue trivial

/-- The first of three clients has used the token twice and the second once, and
the third has it for the first time. The second waits, and the first asks. -/
def aPrimeiraPede : List (Acao (Fin 3)) :=
  [.pede 0 16, .serve 0 (bemServida 0), .chega 0, .chega 0, .devolve 0 16,
    .serve 0 (bemServida 0), .pede 0 16, .serve 0 (bemServida 0), .chega 0, .chega 0, .chega 0,
    .devolve 0 16, .serve 0 (bemServida 0), .pede 1 16, .serve 0 (bemServida 0), .chega 1,
    .chega 1, .devolve 1 16, .serve 0 (bemServida 0), .pede 2 16, .serve 0 (bemServida 0),
    .chega 2, .chega 2, .pede 1 16, .serve 0 (bemServida 0), .pede 0 16]

/-- The second client is granted the token, the third comes in front of the first
and is granted it too, and the second asks again, behind the first. -/
def aSegundaVoltaAtras : List (Acao (Fin 3)) :=
  [.devolve 2 16, .serve 0 (bemServida 0), .pede 2 16, .serve 0 (bemServida 0), .chega 1,
    .chega 1, .chega 3, .devolve 1 16, .serve 0 (bemServida 0), .pede 1 16,
    .serve 0 (bemServida 0)]

def tresClientes : Config (Fin 3) := comPids ![1, 2, 3]

/-- While the first client waits each of the others is granted the token once. -/
theorem the_others_overtake_the_first_client_once :
    (sistema (Fin 3)).Along (fun u _ a => EmOrdem u a) (Sistema.inicio tresClientes)
        (aPrimeiraPede ++ .serve 0 (bemServida 0) :: aSegundaVoltaAtras) ∧
      ∃ s₁ t₁ s₂ t₂ s₃ t₃,
        (sistema (Fin 3)).run (Sistema.inicio tresClientes) aPrimeiraPede = some (s₁, t₁) ∧
        (sistema (Fin 3)).step s₁ (.serve 0 (bemServida 0)) = some (s₂, t₂) ∧
        (sistema (Fin 3)).run s₂ aSegundaVoltaAtras = some (s₃, t₃) ∧
        (s₃.servidor.fila.head.map fun w => w.dados.caddr) = [0, 1] ∧
        t₃.countP (Evento.concedeA 1) = 1 ∧ t₃.countP (Evento.concedeA 2) = 1 ∧
        ∀ B, B ≠ 0 → (t₂ ++ t₃).countP (Evento.concedeA B) ≤ 1 := by
  refine ⟨along_of_check (by decide +kernel), ?_⟩
  obtain ⟨s₁, t₁, h₁, hstep⟩ : ∃ s t, (sistema (Fin 3)).run (Sistema.inicio tresClientes)
      aPrimeiraPede = some (s, t) ∧
      (((sistema (Fin 3)).step s (.serve 0 (bemServida 0))).any fun p =>
        ((sistema (Fin 3)).run p.1 aSegundaVoltaAtras).any fun q =>
          s.servidor.fila.head.filter (deCliente 0) = [] ∧
            p.1.servidor.fila.head.filter (deCliente 0) ≠ [] ∧
            (∀ x ∈ q.2, x.concedeA 0 = false) ∧
            (q.1.servidor.fila.head.map fun w => w.dados.caddr) = [0, 1] ∧
            q.2.countP (Evento.concedeA 1) = 1 ∧ q.2.countP (Evento.concedeA 2) = 1 ∧
            (sistema (Fin 3)).checkSteps (fun s t a => decide (NaoVoltaNaFrente 0 s t a)) p.1 []
              aSegundaVoltaAtras) = true :=
    exists_run (by decide +kernel)
  obtain ⟨⟨s₂, t₂⟩, h₂, hrest⟩ := (Option.any_eq_true _ _).mp hstep
  obtain ⟨⟨s₃, t₃⟩, h₃, hlast⟩ := (Option.any_eq_true _ _).mp hrest
  obtain ⟨hfora, hentra, hno, hfila, hum, houtra, hcheck⟩ := decide_eq_true_eq.mp hlast
  have hpid : ∀ i, (tresClientes.pid i).toInt8 ≠ -1 := by decide
  exact ⟨s₁, t₁, s₂, t₂, s₃, t₃, h₁, h₂, h₃, hfila, hum, houtra,
    nobody_overtakes_twice_unless_it_comes_back_in_front hpid h₁ h₂ h₃ hfora hentra (by decide)
      hno (along_of_check hcheck)⟩

/-- The first of three clients uses the token twice on its own, then the
second gets the token, and the first asks again. -/
def aPrimeiraCorreNaFrente : List (Acao (Fin 3)) :=
  [.pede 0 16, .serve 0 (bemServida 0), .chega 0, .chega 0, .devolve 0 16,
    .serve 0 (bemServida 0), .pede 0 16, .serve 0 (bemServida 0), .chega 0, .chega 0, .chega 0,
    .devolve 0 16, .serve 0 (bemServida 0), .pede 1 16, .serve 0 (bemServida 0), .pede 0 16]

/-- The third client asks, and the two clients that slept pass the token to
each other, each with a smaller stamp than that of the first. -/
def asOutrasSeAlternam : List (Acao (Fin 3)) :=
  [.pede 2 16, .serve 0 (bemServida 0), .chega 1, .chega 1, .devolve 1 16,
    .serve 0 (bemServida 0), .pede 1 16, .serve 0 (bemServida 0), .chega 2, .chega 3,
    .devolve 2 16, .serve 0 (bemServida 0), .pede 2 16, .serve 0 (bemServida 0), .chega 2,
    .chega 2, .chega 3, .devolve 1 16, .serve 0 (bemServida 0)]

/-- While the first client waits, the third is granted the token twice. -/
theorem a_late_client_overtakes_twice :
    Function.Injective tresClientes.pid ∧ (∀ i, (tresClientes.pid i).toInt8 ≠ -1) ∧
      (∀ a ∈ aPrimeiraCorreNaFrente ++ .serve 0 (bemServida 0) :: asOutrasSeAlternam,
        a.SemPerda) ∧
      (sistema (Fin 3)).Along (fun u _ a => EmOrdem u a) (Sistema.inicio tresClientes)
        (aPrimeiraCorreNaFrente ++ .serve 0 (bemServida 0) :: asOutrasSeAlternam) ∧
      (sistema (Fin 3)).Always SemEstouro (Sistema.inicio tresClientes)
        (aPrimeiraCorreNaFrente ++ .serve 0 (bemServida 0) :: asOutrasSeAlternam) ∧
      ∃ s₁ t₁ s₂ t₂ s₃ t₃,
        (sistema (Fin 3)).run (Sistema.inicio tresClientes) aPrimeiraCorreNaFrente =
          some (s₁, t₁) ∧
        (sistema (Fin 3)).step s₁ (.serve 0 (bemServida 0)) = some (s₂, t₂) ∧
        (sistema (Fin 3)).run s₂ asOutrasSeAlternam = some (s₃, t₃) ∧
        s₁.servidor.fila.head.filter (deCliente 0) = [] ∧
        s₂.servidor.fila.head.filter (deCliente 0) ≠ [] ∧
        (∀ x ∈ t₃, x.concedeA 0 = false) ∧ (t₂ ++ t₃).countP (Evento.concedeA 2) = 2 := by
  refine ⟨by decide, by decide, by decide, along_of_check (by decide +kernel),
    always_of_check (by decide +kernel), ?_⟩
  obtain ⟨s₁, t₁, h₁, hstep⟩ : ∃ s t,
      (sistema (Fin 3)).run (Sistema.inicio tresClientes) aPrimeiraCorreNaFrente = some (s, t) ∧
      (((sistema (Fin 3)).step s (.serve 0 (bemServida 0))).any fun p =>
        ((sistema (Fin 3)).run p.1 asOutrasSeAlternam).any fun q =>
          s.servidor.fila.head.filter (deCliente 0) = [] ∧
            p.1.servidor.fila.head.filter (deCliente 0) ≠ [] ∧
            (∀ x ∈ q.2, x.concedeA 0 = false) ∧
            (p.2 ++ q.2).countP (Evento.concedeA 2) = 2) = true := exists_run (by decide +kernel)
  obtain ⟨⟨s₂, t₂⟩, h₂, hrest⟩ := (Option.any_eq_true _ _).mp hstep
  obtain ⟨⟨s₃, t₃⟩, h₃, hlast⟩ := (Option.any_eq_true _ _).mp hrest
  exact ⟨s₁, t₁, s₂, t₂, s₃, t₃, h₁, h₂, h₃, decide_eq_true_eq.mp hlast⟩

end lab2
