-- The clocks of LAB2-NETKIT. The server takes the maximum of its clock and of
-- the stamp, so it runs ahead of every message that it handles. The client
-- does not look at the stamp: it falls behind the server.
import ExclusaoMutua.Lab2.Pedidos

open fila in_flight machine signed_order

namespace lab2

/-! ## The clock of the server -/

theorem INT_MAX_toInt : INT_MAX.toInt = 2147483647 := by decide

theorem INT_MAX_toInt64 : INT_MAX.toInt64.toInt = 2147483647 := by decide

/-- Below the bound `(t + 1) % INT_MAX` is one step on. -/
theorem proximo_toInt {t : Int32} (h0 : 0 ≤ t.toInt) (h : t.toInt < 2147483646) :
    ((t + 1) % INT_MAX).toInt = t.toInt + 1 := by
  have hsoma := succ_toInt32 h0 (by omega)
  rw [mod_toInt32 (by omega) (by rw [INT_MAX_toInt]; omega), hsoma]

/-- Below the bound the server takes the maximum and goes one step on. -/
theorem marcaTempo_toInt {T : Int64} {t : Int32} (hT : 0 ≤ T.toInt) (hT' : T.toInt < 2147483646)
    (ht : t.toInt < 2147483646) : (marcaTempo T t).toInt = max T.toInt t.toInt + 1 := by
  unfold marcaTempo
  split
  · rename_i hgt
    have hmaior := Int64.lt_iff_toInt_lt.mp hgt
    rw [Int32.toInt_toInt64] at hmaior
    have hsoma := succ_toInt64 hT (by omega)
    rw [mod_toInt64 (by omega) (by rw [INT_MAX_toInt64]; omega), hsoma]
    omega
  · rename_i hle
    have hmenor := mt Int64.lt_iff_toInt_lt.mpr hle
    rw [Int32.toInt_toInt64] at hmenor
    rw [Int32.toInt_toInt64, proximo_toInt (by omega) ht]
    omega

variable {A ι : Type}

/-- The test of `req->cod` moves the clock one step on when it fills in a
REPLY_ALLOW, and that step is the stamp. -/
theorem trata_tempo {s s' : Servidor A} {e : Entrada A} {t : List (Evento A)} (ht : Trata s e s' t)
    (h0 : 0 ≤ s.TEMPO.toInt) (hs : s.TEMPO.toInt ≤ 2147483646) (hs' : s'.TEMPO.toInt < 2147483646) :
    s.TEMPO.toInt ≤ s'.TEMPO.toInt ∧
      ∀ x ∈ enviados t, x.2.conteudo.tempo.toInt = s.TEMPO.toInt + 1 ∧
        (s.req.cod = REQUEST_TOKEN ∧ x.1 = e.origem.caddr ∨
          ∃ w ∈ s.fila.head, w.dados.caddr = x.1) := by
  have hsoma := succ_toInt64 h0 (by omega)
  have hrep : (s.TEMPO + 1).toInt < 2147483647 →
      ((s.TEMPO + 1) % INT_MAX.toInt64).toInt32.toInt = s.TEMPO.toInt + 1 := by
    intro hlt
    have hmod := mod_toInt64 (x := s.TEMPO + 1) (m := INT_MAX.toInt64) (by omega)
      (by rw [INT_MAX_toInt64]; omega)
    rw [toInt32_toInt (by omega) (by omega), hmod, hsoma]
  cases ht with
  | concede hc hf hn =>
    simp only [preencheRep] at hs' ⊢
    refine ⟨by omega, ?_⟩
    intro x hx
    simp only [enviados_envia, enviados_nil, List.mem_singleton] at hx
    subst hx
    exact ⟨hrep (by omega), Or.inl ⟨hc, rfl⟩⟩
  | passa hc aux resto hh hn s' hs =>
    subst hs
    simp only [preencheRep] at hs' ⊢
    refine ⟨by omega, ?_⟩
    intro x hx
    simp only [enviados_envia, enviados_nil, List.mem_singleton] at hx
    subst hx
    exact ⟨hrep (by omega), Or.inr ⟨aux, by simp [hh], rfl⟩⟩
  | concedeFalha => exact ⟨by simp only [preencheRep]; omega, fun x hx => by cases hx⟩
  | passaFalha hc aux resto hh hn s' hs =>
    subst hs
    exact ⟨by simp only [preencheRep]; omega, fun x hx => by cases hx⟩
  | enfileira | recusa | libera | ignora => exact ⟨le_refl _, fun x hx => by cases hx⟩

/-! ## The clocks of the system -/

/-- No clock has come to `INT_MAX - 1`. -/
def SemEstouro (s : Sistema ι) : Prop :=
  s.servidor.TEMPO < INT_MAX.toInt64 - 1 ∧ ∀ i, (s.clientes i).TEMPO < INT_MAX - 1

instance [Fintype ι] (s : Sistema ι) : Decidable (SemEstouro s) :=
  inferInstanceAs (Decidable (_ ∧ _))

/-- How the stamps stand to the clocks: a request carries the clock of its
client, the server is ahead of each client that waits in the queue, and each
REPLY_ALLOW is more than one step ahead of its client. -/
structure Relogio (s : Sistema ι) : Prop where
  servidor : 0 ≤ s.servidor.TEMPO.toInt
  cliente : ∀ i, 0 ≤ (s.clientes i).TEMPO.toInt
  mensagem : ∀ x ∈ s.paraServidor, 0 ≤ x.2.conteudo.tempo.toInt ∧
    x.2.conteudo.tempo.toInt ≤ (s.clientes x.1).TEMPO.toInt
  pedido : ∀ x ∈ s.paraServidor, x.2.conteudo.cod = REQUEST_TOKEN →
    x.2.conteudo.tempo.toInt = (s.clientes x.1).TEMPO.toInt
  espera : ∀ w ∈ s.servidor.fila.head,
    (s.clientes w.dados.caddr).TEMPO.toInt < s.servidor.TEMPO.toInt
  allow : ∀ x ∈ s.paraClientes, x.2.conteudo.cod = REPLY_ALLOW →
    (s.clientes x.1).TEMPO.toInt + 1 < x.2.conteudo.tempo.toInt

theorem inicio_relogio (c : Config ι) : Relogio (Sistema.inicio c) where
  servidor := show 0 ≤ (0 : Int64).toInt by decide
  cliente _ := show 0 ≤ (0 : Int32).toInt by decide
  mensagem x hx := by cases hx
  pedido x hx := by cases hx
  espera w hw := by cases hw
  allow x hx := by cases hx

theorem semEstouro_toInt {s : Sistema ι} (h : SemEstouro s) :
    s.servidor.TEMPO.toInt < 2147483646 ∧ ∀ i, (s.clientes i).TEMPO.toInt < 2147483646 :=
  ⟨Int64.lt_iff_toInt_lt.mp h.1, fun i => Int32.lt_iff_toInt_lt.mp (h.2 i)⟩

/-- Messages that are taken out leave the clocks in order. -/
theorem Relogio.menos {s : Sistema ι} (h : Relogio s) {l m : List (ι × Datagrama)}
    (hl : ∀ x ∈ l, x ∈ s.paraServidor) (hm : ∀ x ∈ m, x ∈ s.paraClientes) :
    Relogio { s with paraServidor := l, paraClientes := m } where
  servidor := h.servidor
  cliente := h.cliente
  mensagem x hx := h.mensagem x (hl x hx)
  pedido x hx := h.pedido x (hl x hx)
  espera := h.espera
  allow x hx := h.allow x (hm x hx)

/-- A message with the clock of its client. -/
theorem Relogio.manda {s : Sistema ι} (h : Relogio s) {i : ι} {d : Datagrama}
    (hd : d.conteudo.tempo.toInt = (s.clientes i).TEMPO.toInt) :
    Relogio { s with paraServidor := s.paraServidor ++ [(i, d)] } where
  servidor := h.servidor
  cliente := h.cliente
  mensagem x hx := by
    rcases List.mem_append.mp hx with hx | hx
    · exact h.mensagem x hx
    · rw [List.mem_singleton.mp hx]
      exact ⟨hd ▸ h.cliente i, le_of_eq hd⟩
  pedido x hx hc := by
    rcases List.mem_append.mp hx with hx | hx
    · exact h.pedido x hx hc
    · rw [List.mem_singleton.mp hx]
      exact hd
  espera := h.espera
  allow := h.allow

/-- A client with no request fills in a message: its clock goes one step on. -/
theorem preencheReq_tempo {s : Sistema ι} (h : Relogio s) (hb : SemEstouro s) (i : ι) (cod : Int8)
    (r : Int32) {c : Cliente} (hc : c.TEMPO = (s.clientes i).TEMPO) :
    ((c.preencheReq cod r).req.tempo).toInt = (c.preencheReq cod r).TEMPO.toInt ∧
      (s.clientes i).TEMPO.toInt ≤ (c.preencheReq cod r).TEMPO.toInt := by
  have h0 := h.cliente i
  have hlt := (semEstouro_toInt hb).2 i
  have hsoma := succ_toInt32 h0 (by omega)
  have hselo := proximo_toInt h0 hlt
  unfold Cliente.preencheReq
  simp only [hc]
  refine ⟨?_, ?_⟩
  · omega
  · omega

/-- The server that has taken a message in is ahead of its own clock, and of
the stamp. -/
theorem recebe_tempo {s : Sistema ι} (h : Relogio s) (hb : SemEstouro s) {k : Nat} {i : ι}
    {d : Datagrama} (hk : s.paraServidor[k]? = some (i, d))
    (hreq : (recebe s.servidor d.dados).req = d.conteudo) :
    s.servidor.TEMPO.toInt < (recebe s.servidor d.dados).TEMPO.toInt ∧
      d.conteudo.tempo.toInt < (recebe s.servidor d.dados).TEMPO.toInt ∧
      (recebe s.servidor d.dados).TEMPO.toInt ≤ 2147483646 := by
  obtain ⟨hsrv, hcli⟩ := semEstouro_toInt hb
  obtain ⟨h0, hle⟩ := h.mensagem _ (List.mem_of_getElem? hk)
  simp only at h0 hle
  have hlt : d.conteudo.tempo.toInt < 2147483646 := lt_of_le_of_lt hle (hcli i)
  have htempo : (recebe s.servidor d.dados).TEMPO = marcaTempo s.servidor.TEMPO d.conteudo.tempo :=
    congrArg (fun r => marcaTempo s.servidor.TEMPO (Request.tempo r)) hreq
  rw [htempo, marcaTempo_toInt h.servidor hsrv hlt]
  omega

/-- The turn of the server behind its ACK. -/
theorem Relogio.serve {s : Sistema ι} (hr : Relogio s) (hb : SemEstouro s) {k : Nat} {i : ι}
    {d : Datagrama} {amb : Ambiente ι} (hk : s.paraServidor[k]? = some (i, d))
    (hreq : (recebe s.servidor d.dados).req = d.conteudo) {srv : Servidor ι} {t : List (Evento ι)}
    (ht : Trata (recebe s.servidor d.dados) (amb.entrada i (some d.dados)) srv t)
    (hsrv' : srv.TEMPO.toInt < 2147483646) :
    Relogio { s with
      servidor := srv
      paraServidor := s.paraServidor.eraseIdx k
      paraClientes := s.paraClientes ++
        (i, { conteudo := (recebe s.servidor d.dados).ack, nbytes := sizeofRequest }) ::
          enviados t } := by
  obtain ⟨hmais, hselo, hteto⟩ := recebe_tempo hr hb hk hreq
  have h0 := hr.servidor
  obtain ⟨hfica, henv⟩ := trata_tempo ht (by omega) hteto hsrv'
  have hpedido : (recebe s.servidor d.dados).req.cod = REQUEST_TOKEN →
      (s.clientes i).TEMPO.toInt < (recebe s.servidor d.dados).TEMPO.toInt := by
    intro hc
    rw [hreq] at hc
    have hsel : d.conteudo.tempo.toInt = (s.clientes i).TEMPO.toInt :=
      hr.pedido _ (List.mem_of_getElem? hk) hc
    omega
  refine ⟨?_, hr.cliente, ?_, ?_, ?_, ?_⟩
  · simp only
    omega
  · exact forall_eraseIdx hr.mensagem k
  · exact forall_eraseIdx hr.pedido k
  · intro w hw
    refine lt_of_lt_of_le ?_ hfica
    rcases trata_entradas ht w hw with hw | ⟨hc, rfl⟩
    · exact lt_trans (hr.espera w hw) hmais
    · exact hpedido hc
  · intro x hx hc
    rcases List.mem_append.mp hx with hx | hx
    · exact hr.allow x hx hc
    · rcases List.mem_cons.mp hx with rfl | hx
      · exact absurd hc (by simp [recebe, ACK, REPLY_ALLOW])
      · obtain ⟨hsel, hquem⟩ := henv x hx
        rw [hsel]
        have hatras : (s.clientes x.1).TEMPO.toInt < (recebe s.servidor d.dados).TEMPO.toInt := by
          rcases hquem with ⟨hc, hi⟩ | ⟨w, hw, hi⟩
          · rw [hi]
            exact hpedido hc
          · rw [← hi]
            exact lt_trans (hr.espera w hw) hmais
        exact Int.add_lt_add_right hatras 1

variable [DecidableEq ι]

/-- The clock of a client with no request moves on. -/
theorem Relogio.avanca {s : Sistema ι} (h : Relogio s) {i : ι} {c : Cliente}
    (hped : ∀ x ∈ s.paraServidor, x.1 = i → x.2.conteudo.cod ≠ REQUEST_TOKEN)
    (hfila : ∀ w ∈ s.servidor.fila.head, w.dados.caddr ≠ i)
    (hallow : ∀ x ∈ s.paraClientes, x.1 = i → x.2.conteudo.cod ≠ REPLY_ALLOW)
    (hc : (s.clientes i).TEMPO.toInt ≤ c.TEMPO.toInt) :
    Relogio { s with clientes := Function.update s.clientes i c } := by
  have hoff : ∀ j, j ≠ i → Function.update s.clientes i c j = s.clientes j :=
    fun j hj => Function.update_of_ne hj _ _
  have hmais : ∀ j, (s.clientes j).TEMPO.toInt ≤
      (Function.update s.clientes i c j).TEMPO.toInt := by
    intro j
    by_cases hj : j = i
    · subst hj
      rw [Function.update_self]
      exact hc
    · rw [hoff j hj]
  refine ⟨h.servidor, fun j => le_trans (h.cliente j) (hmais j), ?_, ?_, ?_, ?_⟩
  · intro x hx
    exact ⟨(h.mensagem x hx).1, le_trans (h.mensagem x hx).2 (hmais x.1)⟩
  · intro x hx hreq
    simp only [hoff x.1 fun hj => hped x hx hj hreq]
    exact h.pedido x hx hreq
  · intro w hw
    simp only [hoff _ (hfila w hw)]
    exact h.espera w hw
  · intro x hx hrep
    simp only [hoff x.1 fun hj => hallow x hx hj hrep]
    exact h.allow x hx hrep

/-- A client whose clock stands still. -/
theorem Relogio.parado {s : Sistema ι} (h : Relogio s) (i : ι) {c : Cliente}
    (hc : c.TEMPO = (s.clientes i).TEMPO) :
    Relogio { s with clientes := Function.update s.clientes i c } := by
  have hmesmo := update_keeps (g := Cliente.TEMPO) hc
  refine ⟨h.servidor, ?_, ?_, ?_, ?_, ?_⟩
  · simpa only [hmesmo] using h.cliente
  · simpa only [hmesmo] using h.mensagem
  · simpa only [hmesmo] using h.pedido
  · simpa only [hmesmo] using h.espera
  · simpa only [hmesmo] using h.allow

/-- Clocks that no bound stops stay in order. -/
theorem passo_relogio {pid : ι → Int32} {s s' : Sistema ι} {a : Acao ι} {t : List (Evento ι)}
    (h : Ordeiro pid s) (hr : Relogio s) (hb : SemEstouro s) (hb' : SemEstouro s')
    (hp : Passo s a s' t) : Relogio s' := by
  have hordem := passo_ordeiro h hp
  obtain ⟨hsrv, hcli⟩ := semEstouro_toInt hb
  obtain ⟨hsrv', -⟩ := semEstouro_toInt hb'
  cases hp with
  | pede i ns hf hn c hc =>
    obtain ⟨h1, h2, h3⟩ := h.sem_pedido (i := i) (by rw [hf]; rfl)
    subst hc
    obtain ⟨hsel, hmais⟩ := preencheReq_tempo hr hb i REQUEST_TOKEN (-1) rfl
    refine (hr.avanca h1 h2 h3 ?_).manda ?_
    · exact hmais
    · simp only [Function.update_self]
      exact hsel
  | pedeFalha i ns hf hn c hc =>
    obtain ⟨h1, h2, h3⟩ := h.sem_pedido (i := i) (by rw [hf]; rfl)
    subst hc
    exact hr.avanca h1 h2 h3 (preencheReq_tempo hr hb i REQUEST_TOKEN (-1) rfl).2
  | devolve i ns hf hn c resp hc f hfim =>
    obtain ⟨h1, h2, h3⟩ := h.sem_pedido (i := i) (by rw [hf]; rfl)
    obtain ⟨hsel, hmais⟩ := preencheReq_tempo hr hb i RELEASE_TOKEN
      ((s.clientes i).resp.recurso + 1) (c := { s.clientes i with resp }) rfl
    rw [← hc] at hsel hmais
    refine (hr.avanca h1 h2 h3 ?_).manda ?_
    · exact hmais
    · simp only [Function.update_self]
      exact hsel
  | devolveFalha i ns hf hn c resp hc =>
    obtain ⟨h1, h2, h3⟩ := h.sem_pedido (i := i) (by rw [hf]; rfl)
    have hmais := (preencheReq_tempo hr hb i RELEASE_TOKEN ((s.clientes i).resp.recurso + 1)
      (c := { s.clientes i with resp }) rfl).2
    rw [← hc] at hmais
    exact hr.avanca h1 h2 h3 hmais
  | ack k i d hk hf hc =>
    have hmenos := hr.menos (m := s.paraClientes.eraseIdx k) (fun x hx => hx)
      (fun x hx => List.mem_of_mem_eraseIdx hx)
    refine hmenos.parado i ?_
    rfl
  | allow k i d hk hf hc resp hrp =>
    -- behind this REPLY_ALLOW the client has no request, so its clock may move
    obtain ⟨h1, h2, h3⟩ := hordem.sem_pedido (i := i) (by simp only [Function.update_self]; rfl)
    have hmenos := hr.menos (m := s.paraClientes.eraseIdx k) (fun x hx => hx)
      (fun x hx => List.mem_of_mem_eraseIdx hx)
    refine hmenos.avanca h1 h2 h3 ?_
    have hmais := proximo_toInt (hr.cliente i) (hcli i)
    simp only
    omega
  | recvFalha i hf => exact hr.parado i rfl
  | ackFalha k amb i d hk hv hn hreq =>
    have hmais := (recebe_tempo hr hb hk hreq).1
    refine ⟨?_, hr.cliente, ?_, ?_, ?_, hr.allow⟩
    · exact le_trans hr.servidor (le_of_lt hmais)
    · exact forall_eraseIdx hr.mensagem k
    · exact forall_eraseIdx hr.pedido k
    · exact fun w hw => lt_trans (hr.espera w hw) hmais
  | serve k amb i d hk hv hn hreq srv t ht => exact hr.serve hb hk hreq ht hsrv'
  | servidorFalha hv => exact ⟨hr.servidor, hr.cliente, hr.mensagem, hr.pedido, hr.espera, hr.allow⟩
  | perdeServidor k x hk =>
    exact hr.menos (fun x hx => List.mem_of_mem_eraseIdx hx) (fun x hx => hx)
  | perdeCliente k x hk =>
    exact hr.menos (fun x hx => hx) (fun x hx => List.mem_of_mem_eraseIdx hx)

theorem sistema_relogio {c : Config ι} {as : List (Acao ι)} {s : Sistema ι}
    {t : List (Evento ι)} (hb : (sistema ι).Always SemEstouro (Sistema.inicio c) as)
    (hr : (sistema ι).run (Sistema.inicio c) as = some (s, t)) :
    Ordeiro c.pid s ∧ Relogio s := by
  apply run_state_invariant_always _ _ hb hr
  · exact ⟨inicio_ordeiro c, inicio_relogio c⟩
  · rintro u a v e ⟨hu, hrel⟩ hbu hbv hs
    have hp := passo_cases hu.toHonesto hs
    exact ⟨passo_ordeiro hu hp, passo_relogio hu hrel hbu hbv hp⟩

/-! ## The clock condition -/

end lab2
