-- The clock of a client of LAB2-NETKIT. It goes three steps on in a round, and
-- only the step at the REPLY_ALLOW keeps its remainder: the REQUEST_TOKEN and
-- the RELEASE_TOKEN reduce the copy that they send.
import ExclusaoMutua.Lab2.Relogio

open fila in_flight machine signed_order

namespace lab2

variable {ι : Type}

/-! ## The clock in a round -/

/-- `++TEMPO` does not overflow. -/
def SomaCabe (TEMPO : Int32) : Prop := (TEMPO + 1).toInt = TEMPO.toInt + 1

/-- The stamp of a datagram lies between 0 and `INT_MAX - 1`. -/
def SeloCerto (d : Datagrama) : Prop := 0 ≤ d.conteudo.tempo ∧ d.conteudo.tempo ≤ INT_MAX - 1

/-- The number of rounds below `INT_MAX`, which is 3 * 715827882 + 1. -/
def rodadasSemEstouro : Nat := 715827882

/-- The clock of a client that has got `n` REPLY_ALLOW. -/
def Compasso (c : Cliente) (n : Nat) : Prop :=
  match c.fase with
  | .pede => c.TEMPO.toInt = 3 * n
  | .espera => c.TEMPO.toInt = 3 * n + 1
  | .regiao => c.TEMPO.toInt + 1 = 3 * n
  | .fim => True

theorem somaCabe_iff {T : Int32} : SomaCabe T ↔ T.toInt < 2147483647 := by
  unfold SomaCabe
  have hchao : -2147483648 ≤ T.toInt := T.le_toInt
  have hteto : T.toInt < 2147483648 := T.toInt_lt
  rw [Int32.toInt_add, show (1 : Int32).toInt = 1 by decide]
  constructor
  · intro h
    by_contra hge
    rw [show T.toInt = 2147483647 by omega] at h
    exact absurd h (by decide)
  · intro h
    exact Int.bmod_eq_of_le (by omega) (by omega)

/-- A stamp is a remainder of `INT_MAX`. -/
theorem resto_certo {T : Int32} (h0 : 0 ≤ T.toInt) :
    0 ≤ T % INT_MAX ∧ T % INT_MAX ≤ INT_MAX - 1 := by
  have hmod : (T % INT_MAX).toInt = T.toInt % 2147483647 := by
    rw [Int32.toInt_mod, INT_MAX_toInt, Int.tmod_eq_emod_of_nonneg h0]
  rw [Int32.le_iff_toInt_le, Int32.le_iff_toInt_le, hmod, show (0 : Int32).toInt = 0 by decide,
    show (INT_MAX - 1).toInt = 2147483646 by decide]
  omega

theorem pede_selo {c : Cliente} {ns : Int32} {d : Datagrama} (hd : d ∈ (c.pede ns).2) :
    d.conteudo.tempo = (c.TEMPO + 1) % INT_MAX := by
  unfold Cliente.pede at hd
  simp only at hd
  split at hd
  · cases hd
  · rw [List.mem_singleton.mp hd]
    rfl

theorem devolve_selo {c : Cliente} {ns : Int32} {d : Datagrama} (hd : d ∈ (c.devolve ns).2) :
    d.conteudo.tempo = (c.TEMPO + 1) % INT_MAX := by
  unfold Cliente.devolve at hd
  simp only at hd
  split at hd
  · cases hd
  · rw [List.mem_singleton.mp hd]
    rfl

/-- Out of its inner loop the client has room for one step more. -/
theorem envio_certo {c : Cliente} {n : Nat} (h : Compasso c n) (hn : n ≤ rodadasSemEstouro)
    (hf : c.fase = .pede ∨ c.fase = .regiao) :
    SomaCabe c.TEMPO ∧ 0 ≤ (c.TEMPO + 1) % INT_MAX ∧ (c.TEMPO + 1) % INT_MAX ≤ INT_MAX - 1 := by
  unfold Compasso rodadasSemEstouro at *
  have hmenor : -1 ≤ c.TEMPO.toInt ∧ c.TEMPO.toInt < 2147483647 := by
    rcases hf with hf | hf
    · rw [hf] at h
      simp only at h
      omega
    · rw [hf] at h
      simp only at h
      omega
  have hsoma := somaCabe_iff.mpr hmenor.2
  refine ⟨hsoma, resto_certo ?_⟩
  rw [hsoma]
  omega

/-! ## One step -/

/-- The answer that a client reads has the `cod` that the server wrote. -/
theorem cod_resposta {pid : ι → Int32} {s : Sistema ι} (h : Honesto pid s) {x : ι × Datagrama}
    (hx : x ∈ s.paraClientes) (buf : Request) :
    (recvfrom buf x.2.dados).cod = x.2.conteudo.cod := by
  rcases h.respostas x hx with ⟨hd, -, -⟩ | ⟨hd, -⟩
  · rw [recvfrom_inteiro buf hd]
  · unfold Datagrama.dados
    rw [hd, recvfrom_rep]

variable [DecidableEq ι]

/-- The step hands a REPLY_ALLOW to client `i`. -/
def entregaAllow (i : ι) (s : Sistema ι) : Acao ι → Bool
  | .chega k => s.paraClientes[k]?.any fun x => x.1 = i ∧ ehAllow x
  | _ => false

theorem entregaAllow_ack {s : Sistema ι} {k : Nat} {j : ι} {d : Datagrama}
    (hk : s.paraClientes[k]? = some (j, d)) (hc : d.conteudo.cod = ACK) (i : ι) :
    entregaAllow i s (.chega k) = false := by
  unfold entregaAllow
  simp [hk, ehAllow, hc, ACK, REPLY_ALLOW]

theorem entregaAllow_allow {s : Sistema ι} {k : Nat} {j : ι} {d : Datagrama}
    (hk : s.paraClientes[k]? = some (j, d)) (hc : d.conteudo.cod = REPLY_ALLOW) (i : ι) :
    entregaAllow i s (.chega k) = decide (j = i) := by
  unfold entregaAllow
  simp [hk, ehAllow, hc]

/-- What client `i` computes with its clock in the step is exact, and what it
sends carries a stamp in range. -/
def ContaCerto (i : ι) (s : Sistema ι) : Acao ι → Prop
  | .pede j ns =>
    j = i → SomaCabe (s.clientes i).TEMPO ∧ ∀ d ∈ ((s.clientes i).pede ns).2, SeloCerto d
  | .devolve j ns =>
    j = i → SomaCabe (s.clientes i).TEMPO ∧ ∀ d ∈ ((s.clientes i).devolve ns).2, SeloCerto d
  | .chega k => ∀ x, s.paraClientes[k]? = some x → x.1 = i →
      (recvfrom (s.clientes i).resp x.2.dados).cod = REPLY_ALLOW → SomaCabe (s.clientes i).TEMPO
  | _ => True

theorem compasso_update {f : ι → Cliente} {i j : ι} {c : Cliente} {n : Nat}
    (hc : j = i → Compasso c n) (h : j ≠ i → Compasso (f i) n) :
    Compasso (Function.update f j c i) n := by
  by_cases hj : j = i
  · subst hj
    rw [Function.update_self]
    exact hc rfl
  · rw [Function.update_of_ne (Ne.symm hj)]
    exact h hj

/-- A step of the client goes on with the beat while it has got no more than
`rodadasSemEstouro` tokens. -/
theorem passo_compasso {s s' : Sistema ι} {a : Acao ι} {t : List (Evento ι)} (hp : Passo s a s' t)
    {i : ι} {n : Nat} (h : Compasso (s.clientes i) n)
    (hn : n + (entregaAllow i s a).toNat ≤ rodadasSemEstouro) :
    Compasso (s'.clientes i) (n + (entregaAllow i s a).toNat) := by
  cases hp with
  | pede j ns hf hns c hc =>
    refine compasso_update (fun hj => ?_) fun _ => h
    subst hj hc
    have hsoma := (envio_certo h (by omega) (Or.inl hf)).1
    unfold Compasso at h ⊢
    rw [hf] at h
    exact hsoma.trans (by rw [h]; rfl)
  | devolve j ns hf hns c resp hc f hfim =>
    refine compasso_update (fun hj => ?_) fun _ => h
    subst hj hc
    have hsoma := (envio_certo h (by omega) (Or.inr hf)).1
    unfold Compasso at h ⊢
    rw [hf] at h
    rcases hfim with rfl | rfl
    · trivial
    · exact hsoma.trans h
  | pedeFalha j | devolveFalha j | recvFalha j =>
    exact compasso_update (fun _ => trivial) fun _ => h
  | ack k j d hk hf hc =>
    rw [entregaAllow_ack hk hc]
    refine compasso_update (fun hj => ?_) fun _ => h
    subst hj
    exact h
  | allow k j d hk hf hc resp hr =>
    rw [entregaAllow_allow hk hc] at hn ⊢
    refine compasso_update (fun hj => ?_) fun hj => ?_
    · subst hj
      simp only [decide_true, Bool.toNat_true] at hn ⊢
      unfold Compasso rodadasSemEstouro at *
      rw [hf] at h
      simp only at h ⊢
      rw [proximo_toInt (by omega) (by omega)]
      push_cast
      omega
    · simp only [hj, decide_false, Bool.toNat_false]
      exact h
  | ackFalha | serve | servidorFalha | perdeServidor | perdeCliente => exact h

/-- The step is exact exactly when it does not hand out one token too many. -/
theorem passo_certo {pid : ι → Int32} {s s' : Sistema ι} {a : Acao ι} {t : List (Evento ι)}
    (hh : Honesto pid s) (hp : Passo s a s' t) {i : ι} {n : Nat} (h : Compasso (s.clientes i) n)
    (hn : n ≤ rodadasSemEstouro) :
    ContaCerto i s a ↔ n + (entregaAllow i s a).toNat ≤ rodadasSemEstouro := by
  cases hp with
  | pede j ns hf | pedeFalha j ns hf =>
    refine iff_of_true ?_ hn
    rintro rfl
    obtain ⟨hsoma, hselo⟩ := envio_certo h hn (Or.inl hf)
    refine ⟨hsoma, fun d hd => ?_⟩
    unfold SeloCerto
    rw [pede_selo hd]
    exact hselo
  | devolve j ns hf | devolveFalha j ns hf =>
    refine iff_of_true ?_ hn
    rintro rfl
    obtain ⟨hsoma, hselo⟩ := envio_certo h hn (Or.inr hf)
    refine ⟨hsoma, fun d hd => ?_⟩
    unfold SeloCerto
    rw [devolve_selo hd]
    exact hselo
  | ack k j d hk hf hc =>
    have hcod := cod_resposta hh (List.mem_of_getElem? hk) (s.clientes i).resp
    rw [hc] at hcod
    rw [entregaAllow_ack hk hc]
    refine iff_of_true ?_ hn
    intro x hx hi hallow
    rw [hk, Option.some.injEq] at hx
    subst hx
    exact absurd (hcod.symm.trans hallow) (by decide)
  | allow k j d hk hf hc =>
    have hcod := cod_resposta hh (List.mem_of_getElem? hk) (s.clientes i).resp
    rw [hc] at hcod
    rw [entregaAllow_allow hk hc]
    by_cases hj : j = i
    · subst hj
      have hsoma : ContaCerto j s (.chega k) ↔ SomaCabe (s.clientes j).TEMPO := by
        unfold ContaCerto
        simp [hk, hcod]
      rw [hsoma, somaCabe_iff]
      unfold Compasso rodadasSemEstouro at *
      rw [hf] at h
      simp only [decide_true, Bool.toNat_true] at h hn ⊢
      omega
    · refine iff_of_true ?_ ?_
      · intro x hx hi
        rw [hk, Option.some.injEq] at hx
        subst hx
        exact absurd hi hj
      · simp only [hj, decide_false, Bool.toNat_false]
        exact hn
  | recvFalha | ackFalha | serve | servidorFalha | perdeServidor | perdeCliente =>
    exact iff_of_true trivial hn

/-! ## Every run -/

/-- In every run no `++TEMPO` of client `i` overflows, and the stamps that it
sends lie between 0 and `INT_MAX - 1`, exactly when it gets no more than
`rodadasSemEstouro` REPLY_ALLOW. The next one finds its clock at `INT_MAX`: the
REQUEST_TOKEN has reduced the stamp and not the clock. -/
theorem a_clock_stays_in_int_iff_its_client_gets_no_more_than_715827882_tokens {c : Config ι}
    {as : List (Acao ι)} {s : Sistema ι} {t : List (Evento ι)}
    (hr : (sistema ι).run (Sistema.inicio c) as = some (s, t)) (i : ι) :
    (sistema ι).Along (fun u _ a => ContaCerto i u a) (Sistema.inicio c) as ↔
      (sistema ι).count (entregaAllow i) (Sistema.inicio c) as ≤ rodadasSemEstouro := by
  apply along_iff_count (I := fun u n => Honesto c.pid u ∧ Compasso (u.clientes i) n) _ _ _ hr
  · exact ⟨inicio_honesto c, show (0 : Int32).toInt = 3 * ((0 : Nat) : Int) by decide⟩
  · rintro u n a v e ⟨hh, h⟩ hn hs
    have hp : Passo u a v e := passo_cases hh hs
    exact ⟨passo_honesto hh hp, passo_compasso hp h hn⟩
  · rintro u t n a v e ⟨hh, h⟩ hn hs
    exact passo_certo hh (passo_cases hh hs) h hn

theorem the_clock_of_the_first_of_two_clients_stays_in_int : ∃ s t,
    (sistema (Fin 2)).run (Sistema.inicio (comPids ![7, 8])) (doisClientes 0 1) = some (s, t) ∧
      (sistema (Fin 2)).Along (fun u _ a => ContaCerto 0 u a) (Sistema.inicio (comPids ![7, 8]))
        (doisClientes 0 1) := by
  obtain ⟨s, t, h, -⟩ : ∃ s t, (sistema (Fin 2)).run (Sistema.inicio (comPids ![7, 8]))
      (doisClientes 0 1) = some (s, t) ∧ True := exists_run (by decide)
  refine ⟨s, t, h, ?_⟩
  apply (a_clock_stays_in_int_iff_its_client_gets_no_more_than_715827882_tokens h 0).mpr
  have huma : (sistema (Fin 2)).count (entregaAllow 0) (Sistema.inicio (comPids ![7, 8]))
      (doisClientes 0 1) = 1 := by decide
  rw [huma]
  decide

/-! ## A client alone -/

/-- The only client has PID 1, phase `f` and clock `T`. Nobody waits in the
queue, and `ps` and `pc` are the datagrams in flight. -/
structure So (s : Sistema Unit) (f : Fase) (T : Int32) (flag : Int8)
    (ps pc : List (Unit × Datagrama)) : Prop where
  fase : (s.clientes ()).fase = f
  pid : (s.clientes ()).PID = 1
  tempo : (s.clientes ()).TEMPO = T
  vivo : s.servidor.vivo = true
  vazia : s.servidor.fila.tamanho = 0
  flag : s.servidor.Token.flag = flag
  paraServidor : s.paraServidor = ps
  paraClientes : s.paraClientes = pc

/-- A whole datagram with the PID of the client. -/
structure Comum (cod : Int8) (d : Datagrama) : Prop where
  inteiro : d.Inteiro
  cod : d.conteudo.cod = cod
  pid : d.conteudo.PID = 1

section

variable {s : Sistema Unit} {f : Fase} {T : Int32} {flag : Int8} {pc : List (Unit × Datagrama)}

theorem So.pede (h : So s .pede T flag [] pc) : ∃ u t d,
    (sistema Unit).step s (.pede () 16) = some (u, t) ∧ Comum REQUEST_TOKEN d ∧
      So u .espera (T + 1) flag [((), d)] pc := by
  obtain ⟨hf, hp, rfl, hv, hvazia, hflag, hps, hpc⟩ := h
  refine ⟨_, _, ⟨((s.clientes ()).preencheReq REQUEST_TOKEN (-1)).req, sizeofRequest⟩, if_pos hf,
    ⟨rfl, rfl, hp⟩, rfl, hp, rfl, hv, hvazia, hflag, ?_, hpc⟩
  unfold Sistema.comCliente
  rw [hps]
  rfl

theorem So.devolve (h : So s .regiao T flag [] pc) : ∃ u t d,
    (sistema Unit).step s (.devolve () 16) = some (u, t) ∧ Comum RELEASE_TOKEN d ∧
      So u .pede (T + 1) flag [((), d)] pc := by
  obtain ⟨hf, hp, rfl, hv, hvazia, hflag, hps, hpc⟩ := h
  have hpid : (s.clientes ()).PID ≠ 0 := by
    rw [hp]
    decide
  refine ⟨_, _, ⟨((s.clientes ()).preencheReq RELEASE_TOKEN
    ((s.clientes ()).resp.recurso + 1)).req, sizeofRequest⟩, if_pos hf,
    ⟨rfl, rfl, hp⟩, if_neg hpid, hp, rfl, hv, hvazia, hflag, ?_, hpc⟩
  unfold Sistema.comCliente
  rw [hps]
  rfl

/-- The server grants a free token to the client that asks. -/
theorem trata_concede {A : Type} {s : Servidor A} {e : Entrada A} (hc : s.req.cod = REQUEST_TOKEN)
    (hf : s.Token.flag = -1) (hn : 0 ≤ e.nsRep) :
    trata s e = (preencheRep s s.req.PID,
      [.envia e.origem ⟨(preencheRep s s.req.PID).rep, sizeofRep⟩]) := by
  unfold trata trataRequest enviaRep
  rw [if_pos hc, if_pos hf, if_neg (not_lt.mpr hn)]

/-- The server takes the token back while nobody waits. -/
theorem trata_libera {A : Type} {s : Servidor A} (hc : s.req.cod = RELEASE_TOKEN)
    (hvazia : s.fila.tamanho = 0) (e : Entrada A) :
    trata s e = ({ s with Token := { valor := s.req.recurso, flag := -1 } }, []) := by
  unfold trata trataRelease
  rw [hc, if_neg (by decide), if_pos rfl]
  exact if_pos hvazia

/-- The server takes the only datagram in flight and sends an ACK, and then
what the test of `req->cod` sends. -/
theorem So.serve {d : Datagrama} (h : So s f T flag [((), d)] pc) {cod : Int8} (hd : Comum cod d)
    {srv : Servidor Unit} {t : List (Evento Unit)}
    (ht : trata (recebe s.servidor d.dados) ((bemServida ()).entrada () (some d.dados)) = (srv, t))
    (hv : srv.vivo = true) (hvazia : srv.fila.tamanho = 0) : ∃ u t' a,
    (sistema Unit).step s (.serve 0 (bemServida ())) = some (u, t') ∧ Comum ACK a ∧
      So u f T srv.Token.flag [] (pc ++ ((), a) :: enviados t) := by
  obtain ⟨hf, hp, rfl, hvivo, -, -, hps, hpc⟩ := h
  have hreq : (recebe s.servidor d.dados).req = d.conteudo := recvfrom_inteiro _ hd.inteiro
  have hvolta : volta s.servidor ((bemServida ()).entrada () (some d.dados)) = (srv,
      .envia (Origem.de ())
          { conteudo := (recebe s.servidor d.dados).ack, nbytes := sizeofRequest } ::
        .trata (Origem.de ()) (recebe s.servidor d.dados).req :: t) := by
    rw [← show (trata (recebe s.servidor d.dados) _).1 = srv from congrArg Prod.fst ht,
      ← show (trata (recebe s.servidor d.dados) _).2 = t from congrArg Prod.snd ht]
    rfl
  have hstep : ∃ t', (sistema Unit).step s (.serve 0 (bemServida ())) = some ({ s with
      servidor := srv
      paraServidor := []
      paraClientes := pc ++
        ((), ⟨(recebe s.servidor d.dados).ack, sizeofRequest⟩) :: enviados t }, t') := by
    unfold sistema Sistema.passo
    simp only [hps, hpc, hvivo, hvolta, List.getElem?_cons_zero, if_true]
    exact ⟨_, rfl⟩
  obtain ⟨t', hstep⟩ := hstep
  refine ⟨_, t', ⟨(recebe s.servidor d.dados).ack, sizeofRequest⟩, hstep, ?_,
    hf, hp, rfl, hv, hvazia, rfl, rfl, rfl⟩
  exact ⟨rfl, rfl, (congrArg Request.PID hreq).trans hd.pid⟩

theorem So.serveRequest {d : Datagrama} (h : So s f T (-1) [((), d)] pc)
    (hd : Comum REQUEST_TOKEN d) : ∃ u t a r,
    (sistema Unit).step s (.serve 0 (bemServida ())) = some (u, t) ∧ Comum ACK a ∧
      r.nbytes = sizeofRep ∧ r.conteudo.cod = REPLY_ALLOW ∧
      So u f T 1 [] (pc ++ [((), a), ((), r)]) := by
  have hreq : (recebe s.servidor d.dados).req = d.conteudo := recvfrom_inteiro _ hd.inteiro
  have hum : (preencheRep (recebe s.servidor d.dados)
      (recebe s.servidor d.dados).req.PID).Token.flag = 1 := by
    rw [hreq]
    exact congrArg Int32.toInt8 hd.pid
  obtain ⟨u, t, a, hstep, ha, hu⟩ := h.serve hd
    (trata_concede (hreq ▸ hd.cod) h.flag (show (0 : Int32) ≤ 8 by decide)) h.vivo h.vazia
  rw [hum] at hu
  refine ⟨u, t, a, _, hstep, ha, ?_, ?_, hu⟩
  · rfl
  · rfl

theorem So.serveRelease {d : Datagrama} (h : So s f T flag [((), d)] pc)
    (hd : Comum RELEASE_TOKEN d) : ∃ u t a,
    (sistema Unit).step s (.serve 0 (bemServida ())) = some (u, t) ∧ Comum ACK a ∧
      So u f T (-1) [] (pc ++ [((), a)]) := by
  have hreq : (recebe s.servidor d.dados).req = d.conteudo := recvfrom_inteiro _ hd.inteiro
  have hvazia : (recebe s.servidor d.dados).fila.tamanho = 0 := h.vazia
  exact h.serve hd (trata_libera (hreq ▸ hd.cod) hvazia _) h.vivo h.vazia

theorem So.chega {d : Datagrama} (h : So s .espera T flag [] (((), d) :: pc)) {c : Cliente}
    (hc : (s.clientes ()).recebe d.dados = c) (hp : c.PID = 1) : ∃ u t,
    (sistema Unit).step s (.chega 0) = some (u, t) ∧ So u c.fase c.TEMPO flag [] pc := by
  obtain ⟨hf, -, -, hv, hvazia, hflag, hps, hpc⟩ := h
  refine ⟨{ s with clientes := Function.update s.clientes () c, paraClientes := pc }, [], ?_,
    ⟨by simp, by simpa using hp, by simp, hv, hvazia, hflag, hps, rfl⟩⟩
  unfold sistema Sistema.passo Sistema.comCliente
  simp [hpc, hf, hc]

theorem So.chegaAck {a : Datagrama} (h : So s .espera T flag [] (((), a) :: pc))
    (ha : Comum ACK a) : ∃ u t,
    (sistema Unit).step s (.chega 0) = some (u, t) ∧ So u .espera T flag [] pc := by
  have hc := recebe_ack (s.clientes ()) ha.inteiro ha.cod (ha.pid.trans h.pid.symm)
  obtain ⟨u, t, hstep, hu⟩ := h.chega hc h.pid
  simp only [h.fase, h.tempo] at hu
  exact ⟨u, t, hstep, hu⟩

theorem So.chegaAllow {r : Datagrama} (h : So s .espera T flag [] (((), r) :: pc))
    (hn : r.nbytes = sizeofRep) (hcod : r.conteudo.cod = REPLY_ALLOW) : ∃ u t,
    (sistema Unit).step s (.chega 0) = some (u, t) ∧
      So u .regiao ((T + 1) % INT_MAX) flag [] pc := by
  have hc := recebe_allow (s.clientes ()) hn hcod
  obtain ⟨u, t, hstep, hu⟩ := h.chega hc h.pid
  simp only [h.tempo] at hu
  exact ⟨u, t, hstep, hu⟩

/-- The client gets the token, gives it back and asks again. -/
def rodada : List (Acao Unit) :=
  [.chega 0, .devolve () 16, .serve 0 (bemServida ()), .pede () 16, .serve 0 (bemServida ()),
    .chega 0, .chega 0]

/-- The client waits, and the next datagram that it gets is a REPLY_ALLOW. -/
def TokenAPorta (s : Sistema Unit) (T : Int32) : Prop :=
  ∃ r, So s .espera T 1 [] [((), r)] ∧ r.nbytes = sizeofRep ∧ r.conteudo.cod = REPLY_ALLOW

theorem rodada_volta (h : TokenAPorta s T) : ∃ u t,
    (sistema Unit).run s rodada = some (u, t) ∧
      TokenAPorta u ((T + 1) % INT_MAX + 1 + 1) := by
  obtain ⟨r, h, hn, hc⟩ := h
  obtain ⟨s₁, t₁, h₁, hs₁⟩ := h.chegaAllow hn hc
  obtain ⟨s₂, t₂, d, h₂, hd, hs₂⟩ := hs₁.devolve
  obtain ⟨s₃, t₃, a, h₃, ha, hs₃⟩ := hs₂.serveRelease hd
  obtain ⟨s₄, t₄, d', h₄, hd', hs₄⟩ := hs₃.pede
  obtain ⟨s₅, t₅, a', r', h₅, ha', hn', hc', hs₅⟩ := hs₄.serveRequest hd'
  obtain ⟨s₆, t₆, h₆, hs₆⟩ := hs₅.chegaAck ha
  obtain ⟨s₇, t₇, h₇, hs₇⟩ := hs₆.chegaAck ha'
  have hr : ∃ t, (sistema Unit).run s rodada = some (s₇, t) := by
    unfold rodada
    simp [Machine.run, h₁, h₂, h₃, h₄, h₅, h₆, h₇]
  obtain ⟨t, hr⟩ := hr
  exact ⟨s₇, t, hr, r', hs₇, hn', hc'⟩

theorem inicio_so (c : Config Unit) (hc : c.pid () = 1) :
    So (Sistema.inicio c) .pede 0 (-1) [] [] := by
  refine ⟨rfl, hc, rfl, rfl, rfl, rfl, rfl, rfl⟩

/-- The first token comes to the client. -/
theorem primeiro_token (c : Config Unit) (hc : c.pid () = 1) : ∃ u t,
    (sistema Unit).run (Sistema.inicio c)
        [.pede () 16, .serve 0 (bemServida ()), .chega 0] = some (u, t) ∧
      TokenAPorta u 1 := by
  obtain ⟨s₁, t₁, d, h₁, hd, hs₁⟩ := (inicio_so c hc).pede
  obtain ⟨s₂, t₂, a, r, h₂, ha, hn, hcod, hs₂⟩ := hs₁.serveRequest hd
  obtain ⟨s₃, t₃, h₃, hs₃⟩ := hs₂.chegaAck ha
  have hr : ∃ t, (sistema Unit).run (Sistema.inicio c)
      [.pede () 16, .serve 0 (bemServida ()), .chega 0] = some (s₃, t) := by
    simp [Machine.run, h₁, h₂, h₃]
  obtain ⟨t, hr⟩ := hr
  exact ⟨s₃, t, hr, r, hs₃, hn, hcod⟩

end

/-- A clock that comes to `INT_MAX`, one round after the other and with nothing
lost. -/
theorem rodadas_ate {n : Nat} (hn : n ≤ rodadasSemEstouro) : ∃ as u t T,
    (sistema Unit).run (Sistema.inicio (comPids fun _ => 1)) as = some (u, t) ∧
      (∀ a ∈ as, a.SemPerda) ∧ TokenAPorta u T ∧ T.toInt = 3 * n + 1 := by
  unfold rodadasSemEstouro at hn
  induction n with
  | zero =>
    obtain ⟨u, t, hr, hu⟩ := primeiro_token (comPids fun _ => 1) rfl
    exact ⟨_, u, t, 1, hr, by decide, hu, by decide⟩
  | succ n ih =>
    obtain ⟨as, u, t, T, hr, has, hu, hT⟩ := ih (by omega)
    obtain ⟨v, t', hr', hv⟩ := rodada_volta hu
    have hrodada : ∀ a ∈ rodada, a.SemPerda := by decide
    refine ⟨as ++ rodada, v, t ++ t', _, run_append.mpr ⟨u, t, t', hr, hr', rfl⟩,
      List.forall_mem_append.mpr ⟨has, hrodada⟩, hv, ?_⟩
    have hallow := proximo_toInt (t := T) (by omega) (by omega)
    have hrelease := succ_toInt32 (x := (T + 1) % INT_MAX) (by omega) (by omega)
    rw [succ_toInt32 (by omega) (by omega)]
    omega

/-- A client alone, with PID 1: behind 715827882 rounds and one more request its
clock is at `INT_MAX`, and the REPLY_ALLOW overflows it. -/
theorem a_token_too_many_overflows_the_clock : ∃ as u t v e,
    (sistema Unit).run (Sistema.inicio (comPids fun _ => 1)) as = some (u, t) ∧
      (∀ a ∈ as, a.SemPerda) ∧ (sistema Unit).step u (.chega 0) = some (v, e) ∧
      ¬ ContaCerto () u (.chega 0) := by
  obtain ⟨as, u, t, T, hr, has, ⟨r, hu, hn, hc⟩, hT⟩ := rodadas_ate (n := rodadasSemEstouro) le_rfl
  obtain ⟨v, e, hstep, -⟩ := hu.chegaAllow hn hc
  refine ⟨as, u, t, v, e, hr, has, hstep, ?_⟩
  intro hconta
  have hcod : (recvfrom (u.clientes ()).resp r.dados).cod = REPLY_ALLOW := by
    unfold Datagrama.dados
    rw [hn, recvfrom_rep, hc]
  have hsoma := hconta ((), r) (by rw [hu.paraClientes]; rfl) rfl hcod
  rw [hu.tempo, somaCabe_iff, hT] at hsoma
  unfold rodadasSemEstouro at hsoma
  omega

end lab2
