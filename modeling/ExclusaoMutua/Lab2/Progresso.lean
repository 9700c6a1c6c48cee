-- What happens in LAB2-NETKIT when nothing fails and there are no more than
-- ten clients. A client that waits has its one request somewhere, the token is
-- somewhere too, so some party can always go on. Each step is paid for by the
-- grants, so nobody that waits in the queue waits for ever.
import Mathlib.Algebra.BigOperators.Group.Finset.Piecewise
import Mathlib.Algebra.Order.BigOperators.Group.Finset
import ExclusaoMutua.Lab2.Justica

open fila in_flight machine

namespace lab2

variable {ι : Type}

/-! ## Steps without a failure -/

/-- Nothing is lost in the step, and no call of the network fails. -/
def Acao.SemFalha : Acao ι → Prop
  | .recvFalha _ => False
  | .servidorFalha => False
  | a => a.SemPerda

instance : (a : Acao ι) → Decidable a.SemFalha
  | .recvFalha _ => .isFalse id
  | .servidorFalha => .isFalse id
  | .pede _ ns => inferInstanceAs (Decidable (0 ≤ ns))
  | .devolve _ ns => inferInstanceAs (Decidable (0 ≤ ns))
  | .chega _ => .isTrue trivial
  | .serve _ amb => inferInstanceAs (Decidable (0 ≤ amb.nsAck ∧ 0 ≤ amb.nsRep))
  | .perdeServidor _ => .isFalse id
  | .perdeCliente _ => .isFalse id

theorem Acao.SemFalha.semPerda {a : Acao ι} (h : a.SemFalha) : a.SemPerda := by
  cases a with
  | recvFalha | servidorFalha => exact h.elim
  | pede | devolve | chega | serve | perdeServidor | perdeCliente => exact h

/-- The step makes no request. -/
def Acao.NaoPede : Acao ι → Prop
  | .pede _ _ => False
  | _ => True

instance : (a : Acao ι) → Decidable a.NaoPede
  | .pede _ _ => .isFalse id
  | .devolve _ _ | .chega _ | .recvFalha _ | .serve _ _ | .servidorFalha | .perdeServidor _
  | .perdeCliente _ => .isTrue trivial

variable [DecidableEq ι]

/-- The requests of client `i` that the server has not granted. -/
def Sistema.abertos (s : Sistema ι) (i : ι) : Nat :=
  s.paraServidor.countP (doPedido i) + s.servidor.fila.head.countP (deCliente i)

theorem pendentes_eq (s : Sistema ι) (i : ι) :
    s.pendentes i = s.abertos i + s.paraClientes.countP (doAllow i) := rfl

/-! ## Room in the queue -/

/-- There is room in the queue for each REQUEST_TOKEN on its way, and its PID
does not wait yet. -/
def Sistema.Cabe (s : Sistema ι) : Prop :=
  ∀ x ∈ s.paraServidor, x.2.conteudo.cod = REQUEST_TOKEN →
    s.servidor.fila.tamanho < s.servidor.fila.N ∧
      x.2.conteudo.PID ∉ s.servidor.fila.head.map Item.PID

/-- With no more than ten clients there is room for all. -/
theorem Ordeiro.cabe [Fintype ι] (hcard : Fintype.card ι ≤ 10) {pid : ι → Int32}
    (hpid : Function.Injective pid) {s : Sistema ι} (h : Ordeiro pid s) : s.Cabe := by
  rintro ⟨i, d⟩ hx hc
  obtain ⟨k, hk⟩ := List.getElem?_of_mem hx
  have hfila := (h.pedido hk hc).2.1
  have hnodup : (i :: s.servidor.fila.head.map fun w => w.dados.caddr).Nodup := by
    rw [List.nodup_cons]
    constructor
    · intro hmem
      obtain ⟨w, hw, hwi⟩ := List.mem_map.mp hmem
      rw [List.filter_eq_nil_iff] at hfila
      exact hfila w hw (by simp [deCliente, hwi])
    · rw [List.nodup_iff_count_le_one]
      intro j
      rw [List.count, List.countP_map]
      refine le_trans (le_of_eq ?_) (h.entradas_le_one j)
      apply List.countP_congr
      intro w _
      simp [deCliente]
  have hlen := hnodup.length_le_card
  rw [List.length_cons, List.length_map] at hlen
  have htam := h.bom.valida.tam
  have hdez := h.bom.dez
  refine ⟨by omega, ?_⟩
  intro hmem
  obtain ⟨w, hw, hwp⟩ := List.mem_map.mp hmem
  have hwi : pid w.dados.caddr = pid i := by
    rw [← (h.entradas w hw).1, hwp]
    exact (h.pedidos _ hx).2.1
  rw [List.filter_eq_nil_iff] at hfila
  exact hfila w hw (by simpa [deCliente] using hpid hwi)

/-! ## One step -/

/-- The step is a REQUEST_TOKEN of client `i`. -/
def pedeDe (i : ι) : Acao ι → Bool
  | .pede j _ => j = i
  | _ => false

/-- Whether a client in the phase `f` has a request, as a number. -/
def Fase.pedido (f : Fase) : Nat := if f = .espera then 1 else 0

theorem pedido_update {f : ι → Cliente} {i j : ι} {c : Cliente} {n m : Nat}
    (hi : j = i → c.fase.pedido + n = (f i).fase.pedido + m)
    (hj : j ≠ i → (f j).fase.pedido + n = (f j).fase.pedido + m) :
    (Function.update f i c j).fase.pedido + n = (f j).fase.pedido + m := by
  by_cases h : j = i
  · subst h
    rw [Function.update_self]
    exact hi rfl
  · rw [Function.update_of_ne h]
    exact hj h

/-- A client comes into its inner loop with its REQUEST_TOKEN, and leaves it with
a REPLY_ALLOW. -/
theorem passo_fase {s s' : Sistema ι} {a : Acao ι} {e : List (Evento ι)} (hp : Passo s a s' e)
    (ha : a.SemFalha) (j : ι) :
    (s'.clientes j).fase.pedido + (entregaAllow j s a).toNat =
      (s.clientes j).fase.pedido + (pedeDe j a).toNat := by
  unfold pedeDe
  cases hp with
  | pede i ns hf hn c hc =>
    refine pedido_update (fun hj => ?_) fun hj => ?_
    · subst hj
      rw [hf]
      simp [Fase.pedido, entregaAllow]
    · simp [entregaAllow, Ne.symm hj]
  | devolve i ns hf hn c resp hc f hfim =>
    refine pedido_update (fun hj => ?_) fun hj => rfl
    subst hj
    rw [hf]
    rcases hfim with rfl | rfl
    · rfl
    · rfl
  | ack k i d hk hf hc =>
    rw [entregaAllow_ack hk hc]
    exact pedido_update (fun hj => by subst hj; rfl) fun hj => rfl
  | allow k i d hk hf hc resp hr =>
    rw [entregaAllow_allow hk hc]
    refine pedido_update (fun hj => ?_) fun hj => ?_
    · subst hj
      rw [hf]
      simp [Fase.pedido]
    · simp [Ne.symm hj]
  | pedeFalha i ns hf hn | devolveFalha i ns hf hn => exact absurd hn (not_lt.mpr ha)
  | recvFalha | servidorFalha | perdeServidor | perdeCliente => exact ha.elim
  | ackFalha | serve => rfl

/-- A client whose PID is not 0 goes on to its next request. -/
theorem devolve_pede {s s' : Sistema ι} {i : ι} {ns : Int32} {e : List (Evento ι)}
    (hs : s.passo (.devolve i ns) = some (s', e)) (hn : 0 ≤ ns)
    (hpid : (s.clientes i).PID ≠ 0) : (s'.clientes i).fase = .pede := by
  unfold Sistema.passo Cliente.devolve at hs
  dsimp only at hs
  split at hs
  · rw [if_neg (not_lt.mpr hn), Option.some.injEq, Prod.mk.injEq] at hs
    rw [← hs.1]
    unfold Sistema.comCliente
    simp [Cliente.preencheReq, hpid]
  · cases hs

/-- When its answer goes out and the queue has room, the test of `req->cod`
takes each request on to one place. -/
theorem trata_conserva {s s' : Servidor ι} {e : Entrada ι} {t : List (Evento ι)}
    (ht : Trata s e s' t) (hn : 0 ≤ e.nsRep)
    (hcabe : s.req.cod = REQUEST_TOKEN →
      s.fila.tamanho < s.fila.N ∧ s.req.PID ∉ s.fila.head.map Item.PID) (j : ι) :
    s'.fila.head.countP (deCliente j) + (enviados t).countP (doAllow j) =
      s.fila.head.countP (deCliente j) +
        if e.origem.caddr = j ∧ s.req.cod = REQUEST_TOKEN then 1 else 0 := by
  cases ht with
  | concede hc hf hrep => simp [doAllow, preencheRep, hc, List.countP_cons]
  | enfileira hc hf hcabe hnov => simp [countP_colocada, deCliente, hc]
  | recusa hc hf hnao => exact absurd (hcabe hc) hnao
  | libera hc hv =>
    rw [hc]
    simp [RELEASE_TOKEN, REQUEST_TOKEN]
  | passa hc aux resto hh hrep s' hs =>
    subst hs
    unfold doAllow
    simp [preencheRep, hh, List.countP_cons, deCliente, hc, RELEASE_TOKEN, REQUEST_TOKEN]
  | ignora h1 h2 => simp [h1]
  | concedeFalha hc hf hrep | passaFalha hc aux resto hh hrep => exact absurd hrep (not_lt.mpr hn)

/-- Without a failure, and with room in the queue, no request gets lost: the
requests that are not granted change by those made and those granted, and the
REPLY_ALLOW on their way by those granted and those that arrive. -/
theorem passo_conserva {s s' : Sistema ι} {a : Acao ι} {e : List (Evento ι)} (hp : Passo s a s' e)
    (ha : a.SemFalha) (hcabe : s.Cabe) (j : ι) :
    s'.abertos j + concessoes j e = s.abertos j + (pedeDe j a).toNat ∧
      s'.paraClientes.countP (doAllow j) + (entregaAllow j s a).toNat =
        s.paraClientes.countP (doAllow j) + concessoes j e := by
  unfold Sistema.abertos pedeDe
  cases hp with
  | pede i ns hf hn c hc =>
    refine ⟨?_, rfl⟩
    subst hc
    rw [countP_manda]
    by_cases hj : i = j
    · subst hj
      simp [Cliente.preencheReq]
      omega
    · simp [hj]
  | devolve i ns hf hn c resp hc f hfim =>
    refine ⟨?_, rfl⟩
    rw [countP_manda, show c.req.cod = RELEASE_TOKEN by rw [hc]; rfl]
    simp [RELEASE_TOKEN, REQUEST_TOKEN]
  | ack k i d hk hf hc =>
    refine ⟨rfl, ?_⟩
    have hum := countP_eraseIdx (p := doAllow j) hk
    rw [entregaAllow_ack hk hc]
    simpa [doAllow, hc, ACK, REPLY_ALLOW] using hum.symm
  | allow k i d hk hf hc resp hr =>
    refine ⟨rfl, ?_⟩
    have hum := countP_eraseIdx (p := doAllow j) hk
    rw [entregaAllow_allow hk hc]
    by_cases hj : i = j
    · subst hj
      simpa [doAllow, hc] using hum.symm
    · simpa [doAllow, hc, hj] using hum.symm
  | serve k amb i d hk hv hn hreq srv t ht =>
    have hum := countP_eraseIdx (p := doPedido j) hk
    have htrata := trata_conserva ht ha.2 (fun hc => by
      rw [hreq] at hc ⊢
      exact hcabe _ (List.mem_of_getElem? hk) hc) j
    have hack : doAllow j (i, { conteudo := (recebe s.servidor d.dados).ack
                                nbytes := sizeofRequest }) = false := by
      unfold doAllow
      simp [recebe, ACK, REPLY_ALLOW]
    rw [concessoes_turno, concessoes_enviados]
    simp only [List.countP_append, List.countP_cons, hack]
    simp only [hreq, recebe_fila, Ambiente.entrada, Origem.de] at htrata
    simp only [doPedido, decide_eq_true_eq] at hum
    simp only [Bool.false_eq_true, if_false, Bool.toNat_false, entregaAllow]
    omega
  | ackFalha k amb i d hk hv hn => exact absurd hn (not_lt.mpr ha.1)
  | pedeFalha i ns hf hn | devolveFalha i ns hf hn => exact absurd hn (not_lt.mpr ha)
  | recvFalha | servidorFalha | perdeServidor | perdeCliente => exact ha.elim

/-! ## Nothing gets lost -/

/-- What holds while nothing fails: the server runs, the token is not lost, and
a client has one request in its inner loop and none outside. -/
structure Completo (pid : ι → Int32) (s : Sistema ι) : Prop extends Ordeiro pid s where
  vivo : s.servidor.vivo = true
  ficha : ∃ l, Ficha s l ∧ l ≠ .perdido
  pedido : ∀ i, s.pendentes i = (s.clientes i).fase.pedido

theorem inicio_completo (c : Config ι) : Completo c.pid (Sistema.inicio c) where
  toOrdeiro := inicio_ordeiro c
  vivo := rfl
  ficha := ⟨.livre, inicio_ficha c, by simp⟩
  pedido _ := rfl

theorem passo_vivo {s s' : Sistema ι} {a : Acao ι} {e : List (Evento ι)} (hp : Passo s a s' e)
    (ha : a.SemFalha) (hv : s.servidor.vivo = true) : s'.servidor.vivo = true := by
  cases hp with
  | serve k amb i d hk hvivo hn hreq srv t ht =>
    cases ht with
    | concede | enfileira | recusa | libera | ignora => exact hv
    | passa hc aux resto hh hrep s' hs =>
      subst hs
      exact hv
    | concedeFalha hc hf hrep | passaFalha hc aux resto hh hrep =>
      exact absurd hrep (not_lt.mpr ha.2)
  | ackFalha k amb i d hk hvivo hn => exact absurd hn (not_lt.mpr ha.1)
  | servidorFalha => exact ha.elim
  | pede | pedeFalha | devolve | devolveFalha | ack | allow | recvFalha | perdeServidor
  | perdeCliente => exact hv

/-! ## The system goes on -/

/-- Some party can go on, with no failure and no new request. -/
def Sistema.Anda (s : Sistema ι) : Prop :=
  ∃ a, a.SemFalha ∧ a.NaoPede ∧ (s.passo a).isSome = true

/-- The token is free, nobody waits for it, and nothing is on its way to the
server. ACKs that nobody reads may still be on their way to the clients. -/
structure Sistema.Repouso (s : Sistema ι) : Prop where
  livre : s.servidor.Token.flag = -1
  vazia : s.servidor.fila.head = []
  paraServidor : s.paraServidor = []
  clientes : ∀ i, (s.clientes i).fase = .pede ∨ (s.clientes i).fase = .fim

theorem anda_serve {s : Sistema ι} (hv : s.servidor.vivo = true) (h : s.paraServidor ≠ []) :
    s.Anda := by
  obtain ⟨⟨i, d⟩, xs, hx⟩ := List.exists_cons_of_ne_nil h
  have hsem : (Acao.serve 0 (bemServida i)).SemFalha := by
    show (0 : Int32) ≤ 16 ∧ (0 : Int32) ≤ 8
    decide
  refine ⟨.serve 0 (bemServida i), hsem, trivial, ?_⟩
  unfold Sistema.passo
  simp [hx, hv]

theorem anda_devolve {s : Sistema ι} {i : ι} (h : (s.clientes i).fase = .regiao) : s.Anda := by
  refine ⟨.devolve i 16, show (0 : Int32) ≤ 16 by decide, trivial, ?_⟩
  unfold Sistema.passo
  simp [h]

theorem anda_chega {s : Sistema ι} {x : ι × Datagrama} (hx : x ∈ s.paraClientes)
    (h : (s.clientes x.1).fase = .espera) : s.Anda := by
  obtain ⟨k, hk⟩ := List.getElem?_of_mem hx
  refine ⟨.chega k, trivial, trivial, ?_⟩
  unfold Sistema.passo
  simp [hk, h]

theorem espera_of_pedido {f : Fase} (h : 0 < f.pedido) : f = .espera := by
  unfold Fase.pedido at h
  split at h
  · assumption
  · cases h

/-- A client whose REPLY_ALLOW is on its way can read it. -/
theorem Completo.anda_allow {pid : ι → Int32} {s : Sistema ι} (h : Completo pid s) {i : ι}
    (hi : 0 < s.paraClientes.countP (doAllow i)) : s.Anda := by
  obtain ⟨x, hx, hd⟩ := List.countP_pos_iff.mp hi
  unfold doAllow at hd
  simp only [decide_eq_true_eq] at hd
  have hpedido := h.pedido i
  rw [pendentes_eq] at hpedido
  apply anda_chega hx
  rw [hd.1]
  exact espera_of_pedido (by omega)

/-- Where the token is, some party can go on, unless it is free. -/
theorem Completo.anda_ficha {pid : ι → Int32} {s : Sistema ι} (h : Completo pid s)
    (hflag : s.servidor.Token.flag ≠ -1) : s.Anda := by
  obtain ⟨l, hf, hl⟩ := h.ficha
  cases l with
  | livre => exact absurd (hf.livre.mpr rfl) hflag
  | perdido => exact absurd rfl hl
  | regiao i => exact anda_devolve ((hf.regiao i).mpr rfl)
  | devolvido i =>
    apply anda_serve h.vivo
    intro hnil
    have hdev := hf.devolucoes
    rw [hnil] at hdev
    cases hdev
  | concedido i =>
    obtain ⟨x, hx, he⟩ := comValor_single hf.concessoes
    have hmem : x ∈ s.paraClientes.filter ehAllow := by rw [hx]; exact List.mem_singleton.mpr rfl
    obtain ⟨hmem, hallow⟩ := List.mem_filter.mp hmem
    apply h.anda_allow (i := i)
    apply List.countP_pos_iff.mpr
    refine ⟨x, hmem, ?_⟩
    simp only [Prod.mk.injEq] at he
    simp only [ehAllow, decide_eq_true_eq] at hallow
    simp [doAllow, he.1, hallow]

/-- A client that waits for the token can count on some party to go on. -/
theorem Completo.anda_espera {pid : ι → Int32} {s : Sistema ι} (h : Completo pid s) {i : ι}
    (hi : (s.clientes i).fase = .espera) : s.Anda := by
  have hpedido := h.pedido i
  rw [pendentes_eq, hi] at hpedido
  unfold Sistema.abertos Fase.pedido at hpedido
  by_cases hps : s.paraServidor = []
  · by_cases hallow : 0 < s.paraClientes.countP (doAllow i)
    · exact h.anda_allow hallow
    · rw [hps] at hpedido
      apply h.anda_ficha
      intro hflag
      obtain ⟨l, hf, -⟩ := h.ficha
      rw [hf.vazia hflag] at hpedido
      rw [List.countP_nil, List.countP_nil, if_pos rfl] at hpedido
      omega
  · exact anda_serve h.vivo hps

theorem Completo.repouso_iff {pid : ι → Int32} {s : Sistema ι} (h : Completo pid s) :
    s.Repouso ↔ ¬ s.Anda := by
  constructor
  · rintro ⟨hlivre, hvazia, hps, hcl⟩ ⟨a, ha, hnp, hs⟩
    obtain ⟨⟨u, e⟩, hs⟩ := Option.isSome_iff_exists.mp hs
    have hp := passo_cases h.toHonesto hs
    cases hp with
    | pede => exact hnp
    | devolve i ns hf | devolveFalha i ns hf | ack k i d hk hf | allow k i d hk hf =>
      have hi := hcl i
      simp [hf] at hi
    | ackFalha k amb i d hk | serve k amb i d hk => simp [hps] at hk
    | pedeFalha => exact hnp
    | recvFalha | servidorFalha | perdeServidor | perdeCliente => exact ha
  · intro hnao
    have hps : s.paraServidor = [] := by
      by_contra hne
      exact hnao (anda_serve h.vivo hne)
    refine ⟨?_, ?_, hps, ?_⟩
    · by_contra hflag
      exact hnao (h.anda_ficha hflag)
    · obtain ⟨l, hf, -⟩ := h.ficha
      apply hf.vazia
      by_contra hflag
      exact hnao (h.anda_ficha hflag)
    · intro i
      cases hf : (s.clientes i).fase with
      | pede => exact Or.inl rfl
      | fim => exact Or.inr rfl
      | espera => exact absurd (h.anda_espera hf) hnao
      | regiao => exact absurd (anda_devolve hf) hnao

/-! ## Every run -/

/-- The clients of `c` have distinct PIDs that the flag can tell from a free
token, and there are no more than ten of them. -/
structure Config.Dez [Fintype ι] (c : Config ι) : Prop where
  card : Fintype.card ι ≤ 10
  distintos : Function.Injective c.pid
  flag : ∀ i, (c.pid i).toInt8 ≠ -1

variable [Fintype ι]

theorem passo_completo {c : Config ι} (hc : c.Dez) {s s' : Sistema ι} {a : Acao ι}
    {e : List (Evento ι)} (h : Completo c.pid s) (hp : Passo s a s' e) (ha : a.SemFalha) :
    Completo c.pid s' := by
  obtain ⟨l, hf, hl⟩ := h.ficha
  obtain ⟨l', hf', -, -, hperda⟩ := passo_ficha hc.flag h.toHonesto hf hp
  refine ⟨passo_ordeiro h.toOrdeiro hp, passo_vivo hp ha h.vivo,
    ⟨l', hf', fun hl' => hl (hperda ha.semPerda hl')⟩, ?_⟩
  intro i
  obtain ⟨habertos, hallow⟩ := passo_conserva hp ha (h.cabe hc.card hc.distintos) i
  have hfase := passo_fase hp ha i
  have hantes := h.pedido i
  rw [pendentes_eq] at hantes ⊢
  omega

theorem corrida_completa {c : Config ι} (hc : c.Dez) {s u : Sistema ι} (h : Completo c.pid s)
    {as : List (Acao ι)} (ha : ∀ a ∈ as, a.SemFalha) {t : List (Evento ι)}
    (hr : (sistema ι).run s as = some (u, t)) : Completo c.pid u := by
  have hlei : (sistema ι).Along (fun _ _ a => a.SemFalha) s as := along_all ha
  exact run_invariant_along (I := fun s _ => Completo c.pid s) h
    (fun _ _ _ _ _ h ha hs => passo_completo hc h (passo_cases h.toHonesto hs) ha) hlei hr

/-! ## What each step costs -/

/-- The weight of a client. A REQUEST_TOKEN is one step and a datagram to the
server, which weighs two. A RELEASE_TOKEN is the same, with the next REQUEST_TOKEN
behind it. -/
def Fase.resta : Fase → Nat
  | .pede => 3
  | .espera => 0
  | .regiao => 6
  | .fim => 0

@[simp] theorem resta_pede : Fase.pede.resta = 3 := rfl

@[simp] theorem resta_espera : Fase.espera.resta = 0 := rfl

@[simp] theorem resta_regiao : Fase.regiao.resta = 6 := rfl

@[simp] theorem resta_fim : Fase.fim.resta = 0 := rfl

/-- The weight of a state: that of its clients, two for each datagram to the
server, which is handled and its ACK read, and one for each to a client. A
REPLY_ALLOW weighs six more, as the client in its critical section does. Without
another grant the system takes no more steps than its weight. -/
def Sistema.resta (s : Sistema ι) : Nat :=
  (∑ i, (s.clientes i).fase.resta) + 2 * s.paraServidor.length + s.paraClientes.length +
    6 * s.paraClientes.countP ehAllow

theorem sum_concessoes (t : List (Evento ι)) : ∑ i, concessoes i t = concedidas t := by
  unfold concessoes concedidas
  induction t with
  | nil => simp
  | cons x t ih =>
    simp only [List.countP_cons, Finset.sum_add_distrib, ih]
    congr 1
    cases x with
    | trata o r => simp [Evento.concedeA, Evento.concede]
    | envia o d =>
      by_cases hd : d.conteudo.cod = REPLY_ALLOW
      · simp [Evento.concedeA, Evento.concede, hd]
      · simp [Evento.concedeA, Evento.concede, hd]

/-- A step takes one from the weight, and a grant adds seven to it. Only a client
that ends takes more away. -/
theorem passo_resta {s s' : Sistema ι} {a : Acao ι} {e : List (Evento ι)} (hp : Passo s a s' e)
    (ha : a.SemFalha) :
    s'.resta + 1 ≤ s.resta + 7 * concedidas e ∧
      ((∀ i ns, a = .devolve i ns → (s'.clientes i).fase = .pede) →
        s'.resta + 1 = s.resta + 7 * concedidas e) := by
  have hsoma := fun i c => sum_update (fun c : Cliente => c.fase.resta) s.clientes i c
  unfold Sistema.resta
  cases hp with
  | pede i ns hf hn c hc =>
    have hi := hsoma i { c with fase := .espera }
    rw [hf, resta_pede, resta_espera] at hi
    simp only [List.length_append, List.length_singleton, concedidas_nil]
    omega
  | devolve i ns hf hn c resp hc f hfim =>
    have hi := hsoma i { c with aguardar := 0, fase := f }
    rw [hf, resta_regiao] at hi
    simp only [List.length_append, List.length_singleton, concedidas_nil]
    rcases hfim with rfl | rfl
    · rw [resta_fim] at hi
      refine ⟨by omega, fun h => ?_⟩
      have hfase := h i ns rfl
      rw [Function.update_self] at hfase
      cases hfase
    · rw [resta_pede] at hi
      omega
  | ack k i d hk hf hc =>
    have hi := hsoma i { s.clientes i with resp := d.conteudo }
    have hum := countP_eraseIdx (p := ehAllow) hk
    rw [if_neg (by simp [ehAllow, hc, ACK, REPLY_ALLOW])] at hum
    have htam := List.length_eraseIdx_add_one (List.getElem?_eq_some_iff.mp hk).1
    simp only [concedidas_nil, reduceCtorEq, false_implies, implies_true, true_implies]
    dsimp only at hi
    omega
  | allow k i d hk hf hc resp hr =>
    have hi := hsoma i { s.clientes i with
      resp
      TEMPO := ((s.clientes i).TEMPO + 1) % INT_MAX
      fase := .regiao }
    rw [hf, resta_espera, resta_regiao] at hi
    dsimp only at hi
    have hum := countP_eraseIdx (p := ehAllow) hk
    rw [if_pos (by simp [ehAllow, hc])] at hum
    have htam := List.length_eraseIdx_add_one (List.getElem?_eq_some_iff.mp hk).1
    simp only [concedidas_nil, reduceCtorEq, false_implies, implies_true, true_implies]
    omega
  | serve k amb i d hk hv hn hreq srv t ht =>
    have htam := List.length_eraseIdx_add_one (List.getElem?_eq_some_iff.mp hk).1
    have hresp := trata_concedidas ht
    have hack : ehAllow (i, { conteudo := (recebe s.servidor d.dados).ack
                              nbytes := sizeofRequest }) = false := by
      unfold ehAllow
      simp [recebe, ACK, REPLY_ALLOW]
    rw [concedidas_turno]
    simp only [List.countP_append, List.countP_cons, hack, ← concedidas_enviados,
      List.length_append, List.length_cons, reduceCtorEq, false_implies, implies_true,
      true_implies, Bool.false_eq_true, if_false]
    omega
  | ackFalha k amb i d hk hv hn => exact absurd hn (not_lt.mpr ha.1)
  | pedeFalha i ns hf hn | devolveFalha i ns hf hn => exact absurd hn (not_lt.mpr ha)
  | recvFalha | servidorFalha | perdeServidor | perdeCliente => exact ha.elim

/-- The grants pay for the steps of a run. -/
theorem corrida_resta {pid : ι → Int32} {s u : Sistema ι} (h : Honesto pid s) {as : List (Acao ι)}
    (ha : ∀ a ∈ as, a.SemFalha) {t : List (Evento ι)} (hr : (sistema ι).run s as = some (u, t)) :
    as.length + u.resta ≤ s.resta + 7 * concedidas t := by
  have hlei : (sistema ι).Along (fun _ _ a => a.SemFalha) s as := along_all ha
  have hinv : Honesto pid u ∧ as.length + u.resta ≤ s.resta + 7 * concedidas t := by
    apply run_invariant_length (I := fun u t n => Honesto pid u ∧
      n + u.resta ≤ s.resta + 7 * concedidas t) _ _ hlei hr
    · exact ⟨h, by simp⟩
    · rintro u t n a v e ⟨hu, hle⟩ ha hs
      have hp := passo_cases hu hs
      have hum := (passo_resta hp ha).1
      rw [concedidas_append]
      exact ⟨passo_honesto hu hp, by omega⟩
  exact hinv.2

omit [DecidableEq ι] in
theorem inicio_resta (c : Config ι) : (Sistema.inicio c).resta = 3 * Fintype.card ι := by
  unfold Sistema.resta
  simp [Sistema.inicio, Cliente.inicio, Nat.mul_comm]

/-- What a critical section costs: in a run without a failure the steps and the
weight of the last state are three for each client and seven for each REPLY_ALLOW.
From there the system takes no more steps than that weight and seven for each
grant to come. -/
theorem a_critical_section_takes_seven_steps {c : Config ι} (hpid : ∀ i, c.pid i ≠ 0)
    {as : List (Acao ι)} (ha : ∀ a ∈ as, a.SemFalha) {s : Sistema ι} {t : List (Evento ι)}
    (hr : (sistema ι).run (Sistema.inicio c) as = some (s, t)) :
    as.length + s.resta = 3 * Fintype.card ι + 7 * concedidas t ∧
      ∀ bs u e, (∀ b ∈ bs, b.SemFalha) → (sistema ι).run s bs = some (u, e) →
        bs.length ≤ s.resta + 7 * concedidas e := by
  have hlei : (sistema ι).Along (fun _ _ a => a.SemFalha) (Sistema.inicio c) as := along_all ha
  have hinv : Honesto c.pid s ∧ as.length + s.resta = 3 * Fintype.card ι + 7 * concedidas t := by
    apply run_invariant_length (I := fun u t n => Honesto c.pid u ∧
      n + u.resta = 3 * Fintype.card ι + 7 * concedidas t) _ _ hlei hr
    · exact ⟨inicio_honesto c, by simp [inicio_resta]⟩
    · rintro u t n a v e ⟨hu, heq⟩ ha hs
      have hp := passo_cases hu hs
      have hum := (passo_resta hp ha).2 fun i ns hdev => by
        subst hdev
        exact devolve_pede hs ha (by rw [hu.pids]; exact hpid i)
      rw [concedidas_append]
      exact ⟨passo_honesto hu hp, by omega⟩
  refine ⟨hinv.2, fun bs u e hb hrun => ?_⟩
  have hpaga := corrida_resta hinv.1 hb hrun
  omega

theorem the_run_of_two_clients_takes_seven_steps_for_each_grant : ∃ s t,
    (sistema (Fin 2)).run (Sistema.inicio (comPids ![7, 8])) (doisClientes 0 1) = some (s, t) ∧
      concedidas t = 2 ∧ 10 + s.resta = 3 * 2 + 7 * 2 := by
  obtain ⟨s, t, h, hn⟩ : ∃ s t, (sistema (Fin 2)).run (Sistema.inicio (comPids ![7, 8]))
      (doisClientes 0 1) = some (s, t) ∧ concedidas t = 2 := exists_run (by decide)
  have hlei := (a_critical_section_takes_seven_steps (by decide) (by decide) h).1
  rw [hn] at hlei
  exact ⟨s, t, h, hn, hlei⟩

/-! ## Progress -/

/-- Without a new request each grant takes one of those that are not granted. -/
theorem corrida_abertos {c : Config ι} (hc : c.Dez) {s u : Sistema ι} (h : Completo c.pid s)
    {as : List (Acao ι)} (ha : ∀ a ∈ as, a.SemFalha ∧ a.NaoPede) {t : List (Evento ι)}
    (hr : (sistema ι).run s as = some (u, t)) (j : ι) :
    concessoes j t + u.abertos j = s.abertos j := by
  have hlei : (sistema ι).Along (fun _ _ a => a.SemFalha ∧ a.NaoPede) s as := along_all ha
  have hinv : Completo c.pid u ∧ concessoes j t + u.abertos j = s.abertos j := by
    apply run_invariant_along (I := fun u t => Completo c.pid u ∧
      concessoes j t + u.abertos j = s.abertos j) _ _ hlei hr
    · exact ⟨h, Nat.zero_add _⟩
    · rintro u t a v e ⟨hu, heq⟩ ⟨ha, hnp⟩ hs
      have hp := passo_cases hu.toHonesto hs
      have hconserva := (passo_conserva hp ha (hu.cabe hc.card hc.distintos) j).1
      have hpede : pedeDe j a = false := by
        cases a with
        | pede => exact hnp.elim
        | devolve | chega | recvFalha | serve | servidorFalha | perdeServidor | perdeCliente => rfl
      rw [hpede] at hconserva
      rw [concessoes_append]
      exact ⟨passo_completo hc hu hp ha, by simp at hconserva; omega⟩
  exact hinv.2

/-- With no more than ten clients and no failure, a client in its inner loop has
one request, and the system stands still only at rest: with the token free and
nobody that waits. -/
theorem the_system_stands_still_only_at_rest {c : Config ι} (hc : c.Dez) {as : List (Acao ι)}
    (ha : ∀ a ∈ as, a.SemFalha) {s : Sistema ι} {t : List (Evento ι)}
    (hr : (sistema ι).run (Sistema.inicio c) as = some (s, t)) :
    (∀ i, s.pendentes i = if (s.clientes i).fase = .espera then 1 else 0) ∧
      (s.Repouso ↔ ¬ s.Anda) := by
  have h := corrida_completa hc (inicio_completo c) ha hr
  exact ⟨h.pedido, h.repouso_iff⟩

theorem doisClientes_dez : (comPids ![7, 8] : Config (Fin 2)).Dez :=
  ⟨by decide, by decide, by decide⟩

/-- The first of two clients has had the token and the server has it back. -/
theorem two_clients_at_rest_stand_still : ∃ s t,
    (sistema (Fin 2)).run (Sistema.inicio (comPids ![7, 8])) [.pede 0 16, .serve 0 (bemServida 0),
      .chega 0, .chega 0, .devolve 0 16, .serve 0 (bemServida 0)] = some (s, t) ∧
    s.paraClientes ≠ [] ∧ ¬ s.Anda := by
  obtain ⟨s, t, h, hack, hlivre, hvazia, hps, hcl⟩ : ∃ s t, (sistema (Fin 2)).run
      (Sistema.inicio (comPids ![7, 8])) [.pede 0 16, .serve 0 (bemServida 0), .chega 0, .chega 0,
        .devolve 0 16, .serve 0 (bemServida 0)] = some (s, t) ∧
      s.paraClientes ≠ [] ∧ s.servidor.Token.flag = -1 ∧ s.servidor.fila.head = [] ∧
      s.paraServidor = [] ∧ ∀ i, (s.clientes i).fase = .pede ∨ (s.clientes i).fase = .fim :=
    exists_run (by decide)
  exact ⟨s, t, h, hack, (the_system_stands_still_only_at_rest doisClientes_dez (by decide) h).2.mp
    ⟨hlivre, hvazia, hps, hcl⟩⟩

/-- When the clients stop asking the system comes to rest: there is a bound on
the steps that it can take, each grant is for a request that was there, and when
no step is left each of those has been granted. -/
theorem without_new_requests_the_system_comes_to_rest {c : Config ι} (hc : c.Dez)
    {as₁ as₂ : List (Acao ι)} (ha₁ : ∀ a ∈ as₁, a.SemFalha)
    (ha₂ : ∀ a ∈ as₂, a.SemFalha ∧ a.NaoPede) {s₁ s₂ : Sistema ι} {t₁ t₂ : List (Evento ι)}
    (hr₁ : (sistema ι).run (Sistema.inicio c) as₁ = some (s₁, t₁))
    (hr₂ : (sistema ι).run s₁ as₂ = some (s₂, t₂)) :
    as₂.length + s₂.resta ≤ s₁.resta + 7 * ∑ j, s₁.abertos j ∧
      (∀ j, concessoes j t₂ + s₂.abertos j = s₁.abertos j) ∧
      (¬ s₂.Anda → s₂.Repouso ∧ ∀ j, concessoes j t₂ = s₁.abertos j) := by
  have h₁ := corrida_completa hc (inicio_completo c) ha₁ hr₁
  have h₂ := corrida_completa hc h₁ (fun a ha => (ha₂ a ha).1) hr₂
  have habertos := corrida_abertos hc h₁ ha₂ hr₂
  refine ⟨?_, habertos, ?_⟩
  · have hresta := corrida_resta h₁.toHonesto (fun a ha => (ha₂ a ha).1) hr₂
    have hsoma : concedidas t₂ ≤ ∑ j, s₁.abertos j := by
      rw [← sum_concessoes]
      apply Finset.sum_le_sum
      intro j _
      rw [← habertos j]
      exact Nat.le_add_right _ _
    omega
  · intro hparado
    have hrep := h₂.repouso_iff.mpr hparado
    refine ⟨hrep, fun j => ?_⟩
    rw [← habertos j]
    unfold Sistema.abertos
    rw [hrep.paraServidor, hrep.vazia]
    rfl

/-- Two clients have asked, and from there each of them is served. -/
theorem two_requests_come_to_rest : ∃ s₁ t₁ s₂ t₂,
    (sistema (Fin 2)).run (Sistema.inicio (comPids ![7, 8])) ((doisClientes 0 1).take 2) =
      some (s₁, t₁) ∧
    (sistema (Fin 2)).run s₁ ((doisClientes 0 1).drop 2) = some (s₂, t₂) ∧
    ∀ j, concessoes j t₂ + s₂.abertos j = s₁.abertos j := by
  obtain ⟨s₁, t₁, h₁, hstep⟩ : ∃ s t, (sistema (Fin 2)).run (Sistema.inicio (comPids ![7, 8]))
      ((doisClientes 0 1).take 2) = some (s, t) ∧
      (((sistema (Fin 2)).run s ((doisClientes 0 1).drop 2)).any fun _ => true) = true :=
    exists_run (by decide)
  obtain ⟨⟨s₂, t₂⟩, h₂, -⟩ := (Option.any_eq_true _ _).mp hstep
  exact ⟨s₁, t₁, s₂, t₂, h₁, h₂, (without_new_requests_the_system_comes_to_rest doisClientes_dez
    (by decide) (by decide) h₁ h₂).2.1⟩

/-- Nobody that waits in the queue waits for ever: a client that waits and is
not granted the token leaves the system only so many steps, new requests of the
others and all, and there is always one to take. -/
theorem nobody_in_the_queue_waits_for_ever {c : Config ι} (hc : c.Dez)
    {as₁ as₂ : List (Acao ι)} (ha₁ : ∀ a ∈ as₁, a.SemFalha) (ha₂ : ∀ a ∈ as₂, a.SemFalha)
    {s₁ s₂ : Sistema ι} {t₁ t₂ : List (Evento ι)}
    (hr₁ : (sistema ι).run (Sistema.inicio c) as₁ = some (s₁, t₁))
    (hr₂ : (sistema ι).run s₁ as₂ = some (s₂, t₂)) {i : ι} (hi : s₁.Espera i)
    (hno : concessoes i t₂ = 0) (hn : ∀ j, concessoes j t₁ + 1 < rodadasSemEstouro) :
    as₂.length + s₂.resta ≤
        s₁.resta + 7 * ∑ j, (concessoes i t₁ + 1 - concessoes j t₁) ∧ s₂.Anda := by
  have h₁ := corrida_completa hc (inicio_completo c) ha₁ hr₁
  have h₂ := corrida_completa hc h₁ ha₂ hr₂
  obtain ⟨l, hf, -⟩ := h₁.ficha
  have halc := fun j => corrida_alcanca hc.flag h₁.toOrdeiro hf hr₂
    (sistema_alcanca hr₁ hi (by have := hn i; omega) (by have := hn j; omega)) hno (hn i)
    (k := concessoes j t₁) (j := j) (by have := hn j; omega)
  constructor
  · have hresta := corrida_resta h₁.toHonesto ha₂ hr₂
    have hsoma : concedidas t₂ ≤ ∑ j, (concessoes i t₁ + 1 - concessoes j t₁) := by
      rw [← sum_concessoes]
      apply Finset.sum_le_sum
      intro j _
      have hvezes := (halc j).vezes
      omega
    omega
  · rcases (halc i).espera with ⟨w, hw, hwi⟩ | hv
    · have hpedido := h₂.pedido i
      have hum : 0 < s₂.servidor.fila.head.countP (deCliente i) :=
        List.countP_pos_iff.mpr ⟨w, hw, by simp [deCliente, hwi]⟩
      unfold Sistema.pendentes at hpedido
      exact h₂.anda_espera (i := i) (espera_of_pedido (by omega))
    · rw [h₂.vivo] at hv
      cases hv

/-- The second of two clients waits while the first uses the token. -/
theorem the_second_of_two_clients_does_not_wait_for_ever : ∃ s₁ t₁ s₂ t₂,
    (sistema (Fin 2)).run (Sistema.inicio (comPids ![7, 8])) ((doisClientes 0 1).take 4) =
      some (s₁, t₁) ∧
    (sistema (Fin 2)).run s₁ [.chega 0, .chega 0, .devolve 0 16] = some (s₂, t₂) ∧
    s₁.Espera 1 ∧ s₂.Anda := by
  obtain ⟨s₁, t₁, h₁, hstep⟩ : ∃ s t, (sistema (Fin 2)).run (Sistema.inicio (comPids ![7, 8]))
      ((doisClientes 0 1).take 4) = some (s, t) ∧
      (((sistema (Fin 2)).run s [.chega 0, .chega 0, .devolve 0 16]).any fun p =>
        s.Espera 1 ∧ concessoes 1 p.2 = 0 ∧ ∀ j, concessoes j t ≤ 1) = true :=
    exists_run (by decide)
  obtain ⟨⟨s₂, t₂⟩, h₂, hlast⟩ := (Option.any_eq_true _ _).mp hstep
  obtain ⟨hi, hno, hn⟩ := decide_eq_true_eq.mp hlast
  exact ⟨s₁, t₁, s₂, t₂, h₁, h₂, hi, (nobody_in_the_queue_waits_for_ever doisClientes_dez
    (by decide) (by decide) h₁ h₂ hi hno fun j =>
      (Nat.succ_le_succ (hn j)).trans_lt (by decide)).2⟩

end lab2
