-- Who gets the token of LAB2-NETKIT next. The stamp of a request tells how
-- often its client has been granted the token, so the queue serves first the
-- client that has been served least, and a client that waits is overtaken by
-- the others only while they catch up with it.
import ExclusaoMutua.Lab2.RelogioCliente
import ExclusaoMutua.Lab2.Ultrapassagem

open fila in_flight machine

namespace lab2

variable {ι : Type}

/-! ## Grants -/

/-- The number of REPLY_ALLOW that the events send. -/
def concedidas (t : List (Evento ι)) : Nat := t.countP Evento.concede

@[simp] theorem concedidas_nil : concedidas ([] : List (Evento ι)) = 0 := rfl

theorem concedidas_append (t e : List (Evento ι)) :
    concedidas (t ++ e) = concedidas t + concedidas e := List.countP_append

theorem concedidas_enviados (t : List (Evento ι)) :
    concedidas t = (enviados t).countP ehAllow := by
  unfold concedidas
  induction t with
  | nil => rfl
  | cons x t ih =>
    cases x with
    | envia o d =>
      rw [enviados_envia, List.countP_cons, List.countP_cons, ih]
      rfl
    | trata o r =>
      rw [List.countP_cons, ih]
      rfl

theorem concedidas_turno (s : Servidor ι) (dados : List UInt8) (o : Origem ι) (n : Nat)
    (r : Request) (t : List (Evento ι)) :
    concedidas (.envia o { conteudo := (recebe s dados).ack, nbytes := n } :: .trata o r :: t) =
      concedidas t := by
  unfold concedidas
  rw [List.countP_cons_of_neg (by simp [ack_nao_concede]), List.countP_cons_of_neg]
  unfold Evento.concede
  simp

/-- The turn of the server behind its ACK sends nothing but grants. -/
theorem trata_concedidas {s s' : Servidor ι} {e : Entrada ι} {t : List (Evento ι)}
    (ht : Trata s e s' t) : (enviados t).length = concedidas t := by
  rw [concedidas_enviados, eq_comm, List.countP_eq_length]
  intro x hx
  simp [ehAllow, (trata_enviados ht x hx).2]

variable [DecidableEq ι]

/-- The number of REPLY_ALLOW that the events send to client `i`. -/
def concessoes (i : ι) (t : List (Evento ι)) : Nat := t.countP (Evento.concedeA i)

@[simp] theorem concessoes_nil (i : ι) : concessoes i [] = 0 := rfl

theorem concessoes_append (i : ι) (t e : List (Evento ι)) :
    concessoes i (t ++ e) = concessoes i t + concessoes i e := List.countP_append

/-- Each of them is a datagram on its way to `i`. -/
theorem concessoes_enviados (i : ι) (t : List (Evento ι)) :
    concessoes i t = (enviados t).countP (doAllow i) := by
  unfold concessoes
  induction t with
  | nil => rfl
  | cons x t ih =>
    cases x with
    | envia o d =>
      rw [enviados_envia, List.countP_cons, List.countP_cons, ih]
      unfold Evento.concedeA doAllow
      simp
    | trata o r =>
      rw [List.countP_cons, ih]
      unfold Evento.concedeA enviados
      simp

/-- The turn of the server sends its ACK before it tests `req->cod`. -/
theorem concessoes_turno (i : ι) (s : Servidor ι) (dados : List UInt8) (o : Origem ι) (n : Nat)
    (r : Request) (t : List (Evento ι)) :
    concessoes i (.envia o { conteudo := (recebe s dados).ack, nbytes := n } :: .trata o r :: t) =
      concessoes i t := by
  unfold concessoes
  rw [List.countP_cons_of_neg (by simp [ack_nao_concedeA]), List.countP_cons_of_neg]
  unfold Evento.concedeA
  simp

/-- A client waits when it has an entry in the queue. -/
def Sistema.Espera (s : Sistema ι) (i : ι) : Prop := ∃ w ∈ s.servidor.fila.head, w.dados.caddr = i

instance (s : Sistema ι) (i : ι) : Decidable (s.Espera i) :=
  inferInstanceAs (Decidable (∃ w ∈ s.servidor.fila.head, _))

/-- A step grants the token once at most: a free token to a client whose
REQUEST_TOKEN it handles, or to the one at the head of the queue. -/
theorem passo_concessoes {s s' : Sistema ι} {a : Acao ι} {e : List (Evento ι)}
    (hp : Passo s a s' e) (i : ι) :
    concessoes i e = 0 ∨ concessoes i e = 1 ∧
      (s.servidor.Token.flag = -1 ∧ (∃ x ∈ s.paraServidor, doPedido i x = true) ∨
        ∃ w resto, s.servidor.fila.head = w :: resto ∧ w.dados.caddr = i) := by
  cases hp with
  | serve k amb j d hk hv hn hreq srv t ht =>
    rw [concessoes_turno]
    unfold concessoes
    cases ht with
    | concede hc hf hn =>
      rw [countP_concede rfl]
      rw [hreq] at hc
      by_cases hi : (amb.entrada j (some d.dados)).origem.caddr = i
      · rw [if_pos hi]
        have hi : j = i := hi
        exact Or.inr ⟨rfl, Or.inl ⟨hf, (j, d), List.mem_of_getElem? hk,
          by simp [doPedido, hi, hc]⟩⟩
      · rw [if_neg hi]
        exact Or.inl rfl
    | passa hc w resto hh hn s' hs =>
      rw [countP_concede rfl]
      by_cases hi : w.dados.caddr = i
      · rw [if_pos hi]
        exact Or.inr ⟨rfl, Or.inr ⟨w, resto, hh, hi⟩⟩
      · rw [if_neg hi]
        exact Or.inl rfl
    | concedeFalha | enfileira | recusa | libera | passaFalha | ignora => exact Or.inl rfl
  | pede | pedeFalha | devolve | devolveFalha | ack | allow | recvFalha | ackFalha | servidorFalha
  | perdeServidor | perdeCliente => exact Or.inl rfl

/-! ## What the clock of a client tells -/

/-- Client `i` has been granted the token `n` times and has got `m` of the
REPLY_ALLOW: all of them while it has a request that is not granted, and all
but the last while that one is on its way. -/
structure Conta (s : Sistema ι) (i : ι) (n m : Nat) : Prop where
  le : m ≤ n
  compasso : Compasso (s.clientes i) m
  fora : limite (s.clientes i).fase = 0 → m = n
  pedido : ∀ x ∈ s.paraServidor, doPedido i x = true →
    m = n ∧ x.2.conteudo.tempo.toInt = 3 * n + 1
  espera : ∀ w ∈ s.servidor.fila.head, w.dados.caddr = i → m = n ∧ w.tempo.toInt = 3 * n + 1
  allow : ∀ x ∈ s.paraClientes, doAllow i x = true → m + 1 = n

theorem inicio_conta (c : Config ι) (i : ι) : Conta (Sistema.inicio c) i 0 0 where
  le := Nat.le_refl 0
  compasso := show (0 : Int32).toInt = 3 * ((0 : Nat) : Int) by decide
  fora _ := rfl
  pedido x hx := by cases hx
  espera w hw := by cases hw
  allow x hx := by cases hx

/-- The stamp of the REQUEST_TOKEN of a client that has got `n` tokens. -/
theorem preencheReq_selo {c : Cliente} {n : Nat} (hf : c.fase = .pede) (h : Compasso c n)
    (hn : n < rodadasSemEstouro) :
    (c.preencheReq REQUEST_TOKEN (-1)).req.tempo.toInt = 3 * n + 1 := by
  unfold Compasso at h
  rw [hf] at h
  unfold rodadasSemEstouro at hn
  unfold Cliente.preencheReq
  dsimp only at h ⊢
  rw [proximo_toInt (by omega) (by omega), h]

/-- A step adds to what goes to the clients no REPLY_ALLOW but those of its events. -/
theorem passo_allow {s s' : Sistema ι} {a : Acao ι} {e : List (Evento ι)} (hp : Passo s a s' e)
    {i : ι} (hno : concessoes i e = 0) :
    ∀ x ∈ s'.paraClientes, doAllow i x = true → x ∈ s.paraClientes := by
  intro x hx hd
  cases hp with
  | serve k amb j d hk hv hn hreq srv t ht =>
    rw [concessoes_turno, concessoes_enviados, List.countP_eq_zero] at hno
    rcases List.mem_append.mp hx with hx | hx
    · exact hx
    · rcases List.mem_cons.mp hx with rfl | hx
      · unfold doAllow at hd
        simp [recebe, ACK, REPLY_ALLOW] at hd
      · exact absurd hd (hno x hx)
  | ack | allow | perdeCliente => exact List.mem_of_mem_eraseIdx hx
  | pede | pedeFalha | devolve | devolveFalha | recvFalha | ackFalha | servidorFalha
  | perdeServidor => exact hx

/-- A client that has a REPLY_ALLOW on its way has no other request. -/
theorem Ordeiro.so_allow {pid : ι → Int32} {s : Sistema ι} (h : Ordeiro pid s) {i : ι}
    {x : ι × Datagrama} (hx : x ∈ s.paraClientes) (hd : doAllow i x = true) :
    (∀ y ∈ s.paraServidor, doPedido i y ≠ true) ∧
      (∀ w ∈ s.servidor.fila.head, w.dados.caddr ≠ i) ∧
      s.paraClientes.countP (doAllow i) = 1 ∧ limite (s.clientes i).fase = 1 := by
  have hlim := h.limites i
  have hfase := limite_le_one (s.clientes i).fase
  have hum : 0 < s.paraClientes.countP (doAllow i) := List.countP_pos_iff.mpr ⟨x, hx, hd⟩
  unfold Sistema.pendentes at hlim
  refine ⟨List.countP_eq_zero.mp (by omega), ?_, by omega, by omega⟩
  have hfila : s.servidor.fila.head.countP (deCliente i) = 0 := by omega
  rw [List.countP_eq_zero] at hfila
  intro w hw hwi
  exact hfila w hw (by simp [deCliente, hwi])

/-! ## One step -/

/-- A step that makes no request of client `i` and grants it nothing. -/
theorem Conta.troca {s s' : Sistema ι} {i : ι} {n m : Nat} (h : Conta s i n m)
    (hcomp : Compasso (s'.clientes i) m) (hfora : limite (s'.clientes i).fase = 0 → m = n)
    (hps : ∀ x ∈ s'.paraServidor, doPedido i x = true → x ∈ s.paraServidor)
    (hfila : ∀ w ∈ s'.servidor.fila.head, w.dados.caddr = i → w ∈ s.servidor.fila.head)
    (hpc : ∀ x ∈ s'.paraClientes, doAllow i x = true → x ∈ s.paraClientes) : Conta s' i n m where
  le := h.le
  compasso := hcomp
  fora := hfora
  pedido x hx hd := h.pedido x (hps x hx hd) hd
  espera w hw hi := h.espera w (hfila w hw hi) hi
  allow x hx hd := h.allow x (hpc x hx hd) hd

theorem fora_update {f : ι → Cliente} {i j : ι} {c : Cliente} {n m : Nat}
    (hc : j = i → limite c.fase = 0 → m = n) (h : limite (f i).fase = 0 → m = n) :
    limite (Function.update f j c i).fase = 0 → m = n := by
  by_cases hj : j = i
  · subst hj
    rw [Function.update_self]
    exact hc rfl
  · rw [Function.update_of_ne (Ne.symm hj)]
    exact h

/-- A REPLY_ALLOW that comes to client `i` is one that it has not got yet. -/
theorem Conta.entrega {s : Sistema ι} {i : ι} {n m : Nat} (h : Conta s i n m) (a : Acao ι) :
    m + (entregaAllow i s a).toNat ≤ n := by
  cases he : entregaAllow i s a with
  | false => exact h.le
  | true =>
    cases a with
    | chega k =>
      obtain ⟨x, hx, hd⟩ := (Option.any_eq_true _ _).mp he
      simp only [ehAllow, decide_eq_true_eq] at hd
      exact le_of_eq (h.allow x (List.mem_of_getElem? hx) (by simp [doAllow, hd.1, hd.2]))
    | pede | devolve | recvFalha | serve | servidorFalha | perdeServidor | perdeCliente => cases he

/-- The turn of the server. A grant to client `i` ends its one request. -/
theorem serve_conta {pid : ι → Int32} {s s' : Sistema ι} {k : Nat} {amb : Ambiente ι}
    {e : List (Evento ι)} (h : Ordeiro pid s) (hp : Passo s (.serve k amb) s' e) {i : ι} {n m : Nat}
    (hc : Conta s i n m) : Conta s' i (n + concessoes i e) m := by
  have h' := passo_ordeiro h hp
  have hallow := passo_allow hp (i := i)
  have hvezes := passo_concessoes hp i
  cases hp with
  | ackFalha k amb j d hk hv hn hreq =>
    exact hc.troca hc.compasso hc.fora (fun x hx _ => List.mem_of_mem_eraseIdx hx)
      (fun w hw _ => hw) (fun x hx _ => hx)
  | serve k amb j d hk hv hn hreq srv t ht =>
    rw [concessoes_turno] at hallow hvezes ⊢
    rcases hvezes with hnada | ⟨huma, hpor⟩
    · rw [hnada, Nat.add_zero]
      refine ⟨hc.le, hc.compasso, hc.fora, ?_, ?_, ?_⟩
      · exact fun x hx hd => hc.pedido x (List.mem_of_mem_eraseIdx hx) hd
      · intro w hw hi
        rcases trata_entradas ht w hw with hw | ⟨hcod, rfl⟩
        · exact hc.espera w hw hi
        · -- the entry of the REQUEST_TOKEN at hand
          have hi : j = i := hi
          rw [hreq] at hcod ⊢
          exact hc.pedido (j, d) (List.mem_of_getElem? hk) (by simp [doPedido, hi, hcod])
      · exact fun x hx hd => hc.allow x (hallow hnada x hx hd) hd
    · have hmn : m = n := by
        rcases hpor with ⟨-, x, hx, hd⟩ | ⟨w, resto, hh, hi⟩
        · exact (hc.pedido x hx hd).1
        · exact (hc.espera w (hh ▸ List.mem_cons_self) hi).1
      have henv : 0 < (enviados t).countP (doAllow i) := by
        rw [← concessoes_enviados, huma]
        exact Nat.one_pos
      obtain ⟨x, hx, hd⟩ := List.countP_pos_iff.mp henv
      obtain ⟨hped, hfila, -, hfase⟩ := h'.so_allow
        (List.mem_append_right _ (List.mem_cons_of_mem _ hx)) hd
      rw [huma]
      refine ⟨by omega, hc.compasso, ?_, ?_, ?_, ?_⟩
      · intro hzero
        exact absurd (hfase.symm.trans hzero) Nat.one_ne_zero
      · exact fun y hy hdy => absurd hdy (hped y hy)
      · exact fun w hw hi => absurd hi (hfila w hw)
      · exact fun _ _ _ => by omega

theorem passo_conta {pid : ι → Int32} {s s' : Sistema ι} {a : Acao ι} {e : List (Evento ι)}
    (h : Ordeiro pid s) (hp : Passo s a s' e) {i : ι} {n m : Nat} (hc : Conta s i n m)
    (hn : n < rodadasSemEstouro) :
    Conta s' i (n + concessoes i e) (m + (entregaAllow i s a).toNat) := by
  have hcomp : Compasso (s'.clientes i) (m + (entregaAllow i s a).toNat) :=
    passo_compasso hp hc.compasso ((hc.entrega a).trans hn.le)
  cases hp with
  | pede j ns hf hns c hcl =>
    refine ⟨hc.le, hcomp, ?_, ?_, hc.espera, hc.allow⟩
    · refine fora_update (fun hj _ => hc.fora ?_) hc.fora
      subst hj
      rw [hf]
      rfl
    · intro x hx hd
      rcases List.mem_append.mp hx with hx | hx
      · exact hc.pedido x hx hd
      · rw [List.mem_singleton.mp hx] at hd ⊢
        have hj : j = i := by
          unfold doPedido at hd
          simp only [decide_eq_true_eq] at hd
          exact hd.1
        subst hj hcl
        have hmn : m = n := hc.fora (by rw [hf]; rfl)
        subst hmn
        exact ⟨rfl, preencheReq_selo hf hc.compasso hn⟩
  | devolve j ns hf hns c resp hcl f hfim =>
    refine hc.troca hcomp ?_ ?_ (fun w hw _ => hw) fun x hx _ => hx
    · refine fora_update (fun hj _ => hc.fora ?_) hc.fora
      subst hj
      rw [hf]
      rfl
    · intro x hx hd
      rcases List.mem_append.mp hx with hx | hx
      · exact hx
      · rw [List.mem_singleton.mp hx, hcl] at hd
        unfold doPedido at hd
        simp [Cliente.preencheReq, RELEASE_TOKEN, REQUEST_TOKEN] at hd
  | pedeFalha j ns hf | devolveFalha j ns hf | recvFalha j hf =>
    refine hc.troca hcomp (fora_update (fun _ hfim => ?_) hc.fora) (fun x hx _ => hx)
      (fun w hw _ => hw) fun x hx _ => hx
    cases hfim
  | ack k j d hk hf hcod =>
    rw [entregaAllow_ack hk hcod] at hcomp ⊢
    refine hc.troca hcomp (fora_update (fun hj hfase => hc.fora ?_) hc.fora) (fun x hx _ => hx)
      (fun w hw _ => hw) fun x hx _ => List.mem_of_mem_eraseIdx hx
    subst hj
    exact hfase
  | allow k j d hk hf hcod resp hr =>
    have hmem := List.mem_of_getElem? hk
    rw [entregaAllow_allow hk hcod] at hcomp ⊢
    by_cases hj : j = i
    · subst hj
      have hd : doAllow j (j, d) = true := by simp [doAllow, hcod]
      have hmn := hc.allow _ hmem hd
      obtain ⟨hped, hfila, huma, -⟩ := h.so_allow hmem hd
      have hresto := countP_eraseIdx (p := doAllow j) hk
      rw [if_pos hd, huma] at hresto
      have hnada : (s.paraClientes.eraseIdx k).countP (doAllow j) = 0 := by omega
      simp only [decide_true, Bool.toNat_true] at hcomp ⊢
      refine ⟨hmn.le, hcomp, fun _ => hmn, fun x hx hdx => absurd hdx (hped x hx),
        fun w hw hi => absurd hi (hfila w hw), fun x hx hdx => ?_⟩
      exact absurd hdx (List.countP_eq_zero.mp hnada x hx)
    · simp only [hj, decide_false, Bool.toNat_false] at hcomp ⊢
      exact hc.troca hcomp (fora_update (fun hji => absurd hji hj) hc.fora) (fun x hx _ => hx)
        (fun w hw _ => hw) fun x hx _ => List.mem_of_mem_eraseIdx hx
  | ackFalha k amb j d hk hv hns hreq => exact serve_conta h (.ackFalha k amb j d hk hv hns hreq) hc
  | serve k amb j d hk hv hns hreq srv t ht =>
    exact serve_conta h (.serve k amb j d hk hv hns hreq srv t ht) hc
  | servidorFalha =>
    exact hc.troca hcomp hc.fora (fun x hx _ => hx) (fun w hw _ => hw) fun x hx _ => hx
  | perdeServidor =>
    exact hc.troca hcomp hc.fora (fun x hx _ => List.mem_of_mem_eraseIdx hx) (fun w hw _ => hw)
      fun x hx _ => hx
  | perdeCliente =>
    exact hc.troca hcomp hc.fora (fun x hx _ => hx) (fun w hw _ => hw)
      fun x hx _ => List.mem_of_mem_eraseIdx hx

/-- A client that waits and is granted the token stands at the head. -/
theorem passo_cabeca {pid : ι → Int32} {s s' : Sistema ι} {a : Acao ι} {e : List (Evento ι)}
    (h : Ordeiro pid s) (hp : Passo s a s' e) {i : ι} (hi : s.Espera i)
    (hgrant : concessoes i e ≠ 0) :
    ∃ w resto, s.servidor.fila.head = w :: resto ∧ w.dados.caddr = i := by
  rcases passo_concessoes hp i with hnada | ⟨-, ⟨-, x, hx, hd⟩ | hcabeca⟩
  · exact absurd hnada hgrant
  · -- a client that waits has no REQUEST_TOKEN on its way
    obtain ⟨w, hw, hwi⟩ := hi
    obtain ⟨k, hk⟩ := List.getElem?_of_mem hx
    unfold doPedido at hd
    simp only [decide_eq_true_eq] at hd
    obtain ⟨hxi, hcod⟩ := hd
    have hfila := (h.pedido (i := x.1) hk hcod).2.1
    rw [List.filter_eq_nil_iff] at hfila
    exact absurd (by simp [deCliente, hwi, hxi]) (hfila w hw)
  · exact hcabeca

/-- The entry of a client that is granted nothing stays while the server runs. -/
theorem passo_fica {s s' : Sistema ι} {a : Acao ι} {e : List (Evento ι)} (hp : Passo s a s' e)
    {i : ι} (hi : s.Espera i) (hno : concessoes i e = 0) :
    s'.Espera i ∨ s'.servidor.vivo = false := by
  obtain ⟨w, hw, hwi⟩ := hi
  cases hp with
  | serve k amb j d hk hv hn hreq srv t ht =>
    rw [concessoes_turno] at hno
    cases ht with
    | concede | recusa | libera | ignora => exact Or.inl ⟨w, hw, hwi⟩
    | enfileira => exact Or.inl ⟨w, mem_colocada.mpr (Or.inr hw), hwi⟩
    | passa hc aux resto hh hrep s' hs =>
      subst hs
      rw [recebe_fila] at hh
      rw [hh] at hw
      refine Or.inl ⟨w, (List.mem_cons.mp hw).resolve_left ?_, hwi⟩
      rintro rfl
      unfold concessoes at hno
      rw [countP_concede rfl, if_pos hwi] at hno
      cases hno
    | concedeFalha | passaFalha => exact Or.inr rfl
  | ackFalha | servidorFalha => exact Or.inr rfl
  | pede | pedeFalha | devolve | devolveFalha | ack | allow | recvFalha | perdeServidor
  | perdeCliente => exact Or.inl ⟨w, hw, hwi⟩

/-- A server that has ended grants nothing. -/
theorem passo_morto {s s' : Sistema ι} {a : Acao ι} {e : List (Evento ι)} (hp : Passo s a s' e)
    (hv : s.servidor.vivo = false) : s'.servidor.vivo = false ∧ ∀ j, concessoes j e = 0 := by
  cases hp with
  | ackFalha k amb i d hk hvivo | serve k amb i d hk hvivo | servidorFalha hvivo =>
    rw [hv] at hvivo
    cases hvivo
  | pede | pedeFalha | devolve | devolveFalha | ack | allow | recvFalha | perdeServidor
  | perdeCliente => exact ⟨hv, fun _ => rfl⟩

/-- Client `i` waits with `n` grants. Client `j`, which had `k` of them, has been
granted nothing since, or has at most caught up by the one more. -/
structure Alcanca (i : ι) (n : Nat) (j : ι) (k : Nat) (s : Sistema ι) (t : List (Evento ι)) :
    Prop where
  espera : s.Espera i ∨ s.servidor.vivo = false
  conta : ∃ m, Conta s i n m
  outra : ∃ m, Conta s j (k + concessoes j t) m
  vezes : concessoes j t = 0 ∨ k + concessoes j t ≤ n + 1

theorem passo_alcanca {pid : ι → Int32} {s s' : Sistema ι} {a : Acao ι} {t e : List (Evento ι)}
    (h : Ordeiro pid s) (hvazia : s.servidor.Token.flag = -1 → s.servidor.fila.head = [])
    (hp : Passo s a s' e) {i j : ι} {n k : Nat} (hno : concessoes i e = 0)
    (hn : n + 1 < rodadasSemEstouro) (hk : k < rodadasSemEstouro) (ha : Alcanca i n j k s t) :
    Alcanca i n j k s' (t ++ e) := by
  obtain ⟨hespera, ⟨m, hci⟩, ⟨m', hcj⟩, hvezes⟩ := ha
  have hci' := passo_conta h hp hci (by omega)
  have hcj' := passo_conta h hp hcj (by omega)
  rw [hno, Nat.add_zero] at hci'
  rw [Nat.add_assoc, ← concessoes_append] at hcj'
  refine ⟨?_, ⟨_, hci'⟩, ⟨_, hcj'⟩, ?_⟩
  · rcases hespera with hi | hv
    · exact passo_fica hp hi hno
    · exact Or.inr (passo_morto hp hv).1
  · rw [concessoes_append]
    rcases passo_concessoes hp j with hnada | ⟨huma, hpor⟩
    · rw [hnada]
      exact hvezes
    · rcases hespera with ⟨w, hw, hwi⟩ | hv
      · right
        rcases hpor with ⟨hflag, -⟩ | ⟨v, resto, hh, hvj⟩
        · rw [hvazia hflag] at hw
          cases hw
        · have hle : v.tempo.toInt ≤ w.tempo.toInt :=
            Int32.le_iff_toInt_le.mp (h.bom.valida.head_min hh w hw)
          rw [(hcj.espera v (hh ▸ List.mem_cons_self) hvj).2, (hci.espera w hw hwi).2] at hle
          omega
      · rw [(passo_morto hp hv).2 j] at huma
        cases huma

/-! ## Every run -/

theorem sistema_conta {c : Config ι} {as : List (Acao ι)} {s : Sistema ι} {t : List (Evento ι)}
    (hr : (sistema ι).run (Sistema.inicio c) as = some (s, t)) {i : ι}
    (hn : concessoes i t < rodadasSemEstouro) : ∃ m, Conta s i (concessoes i t) m := by
  have hinv : Ordeiro c.pid s ∧
      (concessoes i t < rodadasSemEstouro → ∃ m, Conta s i (concessoes i t) m) := by
    apply run_invariant _ _ hr
    · exact ⟨inicio_ordeiro c, fun _ => ⟨0, inicio_conta c i⟩⟩
    · rintro u t a v e ⟨hu, hconta⟩ hs
      have hp := passo_cases hu.toHonesto hs
      refine ⟨passo_ordeiro hu hp, ?_⟩
      rw [concessoes_append]
      intro hlt
      obtain ⟨m, hm⟩ := hconta (by omega)
      exact ⟨_, passo_conta hu hp hm (by omega)⟩
  exact hinv.2 hn

/-- A stamp counts the grants: a REQUEST_TOKEN of a client to which the server
has sent `n` REPLY_ALLOW carries the stamp `3 * n + 1`, on its way and in the
queue. -/
theorem the_stamp_of_a_request_counts_the_grants_to_its_client {c : Config ι}
    {as : List (Acao ι)} {s : Sistema ι} {t : List (Evento ι)}
    (hr : (sistema ι).run (Sistema.inicio c) as = some (s, t)) {i : ι}
    (hn : concessoes i t < rodadasSemEstouro) :
    (∀ x ∈ s.paraServidor, x.1 = i → x.2.conteudo.cod = REQUEST_TOKEN →
        x.2.conteudo.tempo.toInt = 3 * concessoes i t + 1) ∧
      ∀ w ∈ s.servidor.fila.head, w.dados.caddr = i → w.tempo.toInt = 3 * concessoes i t + 1 := by
  obtain ⟨m, hconta⟩ := sistema_conta hr hn
  refine ⟨?_, fun w hw hi => (hconta.espera w hw hi).2⟩
  intro x hx hi hcod
  exact (hconta.pedido x hx (by simp [doPedido, hi, hcod])).2

theorem the_stamp_of_the_second_of_two_clients_counts_no_grant : ∃ s t,
    (sistema (Fin 2)).run (Sistema.inicio (comPids ![7, 8])) ((doisClientes 0 1).take 4) =
      some (s, t) ∧
    s.Espera 1 ∧ ∀ w ∈ s.servidor.fila.head, w.dados.caddr = 1 → w.tempo.toInt = 1 := by
  obtain ⟨s, t, h, hi, hn⟩ : ∃ s t, (sistema (Fin 2)).run (Sistema.inicio (comPids ![7, 8]))
      ((doisClientes 0 1).take 4) = some (s, t) ∧ s.Espera 1 ∧ concessoes 1 t = 0 :=
    exists_run (by decide)
  have hselo := (the_stamp_of_a_request_counts_the_grants_to_its_client h (i := 1)
    (by rw [hn]; decide)).2
  rw [hn] at hselo
  exact ⟨s, t, h, hi, hselo⟩

/-- The step hands the token on to client `i`, which waits: no client that
waits with it has been granted the token less often. -/
theorem the_token_goes_to_a_waiter_with_the_fewest_grants {c : Config ι} {as : List (Acao ι)}
    {s s' : Sistema ι} {a : Acao ι} {t e : List (Evento ι)}
    (hr : (sistema ι).run (Sistema.inicio c) as = some (s, t))
    (hs : (sistema ι).step s a = some (s', e)) {i : ι} (hi : s.Espera i)
    (hgrant : concessoes i e ≠ 0) (hn : ∀ j, concessoes j t < rodadasSemEstouro) :
    ∀ j, s.Espera j → concessoes i t ≤ concessoes j t := by
  rintro j ⟨w, hw, hwj⟩
  have h := sistema_ordeiro hr
  have hp := passo_cases h.toHonesto hs
  obtain ⟨m, hci⟩ := sistema_conta hr (hn i)
  obtain ⟨m', hcj⟩ := sistema_conta hr (hn j)
  obtain ⟨v, resto, hh, hvi⟩ := passo_cabeca h hp hi hgrant
  have hvmem : v ∈ s.servidor.fila.head := hh ▸ List.mem_cons_self
  have hle : v.tempo.toInt ≤ w.tempo.toInt :=
    Int32.le_iff_toInt_le.mp (h.bom.valida.head_min hh w hw)
  rw [(hci.espera v hvmem hvi).2, (hcj.espera w hw hwj).2] at hle
  omega

/-- Of three clients the first waits with two grants and the third with none: the
third gets the token. -/
theorem the_token_goes_to_the_third_of_three_clients : ∃ s t s' e,
    (sistema (Fin 3)).run (Sistema.inicio tresClientes)
      (aPrimeiraCorreNaFrente ++ .serve 0 (bemServida 0) :: asOutrasSeAlternam.take 5) =
        some (s, t) ∧
    (sistema (Fin 3)).step s (.serve 0 (bemServida 0)) = some (s', e) ∧
    s.Espera 0 ∧ concessoes 0 t = 2 ∧ concessoes 2 t = 0 ∧ concessoes 2 e = 1 ∧
    ∀ j, s.Espera j → concessoes 2 t ≤ concessoes j t := by
  obtain ⟨s, t, h, hstep⟩ : ∃ s t, (sistema (Fin 3)).run (Sistema.inicio tresClientes)
      (aPrimeiraCorreNaFrente ++ .serve 0 (bemServida 0) :: asOutrasSeAlternam.take 5) =
        some (s, t) ∧
      (((sistema (Fin 3)).step s (.serve 0 (bemServida 0))).any fun p =>
        s.Espera 0 ∧ s.Espera 2 ∧ concessoes 0 t = 2 ∧ concessoes 2 t = 0 ∧
          concessoes 2 p.2 = 1 ∧ ∀ j, concessoes j t ≤ 2) = true :=
    exists_run (by decide +kernel)
  obtain ⟨⟨s', e⟩, h', hlast⟩ := (Option.any_eq_true _ _).mp hstep
  obtain ⟨hespera, hi, hdois, hzero, hum, hn⟩ := decide_eq_true_eq.mp hlast
  refine ⟨s, t, s', e, h, h', hespera, hdois, hzero, hum, ?_⟩
  exact the_token_goes_to_a_waiter_with_the_fewest_grants h h' hi (by rw [hum]; decide)
    fun j => (hn j).trans_lt (by decide)

theorem corrida_alcanca {pid : ι → Int32} (hpid : ∀ i, (pid i).toInt8 ≠ -1) {s u : Sistema ι}
    (h : Ordeiro pid s) {l : Lugar ι} (hf : Ficha s l) {as : List (Acao ι)} {t : List (Evento ι)}
    (hr : (sistema ι).run s as = some (u, t)) {i j : ι} {n k : Nat} (ha : Alcanca i n j k s [])
    (hno : concessoes i t = 0) (hn : n + 1 < rodadasSemEstouro) (hk : k < rodadasSemEstouro) :
    Alcanca i n j k u t := by
  have hinv : Ordeiro pid u ∧ (∃ l, Ficha u l) ∧ (concessoes i t = 0 → Alcanca i n j k u t) := by
    apply run_invariant _ _ hr
    · exact ⟨h, ⟨l, hf⟩, fun _ => ha⟩
    · rintro u t a v e ⟨hu, ⟨l, hf⟩, halc⟩ hs
      have hp := passo_cases hu.toHonesto hs
      obtain ⟨l', hf', -⟩ := passo_ficha hpid hu.toHonesto hf hp
      refine ⟨passo_ordeiro hu hp, ⟨l', hf'⟩, fun hno => ?_⟩
      rw [concessoes_append] at hno
      exact passo_alcanca hu hf.vazia hp (by omega) hn hk (halc (by omega))
  exact hinv.2.2 hno

/-- At the start of the wait nothing has been granted since. -/
theorem sistema_alcanca {c : Config ι} {as : List (Acao ι)} {s : Sistema ι} {t : List (Evento ι)}
    (hr : (sistema ι).run (Sistema.inicio c) as = some (s, t)) {i j : ι} (hi : s.Espera i)
    (hn : concessoes i t < rodadasSemEstouro) (hj : concessoes j t < rodadasSemEstouro) :
    Alcanca i (concessoes i t) j (concessoes j t) s [] where
  espera := Or.inl hi
  conta := sistema_conta hr hn
  outra := sistema_conta hr hj
  vezes := Or.inl rfl

/-- Bounded overtaking with the clocks as they are: while client `i` waits, with
`n` grants behind it, another client is granted the token no more often than it
takes to come from its own count to `n + 1`. -/
theorem others_overtake_only_while_they_catch_up {c : Config ι}
    (hpid : ∀ i, (c.pid i).toInt8 ≠ -1) {as₁ as₂ : List (Acao ι)} {s₁ s₂ : Sistema ι}
    {t₁ t₂ : List (Evento ι)}
    (hr₁ : (sistema ι).run (Sistema.inicio c) as₁ = some (s₁, t₁))
    (hr₂ : (sistema ι).run s₁ as₂ = some (s₂, t₂)) {i : ι} (hi : s₁.Espera i)
    (hno : concessoes i t₂ = 0) (hn : concessoes i t₁ + 1 < rodadasSemEstouro) (j : ι)
    (hj : concessoes j t₁ < rodadasSemEstouro) :
    concessoes j t₂ ≤ concessoes i t₁ + 1 - concessoes j t₁ := by
  obtain ⟨l, hf, -⟩ := sistema_ficha hpid hr₁
  have hvezes := (corrida_alcanca hpid (sistema_ordeiro hr₁) hf hr₂
    (sistema_alcanca hr₁ hi (by omega) hj) hno hn hj).vezes
  omega

/-- The first of three clients waits with two grants, the third has none and is
granted the token twice: three times is the most that it can be. -/
theorem the_third_of_three_clients_catches_up : ∃ s₁ t₁ s₂ t₂,
    (sistema (Fin 3)).run (Sistema.inicio tresClientes)
      (aPrimeiraCorreNaFrente ++ [.serve 0 (bemServida 0)]) = some (s₁, t₁) ∧
    (sistema (Fin 3)).run s₁ asOutrasSeAlternam = some (s₂, t₂) ∧
    concessoes 0 t₁ = 2 ∧ concessoes 2 t₂ = 2 ∧
    concessoes 2 t₂ ≤ concessoes 0 t₁ + 1 - concessoes 2 t₁ := by
  obtain ⟨s₁, t₁, h₁, hstep⟩ : ∃ s t, (sistema (Fin 3)).run (Sistema.inicio tresClientes)
      (aPrimeiraCorreNaFrente ++ [.serve 0 (bemServida 0)]) = some (s, t) ∧
      (((sistema (Fin 3)).run s asOutrasSeAlternam).any fun p =>
        s.Espera 0 ∧ concessoes 0 p.2 = 0 ∧ concessoes 0 t = 2 ∧ concessoes 2 t = 0 ∧
          concessoes 2 p.2 = 2) = true := exists_run (by decide +kernel)
  obtain ⟨⟨s₂, t₂⟩, h₂, hlast⟩ := (Option.any_eq_true _ _).mp hstep
  obtain ⟨hi, hno, hdois, hzero, hduas⟩ := decide_eq_true_eq.mp hlast
  have hpid : ∀ i, (tresClientes.pid i).toInt8 ≠ -1 := by decide
  exact ⟨s₁, t₁, s₂, t₂, h₁, h₂, hdois, hduas, others_overtake_only_while_they_catch_up hpid h₁ h₂
    hi hno (by rw [hdois]; decide) 2 (by rw [hzero]; decide)⟩

end lab2
