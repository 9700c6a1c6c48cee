-- The request of a client of LAB2-NETKIT. It is on its way, or it waits in the
-- queue, or its REPLY_ALLOW is on its way back: one place at a time, and none
-- of them while the client is out of its inner loop.
import ExclusaoMutua.Lab2.Ficha

open fila in_flight machine

namespace lab2

variable {ι : Type}

theorem trata_so_envia {s s' : Servidor ι} {e : Entrada ι} {t : List (Evento ι)}
    (ht : Trata s e s' t) (o : Origem ι) (r : Request) : .trata o r ∉ t := by
  cases ht with
  | concede | concedeFalha | enfileira | recusa | libera | passa | passaFalha | ignora => simp

variable [DecidableEq ι]

/-! ## The requests of a client -/

def doPedido (i : ι) (x : ι × Datagrama) : Bool := x.1 = i ∧ x.2.conteudo.cod = REQUEST_TOKEN

def doAllow (i : ι) (x : ι × Datagrama) : Bool := x.1 = i ∧ x.2.conteudo.cod = REPLY_ALLOW

def deCliente (i : ι) (w : Item Int32 (Origem ι)) : Bool := w.dados.caddr = i

/-- The number of requests of client `i` that are not yet over. -/
def Sistema.pendentes (s : Sistema ι) (i : ι) : Nat :=
  s.paraServidor.countP (doPedido i) + s.servidor.fila.head.countP (deCliente i) +
    s.paraClientes.countP (doAllow i)

/-- What a step does to the phase of a client and to the number of its
requests. Only the client itself makes a request, and only a REPLY_ALLOW ends
the wait for one. -/
inductive Vez : Fase → Nat → Fase → Nat → Prop
  | fica (f : Fase) {n m : Nat} (h : m ≤ n) : Vez f n f m
  | pede (n : Nat) : Vez .pede n .espera (n + 1)
  | pedeFalha (n : Nat) : Vez .pede n .fim n
  | entra (n : Nat) : Vez .espera (n + 1) .regiao n
  | sai (n : Nat) {f : Fase} (hf : f = .fim ∨ f = .pede) : Vez .regiao n f n
  | desiste (n : Nat) : Vez .espera n .fim n

/-! ## One step -/

/-- A step that leaves the phase of every client but `i` alone. -/
theorem vez_update {s s' : Sistema ι} {i : ι} {c : Cliente}
    (hs : s'.clientes = Function.update s.clientes i c)
    (hi : Vez (s.clientes i).fase (s.pendentes i) c.fase (s'.pendentes i))
    (hj : ∀ j, j ≠ i → s'.pendentes j ≤ s.pendentes j) (j : ι) :
    Vez (s.clientes j).fase (s.pendentes j) (s'.clientes j).fase (s'.pendentes j) := by
  rw [hs]
  by_cases h : j = i
  · subst h
    rw [Function.update_self]
    exact hi
  · rw [Function.update_of_ne h]
    exact .fica _ (hj j h)

theorem countP_eraseIdx_le {α : Type} (p : α → Bool) (l : List α) (k : Nat) :
    (l.eraseIdx k).countP p ≤ l.countP p := (List.eraseIdx_sublist l k).countP_le

/-- The test of `req->cod` takes a request on: from the message at hand or
from the queue, to the queue or to a REPLY_ALLOW. It makes none. -/
theorem trata_pendentes {s s' : Servidor ι} {e : Entrada ι} {t : List (Evento ι)}
    (ht : Trata s e s' t) (j : ι) :
    s'.fila.head.countP (deCliente j) + (enviados t).countP (doAllow j) ≤
      s.fila.head.countP (deCliente j) +
        if e.origem.caddr = j ∧ s.req.cod = REQUEST_TOKEN then 1 else 0 := by
  cases ht with
  | concede hc hf hn => simp [doAllow, preencheRep, hc, List.countP_cons]
  | enfileira hc hf hcabe hnov => simp [countP_colocada, deCliente, hc]
  | passa hc aux resto hh hn s' hs =>
    subst hs
    unfold doAllow
    simp [preencheRep, hh, List.countP_cons, deCliente]
  | passaFalha hc aux resto hh hn s' hs =>
    subst hs
    simp only [preencheRep, hh, List.countP_cons, enviados_nil, List.countP_nil]
    omega
  | concedeFalha | recusa | libera | ignora => simp [preencheRep]

/-- A datagram that client `i` sends is a request of `i` or of nobody. -/
theorem countP_manda (l : List (ι × Datagrama)) (i j : ι) (d : Datagrama) :
    (l ++ [(i, d)]).countP (doPedido j) =
      l.countP (doPedido j) + if i = j ∧ d.conteudo.cod = REQUEST_TOKEN then 1 else 0 := by
  simp [List.countP_append, List.countP_cons, doPedido]

/-- Each step of an honest system is a `Vez` of every client. -/
theorem passo_vez {s s' : Sistema ι} {a : Acao ι} {t : List (Evento ι)} (hp : Passo s a s' t)
    (j : ι) :
    Vez (s.clientes j).fase (s.pendentes j) (s'.clientes j).fase (s'.pendentes j) := by
  cases hp with
  | pede i ns hf hn c hc =>
    subst hc
    refine vez_update rfl ?_ ?_ j
    · rw [hf]
      have hmais : Sistema.pendentes { s with
          paraServidor := s.paraServidor ++ [(i, {
            conteudo := ((s.clientes i).preencheReq REQUEST_TOKEN (-1)).req
            nbytes := sizeofRequest })] } i = s.pendentes i + 1 := by
        unfold Sistema.pendentes
        simp only [countP_manda]
        unfold Cliente.preencheReq
        simp
        omega
      exact hmais ▸ Vez.pede _
    · intro j hj
      unfold Sistema.pendentes doPedido
      simp [Ne.symm hj]
  | pedeFalha i ns hf hn c hc =>
    refine vez_update rfl ?_ ?_ j
    · rw [hf]
      exact .pedeFalha _
    · exact fun j _ => le_refl _
  | devolve i ns hf hn c resp hc f hfim =>
    have hcod : c.req.cod = RELEASE_TOKEN := by rw [hc]; rfl
    have hmesmo : ∀ j, Sistema.pendentes { s with
        clientes := Function.update s.clientes i { c with aguardar := 0, fase := f }
        paraServidor := s.paraServidor ++
          [(i, { conteudo := c.req, nbytes := sizeofRequest })] } j = s.pendentes j := by
      intro j
      unfold Sistema.pendentes doPedido
      simp [hcod, RELEASE_TOKEN, REQUEST_TOKEN]
    refine vez_update rfl ?_ (fun j _ => le_of_eq (hmesmo j)) j
    rw [hf, hmesmo]
    exact .sai _ hfim
  | devolveFalha i ns hf hn c resp hc =>
    refine vez_update rfl ?_ ?_ j
    · rw [hf]
      exact .sai _ (Or.inl rfl)
    · exact fun j _ => le_refl _
  | ack k i d hk hf hc =>
    have hmenos := fun j => countP_eraseIdx_le (doAllow j) s.paraClientes k
    refine vez_update rfl ?_ (fun j _ => Nat.add_le_add_left (hmenos j) _) j
    exact .fica _ (Nat.add_le_add_left (hmenos i) _)
  | allow k i d hk hf hc resp hr =>
    have hmenos := fun j => countP_eraseIdx_le (doAllow j) s.paraClientes k
    refine vez_update rfl ?_ (fun j _ => Nat.add_le_add_left (hmenos j) _) j
    have htira : s.pendentes i = Sistema.pendentes { s with
        clientes := Function.update s.clientes i { s.clientes i with
          resp
          TEMPO := ((s.clientes i).TEMPO + 1) % INT_MAX
          fase := .regiao }
        paraClientes := s.paraClientes.eraseIdx k } i + 1 := by
      have hum := countP_eraseIdx (p := doAllow i) hk
      unfold Sistema.pendentes
      simp only [hum]
      unfold doAllow
      simp [hc]
      omega
    rw [hf, htira]
    exact .entra _
  | recvFalha i hf =>
    refine vez_update rfl ?_ ?_ j
    · rw [hf]
      exact .desiste _
    · exact fun j _ => le_refl _
  | ackFalha k amb i d hk hv hn hreq =>
    refine .fica _ ?_
    have hmenos := countP_eraseIdx_le (doPedido j) s.paraServidor k
    unfold Sistema.pendentes
    simp only [recebe_fila]
    omega
  | serve k amb i d hk hv hn hreq srv t ht =>
    refine .fica _ ?_
    have hmenos := countP_eraseIdx (p := doPedido j) hk
    have htrata := trata_pendentes ht j
    have hack : doAllow j (i, { conteudo := (recebe s.servidor d.dados).ack
                                nbytes := sizeofRequest }) = false := by
      unfold doAllow
      simp [recebe, ACK, REPLY_ALLOW]
    unfold Sistema.pendentes
    simp only [List.countP_append, List.countP_cons, hack]
    simp only [hreq, recebe_fila, Ambiente.entrada, Origem.de] at htrata
    simp only [doPedido, decide_eq_true_eq] at hmenos
    simp only [Bool.false_eq_true, if_false]
    omega
  | servidorFalha hv => exact .fica _ (le_refl _)
  | perdeServidor k x hk =>
    refine .fica _ ?_
    have hmenos := countP_eraseIdx_le (doPedido j) s.paraServidor k
    unfold Sistema.pendentes
    dsimp only
    omega
  | perdeCliente k x hk =>
    exact .fica _ (Nat.add_le_add_left (countP_eraseIdx_le (doAllow j) s.paraClientes k) _)

/-! ## Every run -/

/-- The number of requests that a client in the phase `f` can have. -/
def limite (f : Fase) : Nat :=
  match f with
  | .pede => 0
  | .espera => 1
  | .regiao => 0
  | .fim => 1

theorem limite_le_one (f : Fase) : limite f ≤ 1 := by cases f <;> decide

theorem vez_limite {f g : Fase} {n m : Nat} (h : Vez f n g m) (hn : n ≤ limite f) :
    m ≤ limite g := by
  cases h with
  | fica f hm => exact le_trans hm hn
  | pede n | pedeFalha n | entra n | desiste n =>
    unfold limite at hn ⊢
    dsimp only at hn ⊢
    omega
  | sai n hf =>
    unfold limite at hn
    dsimp only at hn
    omega

/-- An honest system where no client has two requests at once, and a client
out of its inner loop has none. -/
structure Ordeiro (pid : ι → Int32) (s : Sistema ι) : Prop extends Honesto pid s where
  limites : ∀ i, s.pendentes i ≤ limite (s.clientes i).fase

theorem inicio_ordeiro (c : Config ι) : Ordeiro c.pid (Sistema.inicio c) :=
  ⟨inicio_honesto c, fun _ => Nat.zero_le _⟩

theorem passo_ordeiro {pid : ι → Int32} {s s' : Sistema ι} {a : Acao ι} {t : List (Evento ι)}
    (h : Ordeiro pid s) (hp : Passo s a s' t) : Ordeiro pid s' :=
  ⟨passo_honesto h.toHonesto hp, fun i => vez_limite (passo_vez hp i) (h.limites i)⟩

theorem sistema_ordeiro {c : Config ι} {as : List (Acao ι)} {s : Sistema ι}
    {t : List (Evento ι)} (hr : (sistema ι).run (Sistema.inicio c) as = some (s, t)) :
    Ordeiro c.pid s :=
  run_state_invariant (inicio_ordeiro c)
    (fun _ _ _ _ h hs => passo_ordeiro h (passo_cases h.toHonesto hs)) hr

/-- A client whose request is in flight has no other request. -/
theorem Ordeiro.pedido {pid : ι → Int32} {s : Sistema ι} (h : Ordeiro pid s) {k : Nat} {i : ι}
    {d : Datagrama} (hk : s.paraServidor[k]? = some (i, d)) (hc : d.conteudo.cod = REQUEST_TOKEN) :
    (s.paraServidor.eraseIdx k).countP (doPedido i) = 0 ∧
      s.servidor.fila.head.filter (deCliente i) = [] ∧
      s.paraClientes.filter (doAllow i) = [] ∧
      ((s.clientes i).fase = .espera ∨ (s.clientes i).fase = .fim) := by
  have hmais := countP_eraseIdx (p := doPedido i) hk
  have hd : doPedido i (i, d) = true := by simp [doPedido, hc]
  have hlim := h.limites i
  have hfase := limite_le_one (s.clientes i).fase
  unfold Sistema.pendentes at hlim
  rw [List.countP_eq_length_filter (l := s.servidor.fila.head),
    List.countP_eq_length_filter (l := s.paraClientes)] at hlim
  rw [if_pos hd] at hmais
  refine ⟨by omega, List.eq_nil_of_length_eq_zero (by omega),
    List.eq_nil_of_length_eq_zero (by omega), ?_⟩
  cases hf : (s.clientes i).fase with
  | espera => exact Or.inl rfl
  | fim => exact Or.inr rfl
  | pede | regiao =>
    rw [hf, limite] at hlim
    omega

/-- A client out of its inner loop has no request anywhere. -/
theorem Ordeiro.sem_pedido {pid : ι → Int32} {s : Sistema ι} (h : Ordeiro pid s) {i : ι}
    (hf : limite (s.clientes i).fase = 0) :
    (∀ x ∈ s.paraServidor, x.1 = i → x.2.conteudo.cod ≠ REQUEST_TOKEN) ∧
      (∀ w ∈ s.servidor.fila.head, w.dados.caddr ≠ i) ∧
      ∀ x ∈ s.paraClientes, x.1 = i → x.2.conteudo.cod ≠ REPLY_ALLOW := by
  have hzero := Nat.le_zero.mp (hf ▸ h.limites i)
  unfold Sistema.pendentes at hzero
  simp only [Nat.add_eq_zero_iff, List.countP_eq_zero] at hzero
  obtain ⟨⟨h1, h2⟩, h3⟩ := hzero
  refine ⟨?_, ?_, ?_⟩
  · intro x hx hxi hc
    exact h1 x hx (by simp [doPedido, hxi, hc])
  · intro w hw hwi
    exact h2 w hw (by simp [deCliente, hwi])
  · intro x hx hxi hc
    exact h3 x hx (by simp [doAllow, hxi, hc])

theorem Ordeiro.entradas_le_one {pid : ι → Int32} {s : Sistema ι} (h : Ordeiro pid s) (i : ι) :
    s.servidor.fila.head.countP (deCliente i) ≤ 1 := by
  have hlim := h.limites i
  have hfase := limite_le_one (s.clientes i).fase
  unfold Sistema.pendentes at hlim
  omega

theorem Ordeiro.uma_entrada {pid : ι → Int32} {s : Sistema ι} (h : Ordeiro pid s) {i : ι}
    (hi : s.servidor.fila.head.filter (deCliente i) ≠ []) :
    ∃ w, s.servidor.fila.head.filter (deCliente i) = [w] := by
  have hle := h.entradas_le_one i
  rw [List.countP_eq_length_filter] at hle
  have hpos := List.length_pos_of_ne_nil hi
  exact List.length_eq_one_iff.mp (by omega)

/-! ## A request that waits -/

/-- The event sends a REPLY_ALLOW to client `i`. -/
def Evento.concedeA (i : ι) (x : Evento ι) : Bool :=
  match x with
  | .envia para d => para.caddr = i ∧ d.conteudo.cod = REPLY_ALLOW
  | .trata _ _ => false

/-- The test of `req->cod` leaves the entries of client `i` alone, unless it
grants the token to `i` or handles a REQUEST_TOKEN of `i`. -/
theorem trata_filter {s s' : Servidor ι} {e : Entrada ι} {t : List (Evento ι)} (h : s.Bom)
    (ht : Trata s e s' t) (hn : 0 ≤ e.nsRep) {i : ι} (hno : ∀ x ∈ t, x.concedeA i = false)
    (hi : e.origem.caddr = i → s.req.cod ≠ REQUEST_TOKEN) :
    s'.fila.head.filter (deCliente i) = s.fila.head.filter (deCliente i) := by
  cases ht with
  | concede | concedeFalha | recusa | libera | ignora => rfl
  | enfileira hc hf hcabe hnov =>
    exact filter_colocada h.valida.ordem _ _ (by simpa [deCliente] using fun hei => hi hei hc)
  | passa hc aux resto hh hrep s' hs =>
    subst hs
    have haux := hno _ (List.mem_singleton.mpr rfl)
    unfold Evento.concedeA at haux
    simp only [preencheRep, and_true] at haux
    rw [hh, List.filter_cons_of_neg (by simpa [deCliente] using haux)]
    rfl
  | passaFalha hc aux resto hh hrep => exact absurd hrep (not_lt.mpr hn)

/-- While nothing is lost and no REPLY_ALLOW goes to client `i`, its entry
waits on as it is. -/
theorem passo_espera {pid : ι → Int32} {s s' : Sistema ι} {a : Acao ι} {t : List (Evento ι)}
    (h : Ordeiro pid s) (hp : Passo s a s' t) (ha : a.SemPerda) {i : ι}
    (hno : ∀ x ∈ t, x.concedeA i = false) {w : Item Int32 (Origem ι)}
    (hw : s.servidor.fila.head.filter (deCliente i) = [w]) :
    s'.servidor.fila.head.filter (deCliente i) = [w] := by
  cases hp with
  | serve k amb j d hk hv hn hreq srv t ht =>
    rw [← hw]
    refine trata_filter (recebe_bom h.bom _) ht ha.2 (fun x hx => hno x (by simp [hx])) ?_
    intro hji hc
    have hji : j = i := hji
    subst hji
    rw [hreq] at hc
    rw [(h.pedido hk hc).2.1] at hw
    cases hw
  | pede | pedeFalha | devolve | devolveFalha | ack | allow | recvFalha | ackFalha | servidorFalha
  | perdeServidor | perdeCliente => exact hw

/-- A client that waits with no request waits on, with none. -/
theorem vez_sem_pedido {f g : Fase} {m : Nat} (h : Vez f 0 g m) (hf : f = .espera ∨ f = .fim) :
    m = 0 ∧ (g = .espera ∨ g = .fim) := by
  cases h with
  | fica f hm => exact ⟨Nat.le_zero.mp hm, hf⟩
  | pede n => simp at hf
  | pedeFalha n => simp at hf
  | sai n => simp at hf
  | desiste n => exact ⟨rfl, Or.inr rfl⟩

/-- What the server does with a REQUEST_TOKEN that it does not grant: the
request waits when there is room in the queue, and is gone when there is none. -/
theorem passo_atende {pid : ι → Int32} (hpid : Function.Injective pid) {s s' : Sistema ι}
    {a : Acao ι} {t : List (Evento ι)} (h : Ordeiro pid s) (hp : Passo s a s' t)
    (ha : a.SemPerda) {i : ι} {r : Request} (hr : .trata (Origem.de i) r ∈ t)
    (hc : r.cod = REQUEST_TOKEN) (hno : ∀ x ∈ t, x.concedeA i = false) :
    (s.servidor.fila.head.length < 10 ∧
        s'.servidor.fila.head.filter (deCliente i) = [⟨r.PID, r.tempo, Origem.de i⟩]) ∨
      (10 ≤ s.servidor.fila.head.length ∧ s'.pendentes i = 0 ∧
        ((s'.clientes i).fase = .espera ∨ (s'.clientes i).fase = .fim)) := by
  have hvez := passo_vez hp i
  cases hp with
  | serve k amb j d hk hv hn hreq srv t ht =>
    have hji : i = j ∧ r = d.conteudo := by
      simp only [List.mem_cons, reduceCtorEq, Evento.trata.injEq, Origem.de, Origem.mk.injEq,
        and_true, false_or] at hr
      exact hr.resolve_right (trata_so_envia ht _ _)
    obtain ⟨rfl, rfl⟩ := hji
    obtain ⟨hresto, hfila, hallow, hfase⟩ := h.pedido hk hc
    have htam := h.bom.valida.tam
    have hdez := h.bom.dez
    cases ht with
    | concede =>
      have := hno _ (List.mem_cons_of_mem _ (List.mem_cons_of_mem _ List.mem_cons_self))
      unfold Evento.concedeA at this
      simp [preencheRep, Ambiente.entrada, Origem.de] at this
    | concedeFalha _ _ hrep => exact absurd hrep (not_lt.mpr ha.2)
    | enfileira _ _ hcabe hnov =>
      rw [recebe_fila] at hcabe
      refine Or.inl ⟨by omega, ?_⟩
      rw [← hreq]
      exact filter_colocada_nil (by simp [deCliente, Ambiente.entrada, Origem.de]) hfila
    | recusa _ _ hnao =>
      rw [recebe_fila] at hnao
      refine Or.inr ⟨?_, ?_, hfase⟩
      · by_contra hmenos
        refine hnao ⟨by omega, ?_⟩
        intro hmem
        obtain ⟨w, hw, hwp⟩ := List.mem_map.mp hmem
        -- an entry under the PID of client `i` is an entry of client `i`
        have hwi : pid w.dados.caddr = pid i := by
          rw [← (h.entradas w hw).1, hwp, hreq]
          exact (h.pedidos _ (List.mem_of_getElem? hk)).2.1
        have hwf : w ∈ s.servidor.fila.head.filter (deCliente i) :=
          List.mem_filter.mpr ⟨hw, by simpa [deCliente] using hpid hwi⟩
        rw [hfila] at hwf
        cases hwf
      · have hack : doAllow i (i, { conteudo := (recebe s.servidor d.dados).ack
                                    nbytes := sizeofRequest }) = false := by
          unfold doAllow
          simp [recebe, ACK, REPLY_ALLOW]
        simp only [Sistema.pendentes, recebe_fila, hresto, enviados_nil, List.countP_append,
          List.countP_singleton, hack]
        simp [List.countP_eq_length_filter, hfila, hallow]
    | libera hrel | passa hrel | passaFalha hrel =>
      rw [hreq, hc] at hrel
      exact absurd hrel (by decide)
    | ignora h1 => exact absurd (hreq ▸ hc) h1
  | pede | pedeFalha | devolve | devolveFalha | ack | allow | recvFalha | ackFalha | servidorFalha
  | perdeServidor | perdeCliente => cases hr

/-- No request that the server accepts is lost, exactly when the queue has
room: a REQUEST_TOKEN that is handled and not granted has its one entry, for as
long as it is not granted, exactly when fewer than ten waited before it. -/
theorem a_request_waits_until_its_grant_iff_the_queue_has_room {c : Config ι}
    (hpid : Function.Injective c.pid) {as₁ as₂ : List (Acao ι)} {a : Acao ι}
    {s₁ s₂ s₃ : Sistema ι} {t₁ t₂ t₃ : List (Evento ι)}
    (hr₁ : (sistema ι).run (Sistema.inicio c) as₁ = some (s₁, t₁))
    (hs : (sistema ι).step s₁ a = some (s₂, t₂)) (hr₂ : (sistema ι).run s₂ as₂ = some (s₃, t₃))
    (hsem : ∀ b ∈ a :: as₂, b.SemPerda) {i : ι} {r : Request} (hr : .trata (Origem.de i) r ∈ t₂)
    (hc : r.cod = REQUEST_TOKEN) (hno : ∀ x ∈ t₂ ++ t₃, x.concedeA i = false) :
    s₃.servidor.fila.head.filter (deCliente i) = [⟨r.PID, r.tempo, Origem.de i⟩] ↔
      s₁.servidor.fila.head.length < 10 := by
  have h₁ := sistema_ordeiro hr₁
  have hp := passo_cases h₁.toHonesto hs
  have h₂ := passo_ordeiro h₁ hp
  have hlei : (sistema ι).Along (fun _ _ b => b.SemPerda) s₂ as₂ :=
    along_all fun b hb => hsem b (List.mem_cons_of_mem _ hb)
  rcases passo_atende hpid h₁ hp (hsem a List.mem_cons_self) hr hc
    (fun x hx => hno x (List.mem_append_left _ hx)) with ⟨hcabe, hw⟩ | ⟨hcheia, hnada, hfase⟩
  · refine ⟨fun _ => hcabe, fun _ => ?_⟩
    have hinv : Ordeiro c.pid s₃ ∧ ((∀ x ∈ t₃, x.concedeA i = false) →
        s₃.servidor.fila.head.filter (deCliente i) = [⟨r.PID, r.tempo, Origem.de i⟩]) := by
      apply run_invariant_along _ _ hlei hr₂
      · exact ⟨h₂, fun _ => hw⟩
      · rintro u t b v e ⟨hu, hespera⟩ hb hs
        have hp := passo_cases hu.toHonesto hs
        refine ⟨passo_ordeiro hu hp, fun hno => ?_⟩
        exact passo_espera hu hp hb (fun x hx => hno x (List.mem_append_right _ hx))
          (hespera fun x hx => hno x (List.mem_append_left _ hx))
    exact hinv.2 fun x hx => hno x (List.mem_append_right _ hx)
  · refine ⟨fun hespera => ?_, fun hcabe => absurd hcabe (not_lt.mpr hcheia)⟩
    have hinv : Ordeiro c.pid s₃ ∧ s₃.pendentes i = 0 ∧
        ((s₃.clientes i).fase = .espera ∨ (s₃.clientes i).fase = .fim) := by
      apply run_state_invariant _ _ hr₂
      · exact ⟨h₂, hnada, hfase⟩
      · rintro u b v e ⟨hu, hnada, hfase⟩ hs
        have hp := passo_cases hu.toHonesto hs
        have hvez := passo_vez hp i
        rw [hnada] at hvez
        exact ⟨passo_ordeiro hu hp, vez_sem_pedido hvez hfase⟩
    have hzero := hinv.2.1
    unfold Sistema.pendentes at hzero
    rw [List.countP_eq_length_filter (l := s₃.servidor.fila.head), hespera] at hzero
    simp at hzero

/-- The REQUEST_TOKEN of a client with this PID at its first `sendto`. -/
def primeiroPedido (PID : Int32) : Request := { pedido PID 1 with recurso := -1 }

theorem the_second_of_two_requests_waits : ∃ s₁ t₁ s₂ t₂ s₃ t₃,
    (sistema (Fin 2)).run (Sistema.inicio (comPids ![7, 8])) ((doisClientes 0 1).take 3) =
      some (s₁, t₁) ∧
    (sistema (Fin 2)).step s₁ (.serve 0 (bemServida 0)) = some (s₂, t₂) ∧
    (sistema (Fin 2)).run s₂ [.chega 0, .chega 0] = some (s₃, t₃) ∧
    s₃.servidor.fila.head.filter (deCliente 1) = [⟨8, 1, Origem.de 1⟩] := by
  obtain ⟨s₁, t₁, h₁, hstep, hcabe⟩ : ∃ s t, (sistema (Fin 2)).run
      (Sistema.inicio (comPids ![7, 8])) ((doisClientes 0 1).take 3) = some (s, t) ∧
      (((sistema (Fin 2)).step s (.serve 0 (bemServida 0))).any fun p =>
        ((sistema (Fin 2)).run p.1 [.chega 0, .chega 0]).any fun q =>
          .trata (Origem.de 1) (primeiroPedido 8) ∈ p.2 ∧
            ∀ x ∈ p.2 ++ q.2, x.concedeA 1 = false) = true ∧
      s.servidor.fila.head.length < 10 := exists_run (by decide)
  obtain ⟨⟨s₂, t₂⟩, h₂, hrest⟩ := (Option.any_eq_true _ _).mp hstep
  obtain ⟨⟨s₃, t₃⟩, h₃, hlast⟩ := (Option.any_eq_true _ _).mp hrest
  obtain ⟨hr, hno⟩ := decide_eq_true_eq.mp hlast
  have hpid : Function.Injective (comPids ![7, 8] : Config (Fin 2)).pid := by decide
  exact ⟨s₁, t₁, s₂, t₂, s₃, t₃, h₁, h₂, h₃,
    (a_request_waits_until_its_grant_iff_the_queue_has_room hpid h₁ h₂ h₃ (by decide) hr rfl
      hno).mpr hcabe⟩

/-- Twelve clients, with the PIDs from 1 to 12. -/
def dozeClientes : Config (Fin 12) := comPids fun i => Int32.ofNat (i + 1)

/-- All of them ask, and the server handles eleven of the requests. -/
def dozePedem : List (Acao (Fin 12)) :=
  (List.finRange 12).map (fun i => .pede i 16) ++ List.replicate 11 (.serve 0 (bemServida 0))

/-- The client that asks as the last of twelve gets its ACK, and waits for a
token that nobody is going to send to it. -/
theorem the_twelfth_request_is_lost :
    Function.Injective dozeClientes.pid ∧ (∀ i, (dozeClientes.pid i).toInt8 ≠ -1) ∧
      (∀ a ∈ dozePedem ++ [.serve 0 (bemServida 0)], a.SemPerda) ∧
      ∃ s₁ t₁ s₂ t₂,
        (sistema (Fin 12)).run (Sistema.inicio dozeClientes) dozePedem = some (s₁, t₁) ∧
        (sistema (Fin 12)).step s₁ (.serve 0 (bemServida 0)) = some (s₂, t₂) ∧
        .trata (Origem.de 11) (primeiroPedido 12) ∈ t₂ ∧
        (∀ x ∈ t₁ ++ t₂, x.concedeA 11 = false) ∧
        s₂.servidor.fila.head.filter (deCliente 11) = [] := by
  refine ⟨by decide, by decide, by decide, ?_⟩
  obtain ⟨s₁, t₁, h₁, hstep⟩ : ∃ s t,
      (sistema (Fin 12)).run (Sistema.inicio dozeClientes) dozePedem = some (s, t) ∧
      (((sistema (Fin 12)).step s (.serve 0 (bemServida 0))).any fun p =>
        .trata (Origem.de 11) (primeiroPedido 12) ∈ p.2 ∧
          (∀ x ∈ t ++ p.2, x.concedeA 11 = false) ∧
          p.1.servidor.fila.head.filter (deCliente 11) = []) = true :=
    exists_run (by decide +kernel)
  obtain ⟨⟨s₂, t₂⟩, h₂, hlast⟩ := (Option.any_eq_true _ _).mp hstep
  exact ⟨s₁, t₁, s₂, t₂, h₁, h₂, decide_eq_true_eq.mp hlast⟩

end lab2
