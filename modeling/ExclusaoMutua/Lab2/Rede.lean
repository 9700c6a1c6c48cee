-- The system of LAB2-NETKIT: one server, any number of clients, each on its
-- own socket, and the datagrams between them. The network may keep a datagram
-- back, hand it over in any order, or lose it. It never makes one.
import Mathlib.Logic.Function.Basic
import ExclusaoMutua.Lab2.Cliente
import ExclusaoMutua.Lab2.Servidor
import ExclusaoMutua.Lib.InFlight

open fila in_flight

namespace lab2

variable {ι : Type}

/-! ## The state and the actions -/

/-- A client is known by its socket, which is also the address that the server
sees. Both lists hold the datagrams in flight, oldest first, each with the
client that sent it or that it goes to. -/
structure Sistema (ι : Type) where
  servidor : Servidor ι
  clientes : ι → Cliente
  paraServidor : List (ι × Datagrama)
  paraClientes : List (ι × Datagrama)

/-- The PIDs on the command lines, and what `malloc` left in the buffers. -/
structure Config (ι : Type) where
  pid : ι → Int32
  req : ι → Request
  resp : ι → Request
  srvReq : Request
  srvAck : Request
  srvRep : Request

def Sistema.inicio (c : Config ι) : Sistema ι where
  servidor := Servidor.inicio c.srvReq c.srvAck c.srvRep
  clientes i := Cliente.inicio (c.pid i) (c.req i) (c.resp i)
  paraServidor := []
  paraClientes := []

/-- What the server takes from the C library in one turn. -/
structure Ambiente (ι : Type) where
  nsAck : Int32
  nsRep : Int32
  item : Item Int32 (Origem ι)

def Origem.de (i : ι) : Origem ι := { caddr := i, addrlen := 16 }

def Ambiente.entrada (amb : Ambiente ι) (i : ι) (dados : Option (List UInt8)) : Entrada ι where
  dados
  origem := Origem.de i
  nsAck := amb.nsAck
  nsRep := amb.nsRep
  item := amb.item

inductive Acao (ι : Type) where
  /-- Client `i` sends its REQUEST_TOKEN, and `sendto` gives `ns`. -/
  | pede (i : ι) (ns : Int32)
  /-- Client `i` uses the token and sends its RELEASE_TOKEN. -/
  | devolve (i : ι) (ns : Int32)
  /-- The network hands over the datagram at place `k` to its client. -/
  | chega (k : Nat)
  /-- The `recvfrom` of client `i` fails. -/
  | recvFalha (i : ι)
  /-- The network hands over the datagram at place `k` to the server. -/
  | serve (k : Nat) (amb : Ambiente ι)
  /-- The `recvfrom` of the server fails. -/
  | servidorFalha
  | perdeServidor (k : Nat)
  | perdeCliente (k : Nat)

/-- The datagrams that the events of a turn put on the network. -/
def enviados (t : List (Evento ι)) : List (ι × Datagrama) :=
  t.filterMap fun x => match x with
    | .envia para d => some (para.caddr, d)
    | .trata _ _ => none

@[simp] theorem enviados_nil : enviados ([] : List (Evento ι)) = [] := rfl

@[simp] theorem enviados_envia (o : Origem ι) (d : Datagrama) (t : List (Evento ι)) :
    enviados (.envia o d :: t) = (o.caddr, d) :: enviados t := rfl

/-- Nothing is lost in the step, and no `sendto` fails. -/
def Acao.SemPerda : Acao ι → Prop
  | .pede _ ns => 0 ≤ ns
  | .devolve _ ns => 0 ≤ ns
  | .chega _ => True
  | .recvFalha _ => True
  | .serve _ amb => 0 ≤ amb.nsAck ∧ 0 ≤ amb.nsRep
  | .servidorFalha => True
  | .perdeServidor _ => False
  | .perdeCliente _ => False

instance : (a : Acao ι) → Decidable a.SemPerda
  | .pede _ ns => inferInstanceAs (Decidable (0 ≤ ns))
  | .devolve _ ns => inferInstanceAs (Decidable (0 ≤ ns))
  | .chega _ => .isTrue trivial
  | .recvFalha _ => .isTrue trivial
  | .serve _ amb => inferInstanceAs (Decidable (0 ≤ amb.nsAck ∧ 0 ≤ amb.nsRep))
  | .servidorFalha => .isTrue trivial
  | .perdeServidor _ => .isFalse id
  | .perdeCliente _ => .isFalse id

/-! ## What an honest system holds -/

/-- What every reachable state has: each client keeps its PID, its datagrams
carry it, the server answers with an ACK or a REPLY_ALLOW, and each entry of
the queue carries the PID of the client it came from. -/
structure Honesto (pid : ι → Int32) (s : Sistema ι) : Prop where
  pids : ∀ i, (s.clientes i).PID = pid i
  pedidos : ∀ x ∈ s.paraServidor, x.2.Inteiro ∧ x.2.conteudo.PID = pid x.1 ∧
    (x.2.conteudo.cod = REQUEST_TOKEN ∨ x.2.conteudo.cod = RELEASE_TOKEN)
  respostas : ∀ x ∈ s.paraClientes,
    (x.2.Inteiro ∧ x.2.conteudo.cod = ACK ∧ x.2.conteudo.PID = pid x.1) ∨
      (x.2.nbytes = sizeofRep ∧ x.2.conteudo.cod = REPLY_ALLOW)
  bom : s.servidor.Bom
  entradas : ∀ w ∈ s.servidor.fila.head,
    w.PID = pid w.dados.caddr ∧ w.dados = Origem.de w.dados.caddr

theorem inicio_honesto (c : Config ι) : Honesto c.pid (Sistema.inicio c) where
  pids _ := rfl
  pedidos x hx := by cases hx
  respostas x hx := by cases hx
  bom := inicio_bom _ _ _
  entradas w hw := by cases hw

/-- The test of `req->cod` sends nothing but a REPLY_ALLOW. -/
theorem trata_enviados {s s' : Servidor ι} {e : Entrada ι} {t : List (Evento ι)}
    (ht : Trata s e s' t) :
    ∀ x ∈ enviados t, x.2.nbytes = sizeofRep ∧ x.2.conteudo.cod = REPLY_ALLOW := by
  intro x hx
  cases ht with
  | concede | passa =>
    simp only [enviados_envia, enviados_nil, List.mem_singleton] at hx
    subst hx
    exact ⟨rfl, rfl⟩
  | concedeFalha | enfileira | recusa | libera | passaFalha | ignora => cases hx

/-- An entry of the queue is an old one, or that of the REQUEST_TOKEN at hand. -/
theorem trata_entradas {s s' : Servidor ι} {e : Entrada ι} {t : List (Evento ι)}
    (ht : Trata s e s' t) :
    ∀ w ∈ s'.fila.head, w ∈ s.fila.head ∨
      s.req.cod = REQUEST_TOKEN ∧ w = ⟨s.req.PID, s.req.tempo, e.origem⟩ := by
  intro w hw
  cases ht with
  | concede | concedeFalha | recusa | libera | ignora => exact Or.inl hw
  | enfileira hc =>
    rcases mem_colocada.mp hw with hw | hw
    · exact Or.inr ⟨hc, hw⟩
    · exact Or.inl hw
  | passa hc aux resto hh hn s' hs | passaFalha hc aux resto hh hn s' hs =>
    subst hs
    exact Or.inl (hh ▸ List.mem_cons_of_mem _ hw)

/-! ## One step -/

variable [DecidableEq ι]

/-- The state when client `i` has become `r.1` and has sent `r.2`. -/
def Sistema.comCliente (s : Sistema ι) (i : ι) (r : Cliente × List Datagrama) : Sistema ι :=
  { s with
    clientes := Function.update s.clientes i r.1
    paraServidor := s.paraServidor ++ r.2.map fun d => (i, d) }

/-- One step. Each turn of the server's loop is one step: between its
`recvfrom` and its last `sendto` it takes nothing from the network. -/
def Sistema.passo (s : Sistema ι) : Acao ι → Option (Sistema ι × List (Evento ι))
  | .pede i ns =>
    if (s.clientes i).fase = .pede then some (s.comCliente i ((s.clientes i).pede ns), []) else none
  | .devolve i ns =>
    if (s.clientes i).fase = .regiao then some (s.comCliente i ((s.clientes i).devolve ns), [])
    else none
  | .chega k =>
    match s.paraClientes[k]? with
    | none => none
    | some (i, d) =>
      if (s.clientes i).fase = .espera then
        some ({ s.comCliente i ((s.clientes i).recebe d.dados, []) with
          paraClientes := s.paraClientes.eraseIdx k }, [])
      else none
  | .recvFalha i =>
    if (s.clientes i).fase = .espera then
      some (s.comCliente i ({ s.clientes i with fase := .fim }, []), [])
    else none
  | .serve k amb =>
    match s.paraServidor[k]? with
    | none => none
    | some (i, d) =>
      if s.servidor.vivo then
        let r := volta s.servidor (amb.entrada i (some d.dados))
        some ({ s with
          servidor := r.1
          paraServidor := s.paraServidor.eraseIdx k
          paraClientes := s.paraClientes ++ enviados r.2 }, r.2)
      else none
  | .servidorFalha =>
    if s.servidor.vivo then some ({ s with servidor := { s.servidor with vivo := false } }, [])
    else none
  | .perdeServidor k =>
    if k < s.paraServidor.length then
      some ({ s with paraServidor := s.paraServidor.eraseIdx k }, [])
    else none
  | .perdeCliente k =>
    if k < s.paraClientes.length then
      some ({ s with paraClientes := s.paraClientes.eraseIdx k }, [])
    else none

def sistema (ι : Type) [DecidableEq ι] : machine.Machine (Sistema ι) (Acao ι) (Evento ι) where
  step := Sistema.passo

/-! ## What a step can do -/

/-- The steps of an honest system. -/
inductive Passo (s : Sistema ι) : Acao ι → Sistema ι → List (Evento ι) → Prop
  | pede (i : ι) (ns : Int32) (hf : (s.clientes i).fase = .pede) (hn : 0 ≤ ns) (c : Cliente)
      (hc : c = (s.clientes i).preencheReq REQUEST_TOKEN (-1)) :
      Passo s (.pede i ns)
        { s with
          clientes := Function.update s.clientes i { c with fase := .espera }
          paraServidor := s.paraServidor ++ [(i, { conteudo := c.req, nbytes := sizeofRequest })] }
        []
  | pedeFalha (i : ι) (ns : Int32) (hf : (s.clientes i).fase = .pede) (hn : ns < 0) (c : Cliente)
      (hc : c = (s.clientes i).preencheReq REQUEST_TOKEN (-1)) :
      Passo s (.pede i ns)
        { s with clientes := Function.update s.clientes i { c with fase := .fim } } []
  | devolve (i : ι) (ns : Int32) (hf : (s.clientes i).fase = .regiao) (hn : 0 ≤ ns) (c : Cliente)
      (resp : Request)
      (hc : c = { s.clientes i with resp }.preencheReq RELEASE_TOKEN
        ((s.clientes i).resp.recurso + 1)) (f : Fase) (hfim : f = .fim ∨ f = .pede) :
      Passo s (.devolve i ns)
        { s with
          clientes := Function.update s.clientes i { c with aguardar := 0, fase := f }
          paraServidor := s.paraServidor ++ [(i, { conteudo := c.req, nbytes := sizeofRequest })] }
        []
  | devolveFalha (i : ι) (ns : Int32) (hf : (s.clientes i).fase = .regiao) (hn : ns < 0)
      (c : Cliente) (resp : Request)
      (hc : c = { s.clientes i with resp }.preencheReq RELEASE_TOKEN
        ((s.clientes i).resp.recurso + 1)) :
      Passo s (.devolve i ns)
        { s with clientes := Function.update s.clientes i { c with fase := .fim } } []
  | ack (k : Nat) (i : ι) (d : Datagrama) (hk : s.paraClientes[k]? = some (i, d))
      (hf : (s.clientes i).fase = .espera) (hc : d.conteudo.cod = ACK) :
      Passo s (.chega k)
        { s with
          clientes := Function.update s.clientes i { s.clientes i with resp := d.conteudo }
          paraClientes := s.paraClientes.eraseIdx k } []
  | allow (k : Nat) (i : ι) (d : Datagrama) (hk : s.paraClientes[k]? = some (i, d))
      (hf : (s.clientes i).fase = .espera) (hc : d.conteudo.cod = REPLY_ALLOW) (resp : Request)
      (hr : resp = { (s.clientes i).resp with
        recurso := d.conteudo.recurso
        cod := d.conteudo.cod
        folga := d.conteudo.folga }) :
      Passo s (.chega k)
        { s with
          clientes := Function.update s.clientes i { s.clientes i with
            resp
            TEMPO := ((s.clientes i).TEMPO + 1) % INT_MAX
            fase := .regiao }
          paraClientes := s.paraClientes.eraseIdx k } []
  | recvFalha (i : ι) (hf : (s.clientes i).fase = .espera) :
      Passo s (.recvFalha i)
        { s with clientes := Function.update s.clientes i { s.clientes i with fase := .fim } } []
  | ackFalha (k : Nat) (amb : Ambiente ι) (i : ι) (d : Datagrama)
      (hk : s.paraServidor[k]? = some (i, d)) (hv : s.servidor.vivo = true) (hn : amb.nsAck < 0)
      (hreq : (recebe s.servidor d.dados).req = d.conteudo) :
      Passo s (.serve k amb)
        { s with
          servidor := { recebe s.servidor d.dados with vivo := false }
          paraServidor := s.paraServidor.eraseIdx k } []
  | serve (k : Nat) (amb : Ambiente ι) (i : ι) (d : Datagrama)
      (hk : s.paraServidor[k]? = some (i, d)) (hv : s.servidor.vivo = true) (hn : 0 ≤ amb.nsAck)
      (hreq : (recebe s.servidor d.dados).req = d.conteudo) (srv : Servidor ι)
      (t : List (Evento ι))
      (ht : Trata (recebe s.servidor d.dados) (amb.entrada i (some d.dados)) srv t) :
      Passo s (.serve k amb)
        { s with
          servidor := srv
          paraServidor := s.paraServidor.eraseIdx k
          paraClientes := s.paraClientes ++
            (i, { conteudo := (recebe s.servidor d.dados).ack, nbytes := sizeofRequest }) ::
              enviados t }
        (.envia (Origem.de i)
          { conteudo := (recebe s.servidor d.dados).ack, nbytes := sizeofRequest } ::
          .trata (Origem.de i) d.conteudo :: t)
  | servidorFalha (hv : s.servidor.vivo = true) :
      Passo s .servidorFalha { s with servidor := { s.servidor with vivo := false } } []
  | perdeServidor (k : Nat) (x : ι × Datagrama) (hk : s.paraServidor[k]? = some x) :
      Passo s (.perdeServidor k) { s with paraServidor := s.paraServidor.eraseIdx k } []
  | perdeCliente (k : Nat) (x : ι × Datagrama) (hk : s.paraClientes[k]? = some x) :
      Passo s (.perdeCliente k) { s with paraClientes := s.paraClientes.eraseIdx k } []

theorem passo_cases {pid : ι → Int32} {s s' : Sistema ι} {a : Acao ι} {t : List (Evento ι)}
    (h : Honesto pid s) (hs : s.passo a = some (s', t)) : Passo s a s' t := by
  cases a with
  | pede i ns =>
    unfold Sistema.passo Cliente.pede at hs
    dsimp only at hs
    split at hs
    · rename_i hf
      split at hs
      · rename_i hn
        simp only [Sistema.comCliente, List.map_nil, List.append_nil, Option.some.injEq,
          Prod.mk.injEq] at hs
        obtain ⟨rfl, rfl⟩ := hs
        exact .pedeFalha i ns hf hn _ rfl
      · rename_i hn
        simp only [Sistema.comCliente, List.map_cons, List.map_nil, Option.some.injEq,
          Prod.mk.injEq] at hs
        obtain ⟨rfl, rfl⟩ := hs
        exact .pede i ns hf (not_lt.mp hn) _ rfl
    · cases hs
  | devolve i ns =>
    unfold Sistema.passo Cliente.devolve at hs
    dsimp only at hs
    split at hs
    · rename_i hf
      split at hs
      · rename_i hn
        simp only [Sistema.comCliente, List.map_nil, List.append_nil, Option.some.injEq,
          Prod.mk.injEq] at hs
        obtain ⟨rfl, rfl⟩ := hs
        exact .devolveFalha i ns hf hn _ _ rfl
      · rename_i hn
        simp only [Sistema.comCliente, List.map_cons, List.map_nil, Option.some.injEq,
          Prod.mk.injEq] at hs
        obtain ⟨rfl, rfl⟩ := hs
        refine .devolve i ns hf (not_lt.mp hn) _ _ rfl _ ?_
        split
        · exact Or.inl rfl
        · exact Or.inr rfl
    · cases hs
  | chega k =>
    unfold Sistema.passo at hs
    dsimp only at hs
    rcases hk : s.paraClientes[k]? with _ | ⟨i, d⟩
    · simp [hk] at hs
    · simp only [hk] at hs
      split at hs
      · rename_i hf
        simp only [Sistema.comCliente, List.map_nil, List.append_nil, Option.some.injEq,
          Prod.mk.injEq] at hs
        obtain ⟨rfl, rfl⟩ := hs
        rcases h.respostas _ (List.mem_of_getElem? hk) with ⟨hd, hc, hp⟩ | ⟨hd, hc⟩
        · rw [recebe_ack _ hd hc (by rw [hp, h.pids])]
          exact .ack k i d hk hf hc
        · rw [recebe_allow _ hd hc]
          exact .allow k i d hk hf hc _ rfl
      · cases hs
  | recvFalha i =>
    unfold Sistema.passo Sistema.comCliente at hs
    simp only [List.map_nil, List.append_nil] at hs
    split at hs
    · rename_i hf
      simp only [Option.some.injEq, Prod.mk.injEq] at hs
      obtain ⟨rfl, rfl⟩ := hs
      exact .recvFalha i hf
    · cases hs
  | serve k amb =>
    unfold Sistema.passo at hs
    dsimp only at hs
    rcases hk : s.paraServidor[k]? with _ | ⟨i, d⟩
    · simp [hk] at hs
    · simp only [hk] at hs
      split at hs
      · rename_i hv
        simp only [Option.some.injEq, Prod.mk.injEq] at hs
        obtain ⟨rfl, rfl⟩ := hs
        have hd := (h.pedidos _ (List.mem_of_getElem? hk)).1
        have hreq : (recebe s.servidor d.dados).req = d.conteudo := recvfrom_inteiro _ hd
        have hvolta := volta_cases h.bom (amb.entrada i (some d.dados))
        generalize volta s.servidor (amb.entrada i (some d.dados)) = r at hvolta ⊢
        obtain ⟨srv, t⟩ := r
        cases hvolta with
        | recvFalha hd => cases hd
        | ackFalha dados hd hn =>
          cases hd
          simp only [enviados_nil, List.append_nil]
          exact .ackFalha k amb i d hk hv hn hreq
        | trata dados hd hn srv t ht =>
          cases hd
          rw [hreq]
          exact .serve k amb i d hk hv hn hreq srv t ht
      · cases hs
  | servidorFalha =>
    unfold Sistema.passo at hs
    dsimp only at hs
    split at hs
    · rename_i hv
      simp only [Option.some.injEq, Prod.mk.injEq] at hs
      obtain ⟨rfl, rfl⟩ := hs
      exact .servidorFalha hv
    · cases hs
  | perdeServidor k =>
    unfold Sistema.passo at hs
    dsimp only at hs
    split at hs
    · rename_i hk
      simp only [Option.some.injEq, Prod.mk.injEq] at hs
      obtain ⟨rfl, rfl⟩ := hs
      exact .perdeServidor k _ (List.getElem?_eq_getElem hk)
    · cases hs
  | perdeCliente k =>
    unfold Sistema.passo at hs
    dsimp only at hs
    split at hs
    · rename_i hk
      simp only [Option.some.injEq, Prod.mk.injEq] at hs
      obtain ⟨rfl, rfl⟩ := hs
      exact .perdeCliente k _ (List.getElem?_eq_getElem hk)
    · cases hs

/-! ## Every reachable state is honest -/

theorem update_pids {pid : ι → Int32} {f : ι → Cliente} (h : ∀ j, (f j).PID = pid j) (i : ι)
    (c : Cliente) (hc : c.PID = (f i).PID) : ∀ j, (Function.update f i c j).PID = pid j :=
  fun j => (update_keeps hc j).trans (h j)

theorem passo_honesto {pid : ι → Int32} {s s' : Sistema ι} {a : Acao ι} {t : List (Evento ι)}
    (h : Honesto pid s) (hp : Passo s a s' t) : Honesto pid s' := by
  obtain ⟨hpids, hped, hresp, hbom, hent⟩ := h
  -- a datagram that client `i` sends with the fields of `preencheReq`
  have hmanda : ∀ i (c : Cliente) (cod : Int8) (r : Int32), c.PID = (s.clientes i).PID →
      cod = REQUEST_TOKEN ∨ cod = RELEASE_TOKEN →
      ∀ x ∈ s.paraServidor ++
        [(i, { conteudo := (c.preencheReq cod r).req, nbytes := sizeofRequest })],
        x.2.Inteiro ∧ x.2.conteudo.PID = pid x.1 ∧
          (x.2.conteudo.cod = REQUEST_TOKEN ∨ x.2.conteudo.cod = RELEASE_TOKEN) := by
    intro i c cod r hc hcod x hx
    rcases List.mem_append.mp hx with hx | hx
    · exact hped x hx
    · rw [List.mem_singleton.mp hx]
      exact ⟨rfl, hc.trans (hpids i), hcod⟩
  cases hp with
  | pede i ns hf hn c hc =>
    subst hc
    exact ⟨update_pids hpids i _ rfl, hmanda i _ _ _ rfl (Or.inl rfl), hresp, hbom, hent⟩
  | pedeFalha i ns hf hn c hc =>
    subst hc
    exact ⟨update_pids hpids i _ rfl, hped, hresp, hbom, hent⟩
  | devolve i ns hf hn c resp hc =>
    subst hc
    exact ⟨update_pids hpids i _ rfl, hmanda i _ _ _ rfl (Or.inr rfl), hresp, hbom, hent⟩
  | devolveFalha i ns hf hn c resp hc =>
    subst hc
    exact ⟨update_pids hpids i _ rfl, hped, hresp, hbom, hent⟩
  | ack k i d | allow k i d =>
    exact ⟨update_pids hpids i _ rfl, hped, forall_eraseIdx hresp k, hbom, hent⟩
  | recvFalha i => exact ⟨update_pids hpids i _ rfl, hped, hresp, hbom, hent⟩
  | ackFalha k amb i d =>
    exact ⟨hpids, forall_eraseIdx hped k, hresp, ⟨hbom.valida, hbom.dez, hbom.distintos⟩, hent⟩
  | serve k amb i d hk hv hn hreq srv t ht =>
    have hpid := (hped _ (List.mem_of_getElem? hk)).2.1
    refine ⟨hpids, forall_eraseIdx hped k, ?_,
      trata_bom (recebe_bom hbom _) ht, ?_⟩
    · intro x hx
      rcases List.mem_append.mp hx with hx | hx
      · exact hresp x hx
      · rcases List.mem_cons.mp hx with rfl | hx
        · exact Or.inl ⟨rfl, rfl, (congrArg Request.PID hreq).trans hpid⟩
        · exact Or.inr (trata_enviados ht x hx)
    · intro w hw
      rcases trata_entradas ht w hw with hw | ⟨-, rfl⟩
      · exact hent w hw
      · exact ⟨(congrArg Request.PID hreq).trans hpid, rfl⟩
  | servidorFalha => exact ⟨hpids, hped, hresp, ⟨hbom.valida, hbom.dez, hbom.distintos⟩, hent⟩
  | perdeServidor k => exact ⟨hpids, forall_eraseIdx hped k, hresp, hbom, hent⟩
  | perdeCliente k => exact ⟨hpids, hped, forall_eraseIdx hresp k, hbom, hent⟩

/-- Every state that a run reaches is honest, and each step of it is a `Passo`. -/
theorem sistema_honesto {c : Config ι} {as : List (Acao ι)} {s : Sistema ι} {t : List (Evento ι)}
    (hr : (sistema ι).run (Sistema.inicio c) as = some (s, t)) : Honesto c.pid s :=
  machine.run_state_invariant (inicio_honesto c)
    (fun _ _ _ _ h hs => passo_honesto h (passo_cases h hs)) hr

end lab2
