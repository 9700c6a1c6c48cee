-- The server of LAB2-NETKIT, `servidor.c`: its queue, its token, and one
-- turn of the `while (1)` of `main` as a function of the datagram that
-- arrives.
import ExclusaoMutua.Fila
import ExclusaoMutua.Lab2.Mensagem
import ExclusaoMutua.Lib.Machine

open fila

namespace lab2

variable {A : Type}

/-! ## The state -/

/-- Where a datagram came from: `caddr` with its `addrlen`. -/
structure Origem (A : Type) where
  caddr : A
  addrlen : UInt32
  deriving DecidableEq

/-- `insere` of `servidor.c`, which refuses a PID that already waits. -/
def insere (f : Fila Int32 (Origem A)) (PID tempo : Int32) (origem : Origem A) :
    Option (Int32 × Fila Int32 (Origem A)) :=
  insereSe estaNaFila f { PID, tempo, dados := origem }

structure SToken where
  flag : Int8
  valor : Int32
  deriving DecidableEq

/-- The variables of `main`. `vivo` says that `main` has not returned. -/
structure Servidor (A : Type) where
  TEMPO : Int64
  fila : Fila Int32 (Origem A)
  Token : SToken
  req : Request
  ack : Request
  rep : Request
  vivo : Bool

/-- The state before the loop. The three buffers come from `malloc`, so they
hold anything. -/
def Servidor.inicio (req ack rep : Request) : Servidor A where
  TEMPO := 0
  fila := init 10
  Token := { valor := 30, flag := -1 }
  req
  ack
  rep
  vivo := true

/-- What one turn of the loop takes from outside: the datagram, or `none`
when `recvfrom` fails, its sender, the results of the two `sendto`, and the
memory that `malloc` gives to `removeItem`. -/
structure Entrada (A : Type) where
  dados : Option (List UInt8)
  origem : Origem A
  nsAck : Int32
  nsRep : Int32
  item : Item Int32 (Origem A)

/-- What one turn does, in order: it comes to the test of `req->cod`, or it
sends a datagram. -/
inductive Evento (A : Type) where
  | trata (origem : Origem A) (req : Request)
  | envia (para : Origem A) (d : Datagrama)
  deriving DecidableEq

/-! ## One turn of the loop -/

/-- The clock after a message with stamp `tempo`. -/
def marcaTempo (TEMPO : Int64) (tempo : Int32) : Int64 :=
  if TEMPO > tempo.toInt64 then (TEMPO + 1) % INT_MAX.toInt64 else ((tempo + 1) % INT_MAX).toInt64

/-- The state when the ACK is ready: `req` holds the datagram, the clock has
moved, and `ack` is filled in. -/
def recebe (s : Servidor A) (dados : List UInt8) : Servidor A :=
  let req := recvfrom s.req dados
  let TEMPO := marcaTempo s.TEMPO req.tempo
  { s with req, TEMPO, ack := { s.ack with cod := ACK, PID := req.PID, tempo := TEMPO.toInt32 } }

@[simp] theorem recebe_fila (s : Servidor A) (dados : List UInt8) :
    (recebe s dados).fila = s.fila := rfl

/-- The state when a REPLY_ALLOW to `PID` is ready. Both branches that grant
the token fill `rep` and `Token.flag` alike. -/
def preencheRep (s : Servidor A) (PID : Int32) : Servidor A :=
  let TEMPO := s.TEMPO + 1
  { s with
    TEMPO
    Token := { s.Token with flag := PID.toInt8 }
    rep := { s.rep with
      cod := REPLY_ALLOW
      PID
      recurso := s.Token.valor
      tempo := (TEMPO % INT_MAX.toInt64).toInt32 } }

/-- The `sendto` of a REPLY_ALLOW, which sends `sizeof(rep)` bytes. -/
def enviaRep (s : Servidor A) (para : Origem A) (ns : Int32) : Servidor A × List (Evento A) :=
  if ns < 0 then ({ s with vivo := false }, [])
  else (s, [.envia para { conteudo := s.rep, nbytes := sizeofRep }])

def trataRequest (s : Servidor A) (e : Entrada A) : Servidor A × List (Evento A) :=
  if s.Token.flag = -1 then enviaRep (preencheRep s s.req.PID) e.origem e.nsRep
  else
    match insere s.fila s.req.PID s.req.tempo e.origem with
    | none => ({ s with vivo := false }, [])
    | some (_, f) => ({ s with fila := f }, [])

def trataRelease (s : Servidor A) (e : Entrada A) : Servidor A × List (Evento A) :=
  let s := { s with Token := { valor := s.req.recurso, flag := -1 } }
  if s.fila.tamanho = 0 then (s, [])
  else
    let cliente := (removeItem e.item s.fila).1
    let s := { s with fila := (removeItem e.item s.fila).2 }
    enviaRep (preencheRep s cliente.PID) cliente.dados e.nsRep

/-- The part of the turn behind the ACK: the test of `req->cod`. -/
def trata (s : Servidor A) (e : Entrada A) : Servidor A × List (Evento A) :=
  if s.req.cod = REQUEST_TOKEN then trataRequest s e
  else if s.req.cod = RELEASE_TOKEN then trataRelease s e
  else (s, [])

/-- One turn of the loop. -/
def volta (s : Servidor A) (e : Entrada A) : Servidor A × List (Evento A) :=
  match e.dados with
  | none => ({ s with vivo := false }, [])
  | some dados =>
    let s := recebe s dados
    if e.nsAck < 0 then ({ s with vivo := false }, [])
    else
      let r := trata s e
      (r.1, .envia e.origem { conteudo := s.ack, nbytes := sizeofRequest } ::
        .trata e.origem s.req :: r.2)

/-- The server as a machine: it takes turns until `main` returns. -/
def servidor (A : Type) : machine.Machine (Servidor A) (Entrada A) (Evento A) where
  step s e := if s.vivo then some (volta s e) else none

/-! ## What a turn can do -/

/-- The queue of the server: valid, of size ten, and with no PID twice. -/
structure Servidor.Bom (s : Servidor A) : Prop where
  valida : s.fila.Valida
  dez : s.fila.N = 10
  distintos : s.fila.Distintos

theorem inicio_bom (req ack rep : Request) : (Servidor.inicio req ack rep : Servidor A).Bom :=
  ⟨valida_init 10 (by decide), rfl, List.nodup_nil⟩

theorem recebe_bom {s : Servidor A} (h : s.Bom) (dados : List UInt8) : (recebe s dados).Bom :=
  ⟨h.valida, h.dez, h.distintos⟩

/-- What the test of `req->cod` leads to, with one case for each way through
the two branches. -/
inductive Trata (s : Servidor A) (e : Entrada A) : Servidor A → List (Evento A) → Prop
  | concede (hc : s.req.cod = REQUEST_TOKEN) (hf : s.Token.flag = -1) (hn : 0 ≤ e.nsRep) :
      Trata s e (preencheRep s s.req.PID)
        [.envia e.origem { conteudo := (preencheRep s s.req.PID).rep, nbytes := sizeofRep }]
  | concedeFalha (hc : s.req.cod = REQUEST_TOKEN) (hf : s.Token.flag = -1) (hn : e.nsRep < 0) :
      Trata s e { preencheRep s s.req.PID with vivo := false } []
  | enfileira (hc : s.req.cod = REQUEST_TOKEN) (hf : s.Token.flag ≠ -1)
      (hcabe : s.fila.tamanho < s.fila.N) (hnovo : s.req.PID ∉ s.fila.head.map Item.PID) :
      Trata s e
        { s with fila := { s.fila with
            head := colocada ⟨s.req.PID, s.req.tempo, e.origem⟩ s.fila.head
            tamanho := s.fila.tamanho + 1 } } []
  | recusa (hc : s.req.cod = REQUEST_TOKEN) (hf : s.Token.flag ≠ -1)
      (hnao : ¬ (s.fila.tamanho < s.fila.N ∧ s.req.PID ∉ s.fila.head.map Item.PID)) :
      Trata s e s []
  | libera (hc : s.req.cod = RELEASE_TOKEN) (hv : s.fila.head = []) :
      Trata s e { s with Token := { valor := s.req.recurso, flag := -1 } } []
  | passa (hc : s.req.cod = RELEASE_TOKEN) (aux : Item Int32 (Origem A))
      (resto : List (Item Int32 (Origem A))) (hh : s.fila.head = aux :: resto)
      (hn : 0 ≤ e.nsRep) (s' : Servidor A)
      (hs : s' = { s with
        Token := { valor := s.req.recurso, flag := -1 }
        fila := { s.fila with head := resto, tamanho := s.fila.tamanho - 1 } }) :
      Trata s e (preencheRep s' aux.PID)
        [.envia aux.dados { conteudo := (preencheRep s' aux.PID).rep, nbytes := sizeofRep }]
  | passaFalha (hc : s.req.cod = RELEASE_TOKEN) (aux : Item Int32 (Origem A))
      (resto : List (Item Int32 (Origem A))) (hh : s.fila.head = aux :: resto)
      (hn : e.nsRep < 0) (s' : Servidor A)
      (hs : s' = { s with
        Token := { valor := s.req.recurso, flag := -1 }
        fila := { s.fila with head := resto, tamanho := s.fila.tamanho - 1 } }) :
      Trata s e { preencheRep s' aux.PID with vivo := false } []
  | ignora (h1 : s.req.cod ≠ REQUEST_TOKEN) (h2 : s.req.cod ≠ RELEASE_TOKEN) : Trata s e s []

theorem trata_cases {s : Servidor A} (h : s.Bom) (e : Entrada A) :
    Trata s e (trata s e).1 (trata s e).2 := by
  unfold trata
  split
  · rename_i hc
    unfold trataRequest
    split
    · rename_i hf
      unfold enviaRep
      split
      · exact .concedeFalha hc hf ‹_›
      · exact .concede hc hf (not_lt.mp ‹_›)
    · rename_i hf
      unfold insere
      rw [insereSe_eq h.valida]
      by_cases hcabe : s.fila.tamanho < s.fila.N ∧
          estaNaFila s.fila ⟨s.req.PID, s.req.tempo, e.origem⟩ = false
      · rw [if_pos hcabe]
        exact .enfileira hc hf hcabe.1 (estaNaFila_false.mp hcabe.2)
      · rw [if_neg hcabe]
        exact .recusa hc hf fun hh => hcabe ⟨hh.1, estaNaFila_false.mpr hh.2⟩
  · split
    · rename_i hc
      unfold trataRelease
      simp only
      split
      · exact .libera hc (h.valida.tamanho_zero.mp ‹_›)
      · rename_i h0
        rcases hh : s.fila.head with _ | ⟨aux, resto⟩
        · exact absurd (h.valida.tamanho_zero.mpr hh) h0
        · simp only [removeItem_cons hh]
          unfold enviaRep
          split
          · exact .passaFalha hc aux resto hh ‹_› _ rfl
          · exact .passa hc aux resto hh (not_lt.mp ‹_›) _ rfl
    · exact .ignora ‹_› ‹_›

/-- What a turn of the loop can do: `main` returns before the test of
`req->cod`, or the turn sends its ACK and comes to the test. -/
inductive Volta (s : Servidor A) (e : Entrada A) : Servidor A → List (Evento A) → Prop
  | recvFalha (hd : e.dados = none) : Volta s e { s with vivo := false } []
  | ackFalha (dados : List UInt8) (hd : e.dados = some dados) (hn : e.nsAck < 0) :
      Volta s e { recebe s dados with vivo := false } []
  | trata (dados : List UInt8) (hd : e.dados = some dados) (hn : 0 ≤ e.nsAck)
      (s' : Servidor A) (t : List (Evento A)) (ht : Trata (recebe s dados) e s' t) :
      Volta s e s' (.envia e.origem { conteudo := (recebe s dados).ack, nbytes := sizeofRequest } ::
        .trata e.origem (recebe s dados).req :: t)

theorem volta_cases {s : Servidor A} (h : s.Bom) (e : Entrada A) :
    Volta s e (volta s e).1 (volta s e).2 := by
  unfold volta
  rcases hd : e.dados with _ | dados
  · exact .recvFalha hd
  · simp only
    split
    · exact .ackFalha dados hd ‹_›
    · exact .trata dados hd (not_lt.mp ‹_›) _ _ (trata_cases (recebe_bom h dados) e)

theorem servidor_step {s s' : Servidor A} {e : Entrada A} {t : List (Evento A)} (h : s.Bom)
    (hs : (servidor A).step s e = some (s', t)) : s.vivo = true ∧ Volta s e s' t := by
  unfold servidor at hs
  dsimp only at hs
  split at hs
  · simp only [Option.some.injEq] at hs
    have hv := volta_cases h e
    rw [hs] at hv
    exact ⟨‹_›, hv⟩
  · cases hs

/-! ## The queue stays good -/

theorem trata_bom {s s' : Servidor A} {e : Entrada A} {t : List (Evento A)} (h : s.Bom)
    (ht : Trata s e s' t) : s'.Bom := by
  obtain ⟨hv, hd, hp⟩ := h
  cases ht with
  | concede | concedeFalha | recusa | libera | ignora => exact ⟨hv, hd, hp⟩
  | enfileira hc hf hcabe hnovo =>
    exact ⟨hv.colocada _ hcabe, hd, hp.colocada _ (estaNaFila_false.mpr hnovo) _⟩
  | passa hc aux resto hh hn s' hs =>
    subst hs
    exact ⟨hv.remove hh, hd, hp.remove hh _⟩
  | passaFalha hc aux resto hh hn s' hs =>
    subst hs
    exact ⟨hv.remove hh, hd, hp.remove hh _⟩

theorem volta_bom {s s' : Servidor A} {e : Entrada A} {t : List (Evento A)} (h : s.Bom)
    (hv : Volta s e s' t) : s'.Bom := by
  cases hv with
  | recvFalha | ackFalha => exact ⟨h.valida, h.dez, h.distintos⟩
  | trata dados hd hn s' t ht => exact trata_bom (recebe_bom h dados) ht

/-- The queue of the server is good after every run from the start. -/
theorem servidor_bom {req ack rep : Request} {es : List (Entrada A)} {s : Servidor A}
    {t : List (Evento A)} (h : (servidor A).run (Servidor.inicio req ack rep) es = some (s, t)) :
    s.Bom :=
  machine.run_state_invariant (inicio_bom req ack rep)
    (fun _ _ _ _ hb hs => volta_bom hb (servidor_step hb hs).2) h

end lab2
