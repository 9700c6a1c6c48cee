-- The token server of LAB07-SD/backup: `servidor.c` behind the dispatcher of
-- `server_cent_svc.c`. One call is handled to its end before the next, so a
-- call that waits in `req_1_svc` keeps the server to itself.
import ExclusaoMutua.Fila

open fila

namespace lab07

variable {ι : Type}

/-! ## The messages -/

structure RequestIn where
  pid_c : Int64
  tempo_c : Int64
  deriving DecidableEq

structure Release where
  pid_c : Int64
  tempo_c : Int64
  recurso_n : Int64
  deriving DecidableEq

structure ReplyOut where
  pid_c : Int64
  tempo_s : Int64
  recurso : Int64
  deriving DecidableEq

/-- What `xdr_long` of the RPC library takes, as glibc has it: a `long` goes on the
wire in 32 bits, and one that does not fit is refused. (That of libtirpc takes any
`long` and sends its low 32 bits.) -/
def xdrLong (x : Int64) : Bool := x.toInt32.toInt64 = x

def xdrRequestIn (r : RequestIn) : Bool := xdrLong r.pid_c && xdrLong r.tempo_c

def xdrRelease (r : Release) : Bool := xdrLong r.pid_c && xdrLong r.tempo_c && xdrLong r.recurso_n

def xdrReplyOut (r : ReplyOut) : Bool := xdrLong r.pid_c && xdrLong r.tempo_s && xdrLong r.recurso

inductive Chamada where
  | REQ (req_in : RequestIn)
  | REL (rel_in : Release)
  deriving DecidableEq

/-- What a call gives back: a result, or `NULL`. -/
inductive Resposta where
  | reply (rep_out : ReplyOut)
  | result (n : Int32)
  | null
  deriving DecidableEq

/-! ## The state -/

/-- `insere`, whose `PID` and `tempo` are of type `int`. -/
def insere (f : Fila Int64 Unit) (PID tempo : Int32) : Option (Int32 × Fila Int64 Unit) :=
  insereSe estaNaFila f { PID := PID.toInt64, tempo := tempo.toInt64, dados := () }

/-- The variables of `servidor.c`. `fila` is `none` while the pointer is null.
`atual` is the call that waits in the loop of `req_1_svc`, and `vivo` says that
the server has not read through a null pointer. -/
structure Servidor (ι : Type) where
  TEMPO : Int64
  fila : Option (Fila Int64 Unit)
  TOKEN : Int64
  atual : Option (ι × RequestIn)
  vivo : Bool

def Servidor.inicio : Servidor ι :=
  { TEMPO := 0, fila := none, TOKEN := -1, atual := none, vivo := true }

/-- What a handler returns, with the client and the argument of its call. -/
inductive Evento (ι : Type) where
  | req (i : ι) (req_in : RequestIn) (rep_out : ReplyOut)
  | rel (i : ι) (rel_in : Release) (result : Int32)
  deriving DecidableEq

/-! ## The handlers -/

/-- `req_1_svc` up to its loop. -/
def entraNaFila (s : Servidor ι) (req_in : RequestIn) : Option (Servidor ι) :=
  (insere (s.fila.getD (init 10)) req_in.pid_c.toInt32 req_in.tempo_c.toInt32).map fun r =>
    { s with fila := some r.2 }

/-- The test of the loop, `fila->head->PID != req_in->pid_c`. -/
def espera (s : Servidor ι) (req_in : RequestIn) : Option Bool :=
  (s.fila.bind fun f => f.head.head?).map fun aux => aux.PID ≠ req_in.pid_c

/-- `req_1_svc` behind its loop. -/
def preencheRep (s : Servidor ι) (req_in : RequestIn) : Servidor ι × ReplyOut :=
  let TEMPO := s.TEMPO + 1
  ({ s with TEMPO }, { pid_c := req_in.pid_c, recurso := s.TOKEN, tempo_s := TEMPO })

/-- One turn of the loop of `req_1_svc` in the call of client `i`. -/
def gira (s : Servidor ι) (i : ι) (req_in : RequestIn) : Servidor ι × List (Evento ι) :=
  match espera s req_in with
  | none => ({ s with vivo := false }, [])
  | some true => ({ s with atual := some (i, req_in) }, [])
  | some false =>
    let r := preencheRep s req_in
    ({ r.1 with atual := none }, [.req i req_in r.2])

def req1Svc (s : Servidor ι) (i : ι) (req_in : RequestIn) : Servidor ι × List (Evento ι) :=
  match entraNaFila s req_in with
  | none => ({ s with vivo := false }, [])
  | some s => gira s i req_in

/-- `rel_1_svc`. The item that `removeItem` gives back is dropped. -/
def rel1Svc (s : Servidor ι) (rel_in : Release) : Servidor ι × Int32 :=
  ({ s with
      TOKEN := rel_in.recurso_n
      TEMPO := if s.TEMPO > rel_in.tempo_c then s.TEMPO + 1 else rel_in.tempo_c + 1
      fila := s.fila.map fun f => (removeItem (⟨0, 0, ()⟩ : Item Int64 Unit) f).2 }, 1)

/-- `server_cent_1`, with a call whose argument is decoded. -/
def serverCent1 (s : Servidor ι) (i : ι) : Chamada → Servidor ι × List (Evento ι)
  | .REQ req_in => req1Svc s i req_in
  | .REL rel_in => ((rel1Svc s rel_in).1, [.rel i rel_in (rel1Svc s rel_in).2])

/-- The answer that `svc_sendreply` sends. A reply that cannot be encoded is
sent as an error, which gives the client a `NULL`. -/
def svcSendreply : Evento ι → ι × Resposta
  | .req i _ rep_out => (i, if xdrReplyOut rep_out then .reply rep_out else .null)
  | .rel i _ result => (i, .result result)

/-! ## The queue of the server -/

/-- The queue that `req_1_svc` finds or makes. -/
def Servidor.suaFila (s : Servidor ι) : Fila Int64 Unit := s.fila.getD (init 10)

/-- The queue of the server: valid, of size ten, and with no PID twice. -/
structure Servidor.Bom (s : Servidor ι) : Prop where
  valida : s.suaFila.Valida
  dez : s.suaFila.N = 10
  distintos : s.suaFila.Distintos

theorem inicio_bom : (Servidor.inicio : Servidor ι).Bom :=
  ⟨valida_init 10 (by decide), rfl, List.nodup_nil⟩

/-- `rel_1_svc` takes the head away, also when there is no queue yet. -/
theorem rel1Svc_suaFila (s : Servidor ι) (r : Release) :
    (rel1Svc s r).1.suaFila = (removeItem ⟨0, 0, ()⟩ s.suaFila).2 := by
  unfold Servidor.suaFila rel1Svc
  cases s.fila with
  | none => rfl
  | some f => rfl

/-- The item that `req_1_svc` gives to `insere`. -/
def RequestIn.item (r : RequestIn) : Item Int64 Unit :=
  { PID := r.pid_c.toInt32.toInt64, tempo := r.tempo_c.toInt32.toInt64, dados := () }

/-- The queue after `insere`. -/
def comItem (f : Fila Int64 Unit) (novo : Item Int64 Unit) : Fila Int64 Unit :=
  if f.tamanho < f.N ∧ estaNaFila f novo = false then
    { f with head := colocada novo f.head, tamanho := f.tamanho + 1 }
  else f

theorem comItem_valida {f : Fila Int64 Unit} (h : f.Valida) (novo : Item Int64 Unit) :
    (comItem f novo).Valida := by
  unfold comItem
  split
  · rename_i hcabe
    exact h.colocada novo hcabe.1
  · exact h

theorem comItem_distintos {f : Fila Int64 Unit} (h : f.Distintos) (novo : Item Int64 Unit) :
    (comItem f novo).Distintos := by
  unfold comItem
  split
  · rename_i hcabe
    exact h.colocada novo hcabe.2 _
  · exact h

@[simp] theorem comItem_N (f : Fila Int64 Unit) (novo : Item Int64 Unit) :
    (comItem f novo).N = f.N := by
  unfold comItem
  split
  · rfl
  · rfl

/-- Behind `insere` there is a head to read. -/
theorem comItem_head {f : Fila Int64 Unit} (h : f.Valida) (hN : f.N = 10)
    (novo : Item Int64 Unit) : ∃ aux resto, (comItem f novo).head = aux :: resto := by
  unfold comItem
  split
  · rename_i hcabe
    apply List.exists_cons_of_ne_nil
    intro hnil
    have hmem : novo ∈ colocada novo f.head := mem_colocada.mpr (Or.inl rfl)
    have hnil : colocada novo f.head = [] := hnil
    rw [hnil] at hmem
    cases hmem
  · rename_i hcheia
    apply List.exists_cons_of_ne_nil
    intro hnil
    apply hcheia
    refine ⟨?_, ?_⟩
    · rw [h.tamanho_zero.mpr hnil, hN]
      decide
    · unfold estaNaFila
      simp [hnil]

theorem insereSe_comItem {f : Fila Int64 Unit} (h : f.Valida) (novo : Item Int64 Unit) :
    ∃ n, insereSe estaNaFila f novo = some (n, comItem f novo) := by
  rw [insereSe_eq h]
  unfold comItem
  split
  · exact ⟨1, rfl⟩
  · exact ⟨0, rfl⟩

theorem entraNaFila_eq {s : Servidor ι} (h : s.Bom) (r : RequestIn) :
    entraNaFila s r = some { s with fila := some (comItem s.suaFila r.item) } := by
  obtain ⟨n, hn⟩ := insereSe_comItem h.valida r.item
  have hmap : entraNaFila s r =
      (insereSe estaNaFila s.suaFila r.item).map fun p => { s with fila := some p.2 } := rfl
  rw [hmap, hn]
  rfl

/-! ## What a handler can do -/

/-- The ways through a call: `req_1_svc` replies at once, or it waits in its
loop, or `rel_1_svc` takes the head of the queue away. -/
inductive Atende (s : Servidor ι) (i : ι) : Chamada → Servidor ι → List (Evento ι) → Prop
  | responde (r : RequestIn) (aux : Item Int64 Unit) (resto : List (Item Int64 Unit))
      (hh : (comItem s.suaFila r.item).head = aux :: resto) (hp : aux.PID = r.pid_c) :
      Atende s i (.REQ r)
        { s with fila := some (comItem s.suaFila r.item), TEMPO := s.TEMPO + 1, atual := none }
        [.req i r { pid_c := r.pid_c, recurso := s.TOKEN, tempo_s := s.TEMPO + 1 }]
  | espera (r : RequestIn) (aux : Item Int64 Unit) (resto : List (Item Int64 Unit))
      (hh : (comItem s.suaFila r.item).head = aux :: resto) (hp : aux.PID ≠ r.pid_c) :
      Atende s i (.REQ r)
        { s with fila := some (comItem s.suaFila r.item), atual := some (i, r) } []
  | libera (r : Release) : Atende s i (.REL r) (rel1Svc s r).1 [.rel i r 1]

theorem serverCent1_cases {s : Servidor ι} (h : s.Bom) (i : ι) (c : Chamada) :
    Atende s i c (serverCent1 s i c).1 (serverCent1 s i c).2 := by
  cases c with
  | REL r => exact .libera r
  | REQ r =>
    obtain ⟨aux, resto, hh⟩ := comItem_head h.valida h.dez r.item
    simp only [serverCent1, req1Svc, entraNaFila_eq h, gira, espera, Option.bind_some, hh,
      List.head?_cons, Option.map_some]
    by_cases hp : aux.PID = r.pid_c
    · simp only [hp, ne_eq, not_true_eq_false, decide_false]
      exact .responde r aux resto hh hp
    · simp only [hp, ne_eq, not_false_eq_true, decide_true]
      exact .espera r aux resto hh hp

theorem atende_bom {s s' : Servidor ι} {i : ι} {c : Chamada} {t : List (Evento ι)} (h : s.Bom)
    (ha : Atende s i c s' t) : s'.Bom := by
  cases ha with
  | responde r aux resto hh hp | espera r aux resto hh hp =>
    exact ⟨comItem_valida h.valida _, (comItem_N _ _).trans h.dez, comItem_distintos h.distintos _⟩
  | libera r =>
    refine ⟨?_, ?_, ?_⟩
    · rw [rel1Svc_suaFila]
      exact h.valida.removeItem _
    · rw [rel1Svc_suaFila, removeItem_N, h.dez]
    · unfold Fila.Distintos
      rw [rel1Svc_suaFila, removeItem_head]
      exact h.distintos.sublist ((List.tail_sublist _).map _)

end lab07
