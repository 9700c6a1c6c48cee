-- The client of LAB2-NETKIT, `cliente.c`: its three steps between one call of
-- the network and the next.
import ExclusaoMutua.Lab2.Mensagem
import ExclusaoMutua.Lib.SignedOrder

namespace lab2

/-- Where the client stands: about to send its REQUEST_TOKEN, in the inner
loop before `recvfrom`, between REPLY_ALLOW and RELEASE_TOKEN, or ended. -/
inductive Fase where
  | pede
  | espera
  | regiao
  | fim
  deriving DecidableEq

/-- The variables of `main`. -/
structure Cliente where
  PID : Int32
  TEMPO : Int32
  req : Request
  resp : Request
  aguardar : Int8
  fase : Fase

/-- The state before the loop. The buffers come from `malloc`. -/
def Cliente.inicio (PID : Int32) (req resp : Request) : Cliente :=
  { PID, TEMPO := 0, req, resp, aguardar := 0, fase := .pede }

/-- `++TEMPO` and the fields of `req`, as the client fills them in before each
of its two `sendto`. An `int` that overflows wraps around. -/
def Cliente.preencheReq (c : Cliente) (cod : Int8) (recurso : Int32) : Cliente :=
  let TEMPO := c.TEMPO + 1
  { c with TEMPO, req := { c.req with cod, PID := c.PID, tempo := TEMPO % INT_MAX, recurso } }

/-- The REQUEST_TOKEN at the top of the outer loop. -/
def Cliente.pede (c : Cliente) (ns : Int32) : Cliente × List Datagrama :=
  let c := c.preencheReq REQUEST_TOKEN (-1)
  if ns < 0 then ({ c with fase := .fim }, [])
  else ({ c with fase := .espera }, [{ conteudo := c.req, nbytes := sizeofRequest }])

/-- One turn of the inner loop, with the datagram that `recvfrom` gives. -/
def Cliente.recebe (c : Cliente) (dados : List UInt8) : Cliente :=
  let c := { c with resp := recvfrom c.resp dados }
  if c.resp.cod = ACK then
    if c.resp.PID ≠ c.PID then
      let c := { c with aguardar := c.aguardar + 1 }
      if c.aguardar > 3 then { c with fase := .pede } else c
    else c
  else if c.resp.cod = REPLY_ALLOW then
    { c with TEMPO := (c.TEMPO + 1) % INT_MAX, fase := .regiao }
  else c

/-- The use of the token and the RELEASE_TOKEN. Behind it stands
`sleep(rand()%PID)`, which divides by zero when `PID` is 0. -/
def Cliente.devolve (c : Cliente) (ns : Int32) : Cliente × List Datagrama :=
  let c := { c with resp := { c.resp with recurso := c.resp.recurso + 1 } }
  let c := c.preencheReq RELEASE_TOKEN c.resp.recurso
  if ns < 0 then ({ c with fase := .fim }, [])
  else ({ c with aguardar := 0, fase := if c.PID = 0 then .fim else .pede },
    [{ conteudo := c.req, nbytes := sizeofRequest }])

/-! ## What an answer does to the client -/

/-- A client that gets its own ACK goes on waiting. -/
theorem recebe_ack (c : Cliente) {d : Datagrama} (hd : d.Inteiro) (hc : d.conteudo.cod = ACK)
    (hp : d.conteudo.PID = c.PID) : c.recebe d.dados = { c with resp := d.conteudo } := by
  unfold Cliente.recebe
  simp [recvfrom_inteiro _ hd, hc, hp]

/-- A REPLY_ALLOW brings `rec` and `cod`, and the client goes into its critical
section. -/
theorem recebe_allow (c : Cliente) {d : Datagrama} (hd : d.nbytes = sizeofRep)
    (hc : d.conteudo.cod = REPLY_ALLOW) :
    c.recebe d.dados =
      { c with
        resp := { c.resp with
          recurso := d.conteudo.recurso
          cod := d.conteudo.cod
          folga := d.conteudo.folga }
        TEMPO := (c.TEMPO + 1) % INT_MAX
        fase := .regiao } := by
  have hne : REPLY_ALLOW ≠ ACK := by decide
  unfold Cliente.recebe Datagrama.dados
  simp [hd, hc, hne]

end lab2
