-- The client of LAB07-SD/backup, `cliente-2.c`, with the stubs `req_1` and
-- `rel_1` that rpcgen made: its steps between one remote call and the next.
import ExclusaoMutua.Lab07.Servidor

namespace lab07

/-- Where the client stands: about to call `req_1`, in the call, behind its
reply, in the call of `rel_1`, or ended. -/
inductive Fase where
  | pede
  | esperaReply
  | regiao
  | esperaResult
  | fim
  deriving DecidableEq

/-- The variables of `main`. `rep_out` is what the pointer points to. -/
structure Cliente where
  pid : Int64
  TEMPO : Int64
  rep_out : ReplyOut
  fase : Fase

/-- The state before the loop. `getpid` gives an `int`. -/
def Cliente.inicio (getpid : Int32) : Cliente where
  pid := getpid.toInt64
  TEMPO := 0
  rep_out := { pid_c := 0, tempo_s := 0, recurso := 0 }
  fase := .pede

/-- The call of `req_1`. An argument that cannot be encoded gives `NULL`. -/
def Cliente.req (c : Cliente) : Cliente × Option Chamada :=
  let TEMPO := c.TEMPO + 1
  let req_in : RequestIn := { pid_c := c.pid, tempo_c := TEMPO }
  if xdrRequestIn req_in then ({ c with TEMPO, fase := .esperaReply }, some (.REQ req_in))
  else ({ c with TEMPO, fase := .fim }, none)

/-- The use of the token, in a variable `recurso` of type `int`. -/
def usaRecurso (recurso : Int64) : Int64 :=
  let recurso := recurso.toInt32
  (if recurso < 0 then 2 else recurso * 2).toInt64

/-- The use of the token and the call of `rel_1`. -/
def Cliente.rel (c : Cliente) : Cliente × Option Chamada :=
  let recurso := usaRecurso c.rep_out.recurso
  let TEMPO := c.TEMPO + 1
  let new_token : Release := { pid_c := c.pid, tempo_c := TEMPO, recurso_n := recurso }
  if xdrRelease new_token then ({ c with TEMPO, fase := .esperaResult }, some (.REL new_token))
  else ({ c with TEMPO, fase := .fim }, none)

/-- The return of a call. The RPC layer drops an answer that no call waits for. -/
def Cliente.recebe (c : Cliente) : Resposta → Cliente
  | .reply rep_out =>
    if c.fase = .esperaReply then
      { c with
        rep_out
        TEMPO := if c.TEMPO > rep_out.tempo_s then c.TEMPO + 1 else rep_out.tempo_s + 1
        fase := .regiao }
    else c
  | .result _ => if c.fase = .esperaResult then { c with fase := .pede } else c
  | .null =>
    if c.fase = .esperaReply ∨ c.fase = .esperaResult then { c with fase := .fim } else c

/-! ## What a step of the client can do -/

inductive Req (c : Cliente) : Cliente → Option Chamada → Prop
  | chama (r : RequestIn) (hr : r = { pid_c := c.pid, tempo_c := c.TEMPO + 1 })
      (hx : xdrRequestIn r = true) :
      Req c { c with TEMPO := c.TEMPO + 1, fase := .esperaReply } (some (.REQ r))
  | falha : Req c { c with TEMPO := c.TEMPO + 1, fase := .fim } none

theorem req_cases (c : Cliente) : Req c c.req.1 c.req.2 := by
  unfold Cliente.req
  simp only
  split
  · exact .chama _ rfl ‹_›
  · exact .falha

inductive Rel (c : Cliente) : Cliente → Option Chamada → Prop
  | chama (r : Release) (hr : r.tempo_c = c.TEMPO + 1) :
      Rel c { c with TEMPO := c.TEMPO + 1, fase := .esperaResult } (some (.REL r))
  | falha : Rel c { c with TEMPO := c.TEMPO + 1, fase := .fim } none

theorem rel_cases (c : Cliente) : Rel c c.rel.1 c.rel.2 := by
  unfold Cliente.rel
  simp only
  split
  · exact .chama _ rfl
  · exact .falha

inductive Recebe (c : Cliente) : Resposta → Cliente → Prop
  | entra (rep_out : ReplyOut) (hf : c.fase = .esperaReply) :
      Recebe c (.reply rep_out)
        { c with
          rep_out
          TEMPO := if c.TEMPO > rep_out.tempo_s then c.TEMPO + 1 else rep_out.tempo_s + 1
          fase := .regiao }
  | volta (n : Int32) (hf : c.fase = .esperaResult) : Recebe c (.result n) { c with fase := .pede }
  | falha (hf : c.fase = .esperaReply ∨ c.fase = .esperaResult) :
      Recebe c .null { c with fase := .fim }
  | ignora (r : Resposta) : Recebe c r c

theorem recebe_cases (c : Cliente) (r : Resposta) : Recebe c r (c.recebe r) := by
  unfold Cliente.recebe
  split
  · split
    · exact .entra _ ‹_›
    · exact .ignora _
  · split
    · exact .volta _ ‹_›
    · exact .ignora _
  · split
    · exact .falha ‹_›
    · exact .ignora _

end lab07
