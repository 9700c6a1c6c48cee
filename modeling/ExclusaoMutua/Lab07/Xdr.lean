-- The bytes of the calls of LAB07-SD/backup: `server_cent_xdr.c`, the stubs of
-- `server_cent_clnt.c`, and `server_cent_1` of `server_cent_svc.c` from the
-- number of the procedure and the bytes of its argument on.
import ExclusaoMutua.Lab07.Chamadas
import ExclusaoMutua.Lab07.Cliente
import ExclusaoMutua.Lib.Codec

open codec fila machine

namespace lab07

variable {ι : Type}

/-! ## The codecs -/

/-- `xdr_int` of the RPC library: the four bytes of an `int`. -/
def codecInt : Codec Int32 :=
  word.via Int32.toUInt32 UInt32.toInt32 fun w => by simp

/-- `xdr_long` of the RPC library, as glibc has it: a `long` goes as an `int`, or
not at all. -/
def codecLong : Codec Int64 :=
  codecInt.via Int64.toInt32 Int32.toInt64 fun n => by simp

/-- `xdr_request_in`. -/
def codecRequestIn : Codec RequestIn :=
  (codecLong.pair codecLong).via (fun r => (r.pid_c, r.tempo_c))
    (fun p => { pid_c := p.1, tempo_c := p.2 }) fun _ => rfl

/-- `xdr_release`. -/
def codecRelease : Codec Release :=
  (codecLong.pair (codecLong.pair codecLong)).via (fun r => (r.pid_c, r.tempo_c, r.recurso_n))
    (fun p => { pid_c := p.1, tempo_c := p.2.1, recurso_n := p.2.2 }) fun _ => rfl

/-- `xdr_reply_out`. -/
def codecReplyOut : Codec ReplyOut :=
  (codecLong.pair (codecLong.pair codecLong)).via (fun r => (r.pid_c, r.tempo_s, r.recurso))
    (fun p => { pid_c := p.1, tempo_s := p.2.1, recurso := p.2.2 }) fun _ => rfl

/-! ## What can be written -/

theorem codecInt_put_isSome (n : Int32) : (codecInt.put n).isSome = true := by
  unfold codecInt
  rw [via_put_isSome, word_put_isSome]
  simp

/-- `xdr_long` takes the numbers that an `int` holds. -/
theorem codecLong_put_isSome (x : Int64) : (codecLong.put x).isSome = xdrLong x := by
  unfold codecLong xdrLong
  rw [via_put_isSome, codecInt_put_isSome, Bool.and_true]

theorem codecRequestIn_put_isSome (r : RequestIn) :
    (codecRequestIn.put r).isSome = xdrRequestIn r := by
  unfold codecRequestIn xdrRequestIn
  rw [via_put_isSome, pair_put_isSome, codecLong_put_isSome, codecLong_put_isSome]
  simp

theorem codecRelease_put_isSome (r : Release) :
    (codecRelease.put r).isSome = xdrRelease r := by
  unfold codecRelease xdrRelease
  rw [via_put_isSome, pair_put_isSome, pair_put_isSome]
  simp [codecLong_put_isSome, Bool.and_assoc]

theorem codecReplyOut_put_isSome (r : ReplyOut) :
    (codecReplyOut.put r).isSome = xdrReplyOut r := by
  unfold codecReplyOut xdrReplyOut
  rw [via_put_isSome, pair_put_isSome, pair_put_isSome]
  simp [codecLong_put_isSome, Bool.and_assoc]

/-! ## The messages -/

def NULLPROC : UInt32 := 0

def REQ : UInt32 := 1

def REL : UInt32 := 2

/-- A call as it comes to `server_cent_1`: who sent it, the number of the
procedure, and the bytes of the argument. -/
structure Recado (ι : Type) where
  cliente : ι
  rq_proc : UInt32
  args : List UInt8

/-- The answer of the RPC layer: that of `svc_sendreply`, `svcerr_noproc`,
`svcerr_decode` or `svcerr_systemerr`. -/
inductive RespostaRpc where
  | success (results : List UInt8)
  | noproc
  | decode
  | systemerr
  deriving DecidableEq

/-- The end of `server_cent_1`, where the result of the handler goes out. -/
def sendreply : Evento ι → ι × RespostaRpc
  | .req i _ rep_out => (i, (codecReplyOut.put rep_out).elim .systemerr .success)
  | .rel i _ result => (i, (codecInt.put result).elim .systemerr .success)

/-- The answer is that of a handler, and not of `server_cent_1` itself. -/
def doTratador (x : ι × RespostaRpc) : Bool :=
  match x.2 with
  | .success results => !results.isEmpty
  | .noproc => false
  | .decode => false
  | .systemerr => true

/-- `server_cent_1`, from the bytes on. -/
def serverCent1Bytes (s : Servidor ι) (m : Recado ι) : Servidor ι × List (ι × RespostaRpc) :=
  if m.rq_proc = NULLPROC then (s, [(m.cliente, .success [])])
  else if m.rq_proc = REQ then
    match codecRequestIn.get m.args with
    | none => (s, [(m.cliente, .decode)])
    | some (req_in, _) =>
      let r := req1Svc s m.cliente req_in
      (r.1, r.2.map sendreply)
  else if m.rq_proc = REL then
    match codecRelease.get m.args with
    | none => (s, [(m.cliente, .decode)])
    | some (rel_in, _) =>
      let r := rel1Svc s rel_in
      (r.1, [sendreply (.rel m.cliente rel_in r.2)])
  else (s, [(m.cliente, .noproc)])

inductive Giro (ι : Type) where
  /-- `svc_run` takes a message. -/
  | atende (m : Recado ι)
  /-- One turn of the loop of `req_1_svc`. -/
  | gira

/-- The server from the bytes on. -/
def svcRun (ι : Type) : Machine (Servidor ι) (Giro ι) (ι × RespostaRpc) where
  step s a :=
    if s.vivo then
      match a with
      | .atende m => if s.atual.isNone then some (serverCent1Bytes s m) else none
      | .gira => s.atual.map fun p =>
        let r := gira s p.1 p.2
        (r.1, r.2.map sendreply)
    else none

/-! ## The two ends of a call -/

/-- The message of a call, when its argument can be written. -/
def recadoDe (i : ι) : Chamada → Option (Recado ι)
  | .REQ r => (codecRequestIn.put r).map fun args => { cliente := i, rq_proc := REQ, args }
  | .REL r => (codecRelease.put r).map fun args => { cliente := i, rq_proc := REL, args }

/-- The call of a message, when there is one. -/
def Recado.chamada (m : Recado ι) : Option Chamada :=
  if m.rq_proc = REQ then (codecRequestIn.get m.args).map fun p => .REQ p.1
  else if m.rq_proc = REL then (codecRelease.get m.args).map fun p => .REL p.1
  else none

/-- `req_1`, from the answer on. -/
def req1 : RespostaRpc → Option ReplyOut
  | .success results => (codecReplyOut.get results).map Prod.fst
  | _ => none

/-- `rel_1`, from the answer on. -/
def rel1 : RespostaRpc → Option Int32
  | .success results => (codecInt.get results).map Prod.fst
  | _ => none

/-- What the client makes of the answer to its call. -/
def Evento.lido : Evento ι → RespostaRpc → Resposta
  | .req _ _ _, r => (req1 r).elim .null .reply
  | .rel _ _ _, r => (rel1 r).elim .null .result

/-- A call that can be written is the call of its message. -/
theorem chamada_recado {i : ι} {c : Chamada} {m : Recado ι} (h : recadoDe i c = some m) :
    m.cliente = i ∧ m.chamada = some c := by
  have hne : REL ≠ REQ := by decide
  unfold recadoDe at h
  unfold Recado.chamada
  cases c with
  | REQ r =>
    obtain ⟨args, hput, rfl⟩ := Option.map_eq_some_iff.mp h
    simp [codecRequestIn.get_put_self hput]
  | REL r =>
    obtain ⟨args, hput, rfl⟩ := Option.map_eq_some_iff.mp h
    simp [codecRelease.get_put_self hput, hne]

/-- The answer that goes out over the wire is the one that the client gets. -/
theorem lido_sendreply (e : Evento ι) : e.lido (sendreply e).2 = (svcSendreply e).2 := by
  cases e with
  | req i r rep =>
    have hput := codecReplyOut_put_isSome rep
    unfold sendreply svcSendreply
    dsimp only
    rw [← hput]
    cases hbs : codecReplyOut.put rep with
    | none => rfl
    | some bs =>
      unfold Evento.lido req1
      simp [codecReplyOut.get_put_self hbs]
  | rel i r n =>
    obtain ⟨bs, hbs⟩ := Option.isSome_iff_exists.mp (codecInt_put_isSome n)
    unfold sendreply svcSendreply Evento.lido rel1
    simp [hbs, codecInt.get_put_self hbs]

theorem sendreply_cliente (e : Evento ι) : (sendreply e).1 = (svcSendreply e).1 := by
  cases e with
  | req => rfl
  | rel => rfl

/-! ## What `server_cent_1` does with a message -/

/-- A message that is a call goes to its handler. -/
theorem serverCent1Bytes_chamada {s : Servidor ι} {m : Recado ι} {c : Chamada}
    (h : m.chamada = some c) :
    serverCent1Bytes s m =
      ((serverCent1 s m.cliente c).1, (serverCent1 s m.cliente c).2.map sendreply) := by
  have hreq : REQ ≠ NULLPROC := by decide
  have hrel : REL ≠ NULLPROC ∧ REL ≠ REQ := by decide
  unfold Recado.chamada at h
  unfold serverCent1Bytes
  split at h
  · rename_i hp
    obtain ⟨⟨r, rest⟩, hget, rfl⟩ := Option.map_eq_some_iff.mp h
    rw [if_neg (hp ▸ hreq), if_pos hp, hget]
    rfl
  · split at h
    · rename_i hp
      obtain ⟨⟨r, rest⟩, hget, rfl⟩ := Option.map_eq_some_iff.mp h
      rw [if_neg (hp ▸ hrel.1), if_neg (hp ▸ hrel.2), if_pos hp, hget]
      rfl
    · cases h

/-- A message that is no call is answered at once, and changes nothing. -/
theorem serverCent1Bytes_outra {s : Servidor ι} {m : Recado ι} (h : m.chamada = none) :
    ∃ r, serverCent1Bytes s m = (s, [(m.cliente, r)]) ∧ doTratador (m.cliente, r) = false := by
  unfold Recado.chamada at h
  unfold serverCent1Bytes
  split at h
  · rename_i hp
    rw [Option.map_eq_none_iff] at h
    rw [if_neg (by rw [hp]; decide), if_pos hp, h]
    exact ⟨.decode, rfl, rfl⟩
  · rename_i hp
    split at h
    · rename_i hp'
      rw [Option.map_eq_none_iff] at h
      rw [if_neg (by rw [hp']; decide), if_neg hp, if_pos hp', h]
      exact ⟨.decode, rfl, rfl⟩
    · rename_i hp'
      rw [if_neg hp, if_neg hp']
      split
      · exact ⟨.success [], rfl, rfl⟩
      · exact ⟨.noproc, rfl, rfl⟩

/-- The answer of a handler has bytes in it. -/
theorem doTratador_sendreply (e : Evento ι) : doTratador (sendreply e) = true := by
  cases e with
  | req i r rep =>
    unfold sendreply doTratador
    dsimp only
    cases hbs : codecReplyOut.put rep with
    | none => rfl
    | some bs =>
      have hlen : bs.length = 12 := codecReplyOut.length_put _ _ hbs
      cases bs with
      | nil => cases hlen
      | cons b bs => rfl
  | rel i r n =>
    obtain ⟨bs, hbs⟩ := Option.isSome_iff_exists.mp (codecInt_put_isSome n)
    have hlen : bs.length = 4 := codecInt.length_put _ _ hbs
    unfold sendreply doTratador
    cases bs with
    | nil => cases hlen
    | cons b bs => simp [hbs]

theorem filter_sendreply (e : List (Evento ι)) :
    (e.map sendreply).filter doTratador = e.map sendreply := by
  rw [List.filter_eq_self]
  intro x hx
  obtain ⟨y, -, rfl⟩ := List.mem_map.mp hx
  exact doTratador_sendreply y

theorem respostas_append {t t' : List (ι × RespostaRpc)} {e e' : List (Evento ι)}
    (h : t.filter doTratador = e.map sendreply) (h' : t'.filter doTratador = e'.map sendreply) :
    (t ++ t').filter doTratador = (e ++ e').map sendreply := by
  rw [List.filter_append, h, h', List.map_append]

theorem sendreply_append {e e' : List (Evento ι)} {t t' : List (ι × RespostaRpc)}
    (h : e.map sendreply = t) (h' : e'.map sendreply = t') :
    (e ++ e').map sendreply = t ++ t' := by
  rw [List.map_append, h, h']

/-- The messages that are no calls: too short, or for no procedure that the
server has. -/
theorem chamada_eq_none_iff (m : Recado ι) :
    m.chamada = none ↔ (m.rq_proc = REQ ∧ m.args.length < 8) ∨
      (m.rq_proc = REL ∧ m.args.length < 12) ∨ (m.rq_proc ≠ REQ ∧ m.rq_proc ≠ REL) := by
  have hne : REL ≠ REQ := by decide
  unfold Recado.chamada
  by_cases hreq : m.rq_proc = REQ
  · rw [if_pos hreq, Option.map_eq_none_iff, codecRequestIn.get_eq_none_iff]
    simp [hreq, hne.symm]
    rfl
  · rw [if_neg hreq]
    by_cases hrel : m.rq_proc = REL
    · rw [if_pos hrel, Option.map_eq_none_iff, codecRelease.get_eq_none_iff]
      simp [hrel, hne]
      rfl
    · simp [hreq, hrel]

/-! ## One step -/

/-- The turn of the server that a message or a turn of the loop is. -/
def Giro.turno : Giro ι → Option (Turno ι)
  | .atende m => m.chamada.map fun c => .chama m.cliente c
  | .gira => some .gira

/-- A step that is a turn of the server, seen from the bytes. -/
theorem svcRun_turno {s s' : Servidor ι} {g : Giro ι} {a : Turno ι} {t : List (ι × RespostaRpc)}
    (hg : g.turno = some a) (hs : (svcRun ι).step s g = some (s', t)) :
    ∃ e, (servico ι).step s a = some (s', e) ∧ t = e.map sendreply := by
  unfold svcRun at hs
  dsimp only at hs
  split at hs
  · rename_i hv
    unfold servico
    cases g with
    | gira =>
      unfold Giro.turno at hg
      rw [Option.some.injEq] at hg
      subst hg
      obtain ⟨p, hp, he⟩ := Option.map_eq_some_iff.mp hs
      simp only [Prod.mk.injEq] at he
      obtain ⟨rfl, rfl⟩ := he
      exact ⟨(gira s p.1 p.2).2, by simp [hv, hp], rfl⟩
    | atende m =>
      obtain ⟨c, hc, rfl⟩ := Option.map_eq_some_iff.mp hg
      dsimp only at hs
      rw [serverCent1Bytes_chamada hc] at hs
      split at hs
      · rename_i hl
        simp only [Option.some.injEq, Prod.mk.injEq] at hs
        obtain ⟨rfl, rfl⟩ := hs
        exact ⟨(serverCent1 s m.cliente c).2, by simp [hv, hl], rfl⟩
      · cases hs
  · cases hs

/-- A step that is none answers by itself, and changes nothing. -/
theorem svcRun_outra {s s' : Servidor ι} {g : Giro ι} {t : List (ι × RespostaRpc)}
    (hg : g.turno = none) (hs : (svcRun ι).step s g = some (s', t)) :
    s' = s ∧ t.filter doTratador = [] := by
  cases g with
  | gira => cases hg
  | atende m =>
    obtain ⟨r, hr, hno⟩ := serverCent1Bytes_outra (s := s) (Option.map_eq_none_iff.mp hg)
    unfold svcRun at hs
    dsimp only at hs
    split at hs
    · split at hs
      · rw [hr, Option.some.injEq, Prod.mk.injEq] at hs
        obtain ⟨rfl, rfl⟩ := hs
        exact ⟨rfl, by simp [hno]⟩
      · cases hs
    · cases hs

/-! ## Every run -/

/-- Whatever bytes come in, the server does what it does for the calls among
them, and those are answered by the handlers alone. The other messages, which
are too short or for no procedure of the server, leave no trace. -/
theorem messages_that_are_no_calls_leave_no_trace {ms : List (Giro ι)} {s : Servidor ι}
    {t : List (ι × RespostaRpc)} (hr : (svcRun ι).run Servidor.inicio ms = some (s, t)) :
    (∃ e, (servico ι).run Servidor.inicio (ms.filterMap Giro.turno) = some (s, e) ∧
        t.filter doTratador = e.map sendreply) ∧
      s.vivo = true ∧ FilaBemFormada s ∧
      ∀ m : Recado ι, m.chamada = none ↔ (m.rq_proc = REQ ∧ m.args.length < 8) ∨
        (m.rq_proc = REL ∧ m.args.length < 12) ∨ (m.rq_proc ≠ REQ ∧ m.rq_proc ≠ REL) := by
  have hlei : (svcRun ι).Along (fun _ _ _ => True) Servidor.inicio ms :=
    along_all fun _ _ => trivial
  obtain ⟨u, e, hrun, rfl, he⟩ : ∃ u e,
      (servico ι).run Servidor.inicio (ms.filterMap Giro.turno) = some (u, e) ∧ s = u ∧
        t.filter doTratador = e.map sendreply := by
    apply run_simulates (R := fun s u => s = u)
      (T := fun t e => t.filter doTratador = e.map sendreply) rfl (fun _ _ _ _ => respostas_append)
      rfl _ _ hlei hr
    · rintro u t c g v e rfl - hg hs
      exact svcRun_outra hg hs
    · rintro u t c g a v e rfl - hg hs
      obtain ⟨f, hf, rfl⟩ := svcRun_turno hg hs
      exact ⟨v, f, hf, rfl, filter_sendreply f⟩
  have hseg : Seguro s := run_state_invariant inicio_seguro
    (fun _ _ _ _ hu hs => servico_seguro hu hs) hrun
  exact ⟨⟨e, hrun, he⟩, hseg.vivo, hseg.bom.bemFormada, chamada_eq_none_iff⟩

/-- A ping, a request without its stamp and a call of a third procedure, among a
request and a release of client 7. -/
def cincoRecados : List (Giro Unit) :=
  [.atende { cliente := (), rq_proc := NULLPROC, args := [] },
    .atende { cliente := (), rq_proc := REQ, args := [0, 0, 0, 7] },
    .atende { cliente := (), rq_proc := REQ, args := [0, 0, 0, 7, 0, 0, 0, 0] },
    .atende { cliente := (), rq_proc := 3, args := [] },
    .atende { cliente := (), rq_proc := REL, args := [0, 0, 0, 7, 0, 0, 0, 1, 0, 0, 0, 2] }]

theorem two_of_five_messages_are_calls : ∃ s t,
    (svcRun Unit).run Servidor.inicio cincoRecados = some (s, t) ∧
      ∃ e, (servico Unit).run Servidor.inicio (cincoRecados.filterMap Giro.turno) = some (s, e) ∧
        t.filter doTratador = e.map sendreply := by
  obtain ⟨s, t, hrun, -⟩ : ∃ s t,
      (svcRun Unit).run Servidor.inicio cincoRecados = some (s, t) ∧ t.length = 5 :=
    exists_run (by decide)
  exact ⟨s, t, hrun, (messages_that_are_no_calls_leave_no_trace hrun).1⟩

/-- The message of a turn of the server. -/
def giroDe : Turno ι → Option (Giro ι)
  | .chama i c => (recadoDe i c).map .atende
  | .gira => some .gira

/-- The argument of the call can be written. -/
def Chamada.escreve : Chamada → Bool
  | .REQ r => xdrRequestIn r
  | .REL r => xdrRelease r

def Turno.escreve : Turno ι → Bool
  | .chama _ c => c.escreve
  | .gira => true

theorem giroDe_isSome (a : Turno ι) : (giroDe a).isSome = a.escreve := by
  cases a with
  | gira => rfl
  | chama i c =>
    unfold giroDe recadoDe Turno.escreve Chamada.escreve
    dsimp only
    rw [Option.isSome_map]
    cases c with
    | REQ r =>
      dsimp only
      rw [← codecRequestIn_put_isSome, Option.isSome_map]
    | REL r =>
      dsimp only
      rw [← codecRelease_put_isSome, Option.isSome_map]

/-- A turn of the server is a step on the bytes of its message. -/
theorem svcRun_giroDe {s s' : Servidor ι} {a : Turno ι} {g : Giro ι} {e : List (Evento ι)}
    (hg : giroDe a = some g) (hs : (servico ι).step s a = some (s', e)) :
    (svcRun ι).step s g = some (s', e.map sendreply) := by
  unfold servico at hs
  dsimp only at hs
  unfold svcRun
  split at hs
  · rename_i hv
    cases a with
    | gira =>
      unfold giroDe at hg
      rw [Option.some.injEq] at hg
      subst hg
      obtain ⟨p, hp, he⟩ := Option.map_eq_some_iff.mp hs
      simp [hv, hp, he]
    | chama i c =>
      obtain ⟨m, hm, rfl⟩ := Option.map_eq_some_iff.mp hg
      obtain ⟨rfl, hc⟩ := chamada_recado hm
      dsimp only at hs
      split at hs
      · rename_i hl
        rw [Option.some.injEq] at hs
        simp [hv, hl, serverCent1Bytes_chamada hc, hs]
      · cases hs
  · cases hs

/-- The wire is faithful: calls whose argument can be written are handled as they
were made, and each client reads the answer that the handler gave, or `NULL` for
a reply that cannot be written. -/
theorem the_wire_carries_each_call_and_its_answer {as : List (Turno ι)}
    (has : ∀ a ∈ as, a.escreve = true) {s : Servidor ι} {e : List (Evento ι)}
    (hr : (servico ι).run Servidor.inicio as = some (s, e)) :
    (svcRun ι).run Servidor.inicio (as.filterMap giroDe) = some (s, e.map sendreply) ∧
      ∀ x ∈ e, ((sendreply x).1, x.lido (sendreply x).2) = svcSendreply x := by
  have hlei : (servico ι).Along (fun _ _ a => a.escreve = true) Servidor.inicio as := along_all has
  refine ⟨?_, fun x _ => Prod.ext (sendreply_cliente x) (lido_sendreply x)⟩
  obtain ⟨u, f, hrun, rfl, rfl⟩ : ∃ u f,
      (svcRun ι).run Servidor.inicio (as.filterMap giroDe) = some (u, f) ∧ s = u ∧
        e.map sendreply = f := by
    apply run_simulates (R := fun s u => s = u) (T := fun e t => e.map sendreply = t) rfl
      (fun _ _ _ _ => sendreply_append) rfl _ _ hlei hr
    · rintro u t c a v e rfl ha hg hs
      rw [← giroDe_isSome, hg] at ha
      cases ha
    · rintro u t c a g v e rfl - hg hs
      exact ⟨v, _, svcRun_giroDe hg hs, rfl, rfl⟩
  exact hrun

/-- A request and a release of client 7. -/
def pedeEDevolve : List (Turno Unit) :=
  [.chama () (.REQ { pid_c := 7, tempo_c := 0 }),
    .chama () (.REL { pid_c := 7, tempo_c := 1, recurso_n := 2 })]

theorem the_wire_carries_a_request_and_a_release : ∃ s e,
    (servico Unit).run Servidor.inicio pedeEDevolve = some (s, e) ∧ e.length = 2 ∧
      (svcRun Unit).run Servidor.inicio (pedeEDevolve.filterMap giroDe) =
        some (s, e.map sendreply) := by
  obtain ⟨s, e, hrun, hlen⟩ : ∃ s e,
      (servico Unit).run Servidor.inicio pedeEDevolve = some (s, e) ∧ e.length = 2 :=
    exists_run (by decide)
  exact ⟨s, e, hrun, hlen, (the_wire_carries_each_call_and_its_answer (by decide) hrun).1⟩

end lab07
