-- The system of LAB07-SD/backup with its bytes: the calls and the answers in
-- flight are what the stubs and `server_cent_1` write. It runs as the system of
-- records does, so what holds of that one holds of the bytes.
import Mathlib.Data.List.InsertIdx
import ExclusaoMutua.Lab07.Parada
import ExclusaoMutua.Lab07.Xdr

open fila in_flight machine

namespace lab07

variable {ι : Type}

/-! ## The client -/

/-- The call of `req_1`, where `clnt_call` writes the argument or fails. -/
def Cliente.reqFio (c : Cliente) (i : ι) : Cliente × Option (Recado ι) :=
  let TEMPO := c.TEMPO + 1
  match codecRequestIn.put { pid_c := c.pid, tempo_c := TEMPO } with
  | some args =>
    ({ c with TEMPO, fase := .esperaReply }, some { cliente := i, rq_proc := REQ, args })
  | none => ({ c with TEMPO, fase := .fim }, none)

/-- The use of the token and the call of `rel_1`. -/
def Cliente.relFio (c : Cliente) (i : ι) : Cliente × Option (Recado ι) :=
  let recurso := usaRecurso c.rep_out.recurso
  let TEMPO := c.TEMPO + 1
  match codecRelease.put { pid_c := c.pid, tempo_c := TEMPO, recurso_n := recurso } with
  | some args =>
    ({ c with TEMPO, fase := .esperaResult }, some { cliente := i, rq_proc := REL, args })
  | none => ({ c with TEMPO, fase := .fim }, none)

/-- The return of `req_1` or `rel_1`. Outside of a call the RPC layer drops the
answer. -/
def Cliente.recebeFio (c : Cliente) (r : RespostaRpc) : Cliente :=
  match c.fase with
  | .esperaReply =>
    match req1 r with
    | some rep_out =>
      { c with
        rep_out
        TEMPO := if c.TEMPO > rep_out.tempo_s then c.TEMPO + 1 else rep_out.tempo_s + 1
        fase := .regiao }
    | none => { c with fase := .fim }
  | .esperaResult =>
    match rel1 r with
    | some _ => { c with fase := .pede }
    | none => { c with fase := .fim }
  | .pede | .regiao | .fim => c

theorem reqFio_req (c : Cliente) (i : ι) : ∃ d o m, c.req = (d, o) ∧ c.reqFio i = (d, m) ∧
    o.map (recadoDe i) = m.map some := by
  have hput := codecRequestIn_put_isSome { pid_c := c.pid, tempo_c := c.TEMPO + 1 }
  unfold Cliente.req Cliente.reqFio
  dsimp only
  rw [← hput]
  cases hbs : codecRequestIn.put { pid_c := c.pid, tempo_c := c.TEMPO + 1 } with
  | none => exact ⟨_, none, none, rfl, rfl, rfl⟩
  | some args =>
    refine ⟨_, _, _, rfl, rfl, ?_⟩
    unfold recadoDe
    simp [hbs]

theorem relFio_rel (c : Cliente) (i : ι) : ∃ d o m, c.rel = (d, o) ∧ c.relFio i = (d, m) ∧
    o.map (recadoDe i) = m.map some := by
  have hput := codecRelease_put_isSome
    { pid_c := c.pid, tempo_c := c.TEMPO + 1, recurso_n := usaRecurso c.rep_out.recurso }
  unfold Cliente.rel Cliente.relFio
  dsimp only
  rw [← hput]
  cases hbs : codecRelease.put
      { pid_c := c.pid, tempo_c := c.TEMPO + 1, recurso_n := usaRecurso c.rep_out.recurso } with
  | none => exact ⟨_, none, none, rfl, rfl, rfl⟩
  | some args =>
    refine ⟨_, _, _, rfl, rfl, ?_⟩
    unfold recadoDe
    simp [hbs]

/-- A client that waits for the answer of the event, or has ended, makes the same
of its bytes. -/
theorem recebeFio_recebe {c : Cliente} (e : Evento ι)
    (h : c.fase = (svcSendreply e).2.fase ∨ c.fase = .fim) :
    c.recebeFio (sendreply e).2 = c.recebe (svcSendreply e).2 := by
  rw [← lido_sendreply] at h ⊢
  unfold Evento.lido at h ⊢
  unfold Cliente.recebeFio Cliente.recebe
  cases e with
  | req i r rep =>
    dsimp only at h ⊢
    cases hq : req1 (sendreply (.req i r rep)).2 with
    | none =>
      rw [hq] at h
      rcases h with h | h
      · rw [show c.fase = .esperaReply from h]
        simp
      · simp [h]
    | some rep_out =>
      rw [hq] at h
      rcases h with h | h
      · rw [show c.fase = .esperaReply from h]
        simp
      · simp [h]
  | rel i r n =>
    dsimp only at h ⊢
    obtain ⟨bs, hbs⟩ := Option.isSome_iff_exists.mp (codecInt_put_isSome n)
    have hq : rel1 (sendreply (.rel i r n)).2 = some n := by
      unfold sendreply rel1
      simp [hbs, codecInt.get_put_self hbs]
    rw [hq] at h ⊢
    rcases h with h | h
    · rw [show c.fase = .esperaResult from h]
      simp
    · simp [h]

/-! ## The system -/

structure SistemaFio (ι : Type) where
  servidor : Servidor ι
  clientes : ι → Cliente
  chamadas : List (Recado ι)
  respostas : List (ι × RespostaRpc)

def SistemaFio.inicio (getpid : ι → Int32) : SistemaFio ι where
  servidor := Servidor.inicio
  clientes i := Cliente.inicio (getpid i)
  chamadas := []
  respostas := []

variable [DecidableEq ι]

def SistemaFio.comCliente (s : SistemaFio ι) (i : ι) (r : Cliente × Option (Recado ι)) :
    SistemaFio ι :=
  { s with
    clientes := Function.update s.clientes i r.1
    chamadas := s.chamadas ++ r.2.toList }

def SistemaFio.comServidor (s : SistemaFio ι) (r : Servidor ι × List (ι × RespostaRpc)) :
    SistemaFio ι :=
  { s with servidor := r.1, respostas := s.respostas ++ r.2 }

def SistemaFio.passo (s : SistemaFio ι) :
    Acao ι → Option (SistemaFio ι × List (ι × RespostaRpc))
  | .pede i =>
    if (s.clientes i).fase = .pede then some (s.comCliente i ((s.clientes i).reqFio i), [])
    else none
  | .devolve i =>
    if (s.clientes i).fase = .regiao then some (s.comCliente i ((s.clientes i).relFio i), [])
    else none
  | .atende k =>
    match s.chamadas[k]? with
    | none => none
    | some m =>
      if s.servidor.vivo ∧ s.servidor.atual.isNone then
        let r := serverCent1Bytes s.servidor m
        some ({ s.comServidor r with chamadas := s.chamadas.eraseIdx k }, r.2)
      else none
  | .gira =>
    match s.servidor.atual with
    | none => none
    | some (i, req_in) =>
      if s.servidor.vivo then
        let r := gira s.servidor i req_in
        some (s.comServidor (r.1, r.2.map sendreply), r.2.map sendreply)
      else none
  | .chega k =>
    match s.respostas[k]? with
    | none => none
    | some (i, r) =>
      some ({ s.comCliente i ((s.clientes i).recebeFio r, none) with
        respostas := s.respostas.eraseIdx k }, [])
  | .desiste i =>
    if (s.clientes i).fase = .esperaReply ∨ (s.clientes i).fase = .esperaResult then
      some (s.comCliente i ({ s.clientes i with fase := .fim }, none), [])
    else none

def sistemaFio (ι : Type) [DecidableEq ι] : Machine (SistemaFio ι) (Acao ι) (ι × RespostaRpc) where
  step := SistemaFio.passo

/-! ## What the bytes stand for -/

/-- The bytes in flight are those of the calls and the answers in flight. -/
structure Leva (s : Sistema ι) (c : SistemaFio ι) : Prop where
  servidor : c.servidor = s.servidor
  clientes : c.clientes = s.clientes
  chamadas : s.chamadas.map (fun x => recadoDe x.1 x.2) = c.chamadas.map some
  respostas : ∃ es : List (Evento ι),
    s.respostas = es.map svcSendreply ∧ c.respostas = es.map sendreply

omit [DecidableEq ι] in
theorem inicio_leva (pid : ι → Int32) : Leva (Sistema.inicio pid) (SistemaFio.inicio pid) where
  servidor := rfl
  clientes := rfl
  chamadas := rfl
  respostas := ⟨[], rfl, rfl⟩

theorem comCliente_leva {s : Sistema ι} {c : SistemaFio ι} (h : Leva s c) (i : ι) {d : Cliente}
    {o : Option Chamada} {m : Option (Recado ι)} (hm : o.map (recadoDe i) = m.map some) :
    Leva (s.comCliente i (d, o)) (c.comCliente i (d, m)) where
  servidor := h.servidor
  clientes := by
    unfold SistemaFio.comCliente Sistema.comCliente
    dsimp only
    rw [h.clientes]
  chamadas := by
    unfold SistemaFio.comCliente Sistema.comCliente
    rw [List.map_append, List.map_append, h.chamadas]
    cases o with
    | none =>
      cases m with
      | none => rfl
      | some m => cases hm
    | some x =>
      cases m with
      | none => cases hm
      | some m =>
        rw [Option.map_some, Option.map_some, Option.some.injEq] at hm
        simp [hm]
  respostas := h.respostas

omit [DecidableEq ι] in
theorem comServidor_leva {s : Sistema ι} {c : SistemaFio ι} (h : Leva s c) (srv : Servidor ι)
    (e : List (Evento ι)) :
    Leva (s.comServidor (srv, e)) (c.comServidor (srv, e.map sendreply)) where
  servidor := rfl
  clientes := h.clientes
  chamadas := h.chamadas
  respostas := by
    obtain ⟨es, hs, hc⟩ := h.respostas
    refine ⟨es ++ e, ?_, ?_⟩
    · unfold Sistema.comServidor
      rw [hs, List.map_append]
    · unfold SistemaFio.comServidor
      rw [hc, List.map_append]

omit [DecidableEq ι] in
/-- The message at a place is that of the call there. -/
theorem Leva.recado {s : Sistema ι} {c : SistemaFio ι} (h : Leva s c) (k : Nat) :
    (s.chamadas[k]? = none ∧ c.chamadas[k]? = none) ∨
      ∃ x m, s.chamadas[k]? = some x ∧ c.chamadas[k]? = some m ∧ recadoDe x.1 x.2 = some m := by
  have hk := congrArg (fun l => l[k]?) h.chamadas
  rw [List.getElem?_map, List.getElem?_map] at hk
  cases hs : s.chamadas[k]? with
  | none =>
    cases hc : c.chamadas[k]? with
    | none => exact Or.inl ⟨rfl, rfl⟩
    | some m =>
      rw [hs, hc] at hk
      cases hk
  | some x =>
    cases hc : c.chamadas[k]? with
    | none =>
      rw [hs, hc] at hk
      cases hk
    | some m =>
      rw [hs, hc, Option.map_some, Option.map_some, Option.some.injEq] at hk
      exact Or.inr ⟨x, m, rfl, rfl, hk⟩

/-! ## One step -/

/-- The two systems take the action together, or not at all. -/
def Juntos (a : Acao ι) (s : Sistema ι) (c : SistemaFio ι) : Prop :=
  (s.passo a = none ∧ c.passo a = none) ∨
    ∃ s' c' e, s.passo a = some (s', e) ∧ c.passo a = some (c', e.map sendreply) ∧ Leva s' c'

omit [DecidableEq ι] in
/-- A step that both take under the same condition. -/
theorem se_juntos {s' : Sistema ι} {c' : SistemaFio ι} (p : Prop) [Decidable p]
    (e : List (Evento ι)) (h : Leva s' c') :
    ((if p then some (s', e) else none) = none ∧
        (if p then some (c', e.map sendreply) else none) = none) ∨
      ∃ u d f, (if p then some (s', e) else none) = some (u, f) ∧
        (if p then some (c', e.map sendreply) else none) = some (d, f.map sendreply) ∧
        Leva u d := by
  by_cases hp : p
  · rw [if_pos hp, if_pos hp]
    exact Or.inr ⟨s', c', e, rfl, rfl, h⟩
  · rw [if_neg hp, if_neg hp]
    exact Or.inl ⟨rfl, rfl⟩

theorem pede_juntos {s : Sistema ι} {c : SistemaFio ι} (h : Leva s c) (i : ι) :
    Juntos (.pede i) s c := by
  unfold Juntos Sistema.passo SistemaFio.passo
  dsimp only
  rw [h.clientes]
  obtain ⟨d, o, m, hs, hc, hm⟩ := reqFio_req (s.clientes i) i
  rw [hs, hc]
  exact se_juntos _ [] (comCliente_leva h i hm)

theorem devolve_juntos {s : Sistema ι} {c : SistemaFio ι} (h : Leva s c) (i : ι) :
    Juntos (.devolve i) s c := by
  unfold Juntos Sistema.passo SistemaFio.passo
  dsimp only
  rw [h.clientes]
  obtain ⟨d, o, m, hs, hc, hm⟩ := relFio_rel (s.clientes i) i
  rw [hs, hc]
  exact se_juntos _ [] (comCliente_leva h i hm)

theorem desiste_juntos {s : Sistema ι} {c : SistemaFio ι} (h : Leva s c) (i : ι) :
    Juntos (.desiste i) s c := by
  unfold Juntos Sistema.passo SistemaFio.passo
  dsimp only
  rw [h.clientes]
  exact se_juntos _ [] (comCliente_leva h i rfl)

theorem gira_juntos {s : Sistema ι} {c : SistemaFio ι} (h : Leva s c) : Juntos .gira s c := by
  unfold Juntos Sistema.passo SistemaFio.passo
  dsimp only
  rw [h.servidor]
  rcases s.servidor.atual with _ | ⟨i, r⟩
  · exact Or.inl ⟨rfl, rfl⟩
  · exact se_juntos _ _ (comServidor_leva h _ _)

theorem atende_juntos {s : Sistema ι} {c : SistemaFio ι} (h : Leva s c) (k : Nat) :
    Juntos (.atende k) s c := by
  unfold Juntos Sistema.passo SistemaFio.passo
  dsimp only
  rcases h.recado k with ⟨hs, hc⟩ | ⟨⟨i, d⟩, m, hs, hc, hm⟩
  · rw [hs, hc]
    exact Or.inl ⟨rfl, rfl⟩
  · rw [hs, hc]
    dsimp only
    rw [h.servidor]
    obtain ⟨rfl, hd⟩ := chamada_recado hm
    rw [serverCent1Bytes_chamada hd]
    have hleva := comServidor_leva h (serverCent1 s.servidor m.cliente d).1
      (serverCent1 s.servidor m.cliente d).2
    apply se_juntos
    refine ⟨rfl, hleva.clientes, ?_, hleva.respostas⟩
    rw [← List.eraseIdx_map, ← List.eraseIdx_map, h.chamadas]

theorem chega_juntos {s : Sistema ι} {c : SistemaFio ι} (h : Leva s c) (he : Emparelhado s)
    (k : Nat) : Juntos (.chega k) s c := by
  unfold Juntos Sistema.passo SistemaFio.passo
  dsimp only
  obtain ⟨es, hs, hc⟩ := h.respostas
  rw [hc, List.getElem?_map]
  cases hk : es[k]? with
  | none =>
    have hnao : s.respostas[k]? = none := by rw [hs, List.getElem?_map, hk, Option.map_none]
    rw [hnao]
    exact Or.inl ⟨rfl, rfl⟩
  | some x =>
    have hsim : s.respostas[k]? = some (svcSendreply x) := by
      rw [hs, List.getElem?_map, hk, Option.map_some]
    have hfase := he.resposta (i := (svcSendreply x).1) (r := (svcSendreply x).2) hsim
    rw [hsim, Option.map_some]
    dsimp only
    rw [h.clientes, sendreply_cliente, recebeFio_recebe x hfase]
    have hleva := comCliente_leva h (svcSendreply x).1 (o := none) (m := none)
      (d := (s.clientes (svcSendreply x).1).recebe (svcSendreply x).2) rfl
    refine Or.inr ⟨_, _, [], rfl, rfl, ⟨hleva.servidor, hleva.clientes, hleva.chamadas,
      es.eraseIdx k, ?_, ?_⟩⟩
    · rw [hs, List.eraseIdx_map]
    · rw [← List.eraseIdx_map]

/-! ## Every run -/

/-- The system of bytes and the system of records take the same runs. They give
the same answers, and every client and the server are in the same state. -/
theorem the_system_of_bytes_runs_as_the_system_of_records (pid : ι → Int32) (as : List (Acao ι)) :
    ((sistema ι).run (Sistema.inicio pid) as = none ∧
        (sistemaFio ι).run (SistemaFio.inicio pid) as = none) ∨
      ∃ s c t, (sistema ι).run (Sistema.inicio pid) as = some (s, t) ∧
        (sistemaFio ι).run (SistemaFio.inicio pid) as = some (c, t.map sendreply) ∧
        c.servidor = s.servidor ∧ c.clientes = s.clientes ∧
        s.chamadas.map (fun x => recadoDe x.1 x.2) = c.chamadas.map some ∧
        ∃ es : List (Evento ι),
          s.respostas = es.map svcSendreply ∧ c.respostas = es.map sendreply := by
  have hinicio : Ordeiro pid (Sistema.inicio pid) ∧ Emparelhado (Sistema.inicio pid) ∧
      Leva (Sistema.inicio pid) (SistemaFio.inicio pid) :=
    ⟨inicio_ordeiro pid, inicio_emparelhado pid, inicio_leva pid⟩
  have hpasso : ∀ s c (a : Acao ι), Ordeiro pid s ∧ Emparelhado s ∧ Leva s c →
      ((sistema ι).step s a = none ∧ (sistemaFio ι).step c a = none) ∨
        ∃ s' c' e, (sistema ι).step s a = some (s', e) ∧
          (sistemaFio ι).step c a = some (c', e.map sendreply) ∧
          Ordeiro pid s' ∧ Emparelhado s' ∧ Leva s' c' := by
    rintro s c a ⟨ho, he, h⟩
    have hj : Juntos a s c := by
      cases a with
      | pede i => exact pede_juntos h i
      | devolve i => exact devolve_juntos h i
      | atende k => exact atende_juntos h k
      | gira => exact gira_juntos h
      | chega k => exact chega_juntos h he k
      | desiste i => exact desiste_juntos h i
    rcases hj with hnao | ⟨s', c', e, hs, hc, hleva⟩
    · exact Or.inl hnao
    · exact Or.inr ⟨s', c', e, hs, hc, passo_ordeiro ho (passo_cases ho.toHonesto hs),
        passo_emparelhado ho.toHonesto he hs, hleva⟩
  rcases run_lockstep (R := fun s c => Ordeiro pid s ∧ Emparelhado s ∧ Leva s c) hinicio hpasso as
    with hnao | ⟨s, c, t, hs, hc, -, -, h⟩
  · exact Or.inl hnao
  · exact Or.inr ⟨s, c, t, hs, hc, h.servidor, h.clientes, h.chamadas, h.respostas⟩

end lab07
