-- What the server of LAB2-NETKIT is for: one token with a value, and a set of
-- at most ten waiters, from which the one with the smallest `tempo` goes
-- first. The loop of `servidor.c` refines it, for any datagrams.
import Mathlib.Data.Finset.Card
import ExclusaoMutua.Lab2.ConcessaoUnica

open fila machine

namespace lab2

variable {A : Type} [DecidableEq A]

/-! ## The abstract server -/

/-- A waiter: its PID, the stamp of its request, and its address. -/
abbrev Espera (A : Type) := Item Int32 (Origem A)

structure TokenServer (A : Type) where
  flag : Int8
  valor : Int32
  espera : Finset (Espera A)

def TokenServer.inicio : TokenServer A := { flag := -1, valor := 30, espera := ∅ }

/-- A REPLY_ALLOW: where it goes, and its value. -/
abbrev Resposta (A : Type) := Origem A × Int32

/-- One step: a message `r` comes from `o`, and the answers go out. A
RELEASE_TOKEN picks any waiter with the smallest `tempo`. -/
inductive TokenServer.Step (a : TokenServer A) (o : Origem A) (r : Request) :
    List (Resposta A) → TokenServer A → Prop
  | requestLivre (hc : r.cod = REQUEST_TOKEN) (hf : a.flag = -1) :
      a.Step o r [(o, a.valor)] { a with flag := r.PID.toInt8 }
  | requestEntra (hc : r.cod = REQUEST_TOKEN) (hf : a.flag ≠ -1)
      (hnovo : ∀ w ∈ a.espera, w.PID ≠ r.PID) (hcabe : a.espera.card < 10) :
      a.Step o r [] { a with espera := insert ⟨r.PID, r.tempo, o⟩ a.espera }
  | requestRecusa (hc : r.cod = REQUEST_TOKEN) (hf : a.flag ≠ -1)
      (hnao : (∃ w ∈ a.espera, w.PID = r.PID) ∨ 10 ≤ a.espera.card) :
      a.Step o r [] a
  | releaseVazia (hc : r.cod = RELEASE_TOKEN) (hv : a.espera = ∅) :
      a.Step o r [] { a with valor := r.recurso, flag := -1 }
  | releasePassa (hc : r.cod = RELEASE_TOKEN) (w : Espera A) (hw : w ∈ a.espera)
      (hmin : ∀ x ∈ a.espera, w.tempo ≤ x.tempo) :
      a.Step o r [(w.dados, r.recurso)]
        { valor := r.recurso, flag := w.PID.toInt8, espera := a.espera.erase w }
  | outro (h1 : r.cod ≠ REQUEST_TOKEN) (h2 : r.cod ≠ RELEASE_TOKEN) : a.Step o r [] a

/-! ## The abstraction -/

/-- The abstract server that the state of the loop stands for. -/
def Servidor.abstrato (s : Servidor A) : TokenServer A where
  flag := s.Token.flag
  valor := s.Token.valor
  espera := s.fila.head.toFinset

/-- The answers among the events of a trace, as an outsider reads them in the
bytes that go out. -/
def respostas (t : List (Evento A)) : List (Resposta A) :=
  t.filterMap fun x => match x with
    | .envia para d =>
      if (Request.ofBytes d.dados).cod = REPLY_ALLOW then
        some (para, (Request.ofBytes d.dados).recurso)
      else none
    | .trata _ _ => none

/-- The message of a turn, for a datagram of the full size. -/
def Entrada.request (e : Entrada A) : Request := Request.ofBytes (e.dados.getD [])

/-- A datagram of the full size, with both `sendto` done. -/
structure Entrada.Boa (e : Entrada A) : Prop where
  inteira : e.Inteira
  ack : 0 ≤ e.nsAck
  rep : 0 ≤ e.nsRep

omit [DecidableEq A] in
theorem respostas_append (t u : List (Evento A)) :
    respostas (t ++ u) = respostas t ++ respostas u := by
  unfold respostas
  simp

omit [DecidableEq A] in
/-- The ACK and the test of `req->cod` answer nobody. -/
theorem respostas_turn (s : Servidor A) (dados : List UInt8) (o : Origem A)
    (t : List (Evento A)) :
    respostas (.envia o { conteudo := (recebe s dados).ack, nbytes := sizeofRequest } ::
      .trata o (recebe s dados).req :: t) = respostas t := by
  have hdados : (Datagrama.mk (recebe s dados).ack sizeofRequest).dados =
      (recebe s dados).ack.bytes := dados_inteiro (d := ⟨_, _⟩) rfl
  have hcod : (recebe s dados).ack.cod ≠ REPLY_ALLOW := show ACK ≠ REPLY_ALLOW by decide
  unfold respostas
  simp [hdados, hcod]

omit [DecidableEq A] in
theorem respostas_rep (s : Servidor A) (p : Int32) (o : Origem A) :
    respostas [.envia o { conteudo := (preencheRep s p).rep, nbytes := sizeofRep }] =
      [(o, s.Token.valor)] := by
  obtain ⟨hrec, hcod⟩ := ofBytes_rep (preencheRep s p).rep
  have hallow : (preencheRep s p).rep.cod = REPLY_ALLOW := rfl
  have hvalor : (preencheRep s p).rep.recurso = s.Token.valor := rfl
  unfold respostas Datagrama.dados
  simp [hrec, hcod, hallow, hvalor]

omit [DecidableEq A] in
theorem Servidor.Bom.nodup {s : Servidor A} (h : s.Bom) : s.fila.head.Nodup :=
  List.Nodup.of_map Item.PID h.distintos

/-- As many wait in the abstract server as the counter of the queue says. -/
theorem card_espera {s : Servidor A} (h : s.Bom) :
    (s.abstrato.espera.card : Int) = s.fila.tamanho := by
  unfold Servidor.abstrato
  rw [List.toFinset_card_of_nodup h.nodup, h.valida.tam]

/-! ## One turn is one step -/

theorem trata_step {s s' : Servidor A} {e : Entrada A} {t : List (Evento A)} (h : s.Bom)
    (hrep : 0 ≤ e.nsRep) (ht : Trata s e s' t) :
    s.abstrato.Step e.origem s.req (respostas t) s'.abstrato := by
  have hcard := card_espera h
  cases ht with
  | concede hc hf hn =>
    rw [respostas_rep]
    exact .requestLivre hc hf
  | concedeFalha hc hf hn => exact absurd hn (not_lt.mpr hrep)
  | enfileira hc hf hcabe hnovo =>
    have hesp : (colocada ⟨s.req.PID, s.req.tempo, e.origem⟩ s.fila.head).toFinset =
        insert ⟨s.req.PID, s.req.tempo, e.origem⟩ s.abstrato.espera := by
      ext x
      unfold Servidor.abstrato
      simp [mem_colocada]
    have hstep : s.abstrato.Step e.origem s.req []
        { s.abstrato with
          espera := insert ⟨s.req.PID, s.req.tempo, e.origem⟩ s.abstrato.espera } := by
      refine .requestEntra hc hf ?_ ?_
      · intro w hw he
        exact hnovo (he ▸ List.mem_map_of_mem (List.mem_toFinset.mp hw))
      · have := h.dez
        omega
    rw [← hesp] at hstep
    exact hstep
  | recusa hc hf hnao =>
    refine .requestRecusa hc hf ?_
    by_cases hcabe : s.fila.tamanho < s.fila.N
    · left
      have hmem : s.req.PID ∈ s.fila.head.map Item.PID := by
        by_contra hno
        exact hnao ⟨hcabe, hno⟩
      obtain ⟨w, hw, he⟩ := List.mem_map.mp hmem
      exact ⟨w, List.mem_toFinset.mpr hw, he⟩
    · right
      have := h.dez
      omega
  | libera hc hv =>
    have hesp : s.abstrato.espera = ∅ := by simp [Servidor.abstrato, hv]
    exact .releaseVazia hc hesp
  | passa hc aux resto hh hn s' hs =>
    subst hs
    have hresto : resto.toFinset = s.abstrato.espera.erase aux := by
      have hnd := h.nodup
      rw [hh, List.nodup_cons] at hnd
      unfold Servidor.abstrato
      rw [hh, List.toFinset_cons, Finset.erase_insert (by simpa using hnd.1)]
    rw [respostas_rep]
    have hstep : s.abstrato.Step e.origem s.req [(aux.dados, s.req.recurso)]
        { valor := s.req.recurso
          flag := aux.PID.toInt8
          espera := s.abstrato.espera.erase aux } := by
      refine .releasePassa hc aux (by simp [Servidor.abstrato, hh]) ?_
      intro x hx
      exact h.valida.head_min hh x (List.mem_toFinset.mp hx)
    rw [← hresto] at hstep
    exact hstep
  | passaFalha hc aux resto hh hn => exact absurd hn (not_lt.mpr hrep)
  | ignora h1 h2 => exact .outro h1 h2

omit [DecidableEq A] in
/-- A turn with a whole datagram and both `sendto` done comes to the test of
`req->cod` with that datagram, and the server goes on. -/
theorem volta_boa {s s' : Servidor A} {e : Entrada A} {t : List (Evento A)} (he : e.Boa)
    (hvivo : s.vivo = true) (hv : Volta s e s' t) :
    ∃ dados u, e.dados = some dados ∧ (recebe s dados).req = e.request ∧
      Trata (recebe s dados) e s' u ∧ respostas t = respostas u ∧ s'.vivo = true := by
  obtain ⟨⟨dados, hd, hlen⟩, hack, hrep⟩ := he
  cases hv with
  | recvFalha h => rw [hd] at h; cases h
  | ackFalha _ _ hn => exact absurd hn (not_lt.mpr hack)
  | trata dados' h hn s' u ht =>
    rw [hd, Option.some.injEq] at h
    subst h
    refine ⟨dados, u, hd, ?_, ht, respostas_turn s dados e.origem u, ?_⟩
    · unfold Entrada.request
      simp only [hd, Option.getD_some]
      exact recvfrom_full s.req hlen
    · cases ht with
      | concedeFalha _ _ hn => exact absurd hn (not_lt.mpr hrep)
      | passaFalha _ _ _ _ hn => exact absurd hn (not_lt.mpr hrep)
      | passa hc aux resto hh hn s' hs => subst hs; exact hvivo
      | concede | enfileira | recusa | libera | ignora => exact hvivo

theorem volta_refina {s s' : Servidor A} {e : Entrada A} {t : List (Evento A)} (h : s.Bom)
    (hvivo : s.vivo = true) (he : e.Boa) (hv : Volta s e s' t) :
    s.abstrato.Step e.origem e.request (respostas t) s'.abstrato ∧ s'.vivo = true := by
  obtain ⟨dados, u, _, hreq, ht, hresp, hvivo'⟩ := volta_boa he hvivo hv
  have hs := trata_step (recebe_bom h dados) he.rep ht
  rw [hreq, ← hresp] at hs
  exact ⟨hs, hvivo'⟩

/-! ## Every run -/

omit [DecidableEq A] in
/-- The server takes a turn for every datagram of the list. -/
theorem run_boa (req ack rep : Request) {es : List (Entrada A)} (hes : ∀ e ∈ es, e.Boa) :
    ∃ s t, (servidor A).run (Servidor.inicio req ack rep) es = some (s, t) ∧ s.vivo = true := by
  induction es using List.reverseRecOn with
  | nil => exact ⟨_, _, rfl, rfl⟩
  | append_singleton es e ih =>
    obtain ⟨s, t, hr, hvivo⟩ := ih fun x hx => hes x (by simp [hx])
    have hstep : (servidor A).step s e = some (volta s e) := by simp [servidor, hvivo]
    obtain ⟨_, _, _, _, _, _, hvivo'⟩ :=
      volta_boa (hes e (by simp)) hvivo (volta_cases (servidor_bom hr) e)
    exact ⟨_, _, run_snoc.mpr ⟨s, t, _, hr, hstep, rfl⟩, hvivo'⟩

/-- Every run of the loop is a run of the abstract server with the same
answers. -/
theorem run_abstrato {req ack rep : Request} {es : List (Entrada A)} (hes : ∀ e ∈ es, e.Boa)
    {s : Servidor A} {t : List (Evento A)}
    (hr : (servidor A).run (Servidor.inicio req ack rep) es = some (s, t)) :
    Runs (fun a e os b => TokenServer.Step a e.origem e.request os b) TokenServer.inicio es
      (respostas t) s.abstrato := by
  have hR : ∀ (u : Servidor A) (v : List (Evento A)) (e : Entrada A) (w : Servidor A)
      (x : List (Evento A)) (c : TokenServer A), (u.Bom ∧ c = u.abstrato) → e.Boa →
      (servidor A).step u e = some (w, x) →
      ∃ d, c.Step e.origem e.request (respostas x) d ∧ w.Bom ∧ d = w.abstrato := by
    rintro u v e w x c ⟨hb, rfl⟩ he hs
    obtain ⟨hvivo, hv⟩ := servidor_step hb hs
    exact ⟨_, (volta_refina hb hvivo he hv).1, volta_bom hb hv, rfl⟩
  obtain ⟨c, hruns, _, rfl⟩ := run_refines rfl respostas_append ⟨inicio_bom req ack rep, rfl⟩ hR
    (along_all hes) hr
  exact hruns

/-- The loop of the server refines the abstract server, for every list of
datagrams and every datagram that comes next. A REQUEST_TOKEN for a free
token leaves the queue itself as it was, a message with another `cod` leaves
all of it, and `removeItem` never meets a null head. -/
theorem the_server_refines_the_token_server (req ack rep : Request) (es : List (Entrada A))
    (e : Entrada A) (hes : ∀ x ∈ es ++ [e], x.Boa) :
    ∃ s t s' t', (servidor A).run (Servidor.inicio req ack rep) es = some (s, t) ∧
      (servidor A).step s e = some (s', t') ∧
      Runs (fun a x os b => TokenServer.Step a x.origem x.request os b) TokenServer.inicio es
        (respostas t) s.abstrato ∧
      s.abstrato.Step e.origem e.request (respostas t') s'.abstrato ∧
      (e.request.cod = REQUEST_TOKEN → s.Token.flag = -1 → s'.fila = s.fila) ∧
      (e.request.cod ≠ REQUEST_TOKEN → e.request.cod ≠ RELEASE_TOKEN →
        s'.Token = s.Token ∧ s'.fila = s.fila) ∧
      (s.fila.tamanho ≠ 0 → s.fila.head ≠ []) := by
  have hes' : ∀ x ∈ es, x.Boa := fun x hx => hes x (by simp [hx])
  have he : e.Boa := hes e (by simp)
  obtain ⟨s, t, hr, hvivo⟩ := run_boa req ack rep hes'
  have hb := servidor_bom hr
  have hs : (servidor A).step s e = some (volta s e) := by simp [servidor, hvivo]
  generalize volta s e = r at hs
  obtain ⟨s', t'⟩ := r
  obtain ⟨_, hv⟩ := servidor_step hb hs
  obtain ⟨dados, u, hd, hreq, ht, _, _⟩ := volta_boa he hvivo hv
  refine ⟨s, t, s', t', hr, hs, run_abstrato hes' hr, (volta_refina hb hvivo he hv).1, ?_, ?_, ?_⟩
  · intro hc hf
    rw [← hreq] at hc
    cases ht with
    | concede | concedeFalha | recusa | ignora => rfl
    | enfileira _ hf' => exact absurd hf hf'
    | libera hc' | passa hc' | passaFalha hc' => rw [hc] at hc'; cases hc'
  · intro h1 h2
    rw [← hreq] at h1 h2
    cases ht with
    | concede hc | concedeFalha hc | enfileira hc | recusa hc => exact absurd hc h1
    | libera hc | passa hc | passaFalha hc => exact absurd hc h2
    | ignora => exact ⟨rfl, rfl⟩
  · intro h0 hnil
    exact h0 (hb.valida.tamanho_zero.mpr hnil)

theorem entrega_boa (a : Nat) (r : Request) : (entrega a r).Boa :=
  ⟨⟨r.bytes, rfl, length_bytes r⟩, show (0 : Int32) ≤ 16 by decide, show (0 : Int32) ≤ 8 by decide⟩

/-- Clients 2 and 3 wait behind client 1, the second of them with the smaller
stamp. -/
def doisEsperam : List (Entrada Nat) :=
  [entrega 1 (pedido 7 1), entrega 2 (pedido 8 5), entrega 3 (pedido 9 2)]

/-- Client 1 hands the token back: of the two that wait, client 3 gets it. -/
theorem the_server_refines_the_token_server_in_a_round : ∃ s t s' t',
    (servidor Nat).run (Servidor.inicio branco branco branco) doisEsperam = some (s, t) ∧
      (servidor Nat).step s (entrega 1 (devolucao 7 6 31)) = some (s', t') ∧
      s.fila.head.map Item.PID = [9, 8] ∧
      respostas t' = [({ caddr := 3, addrlen := 16 }, 31)] ∧
      s.abstrato.Step { caddr := 1, addrlen := 16 } (devolucao 7 6 31) (respostas t')
        s'.abstrato := by
  have hes : ∀ x ∈ doisEsperam ++ [entrega 1 (devolucao 7 6 31)], x.Boa := by
    intro x hx
    unfold doisEsperam at hx
    simp only [List.cons_append, List.nil_append, List.mem_cons, List.not_mem_nil, or_false] at hx
    rcases hx with rfl | rfl | rfl | rfl <;> exact entrega_boa _ _
  obtain ⟨s, t, s', t', hr, hs, _, hstep, _⟩ :=
    the_server_refines_the_token_server branco branco branco _ _ hes
  have hreq : (entrega 1 (devolucao 7 6 31)).request = devolucao 7 6 31 := ofBytes_bytes _
  obtain ⟨u, v, hu, hpids, hpassa⟩ : ∃ u v, (servidor Nat).run
      (Servidor.inicio branco branco branco) doisEsperam = some (u, v) ∧
        u.fila.head.map Item.PID = [9, 8] ∧
        (((servidor Nat).step u (entrega 1 (devolucao 7 6 31))).any fun r =>
          respostas r.2 = [({ caddr := 3, addrlen := 16 }, 31)]) = true := exists_run (by decide)
  rw [hr, Option.some.injEq, Prod.mk.injEq] at hu
  obtain ⟨rfl, rfl⟩ := hu
  rw [hs, Option.any_some, decide_eq_true_eq] at hpassa
  exact ⟨s, t, s', t', hr, hs, hpids, hpassa, hreq ▸ hstep⟩

end lab2
