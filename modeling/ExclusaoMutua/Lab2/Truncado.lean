-- Datagrams that do not fill `struct request`. A REPLY_ALLOW goes out with the
-- `sizeof` of a pointer, and the server takes in a datagram of any length: both
-- receivers then read what an earlier message left in the buffer.
import ExclusaoMutua.Lab2.ConcessaoUnica

open fila machine

namespace lab2

variable {A : Type}

/-! ## The REPLY_ALLOW -/

theorem enviaRep_allow {s : Servidor A} {para o : Origem A} {ns : Int32} {d : Datagrama}
    (h : .envia o d ∈ (enviaRep s para ns).2) :
    d = { conteudo := (enviaRep s para ns).1.rep, nbytes := sizeofRep } := by
  unfold enviaRep at h ⊢
  split at h
  · cases h
  · rename_i hn
    simp only [List.mem_singleton, Evento.envia.injEq] at h
    simp [hn, h.2]

/-- Both branches that grant the token send the first eight bytes of `rep`. -/
theorem trata_allow {s : Servidor A} {e : Entrada A} {o : Origem A} {d : Datagrama}
    (h : .envia o d ∈ (trata s e).2) :
    d = { conteudo := (trata s e).1.rep, nbytes := sizeofRep } := by
  by_cases hreq : s.req.cod = REQUEST_TOKEN
  · have htrata : trata s e = trataRequest s e := if_pos hreq
    rw [htrata] at h ⊢
    by_cases hf : s.Token.flag = -1
    · have hconcede : trataRequest s e = enviaRep (preencheRep s s.req.PID) e.origem e.nsRep :=
        if_pos hf
      rw [hconcede] at h ⊢
      exact enviaRep_allow h
    · unfold trataRequest at h
      rw [if_neg hf] at h
      split at h
      · cases h
      · cases h
  · by_cases hrel : s.req.cod = RELEASE_TOKEN
    · have htrata : trata s e = trataRelease s e := by
        unfold trata
        rw [if_neg hreq, if_pos hrel]
      rw [htrata] at h ⊢
      unfold trataRelease at h ⊢
      simp only at h ⊢
      split at h
      · cases h
      · rename_i hn
        rw [if_neg hn]
        exact enviaRep_allow h
    · unfold trata at h
      rw [if_neg hreq, if_neg hrel] at h
      cases h

/-- What a turn of the server sends is its ACK or eight bytes of `rep`. -/
theorem volta_allow {s : Servidor A} {e : Entrada A} {o : Origem A} {d : Datagrama}
    (h : .envia o d ∈ (volta s e).2) (hc : d.conteudo.cod = REPLY_ALLOW) :
    d = { conteudo := (volta s e).1.rep, nbytes := sizeofRep } := by
  unfold volta at h ⊢
  rcases hd : e.dados with _ | dados
  · simp [hd] at h
  · simp only [hd] at h ⊢
    split at h
    · cases h
    · rename_i hn
      rw [if_neg hn]
      rcases List.mem_cons.mp h with h | h
      · simp only [Evento.envia.injEq] at h
        rw [h.2] at hc
        exact absurd hc (by simp [recebe, ACK, REPLY_ALLOW])
      · rcases List.mem_cons.mp h with h | h
        · cases h
        · exact trata_allow h

/-- A REPLY_ALLOW that the server sends reads back in the client as the server
wrote it exactly when the client's buffer held the same `tempo` and `PID`. -/
theorem a_reply_allow_reads_back_iff_the_buffer_held_its_tempo_and_pid {s s' : Servidor A}
    {e : Entrada A} {t : List (Evento A)} (hs : (servidor A).step s e = some (s', t))
    {o : Origem A} {d : Datagrama} (hd : .envia o d ∈ t) (hc : d.conteudo.cod = REPLY_ALLOW)
    (resp : Request) :
    ((recvfrom resp d.dados).recurso = s'.rep.recurso ∧ (recvfrom resp d.dados).cod = s'.rep.cod ∧
        (recvfrom resp d.dados).tempo = s'.rep.tempo ∧
        (recvfrom resp d.dados).PID = s'.rep.PID) ↔
      resp.tempo = s'.rep.tempo ∧ resp.PID = s'.rep.PID := by
  unfold servidor at hs
  dsimp only at hs
  split at hs
  · simp only [Option.some.injEq] at hs
    have hvolta := volta_allow (s := s) (e := e) (by rw [hs]; exact hd) hc
    rw [hs] at hvolta
    subst hvolta
    unfold Datagrama.dados
    simp only [recvfrom_rep]
    simp
  · cases hs

/-- The first REPLY_ALLOW of a server, to a client with PID 7. -/
def primeiraRep : Request := { branco with cod := REPLY_ALLOW, PID := 7, recurso := 30, tempo := 3 }

theorem a_reply_allow_reads_back_in_a_buffer_with_its_tail : ∃ s t,
    (servidor Nat).step (Servidor.inicio branco branco branco) (entrega 1 (pedido 7 1)) =
        some (s, t) ∧
      ∃ o d, .envia o d ∈ t ∧ (recvfrom primeiraRep d.dados).tempo = s.rep.tempo ∧
        (recvfrom primeiraRep d.dados).PID = s.rep.PID := by
  obtain ⟨s, t, h, hd, htempo, hpid⟩ : ∃ s t,
      (servidor Nat).run (Servidor.inicio branco branco branco) [entrega 1 (pedido 7 1)] =
          some (s, t) ∧
        .envia { caddr := 1, addrlen := 16 } { conteudo := primeiraRep, nbytes := sizeofRep } ∈ t ∧
        s.rep.tempo = 3 ∧ s.rep.PID = 7 := exists_run (by decide)
  obtain ⟨-, -, hvolta⟩ := (a_reply_allow_reads_back_iff_the_buffer_held_its_tempo_and_pid
    (run_single.mp h) hd rfl primeiraRep).mpr ⟨htempo.symm, hpid.symm⟩
  exact ⟨s, t, run_single.mp h, _, _, hd, hvolta⟩

/-- The client reads the stamp of its ACK a second time. -/
theorem a_reply_allow_reads_back_with_the_stamp_of_the_ack : ∃ s t o ack rep,
    (servidor Nat).step (Servidor.inicio branco branco branco) (entrega 1 (pedido 7 1)) =
        some (s, t) ∧
      t = [.envia o ack, .trata o (pedido 7 1), .envia o rep] ∧ rep.conteudo.cod = REPLY_ALLOW ∧
      s.rep.tempo = 3 ∧ (recvfrom (recvfrom branco ack.dados) rep.dados).tempo = 2 := by
  obtain ⟨s, t, h, ht, htempo⟩ : ∃ s t,
      (servidor Nat).run (Servidor.inicio branco branco branco) [entrega 1 (pedido 7 1)] =
          some (s, t) ∧
        t = [.envia { caddr := 1, addrlen := 16 }
            { conteudo := { branco with cod := ACK, PID := 7, tempo := 2 }
              nbytes := sizeofRequest },
          .trata { caddr := 1, addrlen := 16 } (pedido 7 1),
          .envia { caddr := 1, addrlen := 16 } { conteudo := primeiraRep, nbytes := sizeofRep }] ∧
        s.rep.tempo = 3 := exists_run (by decide)
  exact ⟨s, t, _, _, _, run_single.mp h, ht, rfl, htempo, by decide⟩

/-! ## Short datagrams -/

/-- The turn that reads `r` in the buffer has nothing to change: it grants a
free token to a PID with the low byte 0xFF, it refuses a request, it frees a
free token with the same value, or it knows no such `cod`. -/
structure SemEfeito (s : Servidor A) (r : Request) : Prop where
  livre : r.cod = REQUEST_TOKEN → s.Token.flag = -1 → r.PID.toInt8 = -1
  preso : r.cod = REQUEST_TOKEN → s.Token.flag ≠ -1 →
    s.fila.N ≤ s.fila.tamanho ∨ r.PID ∈ s.fila.head.map Item.PID
  devolve : r.cod = RELEASE_TOKEN → s.fila.head = [] ∧ s.Token = { flag := -1, valor := r.recurso }

theorem REQUEST_ne_RELEASE : REQUEST_TOKEN ≠ RELEASE_TOKEN := by decide

/-- A grant writes `Token.flag` and nothing else of the token and the queue. -/
theorem concede_semEfeito {s : Servidor A} (hc : s.req.cod = REQUEST_TOKEN)
    (hf : s.Token.flag = -1) :
    (preencheRep s s.req.PID).Token = s.Token ↔ SemEfeito s s.req := by
  have hnao : s.req.cod ≠ RELEASE_TOKEN := hc ▸ REQUEST_ne_RELEASE
  have hflag : (preencheRep s s.req.PID).Token = s.Token ↔ s.req.PID.toInt8 = -1 := by
    rcases htok : s.Token with ⟨flag, valor⟩
    rw [htok] at hf
    have hf : flag = -1 := hf
    subst hf
    simp [preencheRep, htok]
  rw [hflag]
  constructor
  · intro hp
    exact ⟨fun _ _ => hp, fun _ hn => absurd hf hn, fun hr => absurd hr hnao⟩
  · intro h
    exact h.livre hc hf

/-- The test of `req->cod` leaves the token and the queue alone exactly when it
has nothing to change. -/
theorem trata_semEfeito {s s' : Servidor A} {e : Entrada A} {t : List (Evento A)}
    (ht : Trata s e s' t) :
    (s'.Token = s.Token ∧ s'.fila = s.fila) ↔ SemEfeito s s.req := by
  cases ht with
  | concede hc hf hn | concedeFalha hc hf hn =>
    rw [← concede_semEfeito hc hf]
    exact and_iff_left rfl
  | enfileira hc hf hcabe hnovo =>
    constructor
    · rintro ⟨-, hfila⟩
      have htam := congrArg Fila.tamanho hfila
      simp only at htam
      omega
    · intro h
      rcases h.preso hc hf with hcheia | hja
      · exact absurd hcabe (not_lt.mpr hcheia)
      · exact absurd hja hnovo
  | recusa hc hf hnao =>
    have hnrel : s.req.cod ≠ RELEASE_TOKEN := hc ▸ REQUEST_ne_RELEASE
    refine iff_of_true ⟨rfl, rfl⟩
      ⟨fun _ hl => absurd hl hf, fun _ _ => ?_, fun hr => absurd hr hnrel⟩
    by_cases hcabe : s.fila.tamanho < s.fila.N
    · exact Or.inr (not_not.mp fun hp => hnao ⟨hcabe, hp⟩)
    · exact Or.inl (not_lt.mp hcabe)
  | libera hc hv =>
    have hnreq : s.req.cod ≠ REQUEST_TOKEN := hc ▸ REQUEST_ne_RELEASE.symm
    constructor
    · rintro ⟨htok, -⟩
      exact ⟨fun hr => absurd hr hnreq, fun hr => absurd hr hnreq, fun _ => ⟨hv, htok.symm⟩⟩
    · intro h
      exact ⟨(h.devolve hc).2.symm, rfl⟩
  | passa hc aux resto hh hn u hu | passaFalha hc aux resto hh hn u hu =>
    subst hu
    constructor
    · rintro ⟨-, hfila⟩
      have htam := congrArg Fila.tamanho hfila
      simp only [preencheRep] at htam
      omega
    · intro h
      rw [(h.devolve hc).1] at hh
      cases hh
  | ignora h1 h2 =>
    exact iff_of_true ⟨rfl, rfl⟩
      ⟨fun hr => absurd hr h1, fun hr => absurd hr h1, fun hr => absurd hr h2⟩

/-- In every state that the server reaches, a datagram too short for `req` is
read with the last bytes of the message before it. It leaves the token and the
queue alone exactly when the ACK fails or the message so read changes nothing. -/
theorem a_short_datagram_is_harmless_iff_what_it_reads_as_has_no_effect {req ack rep : Request}
    {es : List (Entrada A)} {s s' : Servidor A} {t t' : List (Evento A)}
    (hr : (servidor A).run (Servidor.inicio req ack rep) es = some (s, t)) {e : Entrada A}
    {dados : List UInt8} (he : e.dados = some dados) (hnr : dados.length < sizeofRequest)
    (hs : (servidor A).step s e = some (s', t')) :
    ∃ r : Request, r.bytes = dados ++ s.req.bytes.drop dados.length ∧
      ((s'.Token = s.Token ∧ s'.fila = s.fila) ↔ e.nsAck < 0 ∨ SemEfeito s r) := by
  refine ⟨recvfrom s.req dados, ?_, ?_⟩
  · unfold recvfrom
    rw [List.take_of_length_le (le_of_lt hnr), bytes_ofBytes]
    rw [List.length_append, List.length_drop, length_bytes]
    omega
  · obtain ⟨-, hv⟩ := servidor_step (servidor_bom hr) hs
    cases hv with
    | recvFalha hd => rw [he] at hd; cases hd
    | ackFalha dados' hd hn => exact iff_of_true ⟨rfl, rfl⟩ (Or.inl hn)
    | trata dados' hd hn s' t ht =>
      rw [he, Option.some.injEq] at hd
      subst hd
      rw [or_iff_right (not_lt.mpr hn)]
      have hefeito := trata_semEfeito ht
      constructor
      · intro hfica
        obtain ⟨h1, h2, h3⟩ := hefeito.mp hfica
        exact ⟨h1, h2, h3⟩
      · rintro ⟨h1, h2, h3⟩
        exact hefeito.mpr ⟨h1, h2, h3⟩

/-- A datagram with the given bytes from the address `a`. -/
def entregaBytes (a : Nat) (dados : List UInt8) : Entrada Nat :=
  { entrega a branco with dados := some dados }

/-- Client 1 has the token, and client 2 waits for it. -/
def umEspera : List (Entrada Nat) := [entrega 1 (pedido 7 1), entrega 2 (pedido 8 1)]

/-- Four bytes with a new `rec` leave the rest of the REQUEST_TOKEN of client 2 in
the buffer, and its PID waits already. -/
theorem four_bytes_behind_a_request_that_waits_are_harmless : ∃ s t s' t',
    (servidor Nat).run (Servidor.inicio branco branco branco) umEspera = some (s, t) ∧
      (servidor Nat).step s (entregaBytes 2 [31, 0, 0, 0]) = some (s', t') ∧
      s'.req = { pedido 8 1 with recurso := 31 } ∧ s.fila.head.map Item.PID = [8] ∧
      s'.Token = s.Token ∧ s'.fila = s.fila := by
  obtain ⟨s, t, h, hpids, hflag, hreq, hs⟩ : ∃ s t,
      (servidor Nat).run (Servidor.inicio branco branco branco) umEspera = some (s, t) ∧
        s.fila.head.map Item.PID = [8] ∧ s.Token.flag ≠ -1 ∧ s.req = pedido 8 1 ∧
        (((servidor Nat).step s (entregaBytes 2 [31, 0, 0, 0])).any fun r =>
          r.1.req = { pedido 8 1 with recurso := 31 }) = true := exists_run (by decide)
  obtain ⟨⟨s', t'⟩, hstep, hlido⟩ := (Option.any_eq_true _ _).mp hs
  obtain ⟨r, hbytes, hiff⟩ :=
    a_short_datagram_is_harmless_iff_what_it_reads_as_has_no_effect h rfl (by decide) hstep
  have hr : r = { pedido 8 1 with recurso := 31 } := by
    rw [← ofBytes_bytes r, hbytes, hreq]
    decide
  subst hr
  have hefeito : SemEfeito s { pedido 8 1 with recurso := 31 } := by
    refine ⟨fun _ hlivre => absurd hlivre hflag, fun _ _ => Or.inr ?_, fun hc => ?_⟩
    · rw [hpids]
      exact List.mem_singleton.mpr rfl
    · exact absurd hc (by decide)
  exact ⟨s, t, s', t', h, hstep, of_decide_eq_true hlido, hpids, hiff.mpr (Or.inr hefeito)⟩

/-- Behind a REQUEST_TOKEN an empty datagram is one more REQUEST_TOKEN: the
client with the token comes into the queue. -/
theorem an_empty_datagram_repeats_the_request_before_it : ∃ s t s' t',
    (servidor Nat).run (Servidor.inicio branco branco branco) [entrega 1 (pedido 7 1)] =
        some (s, t) ∧
      (servidor Nat).step s (entregaBytes 1 []) = some (s', t') ∧
      s.fila.head = [] ∧ s'.fila.head.map Item.PID = [7] := by
  obtain ⟨s, t, h, hs⟩ : ∃ s t,
      (servidor Nat).run (Servidor.inicio branco branco branco) [entrega 1 (pedido 7 1)] =
          some (s, t) ∧
        (((servidor Nat).step s (entregaBytes 1 [])).any fun r =>
          decide (s.fila.head = [] ∧ r.1.fila.head.map Item.PID = [7])) = true :=
    exists_run (by decide)
  obtain ⟨s', t', hstep, hfila⟩ := exists_some
    (P := fun (s' : Servidor Nat) _ => s.fila.head = [] ∧ s'.fila.head.map Item.PID = [7]) hs
  exact ⟨s, t, s', t', h, hstep, hfila⟩

end lab2
