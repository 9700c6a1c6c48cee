-- The accounts of the server of LAB2-NETKIT alone, fed with any datagrams: what
-- becomes of each REQUEST_TOKEN that comes to the test of `req->cod`.
import ExclusaoMutua.Lab2.ConcessaoUnica

open fila machine

namespace lab2

variable {A : Type} [DecidableEq A]

/-! ## What a trace and a queue hold for one client -/

/-- The event comes to the test of `req->cod` with a REQUEST_TOKEN of the PID `p`
that came from `o`. -/
def Evento.pedido (p : Int32) (o : Origem A) : Evento A → Bool
  | .trata o' req => req.cod = REQUEST_TOKEN ∧ req.PID = p ∧ o' = o
  | .envia _ _ => false

/-- The event sends a REPLY_ALLOW for the PID `p` to `o`. -/
def Evento.atende (p : Int32) (o : Origem A) : Evento A → Bool
  | .trata _ _ => false
  | .envia o' d => d.conteudo.cod = REPLY_ALLOW ∧ d.conteudo.PID = p ∧ o' = o

/-- The item is that of the PID `p` from `o`. -/
def doPedinte (p : Int32) (o : Origem A) (w : Item Int32 (Origem A)) : Bool :=
  w.PID = p ∧ w.dados = o

/-- The test of `req->cod` comes to `insere` with the PID `p` from `o`, and the
queue is full or holds `p`. -/
def Servidor.recusa (p : Int32) (o : Origem A) (s : Servidor A) (origem : Origem A) : Bool :=
  s.req.cod = REQUEST_TOKEN ∧ s.req.PID = p ∧ origem = o ∧ s.Token.flag ≠ -1 ∧
    ¬ (s.fila.tamanho < s.fila.N ∧ p ∉ s.fila.head.map Item.PID)

/-- The turn refuses a REQUEST_TOKEN of the PID `p` from `o`. -/
def recusaDe (p : Int32) (o : Origem A) (s : Servidor A) (e : Entrada A) : Bool :=
  match e.dados with
  | none => false
  | some dados => 0 ≤ e.nsAck && (recebe s dados).recusa p o e.origem

/-! ## One turn -/

/-- The test of `req->cod` takes each request on to one place: the queue, a
REPLY_ALLOW, or a refusal. A request that was about to be granted when `sendto`
fails is in none of them, and `main` ends. -/
theorem trata_contas {s s' : Servidor A} {e : Entrada A} {t : List (Evento A)}
    (ht : Trata s e s' t) (p : Int32) (o : Origem A) :
    ∃ n ≤ 1, (s'.vivo = true → n = 0) ∧
      s.fila.head.countP (doPedinte p o) + (Evento.pedido p o (.trata e.origem s.req)).toNat =
        s'.fila.head.countP (doPedinte p o) + t.countP (Evento.atende p o) +
          (s.recusa p o e.origem).toNat + n := by
  unfold Servidor.recusa Evento.pedido
  cases ht with
  | concede hc hf hn =>
    refine ⟨0, Nat.zero_le _, fun _ => rfl, ?_⟩
    simp [hc, hf, preencheRep, Evento.atende, List.countP_singleton, Bool.toNat]
  | concedeFalha hc hf hn =>
    refine ⟨(Evento.pedido p o (.trata e.origem s.req)).toNat, Bool.toNat_le _,
      (fun hv => by cases hv), ?_⟩
    simp [hf, preencheRep, Evento.pedido]
  | enfileira hc hf hcabe hnovo =>
    refine ⟨0, Nat.zero_le _, fun _ => rfl, ?_⟩
    have hnao : decide (s.req.cod = REQUEST_TOKEN ∧ s.req.PID = p ∧ e.origem = o ∧
        s.Token.flag ≠ -1 ∧
          ¬ (s.fila.tamanho < s.fila.N ∧ p ∉ s.fila.head.map Item.PID)) = false := by
      rw [decide_eq_false_iff_not]
      rintro ⟨-, rfl, -, -, hcheia⟩
      exact hcheia ⟨hcabe, hnovo⟩
    rw [hnao, countP_colocada]
    simp [hc, doPedinte, Bool.toNat]
  | recusa hc hf hnao =>
    refine ⟨0, Nat.zero_le _, fun _ => rfl, ?_⟩
    have hsim : (s.req.cod = REQUEST_TOKEN ∧ s.req.PID = p ∧ e.origem = o ∧
        s.Token.flag ≠ -1 ∧ ¬ (s.fila.tamanho < s.fila.N ∧ p ∉ s.fila.head.map Item.PID)) ↔
        s.req.cod = REQUEST_TOKEN ∧ s.req.PID = p ∧ e.origem = o := by
      constructor
      · rintro ⟨h1, h2, h3, -⟩
        exact ⟨h1, h2, h3⟩
      · rintro ⟨h1, rfl, h3⟩
        exact ⟨h1, rfl, h3, hf, hnao⟩
    simp only [hsim]
    simp
  | libera hc hv =>
    refine ⟨0, Nat.zero_le _, fun _ => rfl, ?_⟩
    simp [hc, RELEASE_TOKEN, REQUEST_TOKEN]
  | passa hc aux resto hh hn s' hs =>
    refine ⟨0, Nat.zero_le _, fun _ => rfl, ?_⟩
    subst hs
    simp [hc, hh, RELEASE_TOKEN, REQUEST_TOKEN, preencheRep, List.countP_cons, doPedinte,
      Evento.atende]
  | passaFalha hc aux resto hh hn s' hs =>
    refine ⟨(doPedinte p o aux).toNat, Bool.toNat_le _, (fun hv => by cases hv), ?_⟩
    subst hs
    simp [hc, hh, RELEASE_TOKEN, REQUEST_TOKEN, preencheRep, List.countP_cons, Bool.toNat]
  | ignora h1 h2 =>
    refine ⟨0, Nat.zero_le _, fun _ => rfl, ?_⟩
    simp [h1]

/-- Behind the test of `req->cod` there is no other one in the turn. -/
theorem trata_semPedido {s s' : Servidor A} {e : Entrada A} {t : List (Evento A)}
    (ht : Trata s e s' t) (p : Int32) (o : Origem A) : t.countP (Evento.pedido p o) = 0 := by
  cases ht with
  | concede | concedeFalha | enfileira | recusa | libera | passa | passaFalha | ignora =>
    simp [Evento.pedido]

theorem volta_contas {s s' : Servidor A} {e : Entrada A} {t : List (Evento A)}
    (hv : Volta s e s' t) (p : Int32) (o : Origem A) :
    ∃ n ≤ 1, (s'.vivo = true → n = 0) ∧
      s.fila.head.countP (doPedinte p o) + t.countP (Evento.pedido p o) =
        s'.fila.head.countP (doPedinte p o) + t.countP (Evento.atende p o) +
          (recusaDe p o s e).toNat + n := by
  unfold recusaDe
  cases hv with
  | recvFalha hd =>
    refine ⟨0, Nat.zero_le _, fun _ => rfl, ?_⟩
    simp [hd]
  | ackFalha dados hd hn =>
    refine ⟨0, Nat.zero_le _, fun _ => rfl, ?_⟩
    simp [hd, not_le.mpr hn]
  | trata dados hd hn s' t ht =>
    obtain ⟨n, hn1, hvivo, heq⟩ := trata_contas ht p o
    refine ⟨n, hn1, hvivo, ?_⟩
    have hack : Evento.atende p o (.envia e.origem
        { conteudo := (recebe s dados).ack, nbytes := sizeofRequest }) = false := by
      unfold Evento.atende
      simp [recebe, ACK, REPLY_ALLOW]
    have hpedido : ∀ d, Evento.pedido p o (.envia e.origem d) = false := fun _ => rfl
    have htrata : ∀ r, Evento.atende p o (.trata e.origem r) = false := fun _ => rfl
    have hnenhum := trata_semPedido ht p o
    simp only [List.countP_cons, hack, hpedido, htrata, hnenhum, hd, hn, decide_true, Bool.true_and,
      recebe_fila, Bool.false_eq_true, if_false] at heq ⊢
    cases hq : Evento.pedido p o (.trata e.origem (recebe s dados).req) with
    | true =>
      rw [hq, Bool.toNat_true] at heq
      rw [if_pos rfl]
      omega
    | false =>
      rw [hq, Bool.toNat_false] at heq
      rw [if_neg (by decide)]
      omega

/-! ## Every run -/

/-- Whatever datagrams come in, each REQUEST_TOKEN that the server has handled is
granted once, waits in the queue once, or was refused, when the queue was full or
held its PID. Only the request that ends `main` is in none of them. -/
theorem each_request_is_granted_or_waits_or_was_refused {req ack rep : Request}
    {es : List (Entrada A)} {s : Servidor A} {t : List (Evento A)}
    (hr : (servidor A).run (Servidor.inicio req ack rep) es = some (s, t)) (p : Int32)
    (o : Origem A) :
    s.fila.head.countP (doPedinte p o) ≤ 1 ∧ ∃ n ≤ 1, (s.vivo = true → n = 0) ∧
      t.countP (Evento.pedido p o) =
        t.countP (Evento.atende p o) + s.fila.head.countP (doPedinte p o) +
          (servidor A).count (recusaDe p o) (Servidor.inicio req ack rep) es + n := by
  have hinv : s.Bom ∧ ∃ n ≤ 1, (s.vivo = true → n = 0) ∧
      t.countP (Evento.pedido p o) =
        t.countP (Evento.atende p o) + s.fila.head.countP (doPedinte p o) +
          (servidor A).count (recusaDe p o) (Servidor.inicio req ack rep) es + n := by
    apply run_invariant_count (I := fun u t k => u.Bom ∧ ∃ n ≤ 1, (u.vivo = true → n = 0) ∧
      t.countP (Evento.pedido p o) =
        t.countP (Evento.atende p o) + u.fila.head.countP (doPedinte p o) + k + n) _ _ hr
    · exact ⟨inicio_bom req ack rep, 0, Nat.zero_le _, fun _ => rfl, rfl⟩
    · rintro u t k a v e ⟨hb, m, -, hm, heq⟩ hs
      obtain ⟨hvivo, hv⟩ := servidor_step hb hs
      obtain ⟨n, hn1, hn, hconta⟩ := volta_contas hv p o
      refine ⟨volta_bom hb hv, n, hn1, hn, ?_⟩
      rw [hm hvivo] at heq
      rw [List.countP_append, List.countP_append]
      omega
  obtain ⟨hb, hconta⟩ := hinv
  refine ⟨?_, hconta⟩
  calc s.fila.head.countP (doPedinte p o)
      ≤ s.fila.head.countP (fun w => w.PID = p) := by
        apply List.countP_mono_left
        intro w _ hw
        simp only [doPedinte, decide_eq_true_eq] at hw ⊢
        exact hw.1
    _ = (s.fila.head.map Item.PID).count p := by
        rw [List.count, List.countP_map]
        apply List.countP_congr
        intro w _
        simp
    _ ≤ 1 := List.nodup_iff_count_le_one.mp hb.distintos p

/-- Client 8 asks twice while client 7 has the token, and then gets it. -/
def pedeDuasVezes : List (Entrada Nat) :=
  [entrega 1 (pedido 7 1), entrega 2 (pedido 8 1), entrega 2 (pedido 8 2),
    entrega 1 (devolucao 7 3 31)]

theorem the_second_request_of_client_8_is_refused : ∃ s t,
    (servidor Nat).run (Servidor.inicio branco branco branco) pedeDuasVezes = some (s, t) ∧
      t.countP (Evento.pedido 8 (entrega 2 branco).origem) = 2 ∧
      t.countP (Evento.atende 8 (entrega 2 branco).origem) = 1 ∧
      (servidor Nat).count (recusaDe 8 (entrega 2 branco).origem)
        (Servidor.inicio branco branco branco) pedeDuasVezes = 1 := by
  obtain ⟨s, t, hrun, hvivo, hpedido, hatende, hfila⟩ : ∃ s t,
      (servidor Nat).run (Servidor.inicio branco branco branco) pedeDuasVezes = some (s, t) ∧
        s.vivo = true ∧ t.countP (Evento.pedido 8 (entrega 2 branco).origem) = 2 ∧
        t.countP (Evento.atende 8 (entrega 2 branco).origem) = 1 ∧ s.fila.head = [] :=
    exists_run (by decide)
  obtain ⟨-, n, -, hn, heq⟩ := each_request_is_granted_or_waits_or_was_refused hrun 8
    (entrega 2 branco).origem
  rw [hn hvivo, hpedido, hatende, hfila, List.countP_nil] at heq
  exact ⟨s, t, hrun, hpedido, hatende, by omega⟩

end lab2
