-- Datagrams that the network hands over twice. The only test against a second
-- copy is that of `insere`, which looks at the clients that wait: the server
-- does not ask whether the client of a message has the token.
import ExclusaoMutua.Lab2.Truncado

open fila machine

namespace lab2

variable {A : Type}

/-! ## Room behind a free token -/

/-- The queue has room while the token is free. -/
def Servidor.Vaga (s : Servidor A) : Prop := s.Token.flag = -1 → s.fila.tamanho < s.fila.N

theorem trata_vaga {s s' : Servidor A} {e : Entrada A} {t : List (Evento A)} (h : s.Bom)
    (hv : s.Vaga) (ht : Trata s e s' t) : s'.Vaga := by
  have hcabe := h.valida.cabe
  cases ht with
  | concede hc hf hn | concedeFalha hc hf hn => exact fun _ => hv hf
  | enfileira hc hf hcabe hnovo => exact fun hl => absurd hl hf
  | recusa hc hf hnao => exact hv
  | libera hc hvazia =>
    intro _
    simp only
    rw [h.valida.tamanho_zero.mpr hvazia, h.dez]
    decide
  | passa hc aux resto hh hn u hu | passaFalha hc aux resto hh hn u hu =>
    subst hu
    intro _
    simp only [preencheRep]
    omega
  | ignora h1 h2 => exact hv

theorem volta_vaga {s s' : Servidor A} {e : Entrada A} {t : List (Evento A)} (h : s.Bom)
    (hv : s.Vaga) (hvolta : Volta s e s' t) : s'.Vaga := by
  cases hvolta with
  | recvFalha | ackFalha => exact hv
  | trata dados hd hn s' t ht => exact trata_vaga (recebe_bom h dados) hv ht

theorem servidor_vaga {req ack rep : Request} {es : List (Entrada A)} {s : Servidor A}
    {t : List (Evento A)} (h : (servidor A).run (Servidor.inicio req ack rep) es = some (s, t)) :
    s.Bom ∧ s.Vaga := by
  apply run_state_invariant _ _ h
  · refine ⟨inicio_bom req ack rep, fun _ => ?_⟩
    show (0 : Int) < 10
    decide
  · rintro u a v e ⟨hb, hv⟩ hs
    have hvolta := (servidor_step hb hs).2
    exact ⟨volta_bom hb hvolta, volta_vaga hb hv hvolta⟩

/-! ## The second copy -/

/-- The client of `m` may send it behind the trace `t`: a REQUEST_TOKEN when it
neither has the token nor waits, a RELEASE_TOKEN when it has the token. -/
structure TemDireito (s : Servidor A) (t : List (Evento A)) (m : Request) : Prop where
  flag : m.PID.toInt8 ≠ -1
  cod : m.cod = REQUEST_TOKEN ∨ m.cod = RELEASE_TOKEN
  pede : m.cod = REQUEST_TOKEN → detentor t ≠ some m.PID ∧ m.PID ∉ s.fila.head.map Item.PID
  devolve : m.cod = RELEASE_TOKEN → detentor t = some m.PID

/-- The token is held when a REQUEST_TOKEN comes, and no client waits when a
RELEASE_TOKEN comes, or one alone, whose PID ends in 0xFF. -/
structure CopiaInofensiva (s : Servidor A) (m : Request) : Prop where
  pede : m.cod = REQUEST_TOKEN → s.Token.flag ≠ -1
  devolve : m.cod = RELEASE_TOKEN →
    s.fila.head = [] ∨ ∃ aux, s.fila.head = [aux] ∧ aux.PID.toInt8 = -1

/-- The first copy, when the server goes on behind it, leaves the second one
without effect exactly when `CopiaInofensiva` says so. -/
theorem trata_copia {s s' : Servidor A} {e : Entrada A} {t t' : List (Evento A)} (hv : s.Vaga)
    (hm : TemDireito s t s.req) (ht : Trata s e s' t') (hvivo : s'.vivo = true) :
    SemEfeito s' s.req ↔ CopiaInofensiva s s.req := by
  have hpede : s.req.cod = REQUEST_TOKEN → s.req.cod ≠ RELEASE_TOKEN :=
    fun hc => hc ▸ REQUEST_ne_RELEASE
  have hdevolve : s.req.cod = RELEASE_TOKEN → s.req.cod ≠ REQUEST_TOKEN :=
    fun hc => hc ▸ REQUEST_ne_RELEASE.symm
  cases ht with
  | concede hc hf hn =>
    -- the client that now has the token goes into the queue
    constructor
    · intro h
      rcases h.preso hc hm.flag with hcheia | hja
      · exact absurd (hv hf) (not_lt.mpr hcheia)
      · exact absurd hja (hm.pede hc).2
    · intro h
      exact absurd hf (h.pede hc)
  | enfileira hc hf hcabe hnovo =>
    refine iff_of_true ⟨fun _ hl => absurd hl hf, fun _ _ => ?_, fun hr => absurd hr (hpede hc)⟩
      ⟨fun _ => hf, fun hr => absurd hr (hpede hc)⟩
    exact Or.inr (List.mem_map_of_mem (mem_colocada.mpr (Or.inl rfl)))
  | recusa hc hf hnao =>
    exact iff_of_true ((trata_semEfeito (.recusa (e := e) hc hf hnao)).mp ⟨rfl, rfl⟩)
      ⟨fun _ => hf, fun hr => absurd hr (hpede hc)⟩
  | libera hc hvazia =>
    exact iff_of_true ⟨fun hr => absurd hr (hdevolve hc), fun hr => absurd hr (hdevolve hc),
      fun _ => ⟨hvazia, rfl⟩⟩ ⟨fun hr => absurd hr (hdevolve hc), fun _ => Or.inl hvazia⟩
  | passa hc aux resto hh hn u hu =>
    subst hu
    constructor
    · intro h
      obtain ⟨hresto, htok⟩ := h.devolve hc
      simp only [preencheRep] at hresto
      have hflag := congrArg SToken.flag htok
      exact ⟨fun hr => absurd hr (hdevolve hc),
        fun _ => Or.inr ⟨aux, by rw [hh, hresto], hflag⟩⟩
    · intro h
      rcases h.devolve hc with hvazia | ⟨aux', hum, hflag⟩
      · rw [hvazia] at hh
        cases hh
      · rw [hum, List.cons.injEq] at hh
        obtain ⟨rfl, rfl⟩ := hh
        refine ⟨fun hr => absurd hr (hdevolve hc), fun hr => absurd hr (hdevolve hc), fun _ => ?_⟩
        simp [preencheRep, hflag]
  | concedeFalha | passaFalha => cases hvivo
  | ignora h1 h2 =>
    rcases hm.cod with hc | hc
    · exact absurd hc h1
    · exact absurd hc h2

/-- In every state that the server reaches, a full-size message of a client that
may send it, handled twice in a row, leaves the token and the queue as it does
once exactly when the second ACK fails, or the token is held for a
REQUEST_TOKEN, or nobody waits for a RELEASE_TOKEN (or one client alone, with a
PID that ends in 0xFF). -/
theorem a_second_copy_is_harmless_iff_the_token_is_held_or_nobody_waits {req ack rep : Request}
    {es : List (Entrada A)} {s s₁ s₂ : Servidor A} {t t₁ t₂ : List (Evento A)}
    (hr : (servidor A).run (Servidor.inicio req ack rep) es = some (s, t)) {dados : List UInt8}
    (hlen : dados.length = sizeofRequest) (hm : TemDireito s t (Request.ofBytes dados))
    {e e' : Entrada A} (he : e.dados = some dados) (he' : e'.dados = some dados)
    (h1 : (servidor A).step s e = some (s₁, t₁)) (h2 : (servidor A).step s₁ e' = some (s₂, t₂)) :
    (s₂.Token = s₁.Token ∧ s₂.fila = s₁.fila) ↔
      e'.nsAck < 0 ∨ CopiaInofensiva s (Request.ofBytes dados) := by
  obtain ⟨hbom, hvaga⟩ := servidor_vaga hr
  obtain ⟨-, hv1⟩ := servidor_step hbom h1
  obtain ⟨hvivo, hv2⟩ := servidor_step (volta_bom hbom hv1) h2
  have hcheio : ∀ u : Servidor A, (recebe u dados).req = Request.ofBytes dados :=
    fun u => recvfrom_full u.req hlen
  cases hv1 with
  | recvFalha hd | ackFalha dados' hd hn => cases hvivo
  | trata dados' hd hn s₁ t₁ ht1 =>
    rw [he, Option.some.injEq] at hd
    subst hd
    have hm : TemDireito (recebe s dados) t (recebe s dados).req := by
      rw [hcheio]
      exact ⟨hm.flag, hm.cod, hm.pede, hm.devolve⟩
    have hcopia := trata_copia (s := recebe s dados) hvaga hm ht1 hvivo
    rw [hcheio] at hcopia
    cases hv2 with
    | recvFalha hd => rw [he'] at hd; cases hd
    | ackFalha dados' hd hn => exact iff_of_true ⟨rfl, rfl⟩ (Or.inl hn)
    | trata dados' hd hn s₂ t₂ ht2 =>
      rw [he', Option.some.injEq] at hd
      subst hd
      have hefeito := trata_semEfeito ht2
      rw [hcheio] at hefeito
      rw [or_iff_right (not_lt.mpr hn)]
      constructor
      · intro hfica
        obtain ⟨ha, hb, hc⟩ := hefeito.mp hfica
        obtain ⟨hp, hd⟩ := hcopia.mp ⟨ha, hb, hc⟩
        exact ⟨hp, hd⟩
      · rintro ⟨hp, hd⟩
        obtain ⟨ha, hb, hc⟩ := hcopia.mpr ⟨hp, hd⟩
        exact hefeito.mpr ⟨ha, hb, hc⟩

/-- Client 2 asks while client 1 has the token: the second copy finds the first
one in the queue. -/
theorem a_second_request_for_a_held_token_is_harmless : ∃ s t s₁ t₁ s₂ t₂,
    (servidor Nat).run (Servidor.inicio branco branco branco) [entrega 1 (pedido 7 1)] =
        some (s, t) ∧
      (servidor Nat).step s (entrega 2 (pedido 8 1)) = some (s₁, t₁) ∧
      (servidor Nat).step s₁ (entrega 2 (pedido 8 1)) = some (s₂, t₂) ∧
      s₂.Token = s₁.Token ∧ s₂.fila = s₁.fila := by
  obtain ⟨s, t, h, hflag, hdet, hfila, hs₁⟩ : ∃ s t,
      (servidor Nat).run (Servidor.inicio branco branco branco) [entrega 1 (pedido 7 1)] =
          some (s, t) ∧
        s.Token.flag ≠ -1 ∧ detentor t ≠ some 8 ∧ 8 ∉ s.fila.head.map Item.PID ∧
        (((servidor Nat).step s (entrega 2 (pedido 8 1))).any fun r => decide
          ((((servidor Nat).step r.1 (entrega 2 (pedido 8 1))).any fun _ => decide True) = true)) =
            true := exists_run (by decide)
  obtain ⟨s₁, t₁, h₁, hs₂⟩ := exists_some (P := fun (u : Servidor Nat) _ =>
    (((servidor Nat).step u (entrega 2 (pedido 8 1))).any fun _ => decide True) = true) hs₁
  obtain ⟨s₂, t₂, h₂, -⟩ := exists_some (P := fun _ _ => True) hs₂
  have hm : TemDireito s t (Request.ofBytes (pedido 8 1).bytes) := by
    rw [ofBytes_bytes]
    exact ⟨by decide, Or.inl rfl, fun _ => ⟨hdet, hfila⟩, fun hc => absurd hc (by decide)⟩
  refine ⟨s, t, s₁, t₁, s₂, t₂, h, h₁, h₂, ?_⟩
  apply (a_second_copy_is_harmless_iff_the_token_is_held_or_nobody_waits h (length_bytes _) hm
    rfl rfl h₁ h₂).mpr
  rw [ofBytes_bytes]
  exact Or.inr ⟨fun _ => hflag, fun hc => absurd hc (by decide)⟩

/-- The first request gets the free token, and its second copy puts the client
that has it into the queue. -/
theorem a_second_request_for_a_free_token_is_queued : ∃ s₁ t₁ s₂ t₂,
    TemDireito (Servidor.inicio branco branco branco : Servidor Nat) [] (pedido 7 1) ∧
      (servidor Nat).step (Servidor.inicio branco branco branco) (entrega 1 (pedido 7 1)) =
        some (s₁, t₁) ∧
      (servidor Nat).step s₁ (entrega 1 (pedido 7 1)) = some (s₂, t₂) ∧
      s₁.fila.head = [] ∧ s₂.fila.head.map Item.PID = [7] := by
  obtain ⟨s₁, t₁, h₁, hvazia, hs₂⟩ : ∃ s₁ t₁,
      (servidor Nat).run (Servidor.inicio branco branco branco) [entrega 1 (pedido 7 1)] =
          some (s₁, t₁) ∧ s₁.fila.head = [] ∧
        (((servidor Nat).step s₁ (entrega 1 (pedido 7 1))).any fun r =>
          decide (r.1.fila.head.map Item.PID = [7])) = true := exists_run (by decide)
  obtain ⟨s₂, t₂, h₂, hfila⟩ :=
    exists_some (P := fun (u : Servidor Nat) _ => u.fila.head.map Item.PID = [7]) hs₂
  refine ⟨s₁, t₁, s₂, t₂, ?_, run_single.mp h₁, h₂, hvazia, hfila⟩
  refine ⟨by decide, Or.inl rfl, fun _ => ⟨by simp [detentor, marks.standing], ?_⟩, fun hc => ?_⟩
  · unfold Servidor.inicio init
    simp
  · exact absurd hc (by decide)

end lab2
