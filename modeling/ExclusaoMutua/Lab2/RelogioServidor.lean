-- The clock of the server of LAB2-NETKIT alone, under any datagrams with a
-- bounded stamp: up to the wrap at `INT_MAX` it grows with each message that it
-- sends, and stays ahead of each that it takes in.
import ExclusaoMutua.Lab2.Relogio

open fila machine signed_order

namespace lab2

variable {A : Type}

/-! ## The expressions of the clock -/

/-- `(x + 1) % INT_MAX` in `long`: the sum does not overflow, and the remainder
is the sum. -/
def ExatoLong (x : Int64) : Prop :=
  (x + 1).toInt = x.toInt + 1 ∧ (x + 1) % INT_MAX.toInt64 = x + 1

/-- The same in `int`. -/
def ExatoInt (x : Int32) : Prop := (x + 1).toInt = x.toInt + 1 ∧ (x + 1) % INT_MAX = x + 1

/-- The value of a `long` in an `int`. -/
def CabeInt (x : Int64) : Prop := x.toInt32.toInt = x.toInt

/-- The clock expressions of one turn are exact: the one that takes the message
in, the stamp of the ACK, and those of a REPLY_ALLOW. -/
structure Exato (s : Servidor A) (r : Request) : Prop where
  maior : s.TEMPO > r.tempo.toInt64 → ExatoLong s.TEMPO
  menor : ¬ s.TEMPO > r.tempo.toInt64 → ExatoInt r.tempo
  ack : CabeInt (marcaTempo s.TEMPO r.tempo)
  rep : ExatoLong (marcaTempo s.TEMPO r.tempo) ∧ CabeInt (marcaTempo s.TEMPO r.tempo + 1)

theorem exatoLong {x : Int64} (h0 : 0 ≤ x.toInt) (h : x.toInt < 2147483646) : ExatoLong x := by
  have hsoma := succ_toInt64 h0 (by omega)
  refine ⟨hsoma, ?_⟩
  apply Int64.toInt_inj.mp
  exact mod_toInt64 (by omega) (by rw [INT_MAX_toInt64]; omega)

theorem exatoInt {x : Int32} (h0 : 0 ≤ x.toInt) (h : x.toInt < 2147483646) : ExatoInt x := by
  have hsoma := succ_toInt32 h0 (by omega)
  refine ⟨hsoma, ?_⟩
  apply Int32.toInt_inj.mp
  exact mod_toInt32 (by omega) (by rw [INT_MAX_toInt]; omega)

theorem exato {s : Servidor A} {r : Request} (h0 : 0 ≤ s.TEMPO.toInt)
    (hs : s.TEMPO.toInt < 2147483645) (hr : r.tempo.toInt < 2147483645) : Exato s r := by
  have hmarca := marcaTempo_toInt h0 (by omega) (t := r.tempo) (by omega)
  have hrep : ExatoLong (marcaTempo s.TEMPO r.tempo) := exatoLong (by omega) (by omega)
  refine ⟨fun _ => exatoLong h0 (by omega), fun hle => ?_, ?_, hrep, ?_⟩
  · have hle := mt Int64.lt_iff_toInt_lt.mpr hle
    rw [Int32.toInt_toInt64] at hle
    exact exatoInt (by omega) (by omega)
  · exact toInt32_toInt (by omega) (by omega)
  · have hsoma := hrep.1
    exact toInt32_toInt (by omega) (by omega)

/-! ## One turn -/

/-- The stamps of the messages that a trace sends, in order. -/
def selos (t : List (Evento A)) : List Int32 := (enviados t).map fun x => x.2.conteudo.tempo

theorem selos_append (t u : List (Evento A)) : selos (t ++ u) = selos t ++ selos u := by
  unfold selos enviados
  simp

/-- Behind the ACK the server keeps its clock and sends nothing more, or it
sends a REPLY_ALLOW one step on. -/
theorem trata_selo {s s' : Servidor A} {e : Entrada A} {t : List (Evento A)} (ht : Trata s e s' t)
    (hn : 0 ≤ e.nsRep) (hlong : ExatoLong s.TEMPO) (hint : CabeInt (s.TEMPO + 1)) :
    s'.vivo = s.vivo ∧ (s'.TEMPO = s.TEMPO ∧ selos t = [] ∨
      s'.TEMPO = s.TEMPO + 1 ∧ ∃ d, selos t = [d] ∧ d.toInt = s.TEMPO.toInt + 1) := by
  obtain ⟨hsoma, hresto⟩ := hlong
  have hselo : ((s.TEMPO + 1) % INT_MAX.toInt64).toInt32.toInt = s.TEMPO.toInt + 1 := by
    rw [hresto, hint, hsoma]
  cases ht with
  | concede hc hf hrep => exact ⟨rfl, Or.inr ⟨rfl, _, rfl, hselo⟩⟩
  | passa hc aux resto hh hrep u hu =>
    subst hu
    exact ⟨rfl, Or.inr ⟨rfl, _, rfl, hselo⟩⟩
  | concedeFalha hc hf hrep => exact absurd hrep (not_lt.mpr hn)
  | passaFalha hc aux resto hh hrep u hu => exact absurd hrep (not_lt.mpr hn)
  | enfileira | recusa | libera | ignora => exact ⟨rfl, Or.inl ⟨rfl, rfl⟩⟩

/-- A datagram of the full size with a stamp up to `M`, and no `sendto` fails. -/
structure Limitada (M : Int) (e : Entrada A) : Prop where
  dados : ∃ dados, e.dados = some dados ∧ dados.length = sizeofRequest ∧
    (Request.ofBytes dados).tempo.toInt ≤ M
  nsAck : 0 ≤ e.nsAck
  nsRep : 0 ≤ e.nsRep

/-- What a turn sends for the message `r`: the ACK to its sender, with the clock
that `r` has moved, and one REPLY_ALLOW at most behind it. -/
def Responde (s : Servidor A) (e : Entrada A) (r : Request) (t : List (Evento A)) : Prop :=
  ∃ ack t', t = .envia e.origem ack :: .trata e.origem r :: t' ∧ ack.Inteiro ∧
    ack.conteudo.cod = ACK ∧ ack.conteudo.PID = r.PID ∧
    ack.conteudo.tempo.toInt = max s.TEMPO.toInt r.tempo.toInt + 1 ∧
    (enviados t').length ≤ 1 ∧ ∀ x ∈ enviados t', x.2.conteudo.cod = REPLY_ALLOW

/-- A turn moves the clock to `T`, past the old one and the stamp that it takes
in, and sends its messages with increasing stamps from `T` up to the new clock. -/
structure Avanca (M : Int) (s : Servidor A) (e : Entrada A) (s' : Servidor A) (t : List (Evento A))
    (T : Int) : Prop where
  bom : s'.Bom
  vivo : s'.vivo = true
  passa : s.TEMPO.toInt < T
  teto : T ≤ max s.TEMPO.toInt M + 1
  recebida : ∀ dados, e.dados = some dados → Exato s (Request.ofBytes dados) ∧
    (Request.ofBytes dados).tempo.toInt < T
  responde : ∀ dados, e.dados = some dados → Responde s e (Request.ofBytes dados) t
  fica : T ≤ s'.TEMPO.toInt
  mais : s'.TEMPO.toInt ≤ T + 1
  ordem : (selos t).Pairwise (· < ·)
  entre : ∀ d ∈ selos t, T ≤ d.toInt ∧ d.toInt ≤ s'.TEMPO.toInt

/-- The stamps behind an ACK with the stamp of the clock. -/
theorem trata_selos {s s' : Servidor A} {e : Entrada A} {t : List (Evento A)} (ht : Trata s e s' t)
    (hn : 0 ≤ e.nsRep) (hlong : ExatoLong s.TEMPO) (hint : CabeInt (s.TEMPO + 1)) {a : Int32}
    (ha : a.toInt = s.TEMPO.toInt) :
    s.TEMPO.toInt ≤ s'.TEMPO.toInt ∧ s'.TEMPO.toInt ≤ s.TEMPO.toInt + 1 ∧
      (a :: selos t).Pairwise (· < ·) ∧
      ∀ d ∈ a :: selos t, s.TEMPO.toInt ≤ d.toInt ∧ d.toInt ≤ s'.TEMPO.toInt := by
  have hsoma := hlong.1
  rcases (trata_selo ht hn hlong hint).2 with ⟨hfica, hnada⟩ | ⟨hmais, c, hum, hc⟩
  · rw [hfica, hnada]
    refine ⟨le_refl _, by omega, List.pairwise_singleton _ _, ?_⟩
    intro d hd
    rw [List.mem_singleton.mp hd, ha]
    exact ⟨le_refl _, le_refl _⟩
  · rw [hmais, hsoma, hum]
    have hdepois : a < c := by
      apply Int32.lt_iff_toInt_lt.mpr
      omega
    refine ⟨by omega, le_refl _, List.pairwise_pair.mpr hdepois, ?_⟩
    intro d hd
    rcases List.mem_cons.mp hd with rfl | hd
    · omega
    · rw [List.mem_singleton.mp hd]
      omega

theorem length_enviados_trata {s s' : Servidor A} {e : Entrada A} {t : List (Evento A)}
    (ht : Trata s e s' t) : (enviados t).length ≤ 1 := by
  cases ht with
  | concede | passa => exact le_refl _
  | concedeFalha | enfileira | recusa | libera | passaFalha | ignora => exact Nat.zero_le _

theorem trata_responde {s s' : Servidor A} {e : Entrada A} {dados : List UInt8} {r : Request}
    {t : List (Evento A)} (ht : Trata (recebe s dados) e s' t) (hreq : (recebe s dados).req = r)
    (hack : (recebe s dados).ack.tempo.toInt = max s.TEMPO.toInt r.tempo.toInt + 1) :
    Responde s e r (.envia e.origem { conteudo := (recebe s dados).ack, nbytes := sizeofRequest } ::
      .trata e.origem (recebe s dados).req :: t) := by
  have hpid : (recebe s dados).ack.PID = (recebe s dados).req.PID := rfl
  rw [hreq] at hpid ⊢
  exact ⟨_, t, rfl, rfl, rfl, hpid, hack, length_enviados_trata ht,
    fun x hx => (trata_enviados ht x hx).2⟩

theorem passo_avanca {M : Int} {s : Servidor A} (hb : s.Bom) (hv : s.vivo = true)
    (h0 : 0 ≤ s.TEMPO.toInt) (hs : s.TEMPO.toInt < 2147483645) (hM : M < 2147483645)
    {e : Entrada A} (he : Limitada M e) :
    ∃ s' t T, (servidor A).step s e = some (s', t) ∧ Avanca M s e s' t T := by
  obtain ⟨dados, hdados, hlen, hselo⟩ := he.dados
  have hex : Exato s (Request.ofBytes dados) := exato h0 hs (by omega)
  have hmarca : (recebe s dados).TEMPO = marcaTempo s.TEMPO (Request.ofBytes dados).tempo :=
    congrArg (fun r => marcaTempo s.TEMPO (Request.tempo r)) (recvfrom_full s.req hlen)
  have hsoma := marcaTempo_toInt h0 (t := (Request.ofBytes dados).tempo) (by omega) (by omega)
  have hack : (recebe s dados).ack.tempo.toInt = (recebe s dados).TEMPO.toInt := by
    have hcabe := hex.ack
    rw [← hmarca] at hcabe
    exact hcabe
  obtain ⟨hlong, hint⟩ := hex.rep
  rw [← hmarca] at hsoma hlong hint
  have hstep : (servidor A).step s e = some (volta s e) := if_pos hv
  have hvolta := volta_cases hb e
  refine ⟨(volta s e).1, (volta s e).2, (recebe s dados).TEMPO.toInt, hstep, ?_⟩
  generalize volta s e = r at hvolta ⊢
  obtain ⟨s', t'⟩ := r
  dsimp only at hvolta ⊢
  cases hvolta with
  | recvFalha hd =>
    rw [hdados] at hd
    cases hd
  | ackFalha dados' hd hn => exact absurd hn (not_lt.mpr he.nsAck)
  | trata dados' hd hn s' t' ht =>
    rw [hdados, Option.some.injEq] at hd
    subst hd
    obtain ⟨hfica, hmais, hordem, hentre⟩ := trata_selos ht he.nsRep hlong hint hack
    have hvivo := (trata_selo ht he.nsRep hlong hint).1
    refine ⟨trata_bom (recebe_bom hb dados) ht, hvivo.trans hv, by omega, by omega, ?_, ?_, hfica,
      hmais, hordem, hentre⟩
    · intro dados' hd'
      rw [hdados, Option.some.injEq] at hd'
      rw [← hd']
      exact ⟨hex, by omega⟩
    · intro dados' hd'
      rw [hdados, Option.some.injEq] at hd'
      rw [← hd']
      exact trata_responde ht (recvfrom_full s.req hlen) (hack.trans hsoma)

/-! ## Every sequence of datagrams -/

/-- The datagrams of `es` carry stamps below `d`. -/
def Passou (es : List (Entrada A)) (d : Int) : Prop :=
  ∀ e ∈ es, ∀ dados, e.dados = some dados → (Request.ofBytes dados).tempo.toInt < d

/-- The server behind the datagrams `es`, with the trace `t`. -/
structure Marcha (M : Int) (es : List (Entrada A)) (s : Servidor A) (t : List (Evento A)) :
    Prop where
  bom : s.Bom
  vivo : s.vivo = true
  chao : 0 ≤ s.TEMPO.toInt
  teto : s.TEMPO.toInt ≤ M + 2 * es.length
  recebidos : Passou es (s.TEMPO.toInt + 1)
  ordem : (selos t).Pairwise (· < ·)
  ultimo : ∀ d ∈ selos t, d.toInt ≤ s.TEMPO.toInt

theorem inicio_marcha {M : Int} (hM : 0 ≤ M) (req ack rep : Request) :
    Marcha M [] (Servidor.inicio req ack rep : Servidor A) [] where
  bom := inicio_bom req ack rep
  vivo := rfl
  chao := show 0 ≤ (0 : Int64).toInt by decide
  teto := show (0 : Int64).toInt ≤ M + 2 * 0 by simpa using hM
  recebidos e he := by cases he
  ordem := List.Pairwise.nil
  ultimo d hd := by cases hd

/-- A datagram more: its stamp is passed as well. -/
theorem Passou.snoc {es : List (Entrada A)} {e : Entrada A} {d : Int} (h : Passou es d)
    {dados : List UInt8} (he : e.dados = some dados)
    (hd : (Request.ofBytes dados).tempo.toInt < d) : Passou (es ++ [e]) d := by
  intro x hx dados' hx'
  rcases List.mem_append.mp hx with hx | hx
  · exact h x hx dados' hx'
  · rw [List.mem_singleton.mp hx, he, Option.some.injEq] at hx'
    rw [← hx']
    exact hd

theorem Passou.mono {es : List (Entrada A)} {c d : Int} (h : Passou es c) (hcd : c ≤ d) :
    Passou es d :=
  fun e he dados hd => lt_of_lt_of_le (h e he dados hd) hcd

/-- A turn below the bound keeps the clock ahead. -/
theorem passo_marcha {M : Int} {es : List (Entrada A)} {s : Servidor A} {t : List (Evento A)}
    (h : Marcha M es s t) {e : Entrada A} (he : Limitada M e)
    (hmax : M + 2 * (es.length + 1) + 1 < 2147483647) :
    ∃ s' t', (servidor A).step s e = some (s', t') ∧ Marcha M (es ++ [e]) s' (t ++ t') ∧
      (∀ dados, e.dados = some dados →
        Exato s (Request.ofBytes dados) ∧ Responde s e (Request.ofBytes dados) t') ∧
      ∀ d ∈ selos t', Passou (es ++ [e]) d.toInt := by
  have hchao := h.chao
  have hteto := h.teto
  obtain ⟨s', t', T, hstep, ha⟩ := passo_avanca h.bom h.vivo hchao (by omega) (by omega) he
  obtain ⟨dados, hdados, -, -⟩ := he.dados
  have hpassa := ha.passa
  have htetoT := ha.teto
  have hfica := ha.fica
  have hmais := ha.mais
  have hpassou : Passou (es ++ [e]) T :=
    (h.recebidos.mono (by omega)).snoc hdados (ha.recebida dados hdados).2
  refine ⟨s', t', hstep, ?_,
    fun dados hd => ⟨(ha.recebida dados hd).1, ha.responde dados hd⟩,
    fun d hd => hpassou.mono (ha.entre d hd).1⟩
  refine ⟨ha.bom, ha.vivo, by omega, ?_, hpassou.mono (by omega), ?_, ?_⟩
  · simp only [List.length_append, List.length_singleton]
    omega
  · rw [selos_append]
    refine List.pairwise_append.mpr ⟨h.ordem, ha.ordem, ?_⟩
    intro a hat b hbt
    have hantes := h.ultimo a hat
    have hdepois := (ha.entre b hbt).1
    apply Int32.lt_iff_toInt_lt.mpr
    omega
  · intro d hd
    rw [selos_append] at hd
    rcases List.mem_append.mp hd with hd | hd
    · have hantes := h.ultimo d hd
      omega
    · exact (ha.entre d hd).2

theorem run_marcha {M : Int} (hM : 0 ≤ M) (req ack rep : Request) (es : List (Entrada A))
    (hes : ∀ e ∈ es, Limitada M e) (hmax : M + 2 * es.length + 1 < 2147483647) :
    ∃ s t, (servidor A).run (Servidor.inicio req ack rep) es = some (s, t) ∧ Marcha M es s t := by
  induction es using List.reverseRecOn with
  | nil => exact ⟨_, [], rfl, inicio_marcha hM req ack rep⟩
  | append_singleton es e ih =>
    simp only [List.length_append, List.length_singleton] at hmax
    obtain ⟨s, t, hr, hmarcha⟩ := ih (fun x hx => hes x (by simp [hx])) (by omega)
    obtain ⟨s', t', hs, hmarcha', -⟩ := passo_marcha hmarcha (hes e (by simp)) (by omega)
    exact ⟨s', t ++ t', run_snoc.mpr ⟨s, t, t', hr, hs, rfl⟩, hmarcha'⟩

/-- The server keeps its clock exact and ahead through any `n` full-size
datagrams with stamps up to `M`, negative ones too, while `M + 2 * n + 1` is
below `INT_MAX`: no sum overflows and no remainder changes a value, each turn
sends its ACK with the moved clock, and a REPLY_ALLOW at most, the stamps of its
messages increase, and each is larger than the stamp of every datagram that came
before the message. -/
theorem the_clock_of_the_server_grows_up_to_the_wrap {M : Int} (hM : 0 ≤ M) {n : Nat}
    (hmax : M + 2 * n + 1 < INT_MAX.toInt) (req ack rep : Request) {es : List (Entrada A)}
    (hn : es.length = n) (hes : ∀ e ∈ es, Limitada M e) :
    ∃ s t, (servidor A).run (Servidor.inicio req ack rep) es = some (s, t) ∧
      (selos t).Pairwise (· < ·) ∧
      ∀ es₁ e es₂, es = es₁ ++ e :: es₂ → ∀ u t₁ v t₂,
        (servidor A).run (Servidor.inicio req ack rep) es₁ = some (u, t₁) →
        (servidor A).step u e = some (v, t₂) →
        (∀ dados, e.dados = some dados →
          Exato u (Request.ofBytes dados) ∧ Responde u e (Request.ofBytes dados) t₂) ∧
          ∀ d ∈ selos t₂, Passou (es₁ ++ [e]) d.toInt := by
  subst hn
  rw [INT_MAX_toInt] at hmax
  obtain ⟨s, t, hr, hmarcha⟩ := run_marcha hM req ack rep es hes hmax
  refine ⟨s, t, hr, hmarcha.ordem, ?_⟩
  rintro es₁ e es₂ rfl u t₁ v t₂ hu hv
  simp only [List.length_append, List.length_cons] at hmax
  obtain ⟨u', t₁', hu', hfrente⟩ := run_marcha hM req ack rep es₁
    (fun x hx => hes x (by simp [hx])) (by omega)
  rw [hu, Option.some.injEq, Prod.mk.injEq] at hu'
  obtain ⟨rfl, rfl⟩ := hu'
  obtain ⟨v', t₂', hv', -, hexato, hpassou⟩ :=
    passo_marcha hfrente (hes e (by simp)) (by omega)
  rw [hv, Option.some.injEq, Prod.mk.injEq] at hv'
  obtain ⟨rfl, rfl⟩ := hv'
  exact ⟨hexato, hpassou⟩

/-- Two REPLY_ALLOW behind three ACKs. -/
theorem the_clock_of_the_server_grows_in_a_round : ∃ s t,
    (servidor Nat).run (Servidor.inicio branco branco branco) pedeDevolvePede = some (s, t) ∧
      selos t = [2, 3, 4, 5, 6] ∧ (selos t).Pairwise (· < ·) := by
  have hes : ∀ e ∈ pedeDevolvePede, Limitada 3 e := by
    intro e he
    unfold pedeDevolvePede at he
    simp only [List.mem_cons, List.not_mem_nil, or_false] at he
    rcases he with rfl | rfl | rfl
    all_goals
      refine ⟨⟨_, rfl, length_bytes _, ?_⟩, by decide, by decide⟩
      rw [ofBytes_bytes]
      decide
  obtain ⟨s, t, h, hcresce, -⟩ := the_clock_of_the_server_grows_up_to_the_wrap
    (M := 3) (by decide) (n := 3) (by decide) branco branco branco rfl hes
  obtain ⟨u, v, hu, hselos⟩ : ∃ u v, (servidor Nat).run (Servidor.inicio branco branco branco)
      pedeDevolvePede = some (u, v) ∧ selos v = [2, 3, 4, 5, 6] := exists_run (by decide)
  rw [h, Option.some.injEq, Prod.mk.injEq] at hu
  obtain ⟨rfl, rfl⟩ := hu
  exact ⟨s, t, h, hselos, hcresce⟩

end lab2
