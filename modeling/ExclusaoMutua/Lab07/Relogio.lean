-- The clocks of LAB07-SD/backup. `rel_1_svc` takes the maximum of the clock
-- and of the stamp, and `req_1_svc` only goes one step on. So the server is
-- ahead of every client that it has served, and level with the client that it
-- serves first.
import ExclusaoMutua.Lab07.Exclusao

open fila in_flight machine signed_order

namespace lab07

/-! ## Sums that do not overflow -/

/-- One step on, when the clock does not turn negative. -/
theorem mais_um_toInt {x : Int64} (hx : 0 ≤ x.toInt) (h : 0 ≤ (x + 1).toInt) :
    (x + 1).toInt = x.toInt + 1 := by
  apply succ_toInt64 hx
  by_contra hfim
  have hultimo : x = Int64.maxValue := by
    have hteto := Int64.toInt_lt x
    apply Int64.toInt_inj.mp
    rw [Int64.toInt_maxValue]
    omega
  subst hultimo
  exact absurd h (by decide)

/-- The maximum of two clocks, and one step on. -/
theorem maximo_toInt {x y : Int64} (hx : 0 ≤ x.toInt) (hy : 0 ≤ y.toInt)
    (h : 0 ≤ (if x > y then x + 1 else y + 1).toInt) :
    (if x > y then x + 1 else y + 1).toInt = max x.toInt y.toInt + 1 := by
  split at h
  · rename_i hgt
    have hmaior := Int64.lt_iff_toInt_lt.mp hgt
    rw [if_pos hgt, mais_um_toInt hx h]
    omega
  · rename_i hle
    have hmenor := mt Int64.lt_iff_toInt_lt.mpr hle
    rw [if_neg hle, mais_um_toInt hy h]
    omega

variable {ι : Type}

/-- No clock has overflowed: a `long` that goes over its end turns negative. -/
def SemEstouro (s : Sistema ι) : Prop :=
  0 ≤ s.servidor.TEMPO ∧ ∀ i, 0 ≤ (s.clientes i).TEMPO

instance [Fintype ι] (s : Sistema ι) : Decidable (SemEstouro s) :=
  inferInstanceAs (Decidable (_ ∧ _))

theorem SemEstouro.servidor {s : Sistema ι} (h : SemEstouro s) : 0 ≤ s.servidor.TEMPO.toInt :=
  Int64.le_iff_toInt_le.mp h.1

theorem SemEstouro.cliente {s : Sistema ι} (h : SemEstouro s) (i : ι) :
    0 ≤ (s.clientes i).TEMPO.toInt :=
  Int64.le_iff_toInt_le.mp (h.2 i)

/-! ## How the stamps stand to the clocks -/

/-- The stamps of the replies of a trace, in order. -/
def selos (t : List (Evento ι)) : List Int64 :=
  t.filterMap fun e => match e with
    | .req _ _ rep_out => some rep_out.tempo_s
    | .rel _ _ _ => none

@[simp] theorem selos_append (t e : List (Evento ι)) : selos (t ++ e) = selos t ++ selos e :=
  List.filterMap_append

def Chamada.tempo_c : Chamada → Int64
  | .REQ r => r.tempo_c
  | .REL r => r.tempo_c

/-- A call carries the clock of its client, and a client that has given the
token back is behind the server. -/
structure Relogio (s : Sistema ι) : Prop where
  chamada : ∀ x ∈ s.chamadas, x.2.tempo_c = (s.clientes x.1).TEMPO ∧ 0 < x.2.tempo_c.toInt
  pedido : ∀ x ∈ s.chamadas, ∀ r, x.2 = .REQ r →
    r.tempo_c.toInt = 1 ∨ r.tempo_c.toInt ≤ s.servidor.TEMPO.toInt
  livre : ∀ i, (s.clientes i).fase = .pede →
    (s.clientes i).TEMPO.toInt = 0 ∨ (s.clientes i).TEMPO.toInt < s.servidor.TEMPO.toInt
  reply : ∀ x ∈ s.respostas, ∀ rep, x.2 = .reply rep →
    0 ≤ rep.tempo_s.toInt ∧ rep.tempo_s.toInt ≤ s.servidor.TEMPO.toInt
  result : ∀ x ∈ s.respostas, ∀ n, x.2 = .result n →
    (s.clientes x.1).TEMPO.toInt < s.servidor.TEMPO.toInt

theorem inicio_relogio (pid : ι → Int32) : Relogio (Sistema.inicio pid) where
  chamada x hx := by cases hx
  pedido x hx := by cases hx
  livre i _ := Or.inl rfl
  reply x hx := by cases hx
  result x hx := by cases hx

/-- How the replies so far stand to the clock of the server. Before the first
reply it has not moved, since nobody has a token to give back. -/
structure Historia (s : Sistema ι) (t : List (Evento ι)) : Prop where
  comeco : selos t = [] → s.servidor.TEMPO.toInt = 0 ∧ ∀ i, ¬ Tem s i
  teto : ∀ x ∈ selos t, 0 < x.toInt ∧ x.toInt ≤ s.servidor.TEMPO.toInt
  ordem : (selos t).Pairwise (· < ·)

theorem inicio_historia (pid : ι → Int32) : Historia (Sistema.inicio pid) [] where
  comeco _ := ⟨rfl, inicio_tem pid⟩
  teto x hx := by cases hx
  ordem := List.Pairwise.nil

/-- What `Req` and `Rel` do alike: the clock goes one step on, and the call
carries it. -/
structure Chama (c c' : Cliente) (o : Option Chamada) : Prop where
  tempo : c'.TEMPO = c.TEMPO + 1
  ocupado : c'.fase ≠ .pede
  selo : ∀ q ∈ o, q.tempo_c = c'.TEMPO

theorem req_chama {c c' : Cliente} {o : Option Chamada} (h : Req c c' o) : Chama c c' o := by
  cases h with
  | chama r hr hx =>
    refine ⟨rfl, nofun, ?_⟩
    intro q hq
    cases hq
    rw [hr]
    rfl
  | falha => exact ⟨rfl, nofun, nofun⟩

theorem rel_chama {c c' : Cliente} {o : Option Chamada} (h : Rel c c' o) : Chama c c' o := by
  cases h with
  | chama r hr =>
    refine ⟨rfl, nofun, ?_⟩
    intro q hq
    cases hq
    exact hr
  | falha => exact ⟨rfl, nofun, nofun⟩

/-- Answers that are taken out leave the clocks in order. -/
theorem Relogio.menos {s : Sistema ι} (h : Relogio s) {m : List (ι × Resposta)}
    (hm : ∀ x ∈ m, x ∈ s.respostas) : Relogio { s with respostas := m } :=
  ⟨h.chamada, h.pedido, h.livre, fun x hx => h.reply x (hm x hx), fun x hx => h.result x (hm x hx)⟩

/-- A call with the clock of its client. -/
theorem Relogio.manda {s : Sistema ι} (h : Relogio s) {i : ι} {c : Chamada}
    (hc : c.tempo_c = (s.clientes i).TEMPO) (hpos : 0 < c.tempo_c.toInt)
    (hreq : ∀ r, c = .REQ r → r.tempo_c.toInt = 1 ∨ r.tempo_c.toInt ≤ s.servidor.TEMPO.toInt) :
    Relogio { s with chamadas := s.chamadas ++ [(i, c)] } := by
  refine ⟨?_, ?_, h.livre, h.reply, h.result⟩
  · intro x hx
    rcases List.mem_append.mp hx with hx | hx
    · exact h.chamada x hx
    · rw [List.mem_singleton.mp hx]
      exact ⟨hc, hpos⟩
  · intro x hx
    rcases List.mem_append.mp hx with hx | hx
    · exact h.pedido x hx
    · rw [List.mem_singleton.mp hx]
      exact hreq

/-! ## What the server does to its clock -/

/-- A reply carries the clock of the server, one step on. -/
theorem atende_reply {s s' : Servidor ι} {i j : ι} {c : Chamada} {t : List (Evento ι)}
    (ha : Atende s i c s' t) {r : RequestIn} {rep : ReplyOut} (he : .req j r rep ∈ t) :
    j = i ∧ c = .REQ r ∧ rep.tempo_s = s.TEMPO + 1 ∧ s'.TEMPO = s.TEMPO + 1 := by
  cases ha with
  | responde =>
    simp only [List.mem_singleton, Evento.req.injEq] at he
    obtain ⟨rfl, rfl, rfl⟩ := he
    exact ⟨rfl, rfl, rfl, rfl⟩
  | espera => cases he
  | libera => simp at he

theorem atende_result {s s' : Servidor ι} {i j : ι} {c : Chamada} {t : List (Evento ι)}
    (ha : Atende s i c s' t) {r : Release} {n : Int32} (he : .rel j r n ∈ t) :
    j = i ∧ c = .REL r := by
  cases ha with
  | responde => simp at he
  | espera => cases he
  | libera =>
    simp only [List.mem_singleton, Evento.rel.injEq] at he
    obtain ⟨rfl, rfl, -⟩ := he
    exact ⟨rfl, rfl⟩

/-- A handler moves the clock on, and `rel_1_svc` moves it ahead of the stamp. -/
theorem atende_tempo {s s' : Servidor ι} {i : ι} {c : Chamada} {t : List (Evento ι)}
    (ha : Atende s i c s' t) (h0 : 0 ≤ s.TEMPO.toInt) (h0' : 0 ≤ s'.TEMPO.toInt)
    (hc : 0 < c.tempo_c.toInt) :
    s.TEMPO.toInt ≤ s'.TEMPO.toInt ∧ ∀ r, c = .REL r → r.tempo_c.toInt < s'.TEMPO.toInt := by
  cases ha with
  | responde =>
    have hsoma := mais_um_toInt h0 h0'
    refine ⟨?_, fun r hr => by cases hr⟩
    simp only
    omega
  | espera => exact ⟨le_refl _, fun r hr => by cases hr⟩
  | libera r =>
    have hmax : (rel1Svc s r).1.TEMPO.toInt = max s.TEMPO.toInt r.tempo_c.toInt + 1 :=
      maximo_toInt h0 (le_of_lt hc) h0'
    refine ⟨?_, ?_⟩
    · omega
    · intro r' hr
      cases hr
      omega

/-! ## The clocks stay in order -/

/-- The turn of the server: its clock moves on, and its answers stand below it. -/
theorem Relogio.atende {s : Sistema ι} (hr : Relogio s) {k : Nat} {i : ι} {c : Chamada}
    (hk : s.chamadas[k]? = some (i, c)) {srv : Servidor ι} {t : List (Evento ι)}
    (ha : Atende s.servidor i c srv t) (h0 : 0 ≤ s.servidor.TEMPO.toInt)
    (h0' : 0 ≤ srv.TEMPO.toInt) :
    Relogio { s with
      servidor := srv
      chamadas := s.chamadas.eraseIdx k
      respostas := s.respostas ++ t.map svcSendreply } := by
  obtain ⟨hselo, hpos⟩ := hr.chamada _ (List.mem_of_getElem? hk)
  obtain ⟨hmais, hrel⟩ := atende_tempo ha h0 h0' hpos
  refine ⟨forall_eraseIdx hr.chamada k, ?_, ?_, ?_, ?_⟩
  · intro x hx r hxr
    have hantes := hr.pedido x (List.mem_of_mem_eraseIdx hx) r hxr
    exact hantes.imp_right fun hle => le_trans hle hmais
  · intro j hj
    exact (hr.livre j hj).imp_right fun hlt => lt_of_lt_of_le hlt hmais
  · intro x hx rep hrep
    rcases List.mem_append.mp hx with hx | hx
    · exact (hr.reply x hx rep hrep).imp_right fun hle => le_trans hle hmais
    · obtain ⟨e, he, rfl⟩ := List.mem_map.mp hx
      cases e with
      | req j r rep' =>
        obtain ⟨-, -, hs, hs'⟩ := atende_reply ha he
        unfold svcSendreply at hrep
        simp only at hrep
        split at hrep
        · cases hrep
          rw [hs, ← hs']
          exact ⟨h0', le_refl _⟩
        · cases hrep
      | rel j r n => cases hrep
  · intro x hx n hn
    rcases List.mem_append.mp hx with hx | hx
    · exact lt_of_lt_of_le (hr.result x hx n hn) hmais
    · obtain ⟨e, he, rfl⟩ := List.mem_map.mp hx
      cases e with
      | req j r rep =>
        unfold svcSendreply at hn
        simp only at hn
        split at hn
        · cases hn
        · cases hn
      | rel j r n' =>
        obtain ⟨rfl, rfl⟩ := atende_result ha he
        have hatras := hrel r rfl
        rw [show r.tempo_c = (s.clientes j).TEMPO from hselo] at hatras
        exact hatras

variable [DecidableEq ι]

/-- A client whose clock moves only while it has no call. -/
theorem Relogio.muda {s : Sistema ι} (h : Relogio s) {i : ι} {c : Cliente}
    (hc : c.TEMPO = (s.clientes i).TEMPO ∨
      (∀ x ∈ s.chamadas, x.1 ≠ i) ∧ ∀ x ∈ s.respostas, x.1 ≠ i)
    (hl : c.fase = .pede → c.TEMPO.toInt = 0 ∨ c.TEMPO.toInt < s.servidor.TEMPO.toInt) :
    Relogio { s with clientes := Function.update s.clientes i c } := by
  have hmesmo : ∀ j, c.TEMPO = (s.clientes i).TEMPO ∨ j ≠ i →
      (Function.update s.clientes i c j).TEMPO = (s.clientes j).TEMPO := by
    intro j hor
    by_cases hj : j = i
    · subst hj
      rw [Function.update_self]
      exact hor.resolve_right fun hne => hne rfl
    · rw [Function.update_of_ne hj]
  refine ⟨?_, h.pedido, ?_, h.reply, ?_⟩
  · intro x hx
    simp only [hmesmo x.1 (hc.imp_right fun hfora => hfora.1 x hx)]
    exact h.chamada x hx
  · intro j hj
    by_cases hji : j = i
    · subst hji
      simp only [Function.update_self] at hj ⊢
      exact hl hj
    · simp only [Function.update_of_ne hji] at hj ⊢
      exact h.livre j hj
  · intro x hx n hn
    simp only [hmesmo x.1 (hc.imp_right fun hfora => hfora.2 x hx)]
    exact h.result x hx n hn

/-- A client with no call goes one step on and makes its call, or fails to. -/
theorem Relogio.chama {pid : ι → Int32} {s : Sistema ι} (hr : Relogio s) (h : Ordeiro pid s)
    {i : ι} (hf : limite (s.clientes i).fase = 0) {c : Cliente} {o : Option Chamada}
    (h0 : 0 ≤ (s.clientes i).TEMPO.toInt) (h0' : 0 ≤ c.TEMPO.toInt) (hc : Chama (s.clientes i) c o)
    (hreq : ∀ r, o = some (.REQ r) → (s.clientes i).fase = .pede) :
    Relogio (s.comCliente i (c, o)) := by
  obtain ⟨htempo, hpede, ho⟩ := hc
  have hsoma : c.TEMPO.toInt = (s.clientes i).TEMPO.toInt + 1 := by
    rw [htempo] at h0' ⊢
    exact mais_um_toInt h0 h0'
  have hmuda : Relogio { s with clientes := Function.update s.clientes i c } :=
    hr.muda (Or.inr (h.sem_chamada hf)) fun hfase => absurd hfase hpede
  cases o with
  | none =>
    rw [comCliente_none]
    exact hmuda
  | some q =>
    have hq := ho q rfl
    refine hmuda.manda ?_ ?_ ?_
    · simp only [Function.update_self]
      exact hq
    · rw [hq, hsoma]
      omega
    · intro r hqr
      subst hqr
      have hrc : r.tempo_c = c.TEMPO := hq
      rw [hrc, hsoma]
      rcases hr.livre i (hreq r rfl) with hzero | hatras
      · left
        omega
      · right
        exact hatras

/-- A step in which no clock overflows keeps the clocks in order. -/
theorem passo_relogio {pid : ι → Int32} {s s' : Sistema ι} {a : Acao ι} {t : List (Evento ι)}
    (h : Ordeiro pid s) (hr : Relogio s) (hb : SemEstouro s) (hb' : SemEstouro s')
    (hp : Passo s a s' t) : Relogio s' := by
  have hordem := passo_ordeiro h hp
  cases hp with
  | pede i hf r hreq =>
    have hnovo := hb'.cliente i
    unfold Sistema.comCliente at hnovo
    simp only [Function.update_self] at hnovo
    exact hr.chama h (by rw [hf]; rfl) (hb.cliente i) hnovo (req_chama hreq) fun _ _ => hf
  | devolve i hf r hrel =>
    obtain ⟨c, o⟩ := r
    have hnovo := hb'.cliente i
    unfold Sistema.comCliente at hnovo
    simp only [Function.update_self] at hnovo
    refine hr.chama h (by rw [hf]; rfl) (hb.cliente i) hnovo (rel_chama hrel) ?_
    intro q hq
    subst hq
    cases hrel
  | atende k i c hk hl srv t ha => exact hr.atende hk ha hb.servidor hb'.servidor
  | gira i r hp => exact hr
  | chega k i r hk c hrec =>
    have hmem := List.mem_of_getElem? hk
    have hmenos : Relogio { s with respostas := s.respostas.eraseIdx k } :=
      hr.menos fun x hx => List.mem_of_mem_eraseIdx hx
    cases hrec with
    | entra rep hf =>
      -- the client has come out of its call, so its clock may move
      have hfora := hordem.sem_chamada (i := i) (by simp only [Function.update_self]; rfl)
      exact hmenos.muda (Or.inr hfora) fun hpede => by cases hpede
    | volta n hf =>
      have hatras := hr.result (i, .result n) hmem n rfl
      exact hmenos.muda (Or.inl rfl) fun _ => Or.inr hatras
    | falha hf => exact hmenos.muda (Or.inl rfl) fun hpede => by cases hpede
    | ignora => exact hmenos.muda (Or.inl rfl) (hr.livre i)
  | desiste i hf => exact hr.muda (Or.inl rfl) fun hpede => by cases hpede

/-! ## The stamps of the replies -/

/-- What a step does to the clock of the server: a reply or a release moves it
on, and nothing else touches it. -/
theorem passo_eventos {s s' : Sistema ι} {a : Acao ι} {t : List (Evento ι)} (hr : Relogio s)
    (hb : SemEstouro s) (hb' : SemEstouro s') (hp : Passo s a s' t) :
    (t = [] ∧ s'.servidor.TEMPO = s.servidor.TEMPO) ∨
      (∃ i r rep, t = [.req i r rep] ∧ (i, .REQ r) ∈ s.chamadas ∧
        rep.tempo_s = s'.servidor.TEMPO ∧
        s'.servidor.TEMPO.toInt = s.servidor.TEMPO.toInt + 1) ∨
      ∃ i r, t = [.rel i r 1] ∧ (i, .REL r) ∈ s.chamadas ∧
        s.servidor.TEMPO.toInt ≤ s'.servidor.TEMPO.toInt ∧
        r.tempo_c.toInt < s'.servidor.TEMPO.toInt := by
  cases hp with
  | atende k i c hk hl srv t ha =>
    have hmem := List.mem_of_getElem? hk
    have hpos := (hr.chamada _ hmem).2
    obtain ⟨hmais, hrel⟩ := atende_tempo ha hb.servidor hb'.servidor hpos
    cases ha with
    | responde r =>
      exact Or.inr (Or.inl ⟨i, r, _, rfl, hmem, rfl, mais_um_toInt hb.servidor hb'.servidor⟩)
    | espera => exact Or.inl ⟨rfl, rfl⟩
    | libera r => exact Or.inr (Or.inr ⟨i, r, rfl, hmem, hmais, hrel r rfl⟩)
  | pede | devolve | gira | chega | desiste => exact Or.inl ⟨rfl, rfl⟩

theorem passo_historia {s s' : Sistema ι} {a : Acao ι} {t e : List (Evento ι)}
    (hr : Relogio s) (hb : SemEstouro s) (hb' : SemEstouro s') (h : Historia s t)
    (hp : Passo s a s' e) : Historia s' (t ++ e) := by
  have htem := fun j => passo_tem hp (j := j)
  have h0 := hb.servidor
  rcases passo_eventos hr hb hb' hp with ⟨rfl, hfica⟩ |
    ⟨i, r, rep, rfl, hmem, hselo, hsoma⟩ | ⟨i, r, rfl, hmem, hmais, hatras⟩
  · rw [List.append_nil]
    refine ⟨?_, ?_, h.ordem⟩
    · intro hnada
      obtain ⟨hzero, hlivre⟩ := h.comeco hnada
      refine ⟨hfica ▸ hzero, fun j hj => ?_⟩
      rcases htem j hj with hj | ⟨r, rep, hreq⟩
      · exact hlivre j hj
      · cases hreq
    · rw [hfica]
      exact h.teto
  · have hnovo : selos (t ++ [.req i r rep]) = selos t ++ [rep.tempo_s] := selos_append _ _
    refine ⟨?_, ?_, ?_⟩
    · intro hnada
      simp [hnovo] at hnada
    · intro x hx
      rw [hnovo] at hx
      rcases List.mem_append.mp hx with hx | hx
      · have hteto := h.teto x hx
        omega
      · rw [List.mem_singleton.mp hx, hselo]
        omega
    · rw [hnovo, List.pairwise_append]
      refine ⟨h.ordem, List.pairwise_singleton _ _, ?_⟩
      intro x hx y hy
      have hteto := (h.teto x hx).2
      rw [List.mem_singleton.mp hy, hselo, Int64.lt_iff_toInt_lt]
      omega
  · have hmesmo : selos (t ++ [.rel i r 1]) = selos t := by
      rw [selos_append]
      exact List.append_nil _
    refine ⟨?_, ?_, ?_⟩
    · intro hnada
      rw [hmesmo] at hnada
      exact absurd (Or.inr (Or.inr ⟨r, hmem⟩)) ((h.comeco hnada).2 i)
    · intro x hx
      have hteto := h.teto x (hmesmo ▸ hx)
      omega
    · rw [hmesmo]
      exact h.ordem

theorem sistema_relogio {pid : ι → Int32} {as : List (Acao ι)} {s : Sistema ι}
    {t : List (Evento ι)} (hb : (sistema ι).Always SemEstouro (Sistema.inicio pid) as)
    (hr : (sistema ι).run (Sistema.inicio pid) as = some (s, t)) :
    Ordeiro pid s ∧ Relogio s ∧ Historia s t := by
  apply run_invariant_always _ _ hb hr
  · exact ⟨inicio_ordeiro pid, inicio_relogio pid, inicio_historia pid⟩
  · rintro u t a v e ⟨hu, hrel, hhist⟩ hbu hbv hs
    have hp := passo_cases hu.toHonesto hs
    exact ⟨passo_ordeiro hu hp, passo_relogio hu hrel hbu hbv hp,
      passo_historia hrel hbu hbv hhist hp⟩

/-! ## The clock condition -/

/-- A reply that comes to a client leaves the clock of the client ahead of its
stamp. -/
def ClienteAdiante (s s' : Sistema ι) : Acao ι → Prop
  | .chega k => ∀ i rep, s.respostas[k]? = some (i, .reply rep) →
      (s.clientes i).fase = .esperaReply → rep.tempo_s < (s'.clientes i).TEMPO
  | _ => True

theorem passo_clienteAdiante {s s' : Sistema ι} {a : Acao ι} {t : List (Evento ι)} (hr : Relogio s)
    (hb : SemEstouro s) (hb' : SemEstouro s') (hs : s.passo a = some (s', t)) :
    ClienteAdiante s s' a := by
  cases a with
  | chega k =>
    intro i rep hk hf
    have hrep := (hr.reply _ (List.mem_of_getElem? hk) rep rfl).1
    have hnovo := hb'.cliente i
    unfold Sistema.passo at hs
    simp only [hk, Option.some.injEq, Prod.mk.injEq] at hs
    obtain ⟨rfl, -⟩ := hs
    unfold Sistema.comCliente at hnovo ⊢
    simp only [Function.update_self, Cliente.recebe, hf, if_true] at hnovo ⊢
    rw [Int64.lt_iff_toInt_lt, maximo_toInt (hb.cliente i) hrep hnovo]
    omega
  | pede | devolve | atende | gira | desiste => trivial

/-- The clock condition at each step of a run in which no clock overflows. A
reply is ahead of its call exactly when the server has sent a reply before. -/
theorem replies_are_ahead_of_their_calls_iff_one_was_sent_before {pid : ι → Int32}
    {as : List (Acao ι)} {a : Acao ι} {s s' : Sistema ι} {t e : List (Evento ι)}
    (hb : (sistema ι).Always SemEstouro (Sistema.inicio pid) (as ++ [a]))
    (hr : (sistema ι).run (Sistema.inicio pid) as = some (s, t))
    (hs : (sistema ι).step s a = some (s', e)) :
    (∀ i r rep, .req i r rep ∈ e → (r.tempo_c < rep.tempo_s ↔ selos t ≠ [])) ∧
      ClienteAdiante s s' a ∧
      (∀ i r n, .rel i r n ∈ e → r.tempo_c < s'.servidor.TEMPO) ∧
      (selos (t ++ e)).Pairwise (· < ·) := by
  have hr' := run_snoc.mpr ⟨s, t, e, hr, hs, rfl⟩
  have hbs := always_last (always_front hb) hr
  have hbs' := always_last hb hr'
  obtain ⟨hordem, hrel, hhist⟩ := sistema_relogio (always_front hb) hr
  have hdepois := (sistema_relogio hb hr').2.2
  have hp := passo_cases hordem.toHonesto hs
  have h0 := hbs.servidor
  refine ⟨?_, passo_clienteAdiante hrel hbs hbs' hs, ?_, hdepois.ordem⟩
  · intro i r rep hreq
    rcases passo_eventos hrel hbs hbs' hp with ⟨rfl, -⟩ |
      ⟨j, q, rep', rfl, hmem, hselo, hsoma⟩ | ⟨j, q, rfl, -⟩
    · cases hreq
    · simp only [List.mem_singleton, Evento.req.injEq] at hreq
      obtain ⟨rfl, rfl, rfl⟩ := hreq
      have hpos : 0 < r.tempo_c.toInt := (hrel.chamada _ hmem).2
      rw [Int64.lt_iff_toInt_lt, hselo, hsoma]
      constructor
      · intro hlt hnada
        have hzero := (hhist.comeco hnada).1
        omega
      · intro hantes
        obtain ⟨x, hx⟩ := List.exists_mem_of_ne_nil _ hantes
        have hteto := hhist.teto x hx
        rcases hrel.pedido _ hmem r rfl with hum | hmenor
        · omega
        · omega
    · simp at hreq
  · intro i r n hrelease
    rcases passo_eventos hrel hbs hbs' hp with ⟨rfl, -⟩ |
      ⟨j, q, rep', rfl, -⟩ | ⟨j, q, rfl, -, -, hatras⟩
    · cases hrelease
    · simp at hrelease
    · simp only [List.mem_singleton, Evento.rel.injEq] at hrelease
      obtain ⟨rfl, rfl, -⟩ := hrelease
      exact Int64.lt_iff_toInt_lt.mpr hatras

/-- The second client calls after the first has given the token back. -/
theorem the_second_reply_is_ahead_of_its_call : ∃ s t s' e,
    (sistema (Fin 2)).run (Sistema.inicio doisPids)
        [.pede 0, .atende 0, .chega 0, .devolve 0, .atende 0, .chega 0, .pede 1] = some (s, t) ∧
      (sistema (Fin 2)).step s (.atende 0) = some (s', e) ∧
      ∃ r rep, .req 1 r rep ∈ e ∧ r.tempo_c < rep.tempo_s := by
  obtain ⟨s, t, h, hantes, hstep⟩ : ∃ s t, (sistema (Fin 2)).run (Sistema.inicio doisPids)
      [.pede 0, .atende 0, .chega 0, .devolve 0, .atende 0, .chega 0, .pede 1] = some (s, t) ∧
      selos t ≠ [] ∧ ((sistema (Fin 2)).step s (.atende 0)).any (fun p => p.2 =
        [.req 1 { pid_c := 101, tempo_c := 1 }
          { pid_c := 101, tempo_s := 5, recurso := 2 }]) = true := exists_run (by decide)
  obtain ⟨⟨s', e⟩, hs, he⟩ := (Option.any_eq_true _ _).mp hstep
  have he := of_decide_eq_true he
  have hcond := replies_are_ahead_of_their_calls_iff_one_was_sent_before
    (always_of_check (by decide)) h hs
  have hmem := List.mem_of_mem_head? (congrArg List.head? he)
  exact ⟨s, t, s', e, h, hs, _, _, hmem, (hcond.1 _ _ _ hmem).mpr hantes⟩

/-- The first call of all carries stamp 1, and so does its reply. -/
theorem the_first_reply_is_level_with_its_call : Function.Injective doisPids ∧ ∃ s t r rep,
    (sistema (Fin 2)).Always SemEstouro (Sistema.inicio doisPids) [.pede 0, .atende 0] ∧
      (sistema (Fin 2)).run (Sistema.inicio doisPids) [.pede 0, .atende 0] = some (s, t) ∧
      .req 0 r rep ∈ t ∧ ¬ r.tempo_c < rep.tempo_s := by
  obtain ⟨s, t, h, hreq⟩ : ∃ s t, (sistema (Fin 2)).run (Sistema.inicio doisPids)
      [.pede 0, .atende 0] = some (s, t) ∧ .req 0 { pid_c := 100, tempo_c := 1 }
        { pid_c := 100, tempo_s := 1, recurso := -1 } ∈ t := exists_run (by decide)
  exact ⟨doisPids_injective, s, t, _, _, always_of_check (by decide), h, hreq, by decide⟩

end lab07
