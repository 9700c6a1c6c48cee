-- When the system of LAB07-SD/backup stops. A client that has not ended is in
-- its call for as long as the call or its answer is somewhere, so the system
-- goes on until all clients have ended, or until a call spins in the server.
-- From there on the clients can only give up, one after the other.
import Mathlib.Algebra.Order.BigOperators.Group.Finset
import ExclusaoMutua.Lab07.Espera

open fila in_flight machine

namespace lab07

variable {ι : Type}

/-! ## The calls of a client -/

/-- The phase of a client that is in the call. -/
def Chamada.fase : Chamada → Fase
  | .REQ _ => .esperaReply
  | .REL _ => .esperaResult

/-- The phase of a client that waits for the answer. Only `req_1_svc` gives a
result that may not go out. -/
def Resposta.fase : Resposta → Fase
  | .reply _ => .esperaReply
  | .result _ => .esperaResult
  | .null => .esperaReply

/-- Whether a client in the phase `g` is in a call of the phase `f`, as a
number. -/
def Fase.aberta : Fase → Fase → Nat
  | .esperaReply, .esperaReply => 1
  | .esperaResult, .esperaResult => 1
  | _, _ => 0

theorem fase_of_aberta {g f : Fase} (h : 0 < g.aberta f) : g = f := by
  unfold Fase.aberta at h
  split at h
  · rfl
  · rfl
  · cases h

/-- An answer ends the call that it is for. -/
theorem recebe_aberta {c : Cliente} {r : Resposta} (h : c.fase = r.fase) (f : Fase) :
    (c.recebe r).fase.aberta f = 0 := by
  unfold Cliente.recebe
  cases r with
  | reply | result | null =>
    have hf : c.fase = _ := h
    simp [hf, Resposta.fase, Fase.aberta]

theorem recebe_fim {c : Cliente} (h : c.fase = .fim) (r : Resposta) : (c.recebe r).fase = .fim := by
  unfold Cliente.recebe
  cases r with
  | reply | result | null => simp [h]

variable [DecidableEq ι]

def daFase (i : ι) (f : Fase) (x : ι × Fase) : Bool := x = (i, f)

/-- The calls of client `i` of the phase `f` that are not yet over. -/
def Sistema.emCurso (s : Sistema ι) (i : ι) (f : Fase) : Nat :=
  s.chamadas.countP (fun x => daFase i f (x.1, x.2.fase)) +
    s.servidor.atual.toList.countP (fun x => daFase i f (x.1, .esperaReply)) +
    s.respostas.countP fun x => daFase i f (x.1, x.2.fase)

/-- Each client that has not ended has the call somewhere that it is in, and no
other. -/
def Emparelhado (s : Sistema ι) : Prop :=
  ∀ i, (s.clientes i).fase ≠ .fim → ∀ f, s.emCurso i f = (s.clientes i).fase.aberta f

theorem inicio_emparelhado (pid : ι → Int32) : Emparelhado (Sistema.inicio pid) := by
  intro i _ f
  cases f with
  | pede | esperaReply | regiao | esperaResult | fim => rfl

/-! ## One step -/

/-- What the server makes of a call is in the same phase. -/
theorem atende_emCurso {s s' : Servidor ι} {i : ι} {c : Chamada} {t : List (Evento ι)}
    (ha : Atende s i c s' t) (hl : s.atual = none) (j : ι) (f : Fase) :
    s'.atual.toList.countP (fun x => daFase j f (x.1, .esperaReply)) +
        (t.map svcSendreply).countP (fun x => daFase j f (x.1, x.2.fase)) =
      (daFase j f (i, c.fase)).toNat := by
  cases ha with
  | responde r aux resto hh hp =>
    by_cases hx :
        xdrReplyOut { pid_c := r.pid_c, recurso := s.TOKEN, tempo_s := s.TEMPO + 1 } = true
    · simp [svcSendreply, hx, List.countP_singleton, Chamada.fase, Resposta.fase, Bool.toNat]
    · simp [svcSendreply, hx, List.countP_singleton, Chamada.fase, Resposta.fase, Bool.toNat]
  | espera r aux resto hh hp => simp [List.countP_singleton, Chamada.fase, Bool.toNat]
  | libera r =>
    simp [rel1Svc, hl, svcSendreply, List.countP_singleton, Chamada.fase, Resposta.fase, Bool.toNat]

theorem daFase_outro {i j : ι} (h : j ≠ i) (f g : Fase) : daFase j f (i, g) = false := by
  unfold daFase
  simp [Ne.symm h]

theorem daFase_self (i : ι) (c : Chamada) (f : Fase) :
    (daFase i f (i, c.fase)).toNat = c.fase.aberta f := by
  cases c with
  | REQ | REL =>
    cases f with
    | pede | esperaReply | regiao | esperaResult | fim => simp [daFase, Chamada.fase, Fase.aberta]

/-- A step of client `i` alone. -/
theorem emparelhado_update {s s' : Sistema ι} (h : Emparelhado s) {i : ι} {c : Cliente}
    (hs : s'.clientes = Function.update s.clientes i c)
    (hi : c.fase ≠ .fim → ∀ f, s'.emCurso i f = c.fase.aberta f)
    (hj : ∀ j, j ≠ i → ∀ f, s'.emCurso j f = s.emCurso j f) : Emparelhado s' := by
  intro j hfim f
  rw [hs] at hfim ⊢
  by_cases hji : j = i
  · subst hji
    rw [Function.update_self] at hfim ⊢
    exact hi hfim f
  · rw [Function.update_of_ne hji] at hfim ⊢
    rw [hj j hji, h j hfim f]

/-- A client out of its calls that makes one, or ends. -/
theorem emparelhado_chama {s : Sistema ι} (h : Emparelhado s) {i : ι}
    (hf : ∀ f, s.emCurso i f = 0) {r : Cliente × Option Chamada}
    (hr : (r.1.fase = .fim ∧ r.2 = none) ∨ ∃ c, r.2 = some c ∧ r.1.fase = c.fase) :
    Emparelhado (s.comCliente i r) := by
  obtain ⟨c, o⟩ := r
  dsimp only at hr
  rcases hr with ⟨hfim, rfl⟩ | ⟨d, rfl, hd⟩
  · rw [comCliente_none]
    exact emparelhado_update h rfl (fun hc => absurd hfim hc) fun _ _ _ => rfl
  · have hmais : ∀ j f, (s.comCliente i (c, some d)).emCurso j f =
        s.emCurso j f + (daFase j f (i, d.fase)).toNat := by
      intro j f
      have hum : [(i, d)].countP (fun x => daFase j f (x.1, x.2.fase)) =
          (daFase j f (i, d.fase)).toNat := by
        rw [List.countP_singleton]
        cases daFase j f (i, d.fase) with
        | true | false => rfl
      unfold Sistema.emCurso Sistema.comCliente
      simp only [Option.toList_some, List.map_cons, List.map_nil, List.countP_append, hum]
      omega
    refine emparelhado_update h rfl (fun _ f => ?_) fun j hj f => ?_
    · rw [hmais, hf, hd, daFase_self, Nat.zero_add]
    · rw [hmais, daFase_outro hj]
      rfl

/-- An answer comes to a client that waits for it, or that has ended. -/
theorem Emparelhado.resposta {s : Sistema ι} (h : Emparelhado s) {k : Nat} {i : ι} {r : Resposta}
    (hk : s.respostas[k]? = some (i, r)) :
    (s.clientes i).fase = r.fase ∨ (s.clientes i).fase = .fim := by
  by_cases hfim : (s.clientes i).fase = .fim
  · exact Or.inr hfim
  · have hum : 0 < s.respostas.countP fun x => daFase i r.fase (x.1, x.2.fase) :=
      List.countP_pos_iff.mpr ⟨_, List.mem_of_getElem? hk, by simp [daFase]⟩
    have hi := h i hfim r.fase
    unfold Sistema.emCurso at hi
    exact Or.inl (fase_of_aberta (by omega))

/-- `chega`, with what the client makes of the answer. -/
theorem passo_chega {s s' : Sistema ι} {k : Nat} {t : List (Evento ι)}
    (hs : s.passo (.chega k) = some (s', t)) : ∃ i r, s.respostas[k]? = some (i, r) ∧
      s' = { s with
        clientes := Function.update s.clientes i ((s.clientes i).recebe r)
        respostas := s.respostas.eraseIdx k } := by
  unfold Sistema.passo at hs
  dsimp only at hs
  split at hs
  · cases hs
  · rename_i i r hk
    rw [comCliente_none, Option.some.injEq, Prod.mk.injEq] at hs
    exact ⟨i, r, hk, hs.1.symm⟩

theorem chega_emparelhado {s s' : Sistema ι} (h : Emparelhado s) {k : Nat} {t : List (Evento ι)}
    (hs : s.passo (.chega k) = some (s', t)) : Emparelhado s' := by
  obtain ⟨i, r, hk, rfl⟩ := passo_chega hs
  have hmenos : ∀ j f, Sistema.emCurso { s with
        clientes := Function.update s.clientes i ((s.clientes i).recebe r)
        respostas := s.respostas.eraseIdx k } j f + (daFase j f (i, r.fase)).toNat =
      s.emCurso j f := by
    intro j f
    have hum := countP_eraseIdx_add (p := fun x => daFase j f (x.1, x.2.fase)) hk
    unfold Sistema.emCurso
    dsimp only at hum ⊢
    omega
  refine emparelhado_update h rfl (fun hfim f => ?_) fun j hj f => ?_
  · have hvivo : (s.clientes i).fase ≠ .fim := fun hf => hfim (recebe_fim hf r)
    have hfase := (h.resposta hk).resolve_right hvivo
    have hi := hmenos i f
    rw [h i hvivo, hfase] at hi
    rw [recebe_aberta hfase]
    cases r with
    | reply | result | null =>
      cases f with
      | pede | esperaReply | regiao | esperaResult | fim =>
        simp [daFase, Resposta.fase, Fase.aberta] at hi ⊢
        omega
  · rw [← hmenos j f, daFase_outro hj]
    rfl

theorem passo_emparelhado {pid : ι → Int32} {s s' : Sistema ι} {a : Acao ι} {t : List (Evento ι)}
    (hh : Honesto pid s) (h : Emparelhado s) (hs : s.passo a = some (s', t)) : Emparelhado s' := by
  have hp := passo_cases hh hs
  cases hp with
  | pede i hf r hr =>
    obtain ⟨c, o⟩ := r
    apply emparelhado_chama h
    · intro f
      rw [h i (by simp [hf]), hf]
      rfl
    · cases hr with
      | chama r hr hx => exact Or.inr ⟨_, rfl, rfl⟩
      | falha => exact Or.inl ⟨rfl, rfl⟩
  | devolve i hf r hr =>
    obtain ⟨c, o⟩ := r
    apply emparelhado_chama h
    · intro f
      rw [h i (by simp [hf]), hf]
      rfl
    · cases hr with
      | chama r hr => exact Or.inr ⟨_, rfl, rfl⟩
      | falha => exact Or.inl ⟨rfl, rfl⟩
  | atende k i c hk hl srv t ha =>
    intro j hfim f
    rw [← h j hfim f]
    have hum := countP_eraseIdx_add (p := fun x => daFase j f (x.1, x.2.fase)) hk
    have hmais := atende_emCurso ha hl j f
    unfold Sistema.emCurso
    rw [hl, Option.toList_none, List.countP_nil, List.countP_append]
    dsimp only at hum ⊢
    omega
  | gira i r hp => exact h
  | chega k => exact chega_emparelhado h hs
  | desiste i hf =>
    exact emparelhado_update h rfl (fun hfim => absurd rfl hfim) fun _ _ _ => rfl

theorem sistema_emparelhado {pid : ι → Int32} {as : List (Acao ι)} {s : Sistema ι}
    {t : List (Evento ι)} (hr : (sistema ι).run (Sistema.inicio pid) as = some (s, t)) :
    Ordeiro pid s ∧ Emparelhado s := by
  apply run_state_invariant (I := fun s => Ordeiro pid s ∧ Emparelhado s) _ _ hr
  · exact ⟨inicio_ordeiro pid, inicio_emparelhado pid⟩
  · rintro u a v e ⟨ho, hu⟩ hs
    exact ⟨passo_ordeiro ho (passo_cases ho.toHonesto hs), passo_emparelhado ho.toHonesto hu hs⟩

/-! ## Where the system stands still -/

/-- A client or `svc_run` goes on. A turn of the loop of `req_1_svc` brings
nothing on, and a client that gives up its call ends. -/
def Acao.Avanca : Acao ι → Prop
  | .gira => False
  | .desiste _ => False
  | _ => True

omit [DecidableEq ι] in
theorem aberta_self {f : Fase} (h : f = .esperaReply ∨ f = .esperaResult) : f.aberta f = 1 := by
  rcases h with rfl | rfl
  · rfl
  · rfl

/-- With no call in the server and nothing in flight, the clients in a call have
ended. -/
theorem Emparelhado.fim {s : Sistema ι} (h : Emparelhado s) (hl : s.servidor.atual = none)
    (hc : s.chamadas = []) (hr : s.respostas = []) {i : ι} (hpede : (s.clientes i).fase ≠ .pede)
    (hregiao : (s.clientes i).fase ≠ .regiao) : (s.clientes i).fase = .fim := by
  by_contra hfim
  have hum : (s.clientes i).fase.aberta (s.clientes i).fase = 1 := by
    apply aberta_self
    cases hf : (s.clientes i).fase with
    | pede => exact absurd hf hpede
    | esperaReply => exact Or.inl rfl
    | regiao => exact absurd hf hregiao
    | esperaResult => exact Or.inr rfl
    | fim => exact absurd hf hfim
  rw [← h i hfim] at hum
  unfold Sistema.emCurso at hum
  simp [hl, hc, hr] at hum

theorem fase_ne_pede {s : Sistema ι} {i : ι} (h : s.passo (.pede i) = none) :
    (s.clientes i).fase ≠ .pede := by
  intro hf
  unfold Sistema.passo at h
  simp [hf] at h

theorem fase_ne_regiao {s : Sistema ι} {i : ι} (h : s.passo (.devolve i) = none) :
    (s.clientes i).fase ≠ .regiao := by
  intro hf
  unfold Sistema.passo at h
  simp [hf] at h

theorem respostas_nil {s : Sistema ι} (h : s.passo (.chega 0) = none) : s.respostas = [] := by
  by_contra hne
  obtain ⟨x, xs, hx⟩ := List.exists_cons_of_ne_nil hne
  unfold Sistema.passo at h
  simp [hx] at h

/-- A server that is free takes any call. -/
theorem chamadas_nil {s : Sistema ι} (hv : s.servidor.vivo = true) (hl : s.servidor.atual = none)
    (h : s.passo (.atende 0) = none) : s.chamadas = [] := by
  by_contra hne
  obtain ⟨x, xs, hx⟩ := List.exists_cons_of_ne_nil hne
  unfold Sistema.passo at h
  simp [hx, hl, hv] at h

/-- A server in which a call spins takes no other. -/
theorem atende_none {s : Sistema ι} (hl : s.servidor.atual ≠ none) (k : Nat) :
    s.passo (.atende k) = none := by
  unfold Sistema.passo
  cases hk : s.chamadas[k]? with
  | none => simp [hk]
  | some x => simp [hk, hl]

/-- In every reachable state some client or the server goes on, unless all
clients have ended, or a call spins in the server and each client that has not
ended waits in its own. -/
theorem the_system_goes_on_until_all_have_ended_or_a_call_spins {pid : ι → Int32}
    {as : List (Acao ι)} {s : Sistema ι} {t : List (Evento ι)}
    (hr : (sistema ι).run (Sistema.inicio pid) as = some (s, t)) :
    (∀ a : Acao ι, a.Avanca → (sistema ι).step s a = none) ↔ s.respostas = [] ∧
      ((s.servidor.atual = none ∧ s.chamadas = [] ∧ ∀ i, (s.clientes i).fase = .fim) ∨
        (s.servidor.atual ≠ none ∧
          ∀ i, (s.clientes i).fase ≠ .pede ∧ (s.clientes i).fase ≠ .regiao)) := by
  obtain ⟨ho, hs⟩ := sistema_emparelhado hr
  constructor
  · intro hpara
    have hresp : s.respostas = [] := respostas_nil (hpara (.chega 0) trivial)
    have hfora : ∀ i, (s.clientes i).fase ≠ .pede ∧ (s.clientes i).fase ≠ .regiao := fun i =>
      ⟨fase_ne_pede (hpara (.pede i) trivial), fase_ne_regiao (hpara (.devolve i) trivial)⟩
    refine ⟨hresp, ?_⟩
    by_cases hl : s.servidor.atual = none
    · have hcham : s.chamadas = [] := chamadas_nil ho.vivo hl (hpara (.atende 0) trivial)
      exact Or.inl ⟨hl, hcham, fun i => hs.fim hl hcham hresp (hfora i).1 (hfora i).2⟩
    · exact Or.inr ⟨hl, hfora⟩
  · rintro ⟨hresp, hcaso⟩ a ha
    have hfase : ∀ i, (s.clientes i).fase ≠ .pede ∧ (s.clientes i).fase ≠ .regiao := by
      rcases hcaso with ⟨-, -, hfim⟩ | ⟨-, hf⟩
      · intro i
        simp [hfim i]
      · exact hf
    cases a with
    | pede i | devolve i =>
      unfold sistema Sistema.passo
      simp [hfase i]
    | atende k =>
      rcases hcaso with ⟨-, hcham, -⟩ | ⟨hl, -⟩
      · unfold sistema Sistema.passo
        simp [hcham]
      · exact atende_none hl k
    | chega k =>
      unfold sistema Sistema.passo
      simp [hresp]
    | gira | desiste => exact ha.elim

/-- Client `i` has the token when the call of `j` comes. -/
def presos (i j : ι) : List (Acao ι) :=
  [.pede i, .atende 0, .chega 0, .pede j, .atende 0, .gira, .devolve i]

theorem two_clients_stand_still_behind_a_call_that_spins : ∃ s t,
    (sistema (Fin 2)).run (Sistema.inicio doisPids) (presos 0 1) = some (s, t) ∧
      ∀ a : Acao (Fin 2), a.Avanca → (sistema (Fin 2)).step s a = none := by
  obtain ⟨s, t, hrun, hresp, hatual, hfase⟩ : ∃ s t,
      (sistema (Fin 2)).run (Sistema.inicio doisPids) (presos 0 1) = some (s, t) ∧
        s.respostas = [] ∧ s.servidor.atual ≠ none ∧
        ∀ i, (s.clientes i).fase ≠ .pede ∧ (s.clientes i).fase ≠ .regiao := exists_run (by decide)
  exact ⟨s, t, hrun, (the_system_goes_on_until_all_have_ended_or_a_call_spins hrun).mpr
    ⟨hresp, Or.inr ⟨hatual, hfase⟩⟩⟩

/-! ## Behind a call that spins -/

/-- Any step but a turn of the loop of `req_1_svc`. -/
def Acao.semGira : Acao ι → Bool
  | .gira => false
  | _ => true

/-- The steps that a client can still take by itself. -/
def Fase.resta : Fase → Nat
  | .pede => 2
  | .esperaReply => 1
  | .regiao => 2
  | .esperaResult => 1
  | .fim => 0

theorem resta_le_two (f : Fase) : f.resta ≤ 2 := by cases f <;> decide

variable [Fintype ι]

/-- The steps that are left while the server takes no call. An answer in flight
can bring its client out of the call. -/
def Sistema.resta (s : Sistema ι) : Nat :=
  (∑ i, (s.clientes i).fase.resta) + 2 * s.respostas.length

omit [DecidableEq ι] in
theorem resta_le (s : Sistema ι) : s.resta ≤ 2 * Fintype.card ι + 2 * s.respostas.length := by
  have hsoma : ∑ i, (s.clientes i).fase.resta ≤ Fintype.card ι * 2 := by
    have hle := Finset.sum_le_card_nsmul Finset.univ (fun i => (s.clientes i).fase.resta) 2
      fun i _ => resta_le_two _
    simpa using hle
  unfold Sistema.resta
  omega

/-- While a call spins, each step takes from what is left. -/
theorem passo_resta {s s' : Sistema ι} {a : Acao ι} {t : List (Evento ι)} (hp : Passo s a s' t)
    (hl : s.servidor.atual ≠ none) : a.semGira.toNat + s'.resta ≤ s.resta := by
  have hsoma := fun i c => sum_update (fun c : Cliente => c.fase.resta) s.clientes i c
  unfold Sistema.resta
  cases hp with
  | pede i hf r hr | devolve i hf r hr =>
    obtain ⟨c, o⟩ := r
    have hi := hsoma i c
    have hum : c.fase.resta + 1 ≤ (s.clientes i).fase.resta := by
      rw [hf]
      cases hr with
      | chama | falha => simp [Fase.resta]
    unfold Sistema.comCliente Acao.semGira
    dsimp only [Bool.toNat_true] at hi ⊢
    omega
  | atende k i c hk hnone => exact absurd hnone hl
  | gira i r hp => exact (Nat.zero_add _).le
  | chega k i r hk c hr =>
    have hi := hsoma i c
    have htam := List.length_eraseIdx_add_one (List.getElem?_eq_some_iff.mp hk).1
    have hum : c.fase.resta ≤ (s.clientes i).fase.resta + 1 := by
      cases hr with
      | entra rep hf | volta n hf =>
        rw [hf]
        simp [Fase.resta]
      | falha hf => exact Nat.zero_le _
      | ignora => exact Nat.le_succ _
    unfold Acao.semGira
    dsimp only [Bool.toNat_true] at hi ⊢
    omega
  | desiste i hf =>
    have hi := hsoma i { s.clientes i with fase := .fim }
    have hum : (s.clientes i).fase.resta = 1 := by
      rcases hf with hf | hf
      · rw [hf]
        rfl
      · rw [hf]
        rfl
    have hzero : Fase.fim.resta = 0 := rfl
    unfold Acao.semGira
    dsimp only [Bool.toNat_true] at hi ⊢
    omega

omit [Fintype ι] in
/-- Behind a call that spins the clients stand still when they have all ended
and no answer is left. -/
theorem para_iff_fim {s : Sistema ι} (hl : s.servidor.atual ≠ none) :
    (∀ a : Acao ι, a.semGira = true → s.passo a = none) ↔
      s.respostas = [] ∧ ∀ i, (s.clientes i).fase = .fim := by
  constructor
  · intro hpara
    refine ⟨respostas_nil (hpara (.chega 0) rfl), fun i => ?_⟩
    have hdesiste := hpara (.desiste i) rfl
    unfold Sistema.passo at hdesiste
    cases hf : (s.clientes i).fase with
    | pede => exact absurd hf (fase_ne_pede (hpara (.pede i) rfl))
    | esperaReply | esperaResult => simp [hf] at hdesiste
    | regiao => exact absurd hf (fase_ne_regiao (hpara (.devolve i) rfl))
    | fim => rfl
  · rintro ⟨hresp, hfim⟩ a ha
    cases a with
    | pede i | devolve i | desiste i =>
      unfold Sistema.passo
      simp [hfim i]
    | atende k => exact atende_none hl k
    | chega k =>
      unfold Sistema.passo
      simp [hresp]
    | gira => cases ha

/-- From the first call that spins in the server on, no call is answered and the
server stays as it is, the clients take a bounded number of steps, and where they
stand still all of them have ended. -/
theorem a_call_that_spins_ends_every_client {pid : ι → Int32} {as : List (Acao ι)}
    {s : Sistema ι} {t : List (Evento ι)}
    (hr : (sistema ι).run (Sistema.inicio pid) as = some (s, t)) {i : ι} {r : RequestIn}
    (hs : s.servidor.atual = some (i, r)) {bs : List (Acao ι)} {u : Sistema ι}
    {e : List (Evento ι)} (hu : (sistema ι).run s bs = some (u, e)) :
    e = [] ∧ u.servidor = s.servidor ∧
      (sistema ι).count (fun _ a => a.semGira) s bs ≤
        2 * Fintype.card ι + 2 * s.respostas.length ∧
      ((∀ a : Acao ι, a.semGira = true → (sistema ι).step u a = none) ↔
        u.respostas = [] ∧ ∀ j, (u.clientes j).fase = .fim) := by
  have ho := sistema_ordeiro hr
  obtain ⟨he, hserv⟩ := preso_para_sempre ho hs hu
  have hpreso : u.servidor.atual ≠ none := by
    rw [hserv, hs]
    exact Option.some_ne_none _
  refine ⟨he, hserv, ?_, para_iff_fim hpreso⟩
  have hinv : Ordeiro pid u ∧ u.servidor.atual ≠ none ∧
      (sistema ι).count (fun _ a => a.semGira) s bs + u.resta ≤ s.resta := by
    apply run_invariant_count (I := fun u _ n => Ordeiro pid u ∧ u.servidor.atual ≠ none ∧
      n + u.resta ≤ s.resta) _ _ hu
    · exact ⟨ho, by simp [hs], (Nat.zero_add _).le⟩
    · rintro v e n a w f ⟨hv, hl, hle⟩ hstep
      have hp := passo_cases hv.toHonesto hstep
      have hum := passo_resta hp hl
      refine ⟨passo_ordeiro hv hp, ?_, by omega⟩
      cases hp with
      | atende k i c hk hnone => exact absurd hnone hl
      | pede | devolve | gira | chega | desiste => exact hl
  have hle := resta_le s
  omega

/-- Both clients give up. -/
def desistem (i j : ι) : List (Acao ι) := [.gira, .devolve i, .desiste j, .gira, .desiste i]

theorem two_clients_give_up_behind_a_call_that_spins : ∃ s t u e,
    (sistema (Fin 2)).run (Sistema.inicio doisPids)
        [.pede 0, .atende 0, .chega 0, .pede 1, .atende 0] = some (s, t) ∧
      (sistema (Fin 2)).run s (desistem 0 1) = some (u, e) ∧
      (sistema (Fin 2)).count (fun _ a => a.semGira) s (desistem 0 1) ≤ 4 ∧
      ∀ j, (u.clientes j).fase = .fim := by
  obtain ⟨s, t, hrun, hatual, hresp, hdepois⟩ : ∃ s t,
      (sistema (Fin 2)).run (Sistema.inicio doisPids)
          [.pede 0, .atende 0, .chega 0, .pede 1, .atende 0] = some (s, t) ∧
        s.servidor.atual = some (1, { pid_c := 101, tempo_c := 1 }) ∧ s.respostas = [] ∧
        (((sistema (Fin 2)).run s (desistem 0 1)).any fun p =>
          decide (∀ j, (p.1.clientes j).fase = .fim)) = true := exists_run (by decide)
  obtain ⟨u, e, hu, hfim⟩ : ∃ u e, (sistema (Fin 2)).run s (desistem 0 1) = some (u, e) ∧
      ∀ j, (u.clientes j).fase = .fim := exists_run hdepois
  obtain ⟨-, -, hle, -⟩ := a_call_that_spins_ends_every_client hrun hatual hu
  rw [hresp] at hle
  exact ⟨s, t, u, e, hrun, hu, hle, hfim⟩

end lab07
