-- The system of LAB07-SD/backup: the server, any number of clients, and the
-- calls and answers between them. The RPC layer hands over each of them once,
-- in any order, and a client may give up its call.
import Mathlib.Logic.Function.Basic
import ExclusaoMutua.Lab07.Cliente
import ExclusaoMutua.Lib.InFlight
import ExclusaoMutua.Lib.Machine

open fila in_flight machine

namespace lab07

variable {ι : Type}

/-! ## The state and the actions -/

/-- Both lists hold what is in flight, oldest first, each with its client. -/
structure Sistema (ι : Type) where
  servidor : Servidor ι
  clientes : ι → Cliente
  chamadas : List (ι × Chamada)
  respostas : List (ι × Resposta)

/-- The start, with the PIDs that `getpid` gives. -/
def Sistema.inicio (getpid : ι → Int32) : Sistema ι where
  servidor := Servidor.inicio
  clientes i := Cliente.inicio (getpid i)
  chamadas := []
  respostas := []

inductive Acao (ι : Type) where
  /-- Client `i` calls `req_1`. -/
  | pede (i : ι)
  /-- Client `i` uses the token and calls `rel_1`. -/
  | devolve (i : ι)
  /-- `svc_run` takes the call at place `k`. -/
  | atende (k : Nat)
  /-- One turn of the loop of `req_1_svc`. -/
  | gira
  /-- The answer at place `k` comes to its client. -/
  | chega (k : Nat)
  /-- `clnt_call` gives up in client `i`. -/
  | desiste (i : ι)

/-! ## What a reachable state holds -/

/-- What the calls of client `i` carry. -/
def Chamada.De (pid : ι → Int32) (i : ι) : Chamada → Prop
  | .REQ r => r.pid_c = (pid i).toInt64 ∧ xdrLong r.tempo_c = true
  | .REL _ => True

/-- What every reachable state has: each client keeps its PID and its calls
carry it, the queue is good, and a call that waits has no reason to go on. -/
structure Honesto (pid : ι → Int32) (s : Sistema ι) : Prop where
  pids : ∀ i, (s.clientes i).pid = (pid i).toInt64
  chamadas : ∀ x ∈ s.chamadas, x.2.De pid x.1
  bom : s.servidor.Bom
  vivo : s.servidor.vivo = true
  preso : ∀ i r, s.servidor.atual = some (i, r) → espera s.servidor r = some true

theorem inicio_honesto (pid : ι → Int32) : Honesto pid (Sistema.inicio pid) where
  pids _ := rfl
  chamadas x hx := by cases hx
  bom := inicio_bom
  vivo := rfl
  preso i r h := by cases h

/-! ## Who has the token -/

/-- Client `i` has the token, or it is on its way to `i`, or on its way back. -/
def Tem (s : Sistema ι) (i : ι) : Prop :=
  (s.clientes i).fase = .regiao ∨ (∃ rep, (i, .reply rep) ∈ s.respostas) ∨
    ∃ r, (i, .REL r) ∈ s.chamadas

theorem inicio_tem (pid : ι → Int32) (i : ι) : ¬ Tem (Sistema.inicio pid) i := by
  rintro (h | ⟨_, h⟩ | ⟨_, h⟩)
  · cases h
  · cases h
  · cases h

/-! ## One step -/

variable [DecidableEq ι]

def Sistema.comCliente (s : Sistema ι) (i : ι) (r : Cliente × Option Chamada) : Sistema ι :=
  { s with
    clientes := Function.update s.clientes i r.1
    chamadas := s.chamadas ++ r.2.toList.map fun c => (i, c) }

@[simp] theorem comCliente_none (s : Sistema ι) (i : ι) (c : Cliente) :
    s.comCliente i (c, none) = { s with clientes := Function.update s.clientes i c } := by
  unfold Sistema.comCliente
  simp

def Sistema.comServidor (s : Sistema ι) (r : Servidor ι × List (Evento ι)) : Sistema ι :=
  { s with servidor := r.1, respostas := s.respostas ++ r.2.map svcSendreply }

def Sistema.passo (s : Sistema ι) : Acao ι → Option (Sistema ι × List (Evento ι))
  | .pede i =>
    if (s.clientes i).fase = .pede then some (s.comCliente i (s.clientes i).req, []) else none
  | .devolve i =>
    if (s.clientes i).fase = .regiao then some (s.comCliente i (s.clientes i).rel, []) else none
  | .atende k =>
    match s.chamadas[k]? with
    | none => none
    | some (i, c) =>
      if s.servidor.vivo ∧ s.servidor.atual.isNone then
        let r := serverCent1 s.servidor i c
        some ({ s.comServidor r with chamadas := s.chamadas.eraseIdx k }, r.2)
      else none
  | .gira =>
    match s.servidor.atual with
    | none => none
    | some (i, req_in) =>
      if s.servidor.vivo then
        let r := gira s.servidor i req_in
        some (s.comServidor r, r.2)
      else none
  | .chega k =>
    match s.respostas[k]? with
    | none => none
    | some (i, r) =>
      some ({ s.comCliente i ((s.clientes i).recebe r, none) with
        respostas := s.respostas.eraseIdx k }, [])
  | .desiste i =>
    if (s.clientes i).fase = .esperaReply ∨ (s.clientes i).fase = .esperaResult then
      some (s.comCliente i ({ s.clientes i with fase := .fim }, none), [])
    else none

def sistema (ι : Type) [DecidableEq ι] : Machine (Sistema ι) (Acao ι) (Evento ι) where
  step := Sistema.passo

/-! ## What a step can do -/

/-- The steps of an honest system. -/
inductive Passo (s : Sistema ι) : Acao ι → Sistema ι → List (Evento ι) → Prop
  | pede (i : ι) (hf : (s.clientes i).fase = .pede) (r : Cliente × Option Chamada)
      (hr : Req (s.clientes i) r.1 r.2) : Passo s (.pede i) (s.comCliente i r) []
  | devolve (i : ι) (hf : (s.clientes i).fase = .regiao) (r : Cliente × Option Chamada)
      (hr : Rel (s.clientes i) r.1 r.2) : Passo s (.devolve i) (s.comCliente i r) []
  | atende (k : Nat) (i : ι) (c : Chamada) (hk : s.chamadas[k]? = some (i, c))
      (hl : s.servidor.atual = none) (srv : Servidor ι) (t : List (Evento ι))
      (ha : Atende s.servidor i c srv t) :
      Passo s (.atende k)
        { s with
          servidor := srv
          chamadas := s.chamadas.eraseIdx k
          respostas := s.respostas ++ t.map svcSendreply } t
  | gira (i : ι) (r : RequestIn) (hp : s.servidor.atual = some (i, r)) : Passo s .gira s []
  | chega (k : Nat) (i : ι) (r : Resposta) (hk : s.respostas[k]? = some (i, r)) (c : Cliente)
      (hr : Recebe (s.clientes i) r c) :
      Passo s (.chega k)
        { s with
          clientes := Function.update s.clientes i c
          respostas := s.respostas.eraseIdx k } []
  | desiste (i : ι)
      (hf : (s.clientes i).fase = .esperaReply ∨ (s.clientes i).fase = .esperaResult) :
      Passo s (.desiste i)
        { s with clientes := Function.update s.clientes i { s.clientes i with fase := .fim } } []

theorem passo_cases {pid : ι → Int32} {s s' : Sistema ι} {a : Acao ι} {t : List (Evento ι)}
    (h : Honesto pid s) (hs : s.passo a = some (s', t)) : Passo s a s' t := by
  cases a with
  | pede i =>
    unfold Sistema.passo at hs
    dsimp only at hs
    split at hs
    · rename_i hf
      simp only [Option.some.injEq, Prod.mk.injEq] at hs
      obtain ⟨rfl, rfl⟩ := hs
      exact .pede i hf _ (req_cases _)
    · cases hs
  | devolve i =>
    unfold Sistema.passo at hs
    dsimp only at hs
    split at hs
    · rename_i hf
      simp only [Option.some.injEq, Prod.mk.injEq] at hs
      obtain ⟨rfl, rfl⟩ := hs
      exact .devolve i hf _ (rel_cases _)
    · cases hs
  | atende k =>
    unfold Sistema.passo at hs
    dsimp only at hs
    rcases hk : s.chamadas[k]? with _ | ⟨i, c⟩
    · simp [hk] at hs
    · simp only [hk] at hs
      split at hs
      · rename_i hv
        unfold Sistema.comServidor at hs
        simp only [Option.some.injEq, Prod.mk.injEq] at hs
        obtain ⟨rfl, rfl⟩ := hs
        exact .atende k i c hk (Option.isNone_iff_eq_none.mp hv.2) _ _ (serverCent1_cases h.bom i c)
      · cases hs
  | gira =>
    unfold Sistema.passo at hs
    dsimp only at hs
    rcases hp : s.servidor.atual with _ | ⟨i, r⟩
    · simp [hp] at hs
    · simp only [hp] at hs
      split at hs
      · have hfica : gira s.servidor i r = (s.servidor, []) := by
          unfold gira
          simp only [h.preso i r hp]
          rw [← hp]
        rw [hfica] at hs
        simp only [Sistema.comServidor, List.map_nil, List.append_nil, Option.some.injEq,
          Prod.mk.injEq] at hs
        obtain ⟨rfl, rfl⟩ := hs
        exact .gira i r hp
      · cases hs
  | chega k =>
    unfold Sistema.passo at hs
    dsimp only at hs
    rcases hk : s.respostas[k]? with _ | ⟨i, r⟩
    · simp [hk] at hs
    · simp only [hk, Sistema.comCliente, Option.toList_none, List.map_nil, List.append_nil,
        Option.some.injEq, Prod.mk.injEq] at hs
      obtain ⟨rfl, rfl⟩ := hs
      exact .chega k i r hk _ (recebe_cases _ r)
  | desiste i =>
    simp only [Sistema.passo, Sistema.comCliente, Option.toList_none, List.map_nil,
      List.append_nil] at hs
    split at hs
    · rename_i hf
      simp only [Option.some.injEq, Prod.mk.injEq] at hs
      obtain ⟨rfl, rfl⟩ := hs
      exact .desiste i hf
    · cases hs

/-! ## Every reachable state is honest -/

theorem update_pids {pid : ι → Int32} {f : ι → Cliente} (h : ∀ j, (f j).pid = (pid j).toInt64)
    (i : ι) (c : Cliente) (hc : c.pid = (f i).pid) :
    ∀ j, (Function.update f i c j).pid = (pid j).toInt64 :=
  fun j => (update_keeps hc j).trans (h j)

theorem passo_honesto {pid : ι → Int32} {s s' : Sistema ι} {a : Acao ι} {t : List (Evento ι)}
    (h : Honesto pid s) (hp : Passo s a s' t) : Honesto pid s' := by
  obtain ⟨hpids, hcham, hbom, hvivo, hpreso⟩ := h
  cases hp with
  | pede i hf r hr =>
    obtain ⟨c, o⟩ := r
    cases hr with
    | chama r hr hx =>
      refine ⟨update_pids hpids i _ rfl, ?_, hbom, hvivo, hpreso⟩
      intro x hx'
      rcases List.mem_append.mp hx' with hx' | hx'
      · exact hcham x hx'
      · rw [List.mem_singleton.mp hx']
        unfold xdrRequestIn at hx
        simp only [Bool.and_eq_true] at hx
        exact ⟨by rw [hr]; exact hpids i, hx.2⟩
    | falha =>
      refine ⟨update_pids hpids i _ rfl, ?_, hbom, hvivo, hpreso⟩
      simpa [Sistema.comCliente] using hcham
  | devolve i hf r hr =>
    obtain ⟨c, o⟩ := r
    cases hr with
    | chama r hr =>
      refine ⟨update_pids hpids i _ rfl, ?_, hbom, hvivo, hpreso⟩
      intro x hx'
      rcases List.mem_append.mp hx' with hx' | hx'
      · exact hcham x hx'
      · rw [List.mem_singleton.mp hx']
        exact trivial
    | falha =>
      refine ⟨update_pids hpids i _ rfl, ?_, hbom, hvivo, hpreso⟩
      simpa [Sistema.comCliente] using hcham
  | atende k i c hk hl srv t ha =>
    refine ⟨hpids, forall_eraseIdx hcham k, atende_bom hbom ha, ?_, ?_⟩
    · cases ha with
      | responde | espera | libera => exact hvivo
    · intro j r hj
      cases ha with
      | responde => cases hj
      | espera r' aux resto hh hp =>
        simp only [Option.some.injEq, Prod.mk.injEq] at hj
        obtain ⟨rfl, rfl⟩ := hj
        unfold espera
        simp [hh, hp]
      | libera r' =>
        unfold rel1Svc at hj
        simp only [hl] at hj
        cases hj
  | gira i r hp => exact ⟨hpids, hcham, hbom, hvivo, hpreso⟩
  | chega k i r hk c hr =>
    refine ⟨update_pids hpids i _ ?_, hcham, hbom, hvivo, hpreso⟩
    cases hr with
    | entra | volta | falha | ignora => rfl
  | desiste i hf => exact ⟨update_pids hpids i _ rfl, hcham, hbom, hvivo, hpreso⟩

/-! ## One call at a time -/

def doCliente {β : Type} (i : ι) (x : ι × β) : Bool := x.1 = i

/-- The number of calls of client `i` that are not yet over. -/
def Sistema.pendentes (s : Sistema ι) (i : ι) : Nat :=
  s.chamadas.countP (doCliente i) + s.servidor.atual.toList.countP (doCliente i) +
    s.respostas.countP (doCliente i)

/-- The number of calls that a client in the phase `f` can have. -/
def limite (f : Fase) : Nat :=
  match f with
  | .pede => 0
  | .esperaReply => 1
  | .regiao => 0
  | .esperaResult => 1
  | .fim => 1

/-- An honest system where each client has one call at a time. -/
structure Ordeiro (pid : ι → Int32) (s : Sistema ι) : Prop extends Honesto pid s where
  limites : ∀ i, s.pendentes i ≤ limite (s.clientes i).fase

theorem inicio_ordeiro (pid : ι → Int32) : Ordeiro pid (Sistema.inicio pid) :=
  ⟨inicio_honesto pid, fun _ => Nat.zero_le _⟩

/-- What `server_cent_1` does with a call leaves one of the two: a call that
waits or an answer. -/
theorem atende_pendentes {s s' : Servidor ι} {i : ι} {c : Chamada} {t : List (Evento ι)}
    (ha : Atende s i c s' t) (hl : s.atual = none) (j : ι) :
    s'.atual.toList.countP (doCliente j) + (t.map svcSendreply).countP (doCliente j) =
      if i = j then 1 else 0 := by
  cases ha with
  | responde => simp [svcSendreply, doCliente, List.countP_singleton]
  | espera => simp [doCliente, List.countP_singleton]
  | libera => simp [rel1Svc, hl, svcSendreply, doCliente, List.countP_singleton]

/-- A step that leaves the phase of every client but `i` alone. -/
theorem limites_update {s s' : Sistema ι} (h : ∀ i, s.pendentes i ≤ limite (s.clientes i).fase)
    {i : ι} {c : Cliente} (hs : s'.clientes = Function.update s.clientes i c)
    (hi : s'.pendentes i ≤ limite c.fase) (hj : ∀ j, j ≠ i → s'.pendentes j ≤ s.pendentes j)
    (j : ι) : s'.pendentes j ≤ limite (s'.clientes j).fase := by
  rw [hs]
  by_cases hji : j = i
  · subst hji
    rw [Function.update_self]
    exact hi
  · rw [Function.update_of_ne hji]
    exact le_trans (hj j hji) (h j)

/-- A client out of its calls that makes one, or ends. -/
theorem limites_chama {s : Sistema ι} (h : ∀ i, s.pendentes i ≤ limite (s.clientes i).fase)
    {i : ι} (hf : limite (s.clientes i).fase = 0) {r : Cliente × Option Chamada}
    (hr : limite r.1.fase = 1) (j : ι) :
    (s.comCliente i r).pendentes j ≤ limite ((s.comCliente i r).clientes j).fase := by
  have hi := h i
  have hum : (r.2.toList.map fun c => (i, c)).countP (doCliente i) ≤ 1 := by
    cases r.2 with
    | none => simp
    | some c => simp [doCliente]
  have hoff : ∀ j, j ≠ i → (r.2.toList.map fun c => (i, c)).countP (doCliente j) = 0 := by
    intro j hj
    cases r.2 with
    | none => simp
    | some c => simp [doCliente, Ne.symm hj]
  refine limites_update h rfl ?_ ?_ j
  · simp only [Sistema.pendentes, Sistema.comCliente, List.countP_append] at hi ⊢
    omega
  · intro j hj
    have hnada := hoff j hj
    unfold Sistema.pendentes Sistema.comCliente
    simp only [List.countP_append]
    omega

theorem limite_le_one (f : Fase) : limite f ≤ 1 := by cases f <;> decide

theorem passo_limites {s s' : Sistema ι} {a : Acao ι} {t : List (Evento ι)}
    (h : ∀ i, s.pendentes i ≤ limite (s.clientes i).fase) (hp : Passo s a s' t) (j : ι) :
    s'.pendentes j ≤ limite (s'.clientes j).fase := by
  have hj := h j
  cases hp with
  | pede i hf r hr =>
    obtain ⟨c, o⟩ := r
    refine limites_chama h (by rw [hf]; rfl) ?_ j
    cases hr with
    | chama | falha => rfl
  | devolve i hf r hr =>
    obtain ⟨c, o⟩ := r
    refine limites_chama h (by rw [hf]; rfl) ?_ j
    cases hr with
    | chama | falha => rfl
  | atende k i c hk hl srv t ha =>
    have hmenos := countP_eraseIdx (p := doCliente j) hk
    have hmais := atende_pendentes ha hl j
    simp only [doCliente, decide_eq_true_eq] at hmenos
    simp only [Sistema.pendentes, hl, Option.toList_none, List.countP_nil, List.countP_append]
      at hj ⊢
    omega
  | gira i r hp => exact hj
  | chega k i r hk c hr =>
    have hmenos := fun j => countP_eraseIdx (p := doCliente j) hk
    have hi := h i
    have hum := limite_le_one (s.clientes i).fase
    have himenos := hmenos i
    simp only [doCliente, decide_true, if_true] at himenos
    refine limites_update h rfl ?_ ?_ j
    · unfold Sistema.pendentes at hi ⊢
      dsimp only at hi ⊢
      omega
    · intro j _
      have hjmenos := hmenos j
      unfold Sistema.pendentes
      dsimp only
      omega
  | desiste i hf =>
    refine limites_update h rfl ?_ ?_ j
    · exact le_trans (h i) (limite_le_one _)
    · exact fun j _ => le_refl _

theorem passo_ordeiro {pid : ι → Int32} {s s' : Sistema ι} {a : Acao ι} {t : List (Evento ι)}
    (h : Ordeiro pid s) (hp : Passo s a s' t) : Ordeiro pid s' :=
  ⟨passo_honesto h.toHonesto hp, passo_limites h.limites hp⟩

/-- Every state that a run reaches is in order. -/
theorem sistema_ordeiro {pid : ι → Int32} {as : List (Acao ι)} {s : Sistema ι}
    {t : List (Evento ι)} (hr : (sistema ι).run (Sistema.inicio pid) as = some (s, t)) :
    Ordeiro pid s :=
  run_state_invariant (inicio_ordeiro pid)
    (fun _ _ _ _ h hs => passo_ordeiro h (passo_cases h.toHonesto hs)) hr

/-- A client out of its calls has no call or answer anywhere. -/
theorem Ordeiro.sem_chamada {pid : ι → Int32} {s : Sistema ι} (h : Ordeiro pid s) {i : ι}
    (hf : limite (s.clientes i).fase = 0) :
    (∀ x ∈ s.chamadas, x.1 ≠ i) ∧ ∀ x ∈ s.respostas, x.1 ≠ i := by
  have hzero := Nat.le_zero.mp (hf ▸ h.limites i)
  unfold Sistema.pendentes at hzero
  simp only [Nat.add_eq_zero_iff, List.countP_eq_zero] at hzero
  obtain ⟨⟨h1, -⟩, h3⟩ := hzero
  refine ⟨?_, ?_⟩
  · intro x hx hxi
    exact h1 x hx (by simp [doCliente, hxi])
  · intro x hx hxi
    exact h3 x hx (by simp [doCliente, hxi])

/-- A client whose call is in flight is in it, and has no other call and no
answer. -/
theorem Ordeiro.uma_chamada {pid : ι → Int32} {s : Sistema ι} (h : Ordeiro pid s) {k : Nat} {i : ι}
    {c : Chamada} (hk : s.chamadas[k]? = some (i, c)) :
    (∀ x ∈ s.chamadas.eraseIdx k, x.1 ≠ i) ∧ (∀ x ∈ s.respostas, x.1 ≠ i) ∧
      (s.clientes i).fase ≠ .regiao := by
  have hmenos := countP_eraseIdx (p := doCliente i) hk
  have hi : doCliente i (i, c) = true := by simp [doCliente]
  have hlim := h.limites i
  have hum := limite_le_one (s.clientes i).fase
  unfold Sistema.pendentes at hlim
  rw [if_pos hi] at hmenos
  have h1 : (s.chamadas.eraseIdx k).countP (doCliente i) = 0 := by omega
  have h2 : s.respostas.countP (doCliente i) = 0 := by omega
  rw [List.countP_eq_zero] at h1 h2
  refine ⟨?_, ?_, ?_⟩
  · intro x hx hxi
    exact h1 x hx (by simp [doCliente, hxi])
  · intro x hx hxi
    exact h2 x hx (by simp [doCliente, hxi])
  · intro hf
    rw [hf, limite] at hlim
    omega

/-- A client does not have the token behind its call of `rel_1`. -/
theorem Ordeiro.libera_tem {pid : ι → Int32} {s : Sistema ι} (h : Ordeiro pid s) {k : Nat} {i : ι}
    {r : Release} (hk : s.chamadas[k]? = some (i, .REL r)) (srv : Servidor ι) (n : Int32) :
    ¬ Tem { s with
      servidor := srv
      chamadas := s.chamadas.eraseIdx k
      respostas := s.respostas ++ [(i, .result n)] } i := by
  obtain ⟨hcham, hresp, hfase⟩ := h.uma_chamada hk
  rintro (hi | ⟨rep, hi⟩ | ⟨rel, hi⟩)
  · exact hfase hi
  · rcases List.mem_append.mp hi with hi | hi
    · exact hresp _ hi rfl
    · simp at hi
  · exact hcham _ hi rfl

/-! ## The way of the token -/

theorem tem_update {s : Sistema ι} {i j : ι} {c : Cliente} (hc : c.fase = .regiao → Tem s i)
    (h : (Function.update s.clientes i c j).fase = .regiao) : Tem s j := by
  by_cases hj : j = i
  · subst hj
    rw [Function.update_self] at h
    exact hc h
  · rw [Function.update_of_ne hj] at h
    exact Or.inl h

/-- Only the server gives the token to a client. -/
theorem passo_tem {s s' : Sistema ι} {a : Acao ι} {t : List (Evento ι)} (hp : Passo s a s' t)
    {j : ι} (h : Tem s' j) : Tem s j ∨ ∃ r rep, .req j r rep ∈ t := by
  cases hp with
  | pede i hf r hr =>
    obtain ⟨c, o⟩ := r
    refine Or.inl ?_
    rcases h with h | h | ⟨rel, h⟩
    · refine tem_update (fun hc => ?_) h
      cases hr with
      | chama | falha => cases hc
    · exact Or.inr (Or.inl h)
    · rcases List.mem_append.mp h with h | h
      · exact Or.inr (Or.inr ⟨rel, h⟩)
      · cases hr with
        | chama => simp at h
        | falha => cases h
  | devolve i hf r hr =>
    obtain ⟨c, o⟩ := r
    refine Or.inl ?_
    rcases h with h | h | ⟨rel, h⟩
    · exact tem_update (fun _ => Or.inl hf) h
    · exact Or.inr (Or.inl h)
    · rcases List.mem_append.mp h with h | h
      · exact Or.inr (Or.inr ⟨rel, h⟩)
      · obtain ⟨c', -, hc'⟩ := List.mem_map.mp h
        simp only [Prod.mk.injEq] at hc'
        rw [← hc'.1]
        exact Or.inl hf
  | atende k i c hk hl srv t ha =>
    rcases h with h | ⟨rep, h⟩ | ⟨rel, h⟩
    · exact Or.inl (Or.inl h)
    · rcases List.mem_append.mp h with h | h
      · exact Or.inl (Or.inr (Or.inl ⟨rep, h⟩))
      · obtain ⟨e, he, hrep⟩ := List.mem_map.mp h
        cases e with
        | req j' r rep' =>
          unfold svcSendreply at hrep
          simp only [Prod.mk.injEq] at hrep
          exact Or.inr ⟨r, rep', hrep.1 ▸ he⟩
        | rel j' r n => simp [svcSendreply] at hrep
    · exact Or.inl (Or.inr (Or.inr ⟨rel, List.mem_of_mem_eraseIdx h⟩))
  | gira i r hp => exact Or.inl h
  | chega k i r hk c hr =>
    refine Or.inl ?_
    rcases h with h | ⟨rep, h⟩ | ⟨rel, h⟩
    · refine tem_update (fun hc => ?_) h
      cases hr with
      | entra rep hf => exact Or.inr (Or.inl ⟨rep, List.mem_of_getElem? hk⟩)
      | volta | falha => cases hc
      | ignora => exact Or.inl hc
    · exact Or.inr (Or.inl ⟨rep, List.mem_of_mem_eraseIdx h⟩)
    · exact Or.inr (Or.inr ⟨rel, h⟩)
  | desiste i hf =>
    refine Or.inl ?_
    rcases h with h | h | h
    · exact tem_update (fun hc => by cases hc) h
    · exact Or.inr (Or.inl h)
    · exact Or.inr (Or.inr h)

end lab07
