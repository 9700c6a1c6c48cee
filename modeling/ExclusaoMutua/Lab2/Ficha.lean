-- Where the token of LAB2-NETKIT is. It stands in one place at a time: free at
-- the server, on its way to a client, in a critical section, on its way back,
-- or lost. Mutual exclusion and the count of releases follow from the place.
import Mathlib.Data.Fin.VecNotation
import Mathlib.Data.Fintype.Card
import ExclusaoMutua.Lab2.ConcessaoUnica
import ExclusaoMutua.Lab2.Rede

open fila in_flight machine

namespace lab2

variable {ι : Type}

/-! ## The abstract token -/

inductive Lugar (ι : Type) where
  | livre
  | concedido (i : ι)
  | regiao (i : ι)
  | devolvido (i : ι)
  | perdido
  deriving DecidableEq

/-- The moves of one token with a value: a counter that takes one step up when
the server handles a RELEASE_TOKEN. -/
inductive Lugar.Move : Lugar ι → Int32 → Lugar ι → Int32 → Prop
  | fica (l : Lugar ι) (v : Int32) : Move l v l v
  | concede (i : ι) (v : Int32) : Move .livre v (.concedido i) v
  | entra (i : ι) (v : Int32) : Move (.concedido i) v (.regiao i) v
  | devolve (i : ι) (v : Int32) : Move (.regiao i) v (.devolvido i) v
  | libera (i : ι) (v : Int32) : Move (.devolvido i) v .livre (v + 1)
  | passa (i j : ι) (v : Int32) : Move (.devolvido i) v (.concedido j) (v + 1)
  | perde (l : Lugar ι) (v : Int32) : Move l v .perdido v
  | perdeDepois (i : ι) (v : Int32) : Move (.devolvido i) v .perdido (v + 1)

/-- The REPLY_ALLOW in flight, with its `rec`. -/
def Lugar.concessao (l : Lugar ι) (v : Int32) : List (ι × Int32) :=
  match l with
  | .concedido i => [(i, v)]
  | _ => []

/-- The RELEASE_TOKEN in flight, with its `rec`. -/
def Lugar.devolucao (l : Lugar ι) (v : Int32) : List (ι × Int32) :=
  match l with
  | .devolvido i => [(i, v + 1)]
  | _ => []

/-! ## The place of the token in the system -/

def ehAllow (x : ι × Datagrama) : Bool := x.2.conteudo.cod = REPLY_ALLOW

def ehRelease (x : ι × Datagrama) : Bool := x.2.conteudo.cod = RELEASE_TOKEN

/-- Datagrams as the client they belong to and the `rec` they carry. -/
def comValor (l : List (ι × Datagrama)) : List (ι × Int32) :=
  l.map fun x => (x.1, x.2.conteudo.recurso)

/-- The token of the system is in the place `l`. -/
structure Ficha (s : Sistema ι) (l : Lugar ι) : Prop where
  livre : s.servidor.Token.flag = -1 ↔ l = .livre
  vazia : s.servidor.Token.flag = -1 → s.servidor.fila.head = []
  concessoes : comValor (s.paraClientes.filter ehAllow) = l.concessao s.servidor.Token.valor
  regiao : ∀ j, (s.clientes j).fase = .regiao ↔ l = .regiao j
  lido : ∀ j, l = .regiao j → (s.clientes j).resp.recurso = s.servidor.Token.valor
  devolucoes : comValor (s.paraServidor.filter ehRelease) = l.devolucao s.servidor.Token.valor

theorem inicio_ficha (c : Config ι) : Ficha (Sistema.inicio c) .livre where
  livre := ⟨fun _ => rfl, fun _ => rfl⟩
  vazia _ := rfl
  concessoes := rfl
  regiao j := by simp [Sistema.inicio, Cliente.inicio]
  lido j h := by cases h
  devolucoes := rfl

theorem comValor_nil {l : List (ι × Datagrama)} : comValor l = [] ↔ l = [] := List.map_eq_nil_iff

theorem comValor_single {l : List (ι × Datagrama)} {y : ι × Int32} (h : comValor l = [y]) :
    ∃ x, l = [x] ∧ (x.1, x.2.conteudo.recurso) = y := by
  obtain ⟨x, hx, he⟩ := List.map_eq_singleton_iff.mp h
  exact ⟨x, hx, he⟩

theorem countP_comValor (p : ι × Datagrama → Bool) (l : List (ι × Datagrama)) :
    l.countP p = (comValor (l.filter p)).length := by
  rw [comValor, List.length_map, List.countP_eq_length_filter]

theorem recurso_of_comValor {l : List (ι × Datagrama)} {p : ι × Datagrama → Bool}
    {m : List (ι × Int32)} {v : Int32} (h : comValor (l.filter p) = m) (hm : ∀ y ∈ m, y.2 = v) :
    ∀ x ∈ l, p x = true → x.2.conteudo.recurso = v := by
  subst h
  intro x hx hp
  exact hm (x.1, x.2.conteudo.recurso) (List.mem_map.mpr ⟨x, List.mem_filter.mpr ⟨hx, hp⟩, rfl⟩)

theorem concessao_single {l : Lugar ι} {v : Int32} (h : l.concessao v ≠ []) :
    ∃ i, l = .concedido i := by
  cases l with
  | concedido i => exact ⟨i, rfl⟩
  | livre | regiao | devolvido | perdido => exact absurd rfl h

theorem devolucao_single {l : Lugar ι} {v : Int32} (h : l.devolucao v ≠ []) :
    ∃ i, l = .devolvido i := by
  cases l with
  | devolvido i => exact ⟨i, rfl⟩
  | livre | regiao | concedido | perdido => exact absurd rfl h

/-- The one message of a kind that is in flight, taken out. -/
theorem tira_unica {l : List (ι × Datagrama)} {p : ι × Datagrama → Bool} {k : Nat} {i j : ι}
    {d : Datagrama} {v : Int32} (hk : l[k]? = some (i, d)) (hp : p (i, d) = true)
    (hl : comValor (l.filter p) = [(j, v)]) :
    i = j ∧ d.conteudo.recurso = v ∧ (l.eraseIdx k).filter p = [] := by
  obtain ⟨x, hx, he⟩ := comValor_single hl
  obtain ⟨hxe, hnil⟩ := filter_eraseIdx_single hk hp hx
  rw [← hxe] at he
  simp only [Prod.mk.injEq] at he
  exact ⟨he.1, he.2, hnil⟩

theorem filter_ne_nil {l : List (ι × Datagrama)} {p : ι × Datagrama → Bool} {k : Nat}
    {x : ι × Datagrama} (hk : l[k]? = some x) (hp : p x = true) : comValor (l.filter p) ≠ [] := by
  rw [ne_eq, comValor_nil, List.filter_eq_nil_iff]
  intro h
  exact h x (List.mem_of_getElem? hk) hp

/-- A RELEASE_TOKEN in flight says where the token is. -/
theorem Ficha.tira_release {s : Sistema ι} {l : Lugar ι} (h : Ficha s l) {k : Nat} {i : ι}
    {d : Datagrama} (hk : s.paraServidor[k]? = some (i, d)) (hd : d.conteudo.cod = RELEASE_TOKEN) :
    l = .devolvido i ∧ d.conteudo.recurso = s.servidor.Token.valor + 1 ∧
      (s.paraServidor.eraseIdx k).filter ehRelease = [] := by
  have hp : ehRelease (i, d) = true := by simp [ehRelease, hd]
  have hne := filter_ne_nil hk hp
  rw [h.devolucoes] at hne
  obtain ⟨j, rfl⟩ := devolucao_single hne
  obtain ⟨rfl, hrec, hnil⟩ := tira_unica hk hp h.devolucoes
  exact ⟨rfl, hrec, hnil⟩

/-- A REPLY_ALLOW in flight says where the token is. -/
theorem Ficha.tira_allow {s : Sistema ι} {l : Lugar ι} (h : Ficha s l) {k : Nat} {i : ι}
    {d : Datagrama} (hk : s.paraClientes[k]? = some (i, d)) (hd : d.conteudo.cod = REPLY_ALLOW) :
    l = .concedido i ∧ d.conteudo.recurso = s.servidor.Token.valor ∧
      (s.paraClientes.eraseIdx k).filter ehAllow = [] := by
  have hp : ehAllow (i, d) = true := by simp [ehAllow, hd]
  have hne := filter_ne_nil hk hp
  rw [h.concessoes] at hne
  obtain ⟨j, rfl⟩ := concessao_single hne
  obtain ⟨rfl, hrec, hnil⟩ := tira_unica hk hp h.concessoes
  exact ⟨rfl, hrec, hnil⟩

theorem tira_outro_servidor {l : List (ι × Datagrama)} {k : Nat} {i : ι} {d : Datagrama}
    (hk : l[k]? = some (i, d)) (hd : d.conteudo.cod ≠ RELEASE_TOKEN) :
    (l.eraseIdx k).filter ehRelease = l.filter ehRelease :=
  filter_eraseIdx_of_neg hk (by simp [ehRelease, hd])

theorem tira_outro_cliente {l : List (ι × Datagrama)} {k : Nat} {i : ι} {d : Datagrama}
    (hk : l[k]? = some (i, d)) (hd : d.conteudo.cod ≠ REPLY_ALLOW) :
    (l.eraseIdx k).filter ehAllow = l.filter ehAllow :=
  filter_eraseIdx_of_neg hk (by simp [ehAllow, hd])

/-! ## One step -/

/-- The number of RELEASE_TOKEN that the events handle. -/
def liberacoes (t : List (Evento ι)) : Nat := t.countP Evento.libera

theorem liberacoes_append (t e : List (Evento ι)) :
    liberacoes (t ++ e) = liberacoes t + liberacoes e := List.countP_append

theorem liberacoes_turn (o : Origem ι) (d : Datagrama) (r : Request) (t : List (Evento ι)) :
    liberacoes (.envia o d :: .trata o r :: t) =
      liberacoes t + if r.cod = RELEASE_TOKEN then 1 else 0 := by
  unfold liberacoes
  simp [List.countP_cons, Evento.libera]

/-- What a step does to the token in the place `l`. -/
def Leva (s : Sistema ι) (l : Lugar ι) (a : Acao ι) (s' : Sistema ι) (t : List (Evento ι)) : Prop :=
  ∃ l', Ficha s' l' ∧ l.Move s.servidor.Token.valor l' s'.servidor.Token.valor ∧
    s'.servidor.Token.valor = s.servidor.Token.valor + Int32.ofNat (liberacoes t) ∧
    (a.SemPerda → l' = .perdido → l = .perdido)

/-- A step that leaves the token where it is. -/
theorem leva_fica {s s' : Sistema ι} {l : Lugar ι} {a : Acao ι} {t : List (Evento ι)}
    (h : Ficha s' l) (hv : s'.servidor.Token.valor = s.servidor.Token.valor)
    (ht : liberacoes t = 0) : Leva s l a s' t := by
  refine ⟨l, h, ?_, ?_, fun _ h => h⟩
  · rw [hv]
    exact .fica l _
  · rw [hv, ht]
    exact (Int32.add_zero _).symm

/-- A state with no token in flight, in a critical section or at the server. -/
theorem ficha_perdida {s : Sistema ι} (hf : s.servidor.Token.flag ≠ -1)
    (hc : s.paraClientes.filter ehAllow = []) (hr : ∀ j, (s.clientes j).fase ≠ .regiao)
    (hd : s.paraServidor.filter ehRelease = []) : Ficha s .perdido where
  livre := by simp [hf]
  vazia h := absurd h hf
  concessoes := comValor_nil.mpr hc
  regiao j := by simp [hr j]
  lido j h := by cases h
  devolucoes := comValor_nil.mpr hd

/-- A state with one REPLY_ALLOW in flight, and no token anywhere else. -/
theorem ficha_concedida {s : Sistema ι} {i : ι} (hf : s.servidor.Token.flag ≠ -1)
    (hc : comValor (s.paraClientes.filter ehAllow) = [(i, s.servidor.Token.valor)])
    (hr : ∀ j, (s.clientes j).fase ≠ .regiao) (hd : s.paraServidor.filter ehRelease = []) :
    Ficha s (.concedido i) where
  livre := by simp [hf]
  vazia h := absurd h hf
  concessoes := hc
  regiao j := by simp [hr j]
  lido j h := by cases h
  devolucoes := comValor_nil.mpr hd

theorem Ficha.fora {s : Sistema ι} {l : Lugar ι} (h : Ficha s l) (hl : ∀ j, l ≠ .regiao j) :
    ∀ j, (s.clientes j).fase ≠ .regiao :=
  fun j hj => hl j ((h.regiao j).mp hj)

theorem Ficha.sem_concessao {s : Sistema ι} {l : Lugar ι} (h : Ficha s l)
    (hl : l.concessao s.servidor.Token.valor = []) : s.paraClientes.filter ehAllow = [] :=
  comValor_nil.mp (h.concessoes.trans hl)

theorem Ficha.sem_devolucao {s : Sistema ι} {l : Lugar ι} (h : Ficha s l)
    (hl : l.devolucao s.servidor.Token.valor = []) : s.paraServidor.filter ehRelease = [] :=
  comValor_nil.mp (h.devolucoes.trans hl)

/-- The ACK is no REPLY_ALLOW, so only the answers count. -/
theorem filter_ack (l : List (ι × Datagrama)) (s : Servidor ι) (dados : List UInt8) (i : ι)
    (n : Nat) (m : List (ι × Datagrama)) :
    (l ++ (i, { conteudo := (recebe s dados).ack, nbytes := n }) :: m).filter ehAllow =
      l.filter ehAllow ++ m.filter ehAllow := by
  have hack : ehAllow (i, { conteudo := (recebe s dados).ack, nbytes := n }) = false := by
    unfold ehAllow
    simp [recebe, ACK, REPLY_ALLOW]
  rw [List.filter_append, List.filter_cons_of_neg (by simp [hack])]

theorem filter_rep (s : Servidor ι) (p : Int32) (o : Origem ι) (n : Nat) :
    comValor ((enviados [.envia o { conteudo := (preencheRep s p).rep, nbytes := n }]).filter
      ehAllow) = [(o.caddr, s.Token.valor)] := by
  unfold ehAllow
  simp [preencheRep, comValor]

/-- A datagram that goes to the server is lost on the way, or with a server that
ends. -/
theorem perde_pedido {s : Sistema ι} {l : Lugar ι} (hf : Ficha s l) {k : Nat} {i : ι}
    {d : Datagrama} (hk : s.paraServidor[k]? = some (i, d)) {a : Acao ι} (ha : ¬ a.SemPerda)
    {srv : Servidor ι} (htoken : srv.Token = s.servidor.Token)
    (hfila : srv.fila = s.servidor.fila) :
    Leva s l a { s with servidor := srv, paraServidor := s.paraServidor.eraseIdx k } [] := by
  by_cases hd : d.conteudo.cod = RELEASE_TOKEN
  · obtain ⟨rfl, -, hnil⟩ := hf.tira_release hk hd
    refine ⟨.perdido, ficha_perdida ?_ (hf.sem_concessao rfl) (hf.fora (by simp)) hnil, ?_, ?_,
      fun hsem => absurd hsem ha⟩
    · intro hfl
      rw [htoken] at hfl
      cases hf.livre.mp hfl
    · rw [htoken]
      exact .perde _ _
    · rw [htoken]
      exact (Int32.add_zero _).symm
  · refine leva_fica ⟨?_, ?_, ?_, hf.regiao, ?_, ?_⟩ (congrArg SToken.valor htoken) rfl
    · rw [htoken]
      exact hf.livre
    · rw [htoken, hfila]
      exact hf.vazia
    · rw [htoken]
      exact hf.concessoes
    · rw [htoken]
      exact hf.lido
    · rw [tira_outro_servidor hk hd, htoken]
      exact hf.devolucoes

/-- A turn that sends nothing behind its ACK, and leaves the token where it is. -/
theorem serve_fica {s : Sistema ι} {l : Lugar ι} (hf : Ficha s l) {k : Nat} {amb : Ambiente ι}
    {i : ι} {d : Datagrama} (hk : s.paraServidor[k]? = some (i, d))
    (hd : d.conteudo.cod ≠ RELEASE_TOKEN) {srv : Servidor ι}
    (htoken : srv.Token = s.servidor.Token) (hvazia : srv.Token.flag = -1 → srv.fila.head = []) :
    Leva s l (.serve k amb)
      { s with
        servidor := srv
        paraServidor := s.paraServidor.eraseIdx k
        paraClientes := s.paraClientes ++
          [(i, { conteudo := (recebe s.servidor d.dados).ack, nbytes := sizeofRequest })] }
      [.envia (Origem.de i)
        { conteudo := (recebe s.servidor d.dados).ack, nbytes := sizeofRequest },
        .trata (Origem.de i) d.conteudo] := by
  refine leva_fica ⟨?_, hvazia, ?_, hf.regiao, ?_, ?_⟩ (congrArg SToken.valor htoken) ?_
  · rw [htoken]
    exact hf.livre
  · rw [filter_ack, List.filter_nil, List.append_nil, htoken]
    exact hf.concessoes
  · rw [htoken]
    exact hf.lido
  · rw [tira_outro_servidor hk hd, htoken]
    exact hf.devolucoes
  · rw [liberacoes_turn, if_neg hd]
    rfl

/-- The turn of the server behind its ACK. -/
theorem serve_ficha {pid : ι → Int32} (hpid : ∀ i, (pid i).toInt8 ≠ -1) {s : Sistema ι}
    {l : Lugar ι} (h : Honesto pid s) (hf : Ficha s l) {k : Nat} {amb : Ambiente ι} {i : ι}
    {d : Datagrama} (hk : s.paraServidor[k]? = some (i, d))
    (hreq : (recebe s.servidor d.dados).req = d.conteudo) {srv : Servidor ι} {t : List (Evento ι)}
    (ht : Trata (recebe s.servidor d.dados) (amb.entrada i (some d.dados)) srv t) :
    Leva s l (.serve k amb)
      { s with
        servidor := srv
        paraServidor := s.paraServidor.eraseIdx k
        paraClientes := s.paraClientes ++
          (i, { conteudo := (recebe s.servidor d.dados).ack, nbytes := sizeofRequest }) ::
            enviados t }
      (.envia (Origem.de i)
        { conteudo := (recebe s.servidor d.dados).ack, nbytes := sizeofRequest } ::
        .trata (Origem.de i) d.conteudo :: t) := by
  have hpidd := (h.pedidos _ (List.mem_of_getElem? hk)).2.1
  cases ht with
  | concede hc hfree hrep =>
    rw [hreq] at hc
    have hl := hf.livre.mp hfree
    subst hl
    have hpe : (recebe s.servidor d.dados).req.PID = pid i := by rw [hreq]; exact hpidd
    refine ⟨.concedido i, ficha_concedida ?_ ?_ (hf.fora (by simp)) ?_, .concede i _, ?_, ?_⟩
    · simp [preencheRep, hpe, hpid i]
    · rw [filter_ack, hf.sem_concessao rfl, List.nil_append]
      exact filter_rep _ _ _ _
    · rw [tira_outro_servidor hk (by rw [hc]; decide), hf.sem_devolucao rfl]
    · rw [liberacoes_turn, hc]
      exact (Int32.add_zero _).symm
    · intro _ hp
      cases hp
  | concedeFalha hc hfree hrep =>
    rw [hreq] at hc
    have hl := hf.livre.mp hfree
    subst hl
    have hpe : (recebe s.servidor d.dados).req.PID = pid i := by rw [hreq]; exact hpidd
    refine ⟨.perdido, ficha_perdida ?_ ?_ (hf.fora (by simp)) ?_, .perde _ _, ?_, ?_⟩
    · simp [preencheRep, hpe, hpid i]
    · rw [filter_ack, hf.sem_concessao rfl]
      rfl
    · rw [tira_outro_servidor hk (by rw [hc]; decide), hf.sem_devolucao rfl]
    · rw [liberacoes_turn, hc]
      exact (Int32.add_zero _).symm
    · intro ha
      exact absurd hrep (not_lt.mpr ha.2)
  | enfileira hc hfull hcabe hnov =>
    rw [hreq] at hc
    exact serve_fica hf hk (by rw [hc]; decide) rfl fun hfl => absurd hfl hfull
  | recusa hc hfull hnao =>
    rw [hreq] at hc
    exact serve_fica hf hk (by rw [hc]; decide) rfl hf.vazia
  | libera hc hvazia =>
    rw [hreq] at hc
    obtain ⟨rfl, hrec, hnil⟩ := hf.tira_release hk hc
    refine ⟨.livre, ⟨by simp, fun _ => hvazia, ?_, ?_, ?_, ?_⟩, ?_, ?_, ?_⟩
    · rw [filter_ack, hf.sem_concessao rfl]
      rfl
    · intro j
      simp [hf.fora (by simp) j]
    · intro j hj
      cases hj
    · rw [hnil]
      rfl
    · simp only [hreq, hrec]
      exact .libera i _
    · rw [liberacoes_turn, hc]
      simp only [hreq, hrec]
      rfl
    · intro _ hp
      cases hp
  | passa hc aux resto hh hrep s' hs =>
    rw [hreq] at hc
    obtain ⟨rfl, hrec, hnil⟩ := hf.tira_release hk hc
    have haux : aux.PID = pid aux.dados.caddr :=
      (h.entradas aux (recebe_fila s.servidor d.dados ▸ hh ▸ List.mem_cons_self)).1
    subst hs
    refine ⟨.concedido aux.dados.caddr, ficha_concedida ?_ ?_ (hf.fora (by simp)) hnil,
      ?_, ?_, ?_⟩
    · simp [preencheRep, haux, hpid]
    · rw [filter_ack, hf.sem_concessao rfl, List.nil_append]
      exact filter_rep _ _ _ _
    · simp only [preencheRep, hreq, hrec]
      exact .passa i _ _
    · rw [liberacoes_turn, hc]
      simp only [preencheRep, hreq, hrec]
      rfl
    · intro _ hp
      cases hp
  | passaFalha hc aux resto hh hrep s' hs =>
    rw [hreq] at hc
    obtain ⟨rfl, hrec, hnil⟩ := hf.tira_release hk hc
    have haux : aux.PID = pid aux.dados.caddr :=
      (h.entradas aux (recebe_fila s.servidor d.dados ▸ hh ▸ List.mem_cons_self)).1
    subst hs
    refine ⟨.perdido, ficha_perdida ?_ ?_ (hf.fora (by simp)) hnil, ?_, ?_, ?_⟩
    · simp [preencheRep, haux, hpid]
    · rw [filter_ack, hf.sem_concessao rfl]
      rfl
    · simp only [preencheRep, hreq, hrec]
      exact .perdeDepois i _
    · rw [liberacoes_turn, hc]
      simp only [preencheRep, hreq, hrec]
      rfl
    · intro ha
      exact absurd hrep (not_lt.mpr ha.2)
  | ignora h1 h2 =>
    rw [hreq] at h2
    exact serve_fica hf hk h2 rfl hf.vazia

variable [DecidableEq ι]

/-- A client outside its critical section that stays outside. -/
theorem Ficha.cliente {s : Sistema ι} {l : Lugar ι} (h : Ficha s l) (i : ι) (c : Cliente)
    (hi : (s.clientes i).fase ≠ .regiao) (hc : c.fase ≠ .regiao) :
    (∀ j, (Function.update s.clientes i c j).fase = .regiao ↔ l = .regiao j) ∧
      ∀ j, l = .regiao j →
        (Function.update s.clientes i c j).resp.recurso = s.servidor.Token.valor := by
  have hne : l ≠ .regiao i := fun hl => hi ((h.regiao i).mpr hl)
  constructor
  · intro j
    by_cases hj : j = i
    · subst hj
      simp [hc, hne]
    · rw [Function.update_of_ne hj]
      exact h.regiao j
  · intro j hl
    have hj : j ≠ i := fun hj => hne (hj ▸ hl)
    rw [Function.update_of_ne hj]
    exact h.lido j hl

/-- A client that leaves its critical section leaves nobody in one. -/
theorem Ficha.sai {s : Sistema ι} {i : ι} (h : Ficha s (.regiao i)) (c : Cliente)
    (hc : c.fase ≠ .regiao) : ∀ j, (Function.update s.clientes i c j).fase ≠ .regiao := by
  intro j
  by_cases hj : j = i
  · subst hj
    rwa [Function.update_self]
  · rw [Function.update_of_ne hj]
    intro hr
    have := (h.regiao j).mp hr
    simp only [Lugar.regiao.injEq] at this
    exact hj this.symm

/-- One step of the system is one move of the token. -/
theorem passo_ficha {pid : ι → Int32} (hpid : ∀ i, (pid i).toInt8 ≠ -1) {s s' : Sistema ι}
    {l : Lugar ι} {a : Acao ι} {t : List (Evento ι)} (h : Honesto pid s) (hf : Ficha s l)
    (hp : Passo s a s' t) : Leva s l a s' t := by
  cases hp with
  | pede i ns hfase hn c hc =>
    obtain ⟨h1, h2⟩ := hf.cliente i { c with fase := .espera } (by rw [hfase]; decide) (by simp)
    refine leva_fica ⟨hf.livre, hf.vazia, hf.concessoes, h1, h2, ?_⟩ rfl rfl
    subst hc
    rw [List.filter_append, show List.filter ehRelease [_] = [] from rfl, List.append_nil]
    exact hf.devolucoes
  | pedeFalha i ns hfase hn c hc =>
    obtain ⟨h1, h2⟩ := hf.cliente i { c with fase := .fim } (by rw [hfase]; decide) (by simp)
    exact leva_fica ⟨hf.livre, hf.vazia, hf.concessoes, h1, h2, hf.devolucoes⟩ rfl rfl
  | devolve i ns hfase hn c resp hc f hfim =>
    have hl := (hf.regiao i).mp hfase
    subst hl
    have hf' : f ≠ .regiao := by
      rcases hfim with rfl | rfl
      · decide
      · decide
    have hfora := hf.sai { c with aguardar := 0, fase := f } hf'
    refine ⟨.devolvido i, ⟨?_, hf.vazia, ?_, ?_, ?_, ?_⟩, .devolve i _, ?_, ?_⟩
    · simp [hf.livre]
    · exact comValor_nil.mpr (hf.sem_concessao rfl)
    · intro j
      simp [hfora j]
    · intro j hj
      cases hj
    · subst hc
      rw [List.filter_append, hf.sem_devolucao rfl, List.nil_append, ← hf.lido i rfl]
      rfl
    · exact (Int32.add_zero _).symm
    · intro _ hp
      cases hp
  | devolveFalha i ns hfase hn c resp hc =>
    have hl := (hf.regiao i).mp hfase
    subst hl
    refine ⟨.perdido, ficha_perdida (by simp [hf.livre]) (hf.sem_concessao rfl)
      (hf.sai { c with fase := .fim } (by simp)) (hf.sem_devolucao rfl), .perde _ _, ?_, ?_⟩
    · exact (Int32.add_zero _).symm
    · intro ha
      exact absurd hn (not_lt.mpr ha)
  | ack k i d hk hfase hc =>
    obtain ⟨h1, h2⟩ := hf.cliente i { s.clientes i with resp := d.conteudo }
      (by rw [hfase]; decide) (by rw [hfase]; decide)
    refine leva_fica ⟨hf.livre, hf.vazia, ?_, h1, h2, hf.devolucoes⟩ rfl rfl
    rw [tira_outro_cliente hk (by rw [hc]; decide)]
    exact hf.concessoes
  | allow k i d hk hfase hc resp hr =>
    obtain ⟨rfl, hrec, hnil⟩ := hf.tira_allow hk hc
    refine ⟨.regiao i, ⟨?_, hf.vazia, ?_, ?_, ?_, ?_⟩, .entra i _, ?_, ?_⟩
    · simp [hf.livre]
    · exact comValor_nil.mpr hnil
    · intro j
      by_cases hj : j = i
      · subst hj
        simp
      · simp [Function.update_of_ne hj, hf.fora (by simp) j, Ne.symm hj]
    · intro j hj
      simp only [Lugar.regiao.injEq] at hj
      subst hj
      simp only [Function.update_self, hr]
      exact hrec
    · exact comValor_nil.mpr (hf.sem_devolucao rfl)
    · exact (Int32.add_zero _).symm
    · intro _ hp
      cases hp
  | recvFalha i hfase =>
    obtain ⟨h1, h2⟩ := hf.cliente i { s.clientes i with fase := .fim } (by rw [hfase]; decide)
      (by simp)
    exact leva_fica ⟨hf.livre, hf.vazia, hf.concessoes, h1, h2, hf.devolucoes⟩ rfl rfl
  | ackFalha k amb i d hk hv hn hreq =>
    refine perde_pedido hf hk ?_ rfl rfl
    intro ha
    exact absurd hn (not_lt.mpr ha.1)
  | serve k amb i d hk hv hn hreq srv t ht => exact serve_ficha hpid h hf hk hreq ht
  | servidorFalha hv =>
    exact leva_fica ⟨hf.livre, hf.vazia, hf.concessoes, hf.regiao, hf.lido, hf.devolucoes⟩ rfl rfl
  | perdeServidor k x hk =>
    obtain ⟨i, d⟩ := x
    refine perde_pedido hf hk ?_ rfl rfl
    exact id
  | perdeCliente k x hk =>
    obtain ⟨i, d⟩ := x
    by_cases hd : d.conteudo.cod = REPLY_ALLOW
    · obtain ⟨rfl, _, hnil⟩ := hf.tira_allow hk hd
      refine ⟨.perdido, ficha_perdida ?_ hnil (hf.fora (by simp)) (hf.sem_devolucao rfl),
        .perde _ _, (Int32.add_zero _).symm, fun ha => ha.elim⟩
      exact fun hfl => by simpa using hf.livre.mp hfl
    · refine leva_fica ⟨hf.livre, hf.vazia, ?_, hf.regiao, hf.lido, hf.devolucoes⟩ rfl rfl
      rw [tira_outro_cliente hk hd]
      exact hf.concessoes

/-! ## Every run -/

/-- After every run the token is in one place, and its value counts the
RELEASE_TOKEN handled. A run that loses nothing does not lose the token. -/
theorem sistema_ficha {c : Config ι} (hpid : ∀ i, (c.pid i).toInt8 ≠ -1) {as : List (Acao ι)}
    {s : Sistema ι} {t : List (Evento ι)}
    (hr : (sistema ι).run (Sistema.inicio c) as = some (s, t)) :
    ∃ l, Ficha s l ∧ s.servidor.Token.valor = 30 + Int32.ofNat (liberacoes t) ∧
      ((∀ a ∈ as, a.SemPerda) → l ≠ .perdido) := by
  have hc : (sistema ι).Along (fun _ _ a => (∀ a ∈ as, a.SemPerda) → a.SemPerda)
      (Sistema.inicio c) as := along_all fun a ha h => h a ha
  have hinv : Honesto c.pid s ∧ ∃ l, Ficha s l ∧
      s.servidor.Token.valor = 30 + Int32.ofNat (liberacoes t) ∧
      ((∀ a ∈ as, a.SemPerda) → l ≠ .perdido) := by
    apply run_invariant_along _ _ hc hr
    · exact ⟨inicio_honesto c, .livre, inicio_ficha c, rfl, fun _ => by simp⟩
    · rintro u t a v e ⟨hh, l, hf, hval, hperda⟩ hsem hs
      have hp := passo_cases hh hs
      obtain ⟨l', hf', _, hval', hperda'⟩ := passo_ficha hpid hh hf hp
      refine ⟨passo_honesto hh hp, l', hf', ?_, fun ha hl => hperda ha (hperda' (hsem ha) hl)⟩
      rw [hval', hval, liberacoes_append, Int32.ofNat_add, Int32.add_assoc]
  exact hinv.2

/-! ## Mutual exclusion -/

/-- The number of tokens in the system: free at the server, in flight either
way, and in the critical sections. -/
def Sistema.fichas [Fintype ι] (s : Sistema ι) : Nat :=
  (if s.servidor.Token.flag = -1 then 1 else 0) + s.paraClientes.countP ehAllow +
    (Finset.univ.filter fun i => (s.clientes i).fase = .regiao).card +
    s.paraServidor.countP ehRelease

theorem Ficha.fichas [Fintype ι] {s : Sistema ι} {l : Lugar ι} (h : Ficha s l) :
    s.fichas = if l = .perdido then 0 else 1 := by
  unfold Sistema.fichas
  rw [countP_comValor, countP_comValor, h.concessoes, h.devolucoes]
  simp only [h.livre, h.regiao]
  cases l with
  | livre | concedido | devolvido | perdido => simp [Lugar.concessao, Lugar.devolucao]
  | regiao i =>
    have hi : (Finset.univ.filter fun j => Lugar.regiao i = .regiao j) = {i} := by
      ext j
      simp [eq_comm]
    rw [hi]
    unfold Lugar.concessao Lugar.devolucao
    simp

/-- Mutual exclusion, for any network that loses, delays and reorders: there
is at most one token, and exactly one when nothing is lost. -/
theorem only_one_client_at_a_time_uses_the_token [Fintype ι] {c : Config ι}
    (hpid : ∀ i, (c.pid i).toInt8 ≠ -1) {as : List (Acao ι)} {s : Sistema ι}
    {t : List (Evento ι)} (hr : (sistema ι).run (Sistema.inicio c) as = some (s, t)) :
    s.fichas ≤ 1 ∧ ((∀ a ∈ as, a.SemPerda) → s.fichas = 1) ∧
      (∀ i j, (s.clientes i).fase = .regiao → (s.clientes j).fase = .regiao → i = j) ∧
      (s.servidor.Token.flag = -1 → s.servidor.fila.head = [] ∧ s.servidor.fila.tamanho = 0) := by
  obtain ⟨l, hf, _, hperda⟩ := sistema_ficha hpid hr
  refine ⟨?_, ?_, ?_, ?_⟩
  · rw [hf.fichas]
    split
    · omega
    · omega
  · intro ha
    rw [hf.fichas, if_neg (hperda ha)]
  · intro i j hi hj
    have hl := (hf.regiao i).mp hi
    rw [(hf.regiao j).mp hj, Lugar.regiao.injEq] at hl
    exact hl.symm
  · intro hfl
    have hnil := hf.vazia hfl
    exact ⟨hnil, (sistema_honesto hr).bom.valida.tamanho_zero.mpr hnil⟩

/-- Clients with the PIDs `pid`. -/
def comPids (pid : ι → Int32) : Config ι :=
  { pid, req := fun _ => branco, resp := fun _ => branco, srvReq := branco, srvAck := branco,
    srvRep := branco }

/-- A turn of the server with each `sendto` done. -/
def bemServida (i : ι) : Ambiente ι :=
  { nsAck := 16, nsRep := 8, item := { PID := 0, tempo := 0, dados := Origem.de i } }

/-- Clients `i` and `j` ask, `i` gets the token, uses it and gives it back, and
the server passes it on to `j`. -/
def doisClientes (i j : ι) : List (Acao ι) :=
  [.pede i 16, .pede j 16, .serve 0 (bemServida i), .serve 0 (bemServida j), .chega 0, .chega 0,
    .devolve i 16, .serve 0 (bemServida i), .chega 0, .chega 1]

theorem only_one_of_two_clients_uses_the_token : ∃ s t,
    (sistema (Fin 2)).run (Sistema.inicio (comPids ![7, 8])) (doisClientes 0 1) = some (s, t) ∧
      s.fichas = 1 ∧ (s.clientes 1).fase = .regiao := by
  obtain ⟨s, t, h, hfase⟩ : ∃ s t, (sistema (Fin 2)).run (Sistema.inicio (comPids ![7, 8]))
      (doisClientes 0 1) = some (s, t) ∧ (s.clientes 1).fase = .regiao := exists_run (by decide)
  have hpid : ∀ i, ((comPids ![7, 8] : Config (Fin 2)).pid i).toInt8 ≠ -1 := by decide
  refine ⟨s, t, h, (only_one_client_at_a_time_uses_the_token hpid h).2.1 ?_, hfase⟩
  decide

/-! ## The counter -/

/-- One step of a counter that moves about with the token: its value goes one
up with each RELEASE_TOKEN, and no other step changes it. -/
def Contador (b : Lugar ι × Int32) (_ : Acao ι) (os : List (Evento ι)) (b' : Lugar ι × Int32) :
    Prop :=
  b.1.Move b.2 b'.1 b'.2 ∧ b'.2 = b.2 + Int32.ofNat os.length

/-- Every run of the system is a run of the counter. -/
theorem sistema_contador {c : Config ι} (hpid : ∀ i, (c.pid i).toInt8 ≠ -1) {as : List (Acao ι)}
    {s : Sistema ι} {t : List (Evento ι)}
    (hr : (sistema ι).run (Sistema.inicio c) as = some (s, t)) :
    ∃ l, Runs Contador (.livre, 30) as (t.filter Evento.libera) (l, s.servidor.Token.valor) := by
  have hc : (sistema ι).Along (fun _ _ _ => True) (Sistema.inicio c) as :=
    along_all fun _ _ => trivial
  have hsim : ∃ b, Runs Contador (.livre, 30) as (t.filter Evento.libera) b ∧
      (Honesto c.pid s ∧ Ficha s b.1 ∧ s.servidor.Token.valor = b.2) := by
    apply run_refines rfl (fun t e => List.filter_append t e) _ _ hc hr
    · exact ⟨inicio_honesto c, inicio_ficha c, rfl⟩
    · rintro u t a v e ⟨l, w⟩ ⟨hh, hf, rfl⟩ _ hs
      have hp := passo_cases hh hs
      obtain ⟨l', hf', hmove, hval, _⟩ := passo_ficha hpid hh hf hp
      refine ⟨(l', v.servidor.Token.valor), ⟨hmove, ?_⟩, passo_honesto hh hp, hf', rfl⟩
      rw [hval, liberacoes, List.countP_eq_length_filter]
  obtain ⟨⟨l, v⟩, hruns, _, _, rfl⟩ := hsim
  exact ⟨l, hruns⟩

/-- No update of the token is lost: `Token.valor` counts the RELEASE_TOKEN that
the server handled, and each place of the token holds its value. So the system
runs as a counter that goes one up with each critical section. -/
theorem no_update_of_the_token_is_lost {c : Config ι} (hpid : ∀ i, (c.pid i).toInt8 ≠ -1)
    {as : List (Acao ι)} {s : Sistema ι} {t : List (Evento ι)}
    (hr : (sistema ι).run (Sistema.inicio c) as = some (s, t)) :
    s.servidor.Token.valor = 30 + Int32.ofNat (liberacoes t) ∧
      (∀ x ∈ s.paraClientes, x.2.conteudo.cod = REPLY_ALLOW →
        x.2.conteudo.recurso = s.servidor.Token.valor) ∧
      (∀ i, (s.clientes i).fase = .regiao →
        (s.clientes i).resp.recurso = s.servidor.Token.valor) ∧
      (∀ x ∈ s.paraServidor, x.2.conteudo.cod = RELEASE_TOKEN →
        x.2.conteudo.recurso = s.servidor.Token.valor + 1) ∧
      ∃ l, Runs Contador (.livre, 30) as (t.filter Evento.libera) (l, s.servidor.Token.valor) := by
  obtain ⟨l, hf, hval, _⟩ := sistema_ficha hpid hr
  refine ⟨hval, ?_, ?_, ?_, sistema_contador hpid hr⟩
  · intro x hx hc
    refine recurso_of_comValor hf.concessoes ?_ x hx (by simp [ehAllow, hc])
    intro y hy
    cases l with
    | concedido i => rw [List.mem_singleton.mp hy]
    | livre | regiao | devolvido | perdido => cases hy
  · intro i hi
    exact hf.lido i ((hf.regiao i).mp hi)
  · intro x hx hc
    refine recurso_of_comValor hf.devolucoes ?_ x hx (by simp [ehRelease, hc])
    intro y hy
    cases l with
    | devolvido i => rw [List.mem_singleton.mp hy]
    | livre | regiao | concedido | perdido => cases hy

theorem no_update_of_two_clients_is_lost : ∃ s t,
    (sistema (Fin 2)).run (Sistema.inicio (comPids ![7, 8])) (doisClientes 0 1) = some (s, t) ∧
      s.servidor.Token.valor = 30 + Int32.ofNat (liberacoes t) ∧ liberacoes t = 1 := by
  obtain ⟨s, t, h, hn⟩ : ∃ s t, (sistema (Fin 2)).run (Sistema.inicio (comPids ![7, 8]))
      (doisClientes 0 1) = some (s, t) ∧ liberacoes t = 1 := exists_run (by decide)
  have hpid : ∀ i, ((comPids ![7, 8] : Config (Fin 2)).pid i).toInt8 ≠ -1 := by decide
  exact ⟨s, t, h, (no_update_of_the_token_is_lost hpid h).1, hn⟩

end lab2
