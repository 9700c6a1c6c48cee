-- The queue of LAB07-SD/backup as a stack. A call of `req_1` that does not come
-- in front of the queue keeps the server for ever, so as long as the server
-- answers, entries come and go at the head alone, and their stamps grow from
-- there on.
import ExclusaoMutua.Lab07.Devolucao
import ExclusaoMutua.Lab07.Xdr
import ExclusaoMutua.Lib.OrderedStack

open fila machine ordered_stack

namespace lab07

variable {ι : Type}

/-! ## The stack of the calls -/

/-- The calls that have their reply and are not yet given back. -/
abbrev Pilha := Stack RequestIn.pid_c (fun r => r.tempo_c.toInt) 10

/-- What the server is for as long as it answers. -/
structure Guarda where
  pilha : Pilha
  TOKEN : Int64
  TEMPO : Int64

def Guarda.inicio : Guarda where
  pilha := empty
  TOKEN := -1
  TEMPO := 0

def Guarda.responde (g : Guarda) (pilha : Pilha) (i : ι) (r : RequestIn) :
    Guarda × List (Evento ι) :=
  ({ g with pilha, TEMPO := g.TEMPO + 1 },
    [.req i r { pid_c := r.pid_c, recurso := g.TOKEN, tempo_s := g.TEMPO + 1 }])

/-- A request comes on top of the stack, or it is there. A release takes the top
away, whoever sends it. -/
def guarda (ι : Type) : Machine Guarda (ι × Chamada) (Evento ι) where
  step g x :=
    match x.2 with
    | .REQ r =>
      if g.pilha.OnTop r then some (g.responde g.pilha x.1 r)
      else if h : g.pilha.Takes r then some (g.responde (g.pilha.push r h) x.1 r)
      else none
    | .REL r =>
      some ({ pilha := g.pilha.pop
              TOKEN := r.recurso_n
              TEMPO := if g.TEMPO > r.tempo_c then g.TEMPO + 1 else r.tempo_c + 1 },
        [.rel x.1 r 1])

/-! ## The queue and the stack -/

theorem requestIn_item {r : RequestIn} (h : xdrRequestIn r = true) :
    r.item = { PID := r.pid_c, tempo := r.tempo_c, dados := () } := by
  unfold xdrRequestIn at h
  rw [Bool.and_eq_true] at h
  exact item_eq h.1 h.2

/-- The queue holds the calls of the stack, from the top down. -/
structure Guarda.Ve (g : Guarda) (s : Servidor ι) : Prop where
  fila : s.suaFila.head = g.pilha.items.map RequestIn.item
  escritos : ∀ r ∈ g.pilha.items, xdrRequestIn r = true

theorem Guarda.Ve.pids {g : Guarda} {s : Servidor ι} (h : g.Ve s) :
    s.suaFila.head.map Item.PID = g.pilha.items.map RequestIn.pid_c := by
  rw [h.fila, List.map_map]
  apply List.map_congr_left
  intro r hr
  simp [requestIn_item (h.escritos r hr)]

/-- The first test of the loop, seen from the stack. -/
theorem Guarda.Ve.passa {g : Guarda} {s : Servidor ι} (h : g.Ve s) (r : RequestIn) :
    Passa s.suaFila.head r ↔ g.pilha.OnTop r ∨ g.pilha.Takes r := by
  have hpids := h.pids
  have hfila := h.fila
  unfold Stack.OnTop Stack.Takes
  rcases hl : g.pilha.items with _ | ⟨x, xs⟩
  · rw [hl, List.map_nil] at hfila
    rw [hfila]
    unfold Passa
    simp
  · have hx := requestIn_item (h.escritos x (hl ▸ List.mem_cons_self))
    rw [hl, List.map_cons] at hfila hpids
    rw [hfila, List.map_cons] at hpids
    rw [hfila]
    unfold Passa FuraFila
    dsimp only
    rw [List.map_cons, hpids, hx, Int64.lt_iff_toInt_lt]
    simp
    tauto

/-- The queue behind a call that gets its reply. -/
theorem Guarda.Ve.responde {g : Guarda} {s : Servidor ι} (h : g.Ve s) (hb : s.Bom) {r : RequestIn}
    (hr : xdrRequestIn r = true) {aux : Item Int64 Unit} {resto : List (Item Int64 Unit)}
    (hh : (comItem s.suaFila r.item).head = aux :: resto) (hp : aux.PID = r.pid_c) :
    (g.pilha.OnTop r ∧ (comItem s.suaFila r.item).head = s.suaFila.head) ∨
      (¬ g.pilha.OnTop r ∧ g.pilha.Takes r ∧
        (comItem s.suaFila r.item).head = r.item :: s.suaFila.head) := by
  have hitem := requestIn_item hr
  have hpids := h.pids
  have hr' := hr
  unfold xdrRequestIn at hr'
  rw [Bool.and_eq_true] at hr'
  have hpassa := (h.passa r).mp ((passa_iff hb.valida hb.dez hr'.1 hr'.2 hh).mp hp)
  rcases comItem_cabeca hh (by rw [hp, hitem]) with ⟨hnovo, hfora⟩ | ⟨hfica, htopo⟩
  · have hnao : ¬ g.pilha.OnTop r := by
      intro htop
      unfold Stack.OnTop at htop
      rw [← List.head?_map, ← hpids] at htop
      apply hfora
      rw [hitem]
      exact List.mem_of_mem_head? htop
    exact Or.inr ⟨hnao, hpassa.resolve_left hnao, hnovo⟩
  · refine Or.inl ⟨?_, hfica⟩
    unfold Stack.OnTop
    rw [hpids, List.head?_map, hitem] at htopo
    exact htopo

/-! ## One call -/

/-- The server is at the state of the stack, or it spins in the call that the
stack could not take. -/
structure Acompanha (s : Servidor ι) (p : Guarda × Option (ι × Chamada)) : Prop where
  seguro : Seguro s
  TOKEN : s.TOKEN = p.1.TOKEN
  TEMPO : s.TEMPO = p.1.TEMPO
  onde : (p.2 = none ∧ s.atual = none ∧ p.1.Ve s) ∨
    ∃ i r, p.2 = some (i, .REQ r) ∧ s.atual = some (i, r) ∧ espera s r = some true

theorem inicio_acompanha : Acompanha (Servidor.inicio : Servidor ι) (Guarda.inicio, none) where
  seguro := inicio_seguro
  TOKEN := rfl
  TEMPO := rfl
  onde := Or.inl ⟨rfl, rfl, ⟨rfl, fun r hr => by cases hr⟩⟩

/-- What the server does with a call, the stack does, or it cannot take it. -/
theorem atende_acompanha {s s' : Servidor ι} {g : Guarda} {i : ι} {c : Chamada}
    {e : List (Evento ι)} (h : Acompanha s (g, none)) (hc : c.escreve = true)
    (ha : Atende s i c s' e) :
    ∃ q, (guarda ι).halting.step (g, none) (i, c) = some (q, e) ∧ Acompanha s' q := by
  obtain ⟨hseg, htoken, htempo, ⟨-, hl, hv⟩ | ⟨_, _, hcontra, -⟩⟩ := h
  · have hseg' := atende_seguro hseg hl ha
    dsimp only at htoken htempo hv
    cases ha with
    | responde r aux resto hh hp =>
      have hr : xdrRequestIn r = true := hc
      rcases hv.responde hseg.bom hr hh hp with ⟨htop, hfica⟩ | ⟨hnao, hcabe, hnovo⟩
      · refine ⟨((g.responde g.pilha i r).1, none), ?_, hseg', htoken, by rw [htempo]; rfl,
          Or.inl ⟨rfl, rfl, ⟨hfica.trans hv.fila, hv.escritos⟩⟩⟩
        unfold Machine.halting guarda
        simp [htop, Guarda.responde, htoken, htempo]
      · refine ⟨((g.responde (g.pilha.push r hcabe) i r).1, none), ?_, hseg', htoken,
          by rw [htempo]; rfl, Or.inl ⟨rfl, rfl, ⟨?_, ?_⟩⟩⟩
        · unfold Machine.halting guarda
          simp [hnao, hcabe, Guarda.responde, htoken, htempo]
        · exact hnovo.trans (congrArg _ hv.fila)
        · intro x hx
          rcases List.mem_cons.mp hx with rfl | hx
          · exact hr
          · exact hv.escritos x hx
    | espera r aux resto hh hp =>
      have hr : xdrRequestIn r = true := hc
      refine ⟨(g, some (i, .REQ r)), ?_, hseg', htoken, htempo, Or.inr ⟨i, r, rfl, rfl, ?_⟩⟩
      · have hnao : ¬ (g.pilha.OnTop r ∨ g.pilha.Takes r) := by
          rw [← hv.passa r]
          unfold xdrRequestIn at hr
          rw [Bool.and_eq_true] at hr
          exact mt (passa_iff hseg.bom.valida hseg.bom.dez hr.1 hr.2 hh).mpr hp
        rw [not_or] at hnao
        unfold Machine.halting guarda
        simp [hnao.1, hnao.2]
      · unfold espera
        simp [hh, hp]
    | libera r =>
      refine ⟨({ pilha := g.pilha.pop, TOKEN := r.recurso_n,
                 TEMPO := if g.TEMPO > r.tempo_c then g.TEMPO + 1 else r.tempo_c + 1 }, none),
        rfl, hseg', rfl, ?_, Or.inl ⟨rfl, hl, ⟨?_, ?_⟩⟩⟩
      · unfold rel1Svc
        rw [htempo]
      · rw [rel1Svc_suaFila, removeItem_head, hv.fila, ← List.map_tail]
        rfl
      · intro x hx
        exact hv.escritos x (List.mem_of_mem_tail hx)
  · cases hcontra

/-- A turn of the loop changes nothing. -/
theorem gira_acompanha {s s' : Servidor ι} {p : Guarda × Option (ι × Chamada)}
    {e : List (Evento ι)} (h : Acompanha s p) (hs : (servico ι).step s .gira = some (s', e)) :
    s' = s ∧ e = [] := by
  unfold servico at hs
  simp only [h.seguro.vivo, if_true, Option.map_eq_some_iff] at hs
  obtain ⟨⟨i, r⟩, hp, hg⟩ := hs
  rcases h.onde with ⟨-, hl, -⟩ | ⟨j, r', -, hj, hespera⟩
  · rw [hp] at hl
    cases hl
  · rw [hp, Option.some.injEq, Prod.mk.injEq] at hj
    obtain ⟨rfl, rfl⟩ := hj
    unfold gira at hg
    rw [hespera] at hg
    simp only [Prod.mk.injEq] at hg
    obtain ⟨rfl, rfl⟩ := hg
    rw [← hp]
    exact ⟨rfl, rfl⟩

theorem chama_acompanha {s s' : Servidor ι} {p : Guarda × Option (ι × Chamada)} {i : ι}
    {c : Chamada} {e : List (Evento ι)} (h : Acompanha s p) (hc : c.escreve = true)
    (hs : (servico ι).step s (.chama i c) = some (s', e)) :
    ∃ q, (guarda ι).halting.step p (i, c) = some (q, e) ∧ Acompanha s' q := by
  unfold servico at hs
  simp only [h.seguro.vivo, if_true] at hs
  split at hs
  · rename_i hl
    have ha := serverCent1_cases h.seguro.bom i c
    rw [Option.some.injEq] at hs
    rw [hs] at ha
    obtain ⟨g, o⟩ := p
    rcases h.onde with ⟨rfl, -, -⟩ | ⟨j, r, -, hj, -⟩
    · exact atende_acompanha h hc ha
    · rw [hj] at hl
      cases hl
  · cases hs

/-! ## Every run on the bytes -/

/-- The call of the message, with its client. -/
def Giro.chamada : Giro ι → Option (ι × Chamada)
  | .atende m => m.chamada.map fun c => (m.cliente, c)
  | .gira => none

theorem chamada_escreve {m : Recado ι} {c : Chamada} (h : m.chamada = some c) :
    c.escreve = true := by
  unfold Recado.chamada at h
  split at h
  · obtain ⟨⟨r, rest⟩, hget, rfl⟩ := Option.map_eq_some_iff.mp h
    unfold Chamada.escreve
    dsimp only
    rw [← codecRequestIn_put_isSome, (codecRequestIn.put_of_get hget).1]
    rfl
  · split at h
    · obtain ⟨⟨r, rest⟩, hget, rfl⟩ := Option.map_eq_some_iff.mp h
      unfold Chamada.escreve
      dsimp only
      rw [← codecRelease_put_isSome, (codecRelease.put_of_get hget).1]
      rfl
    · cases h

/-- A step on the bytes that is no call leaves the server as it is. -/
theorem svcRun_semChamada {s s' : Servidor ι} {p : Guarda × Option (ι × Chamada)} {a : Giro ι}
    {t : List (ι × RespostaRpc)} (h : Acompanha s p) (ha : a.chamada = none)
    (hs : (svcRun ι).step s a = some (s', t)) : s' = s ∧ t.filter doTratador = [] := by
  cases a with
  | gira =>
    obtain ⟨e, he, rfl⟩ := svcRun_turno (a := .gira) rfl hs
    obtain ⟨rfl, rfl⟩ := gira_acompanha h he
    exact ⟨rfl, rfl⟩
  | atende m =>
    apply svcRun_outra _ hs
    unfold Giro.turno
    rw [Option.map_eq_none_iff]
    exact Option.map_eq_none_iff.mp ha

/-- A step on the bytes of a call is a step of the stack, up to the first call
that the stack cannot take. -/
theorem svcRun_comChamada {s s' : Servidor ι} {p : Guarda × Option (ι × Chamada)} {a : Giro ι}
    {x : ι × Chamada} {t : List (ι × RespostaRpc)} (h : Acompanha s p) (ha : a.chamada = some x)
    (hs : (svcRun ι).step s a = some (s', t)) :
    ∃ q e, (guarda ι).halting.step p x = some (q, e) ∧ Acompanha s' q ∧
      t.filter doTratador = e.map sendreply := by
  cases a with
  | gira => cases ha
  | atende m =>
    obtain ⟨c, hc, rfl⟩ := Option.map_eq_some_iff.mp ha
    have hturno : (Giro.atende m).turno = some (.chama m.cliente c) := by
      unfold Giro.turno
      dsimp only
      rw [hc]
      rfl
    obtain ⟨e, he, rfl⟩ := svcRun_turno hturno hs
    obtain ⟨q, hq, hseg⟩ := chama_acompanha h (chamada_escreve hc) he
    exact ⟨q, e, hq, hseg, filter_sendreply e⟩

theorem svcRun_acompanha {ms : List (Giro ι)} {s : Servidor ι} {t : List (ι × RespostaRpc)}
    (hr : (svcRun ι).run Servidor.inicio ms = some (s, t)) :
    ∃ q e, (guarda ι).halting.run (Guarda.inicio, none) (ms.filterMap Giro.chamada) =
        some (q, e) ∧ Acompanha s q ∧ t.filter doTratador = e.map sendreply := by
  have hlei : (svcRun ι).Along (fun _ _ _ => True) Servidor.inicio ms :=
    along_all fun _ _ => trivial
  apply run_simulates (T := fun t e => t.filter doTratador = e.map sendreply) rfl
    (fun _ _ _ _ => respostas_append) inicio_acompanha _ _ hlei hr
  · rintro u t p a v e hu - ha hs
    obtain ⟨rfl, he⟩ := svcRun_semChamada hu ha hs
    exact ⟨hu, he⟩
  · rintro u t p a x v e hu - ha hs
    exact svcRun_comChamada hu ha hs

/-- Whatever messages come in, the server is a stack of at most ten calls, whose
stamps grow from the top down: it answers the calls as the stack does, up to the
first one that the stack cannot take. In that one it spins, and it is the last. -/
theorem the_server_is_a_stack_up_to_the_call_it_spins_in {ms : List (Giro ι)} {s : Servidor ι}
    {t : List (ι × RespostaRpc)} (hr : (svcRun ι).run Servidor.inicio ms = some (s, t)) :
    ∃ cs g e, (guarda ι).run Guarda.inicio cs = some (g, e) ∧
      t.filter doTratador = e.map sendreply ∧ s.TOKEN = g.TOKEN ∧ s.TEMPO = g.TEMPO ∧
      ((s.atual = none ∧ ms.filterMap Giro.chamada = cs ∧
          s.suaFila.head = g.pilha.items.map RequestIn.item) ∨
        ∃ i r, s.atual = some (i, r) ∧ ms.filterMap Giro.chamada = cs ++ [(i, .REQ r)] ∧
          (guarda ι).step g (i, .REQ r) = none) := by
  obtain ⟨⟨g, o⟩, e, hrun, hseg, he⟩ := svcRun_acompanha hr
  obtain ⟨cs, hcs, has, hnao⟩ := run_halting hrun
  refine ⟨cs, g, e, hcs, he, hseg.TOKEN, hseg.TEMPO, ?_⟩
  rcases hseg.onde with ⟨ho, hl, hv⟩ | ⟨i, r, ho, hl, -⟩
  · dsimp only at ho
    subst ho
    exact Or.inl ⟨hl, by simpa using has, hv.fila⟩
  · dsimp only at ho
    subst ho
    exact Or.inr ⟨i, r, hl, has, hnao _ rfl⟩

/-- A request of client 9 goes on top of that of client 7, and client 7 gives the
token back before client 8 asks behind the one that is left. -/
def pilhaDeDois : List (Giro Unit) :=
  [.atende { cliente := (), rq_proc := REQ, args := [0, 0, 0, 7, 0, 0, 0, 2] },
    .atende { cliente := (), rq_proc := REQ, args := [0, 0, 0, 9, 0, 0, 0, 1] },
    .atende { cliente := (), rq_proc := REL, args := [0, 0, 0, 7, 0, 0, 0, 3, 0, 0, 0, 2] },
    .atende { cliente := (), rq_proc := REQ, args := [0, 0, 0, 8, 0, 0, 0, 5] },
    .gira]

theorem the_server_spins_behind_a_stack_of_one : ∃ s t,
    (svcRun Unit).run Servidor.inicio pilhaDeDois = some (s, t) ∧
      s.atual = some ((), { pid_c := 8, tempo_c := 5 }) ∧
      ∃ cs g e, (guarda Unit).run Guarda.inicio cs = some (g, e) ∧
        t.filter doTratador = e.map sendreply := by
  obtain ⟨s, t, hrun, hatual⟩ : ∃ s t,
      (svcRun Unit).run Servidor.inicio pilhaDeDois = some (s, t) ∧
        s.atual = some ((), { pid_c := 8, tempo_c := 5 }) := exists_run (by decide)
  obtain ⟨cs, g, e, hg, he, -⟩ := the_server_is_a_stack_up_to_the_call_it_spins_in hrun
  exact ⟨s, t, hrun, hatual, cs, g, e, hg, he⟩

/-! ## Every run of the stack -/

/-- What the stack does, the server does with the message of the call. -/
theorem guarda_svcRun {s : Servidor ι} {g g' : Guarda} {x : ι × Chamada} {a : Giro ι}
    {e : List (Evento ι)} (h : Acompanha s (g, none)) (hx : x.2.escreve = true)
    (ha : giroDe (.chama x.1 x.2) = some a) (hs : (guarda ι).step g x = some (g', e)) :
    ∃ s', (svcRun ι).step s a = some (s', e.map sendreply) ∧ Acompanha s' (g', none) := by
  obtain ⟨i, c⟩ := x
  have hl : s.atual = none := by
    rcases h.onde with ⟨-, hl, -⟩ | ⟨_, _, hcontra, -⟩
    · exact hl
    · cases hcontra
  have hserv : (servico ι).step s (.chama i c) = some (serverCent1 s i c) := by
    unfold servico
    simp [h.seguro.vivo, hl]
  obtain ⟨q, hq, hseg⟩ := chama_acompanha h hx hserv
  obtain ⟨-, ⟨hnone, hg⟩ | ⟨-, -, hno⟩⟩ := halting_step hq
  · dsimp only at hg
    rw [hs, Option.some.injEq, Prod.mk.injEq] at hg
    obtain ⟨rfl, rfl⟩ := hg
    refine ⟨_, svcRun_giroDe ha hserv, ?_⟩
    rw [← hnone]
    exact hseg
  · dsimp only at hno
    rw [hs] at hno
    cases hno

/-- Each run of the stack is a run of the server, on the bytes of its calls: the
server answers each of them at once. -/
theorem what_the_stack_takes_the_server_answers_at_once {cs : List (ι × Chamada)}
    (hcs : ∀ x ∈ cs, x.2.escreve = true) {g : Guarda} {e : List (Evento ι)}
    (hr : (guarda ι).run Guarda.inicio cs = some (g, e)) :
    ∃ s, (svcRun ι).run Servidor.inicio (cs.filterMap fun x => giroDe (.chama x.1 x.2)) =
        some (s, e.map sendreply) ∧
      s.atual = none ∧ s.suaFila.head = g.pilha.items.map RequestIn.item ∧
      s.TOKEN = g.TOKEN ∧ s.TEMPO = g.TEMPO := by
  have hlei : (guarda ι).Along (fun _ _ x => x.2.escreve = true) Guarda.inicio cs := along_all hcs
  obtain ⟨s, f, hrun, h, rfl⟩ : ∃ s f,
      (svcRun ι).run Servidor.inicio (cs.filterMap fun x => giroDe (.chama x.1 x.2)) =
        some (s, f) ∧ Acompanha s (g, none) ∧ e.map sendreply = f := by
    apply run_simulates (R := fun g s => Acompanha s (g, none))
      (T := fun e t => e.map sendreply = t) rfl (fun _ _ _ _ => sendreply_append)
      inicio_acompanha _ _ hlei hr
    · rintro u t s x v e - hx ha -
      have hsome : (giroDe (.chama x.1 x.2)).isSome = true := (giroDe_isSome _).trans hx
      rw [ha] at hsome
      cases hsome
    · rintro u t s x a v e hu hx ha hs
      obtain ⟨s', hs', hseg⟩ := guarda_svcRun hu hx ha hs
      exact ⟨s', _, hs', hseg, rfl⟩
  rcases h.onde with ⟨-, hl, hv⟩ | ⟨_, _, hcontra, -⟩
  · exact ⟨s, hrun, hl, hv.fila, h.TOKEN, h.TEMPO⟩
  · cases hcontra

/-- Client 9 asks on top of client 7, and both give the token back. -/
def umSobreOOutro : List (Unit × Chamada) :=
  [((), .REQ { pid_c := 7, tempo_c := 2 }), ((), .REQ { pid_c := 9, tempo_c := 1 }),
    ((), .REL { pid_c := 9, tempo_c := 4, recurso_n := 2 }),
    ((), .REL { pid_c := 7, tempo_c := 4, recurso_n := 4 })]

theorem one_call_on_top_of_another_is_answered_at_once : ∃ g e s,
    (guarda Unit).run Guarda.inicio umSobreOOutro = some (g, e) ∧ e.length = 4 ∧
      (svcRun Unit).run Servidor.inicio
          (umSobreOOutro.filterMap fun x => giroDe (.chama x.1 x.2)) =
        some (s, e.map sendreply) ∧
      s.suaFila.head = g.pilha.items.map RequestIn.item := by
  obtain ⟨g, e, hrun, hlen⟩ : ∃ g e,
      (guarda Unit).run Guarda.inicio umSobreOOutro = some (g, e) ∧ e.length = 4 :=
    exists_run (by decide)
  obtain ⟨s, hs, -, hfila, -⟩ := what_the_stack_takes_the_server_answers_at_once (by decide) hrun
  exact ⟨g, e, s, hrun, hlen, hs, hfila⟩

end lab07
