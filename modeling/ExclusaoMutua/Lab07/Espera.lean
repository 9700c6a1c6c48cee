-- The wait of `req_1_svc`. The server does nothing else while a call waits, so
-- nothing moves the head of the queue: the loop ends at its first test, or
-- never.
import Mathlib.Data.Fintype.Card
import ExclusaoMutua.Lab07.Sistema

open fila machine

namespace lab07

/-! ## The first test of the loop -/

/-- `insere` puts the item of `r` in front of the head of the queue `l`. -/
def FuraFila (l : List (Item Int64 Unit)) (r : RequestIn) : Prop :=
  match l with
  | [] => False
  | aux :: resto =>
    r.pid_c ∉ (aux :: resto).map Item.PID ∧ (aux :: resto).length < 10 ∧ r.tempo_c < aux.tempo

instance : (l : List (Item Int64 Unit)) → (r : RequestIn) → Decidable (FuraFila l r)
  | [], _ => .isFalse id
  | aux :: resto, r => inferInstanceAs (Decidable (r.pid_c ∉ (aux :: resto).map Item.PID ∧ _))

/-- The call with the argument `r` finds itself at the head of the queue `l`. -/
def Passa (l : List (Item Int64 Unit)) (r : RequestIn) : Prop :=
  match l with
  | [] => True
  | aux :: resto => aux.PID = r.pid_c ∨ FuraFila (aux :: resto) r

/-- The values of `r` fit into an `int`. -/
theorem item_eq {r : RequestIn} (hp : xdrLong r.pid_c = true) (ht : xdrLong r.tempo_c = true) :
    r.item = { PID := r.pid_c, tempo := r.tempo_c, dados := () } := by
  unfold xdrLong at hp ht
  unfold RequestIn.item
  simp only [of_decide_eq_true hp, of_decide_eq_true ht]

/-- The head behind `insere`: the old one, or the new item in front of it. -/
theorem comItem_fura {f : Fila Int64 Unit} (h : f.Valida) (hN : f.N = 10) {r : RequestIn}
    (hp : xdrLong r.pid_c = true) (ht : xdrLong r.tempo_c = true) {cab : Item Int64 Unit}
    {next : List (Item Int64 Unit)} (hl : f.head = cab :: next) :
    (comItem f r.item).head.head? = some (if FuraFila f.head r then r.item else cab) := by
  have htam := h.tam
  rw [hl] at htam
  rw [item_eq hp ht]
  unfold comItem
  rw [hN]
  by_cases hcabe : f.tamanho < 10 ∧
      estaNaFila f { PID := r.pid_c, tempo := r.tempo_c, dados := () } = false
  · have hfora := estaNaFila_false.mp hcabe.2
    have hlen : (cab :: next).length < 10 := by omega
    rw [hl] at hfora
    rw [if_pos hcabe, hl, colocada_head]
    by_cases hlt : r.tempo_c < cab.tempo
    · have hfura : FuraFila (cab :: next) r := ⟨hfora, hlen, hlt⟩
      rw [if_pos hlt, if_pos hfura]
    · have hnao : ¬ FuraFila (cab :: next) r := fun hfura => hlt hfura.2.2
      rw [if_neg hlt, if_neg hnao]
  · have hnao : ¬ FuraFila f.head r := by
      rw [hl]
      rintro ⟨hfora, hlen, -⟩
      apply hcabe
      refine ⟨by omega, estaNaFila_false.mpr ?_⟩
      rw [hl]
      exact hfora
    rw [if_neg hcabe, if_neg hnao, hl]
    rfl

theorem passa_iff {f : Fila Int64 Unit} (h : f.Valida) (hN : f.N = 10) {r : RequestIn}
    (hp : xdrLong r.pid_c = true) (ht : xdrLong r.tempo_c = true) {aux : Item Int64 Unit}
    {resto : List (Item Int64 Unit)} (hh : (comItem f r.item).head = aux :: resto) :
    aux.PID = r.pid_c ↔ Passa f.head r := by
  have hitem := item_eq hp ht
  rcases hl : f.head with _ | ⟨cab, next⟩
  · have hzero := h.tamanho_zero.mpr hl
    have hcabe : f.tamanho < f.N ∧ estaNaFila f r.item = false := by
      refine ⟨?_, by simp [estaNaFila, hl]⟩
      rw [hzero, hN]
      decide
    unfold comItem at hh
    rw [if_pos hcabe, hl, hitem] at hh
    unfold colocada at hh
    simp only [List.cons.injEq] at hh
    rw [← hh.1]
    exact iff_of_true rfl trivial
  · have hhead := comItem_fura h hN hp ht hl
    rw [hh, hl, List.head?_cons, Option.some.injEq] at hhead
    have hpassa : Passa (cab :: next) r ↔ cab.PID = r.pid_c ∨ FuraFila (cab :: next) r := Iff.rfl
    rw [hpassa]
    by_cases hfura : FuraFila (cab :: next) r
    · rw [if_pos hfura, hitem] at hhead
      subst hhead
      exact iff_of_true rfl (Or.inr hfura)
    · rw [if_neg hfura] at hhead
      subst hhead
      exact (or_iff_left hfura).symm

/-! ## The loop -/

variable {ι : Type} [DecidableEq ι]

/-- While a call waits, the server stands still and gives no reply. -/
theorem preso_para_sempre {pid : ι → Int32} {s u : Sistema ι} {i : ι} {r : RequestIn}
    (h : Ordeiro pid s) (hs : s.servidor.atual = some (i, r)) {as : List (Acao ι)}
    {t : List (Evento ι)} (hr : (sistema ι).run s as = some (u, t)) :
    t = [] ∧ u.servidor = s.servidor := by
  have hinv : Ordeiro pid u ∧ t = [] ∧ u.servidor = s.servidor := by
    apply run_invariant _ _ hr
    · exact ⟨h, rfl, rfl⟩
    · rintro u t a v e ⟨hu, rfl, hserv⟩ hstep
      have hp := passo_cases hu.toHonesto hstep
      refine ⟨passo_ordeiro hu hp, ?_⟩
      cases hp with
      | atende k j c hk hl =>
        rw [hserv, hs] at hl
        cases hl
      | pede | devolve | gira | chega | desiste => exact ⟨rfl, hserv⟩
  exact hinv.2

/-- What the server does with a call of `req_1` that it takes: it replies at
once, or nobody ever gets a reply again. -/
theorem atende_ou_nunca {pid : ι → Int32} {s s' : Sistema ι} {k : Nat} {e : List (Evento ι)}
    (h : Ordeiro pid s) (hp : Passo s (.atende k) s' e) {i : ι} {r : RequestIn}
    (hk : s.chamadas[k]? = some (i, .REQ r)) :
    (Passa s.servidor.suaFila.head r ∧ ∃ rep, e = [.req i r rep]) ∨
      (¬ Passa s.servidor.suaFila.head r ∧ e = [] ∧ s'.servidor.atual = some (i, r)) := by
  obtain ⟨hpid, htempo⟩ := h.chamadas _ (List.mem_of_getElem? hk)
  have hlong : xdrLong r.pid_c = true := by simp [xdrLong, hpid]
  cases hp with
  | atende k j c hk' hl srv t ha =>
    rw [hk, Option.some.injEq, Prod.mk.injEq] at hk'
    obtain ⟨rfl, rfl⟩ := hk'
    cases ha with
    | responde r aux resto hh hcab =>
      exact Or.inl ⟨(passa_iff h.bom.valida h.bom.dez hlong htempo hh).mp hcab, _, rfl⟩
    | espera r aux resto hh hcab =>
      exact Or.inr ⟨mt (passa_iff h.bom.valida h.bom.dez hlong htempo hh).mpr hcab, rfl, rfl⟩

/-- A call of `req_1` that comes to the server gets its reply, sooner or later,
exactly when no other call waits there and the first test of the loop finds the
caller at the head of the queue. It then gets the reply at once. -/
theorem a_call_gets_its_reply_iff_it_gets_it_at_once {pid : ι → Int32} {as : List (Acao ι)}
    {s : Sistema ι} {t : List (Evento ι)}
    (hr : (sistema ι).run (Sistema.inicio pid) as = some (s, t)) {k : Nat} {i : ι}
    {r : RequestIn} (hk : s.chamadas[k]? = some (i, .REQ r)) :
    ((∃ as' s' t' rep, (sistema ι).run s (.atende k :: as') = some (s', t') ∧
          .req i r rep ∈ t') ↔
        s.servidor.atual = none ∧ Passa s.servidor.suaFila.head r) ∧
      (s.servidor.atual = none ∧ Passa s.servidor.suaFila.head r →
        ∃ s' rep, (sistema ι).step s (.atende k) = some (s', [.req i r rep])) := by
  have h := sistema_ordeiro hr
  have hagora : s.servidor.atual = none ∧ Passa s.servidor.suaFila.head r →
      ∃ s' rep, (sistema ι).step s (.atende k) = some (s', [.req i r rep]) := by
    rintro ⟨hlivre, hpassa⟩
    obtain ⟨s₁, e, hstep⟩ : ∃ s₁ e, (sistema ι).step s (.atende k) = some (s₁, e) := by
      unfold sistema Sistema.passo
      simp only [hk, h.vivo, hlivre, Option.isNone_none, and_self, if_true]
      exact ⟨_, _, rfl⟩
    rcases atende_ou_nunca h (passo_cases h.toHonesto hstep) hk with ⟨-, rep, rfl⟩ | ⟨hnao, -⟩
    · exact ⟨s₁, rep, hstep⟩
    · exact absurd hpassa hnao
  refine ⟨⟨?_, ?_⟩, hagora⟩
  · rintro ⟨as', s', t', rep, hrun, hmem⟩
    obtain ⟨s₁, e, t₂, hstep, hrest, rfl⟩ := run_cons.mp hrun
    have hp : Passo s (.atende k) s₁ e := passo_cases h.toHonesto hstep
    rcases atende_ou_nunca h hp hk with ⟨hpassa, -⟩ | ⟨-, rfl, hatual⟩
    · cases hp with
      | atende k j c hk' hl => exact ⟨hl, hpassa⟩
    · rw [(preso_para_sempre (passo_ordeiro h hp) hatual hrest).1] at hmem
      cases hmem
  · intro hcond
    obtain ⟨s₁, rep, hstep⟩ := hagora hcond
    exact ⟨[], s₁, _, rep, run_single.mpr hstep, List.mem_cons_self⟩

/-- What `getpid` gives to each of two clients. -/
def doisPids (i : Fin 2) : Int32 := if i = 0 then 100 else 101

theorem doisPids_injective : Function.Injective doisPids := by decide

/-- Client `i` has used the token once and has it again, with stamp 4, when the
newcomer `j` calls with stamp 1. -/
def novoNaFrente (i j : ι) : List (Acao ι) :=
  [.pede i, .atende 0, .chega 0, .devolve i, .atende 0, .chega 0, .pede i, .atende 0, .chega 0,
    .pede j]

/-- The call of the newcomer comes in front of the entry of the holder, and gets
its reply at once. -/
theorem a_call_in_front_of_the_holder_gets_its_reply : ∃ s t s' rep,
    (sistema (Fin 2)).run (Sistema.inicio doisPids) (novoNaFrente 0 1) = some (s, t) ∧
    s.servidor.suaFila.head = [{ PID := 100, tempo := 4, dados := () }] ∧
    (sistema (Fin 2)).step s (.atende 0) =
      some (s', [.req 1 { pid_c := 101, tempo_c := 1 } rep]) := by
  obtain ⟨s, t, h, hk, hlivre, hfila⟩ : ∃ s t,
      (sistema (Fin 2)).run (Sistema.inicio doisPids) (novoNaFrente 0 1) = some (s, t) ∧
      s.chamadas[0]? = some (1, .REQ { pid_c := 101, tempo_c := 1 }) ∧
      s.servidor.atual = none ∧
      s.servidor.suaFila.head = [{ PID := 100, tempo := 4, dados := () }] := exists_run (by decide)
  have hpassa : Passa s.servidor.suaFila.head { pid_c := 101, tempo_c := 1 } := by
    rw [hfila]
    exact Or.inr (by decide)
  obtain ⟨s', rep, hs⟩ :=
    (a_call_gets_its_reply_iff_it_gets_it_at_once h hk).2 ⟨hlivre, hpassa⟩
  exact ⟨s, t, s', rep, h, hfila, hs⟩

/-- The first of two clients has the token when the second calls: the second
never gets a reply, in whatever order the rest comes. -/
theorem a_second_call_waits_forever : Function.Injective doisPids ∧ ∃ s t,
    (sistema (Fin 2)).run (Sistema.inicio doisPids) [.pede 0, .atende 0, .chega 0, .pede 1] =
      some (s, t) ∧
    s.chamadas[0]? = some (1, .REQ { pid_c := 101, tempo_c := 1 }) ∧
    s.servidor.atual = none ∧
    ∀ as' s' t' rep, (sistema (Fin 2)).run s (.atende 0 :: as') = some (s', t') →
      .req 1 { pid_c := 101, tempo_c := 1 } rep ∉ t' := by
  obtain ⟨s, t, h, hk, hlivre, hstep⟩ : ∃ s t,
      (sistema (Fin 2)).run (Sistema.inicio doisPids) [.pede 0, .atende 0, .chega 0, .pede 1] =
        some (s, t) ∧
      s.chamadas[0]? = some (1, .REQ { pid_c := 101, tempo_c := 1 }) ∧
      s.servidor.atual = none ∧
      ((sistema (Fin 2)).step s (.atende 0)).all (fun p =>
        p.1.servidor.atual = some (1, { pid_c := 101, tempo_c := 1 }) ∧ p.2 = []) = true :=
    exists_run (by decide)
  refine ⟨doisPids_injective, s, t, h, hk, hlivre, ?_⟩
  intro as' s' t' rep hrun
  obtain ⟨s₁, e, t₂, hs₁, hrest, rfl⟩ := run_cons.mp hrun
  rw [hs₁, Option.all_some, decide_eq_true_eq] at hstep
  obtain ⟨hatual, rfl⟩ := hstep
  have hs := sistema_ordeiro h
  have hp : Passo s (.atende 0) s₁ [] := passo_cases hs.toHonesto hs₁
  rw [(preso_para_sempre (passo_ordeiro hs hp) hatual hrest).1]
  simp

end lab07
