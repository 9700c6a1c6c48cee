-- The value of the token in LAB07-SD/backup. Each client doubles it in a
-- variable of type `int`, so the token is 2^n behind the n-th release up to the
-- thirtieth, and the next client overflows.
import Mathlib.Algebra.Group.Nat.Defs
import ExclusaoMutua.Lab07.Devolucao

open fila in_flight machine signed_order

namespace lab07

variable {ι : Type}

/-! ## The use of the token -/

/-- `recurso` fits in an `int`, and `recurso * 2` does too when it is computed. -/
def UsoCabe (recurso : Int64) : Prop :=
  recurso.toInt32.toInt64 = recurso ∧
    (recurso.toInt32 < 0 ∨ recurso.toInt32.toInt * 2 ≤ 2147483647)

instance (recurso : Int64) : Decidable (UsoCabe recurso) := inferInstanceAs (Decidable (_ ∧ _))

/-- The token behind the n-th release. -/
def tokenDepois (n : Nat) : Int := if n = 0 then -1 else ((2 ^ n : Nat) : Int)

theorem tokenDepois_pos {n : Nat} (h : 0 < n) : tokenDepois n = ((2 ^ n : Nat) : Int) := by
  unfold tokenDepois
  rw [if_neg (by omega)]

theorem token_zero {x : Int64} (h : x.toInt = tokenDepois 0) : x = -1 := by
  apply Int64.toInt_inj.mp
  rw [h]
  decide

/-- Behind the first release and up to the thirtieth the token is an `int`. -/
theorem token_int {x : Int64} {n : Nat} (h0 : 0 < n) (hn : n ≤ 30) (hx : x.toInt = tokenDepois n) :
    x.toInt32.toInt = ((2 ^ n : Nat) : Int) := by
  have hle : 2 ^ n ≤ 2 ^ 30 := Nat.pow_le_pow_right (by decide) hn
  rw [tokenDepois_pos h0] at hx
  generalize 2 ^ n = p at hx hle ⊢
  rw [toInt32_toInt (by omega) (by omega), hx]

/-- Only the first token is negative. -/
theorem token_nonneg {x : Int64} {n : Nat} (h0 : 0 < n) (hn : n ≤ 30)
    (hx : x.toInt = tokenDepois n) : ¬ x.toInt32 < 0 := by
  intro hlt
  have hneg := Int32.lt_iff_toInt_lt.mp hlt
  rw [token_int h0 hn hx, show (0 : Int32).toInt = 0 by decide] at hneg
  generalize 2 ^ n = p at hneg
  omega

/-- The use of the token is safe up to the thirtieth time. -/
theorem usoCabe_iff {x : Int64} {n : Nat} (hn : n ≤ 30) (hx : x.toInt = tokenDepois n) :
    UsoCabe x ↔ n < 30 := by
  unfold UsoCabe
  by_cases h0 : n = 0
  · subst h0
    rw [token_zero hx]
    decide
  · have hint := token_int (by omega) hn hx
    have hlong : x.toInt32.toInt64 = x := by
      apply Int64.toInt_inj.mp
      rw [Int32.toInt_toInt64, hint, hx, tokenDepois_pos (by omega)]
    rw [hint]
    constructor
    · rintro ⟨-, h | h⟩
      · exact absurd h (token_nonneg (by omega) hn hx)
      · by_contra hge
        obtain rfl : n = 30 := by omega
        omega
    · intro hlt
      have hle : 2 ^ n ≤ 2 ^ 29 := Nat.pow_le_pow_right (by decide) (by omega)
      exact ⟨hlong, Or.inr (by omega)⟩

/-- A use of the token before the thirtieth release doubles it. -/
theorem usaRecurso_toInt {x : Int64} {n : Nat} (hn : n < 30) (hx : x.toInt = tokenDepois n) :
    (usaRecurso x).toInt = tokenDepois (n + 1) := by
  by_cases h0 : n = 0
  · subst h0
    rw [token_zero hx]
    decide
  · have hint := token_int (by omega) (by omega) hx
    have hle : 2 ^ n ≤ 2 ^ 29 := Nat.pow_le_pow_right (by decide) (by omega)
    have hdobro : (x.toInt32 * 2).toInt = x.toInt32.toInt * 2 := by
      rw [Int32.toInt_mul, show (2 : Int32).toInt = 2 by decide, hint]
      generalize 2 ^ n = p at hle
      exact Int.bmod_eq_of_le (by omega) (by omega)
    unfold usaRecurso
    simp only [token_nonneg (by omega) (by omega) hx, if_false]
    rw [Int32.toInt_toInt64, hdobro, hint, tokenDepois_pos (by omega), Nat.pow_succ]
    generalize 2 ^ n = p
    omega

/-! ## One holder after the other -/

/-- The number of calls of `rel_1` that the server has handled. -/
def devolvidos (t : List (Evento ι)) : Nat :=
  t.countP fun e => match e with
    | .req .. => false
    | .rel .. => true

/-- The server takes a call of `req_1` only while nobody has the token. -/
def Sequencial (s : Sistema ι) (a : Acao ι) : Prop :=
  ∀ i r, s.atendida a = some (i, .REQ r) → ∀ j, ¬ Tem s j

/-- The token in the hands of the server, and on its way to a client and back. -/
structure Percurso (s : Sistema ι) (n : Nat) : Prop where
  token : s.servidor.TOKEN.toInt = tokenDepois n
  trinta : n ≤ 30
  unico : ∀ i j, Tem s i → Tem s j → i = j
  regiao : ∀ i, (s.clientes i).fase = .regiao → (s.clientes i).rep_out.recurso = s.servidor.TOKEN
  reply : ∀ i rep, (i, .reply rep) ∈ s.respostas → rep.recurso = s.servidor.TOKEN
  rel : ∀ i r, (i, .REL r) ∈ s.chamadas → n < 30 ∧ r.recurso_n = usaRecurso s.servidor.TOKEN

theorem inicio_percurso (pid : ι → Int32) : Percurso (Sistema.inicio pid) 0 where
  token := show (-1 : Int64).toInt = tokenDepois 0 by decide
  trinta := by omega
  unico i _ hi := absurd hi (inicio_tem pid i)
  regiao i hi := by cases hi
  reply i rep hi := by cases hi
  rel i r hi := by cases hi

/-- A state in which nobody has the token. -/
theorem percurso_livre {s : Sistema ι} {n : Nat} (ht : s.servidor.TOKEN.toInt = tokenDepois n)
    (hn : n ≤ 30) (h : ∀ i, ¬ Tem s i) : Percurso s n where
  token := ht
  trinta := hn
  unico i _ hi := absurd hi (h i)
  regiao i hi := absurd (Or.inl hi) (h i)
  reply i rep hi := absurd (Or.inr (Or.inl ⟨rep, hi⟩)) (h i)
  rel i r hi := absurd (Or.inr (Or.inr ⟨r, hi⟩)) (h i)

/-- A step that gives the token to nobody and leaves its value in the server. -/
theorem Percurso.fica {s s' : Sistema ι} {n : Nat} (h : Percurso s n)
    (hT : s'.servidor.TOKEN = s.servidor.TOKEN) (htem : ∀ i, Tem s' i → Tem s i)
    (hregiao : ∀ i, (s'.clientes i).fase = .regiao →
      (s'.clientes i).rep_out.recurso = s.servidor.TOKEN)
    (hreply : ∀ i rep, (i, .reply rep) ∈ s'.respostas → rep.recurso = s.servidor.TOKEN)
    (hrel : ∀ i r, (i, .REL r) ∈ s'.chamadas →
      n < 30 ∧ r.recurso_n = usaRecurso s.servidor.TOKEN) : Percurso s' n := by
  rw [← hT] at hregiao hreply hrel
  refine ⟨?_, h.trinta, ?_, hregiao, hreply, hrel⟩
  · rw [hT]
    exact h.token
  · intro i j hi hj
    exact h.unico i j (htem i hi) (htem j hj)

theorem devolvidos_req (t : List (Evento ι)) (i : ι) (r : RequestIn) (rep : ReplyOut) :
    devolvidos (t ++ [.req i r rep]) = devolvidos t := by
  unfold devolvidos
  simp

theorem devolvidos_rel (t : List (Evento ι)) (i : ι) (r : Release) (n : Int32) :
    devolvidos (t ++ [.rel i r n]) = devolvidos t + 1 := by
  unfold devolvidos
  simp

theorem rel_fase (c : Cliente) : c.rel.1.fase ≠ .regiao := by
  unfold Cliente.rel
  simp only
  split
  · simp
  · simp

theorem rel_recurso {c : Cliente} {r : Release} (h : .REL r ∈ c.rel.2.toList) :
    r.recurso_n = usaRecurso c.rep_out.recurso := by
  unfold Cliente.rel at h
  simp only at h
  split at h
  · simp only [Option.toList_some, List.mem_singleton, Chamada.REL.injEq] at h
    rw [h]
  · cases h

variable [DecidableEq ι]

/-- A client that is not in its critical section, or is there with the token of
the server, takes the place of an old one. -/
theorem regiao_update {f : ι → Cliente} {T : Int64}
    (h : ∀ i, (f i).fase = .regiao → (f i).rep_out.recurso = T) (i : ι) {c : Cliente}
    (hc : c.fase = .regiao → c.rep_out.recurso = T) :
    ∀ j, (Function.update f i c j).fase = .regiao →
      (Function.update f i c j).rep_out.recurso = T :=
  (Function.forall_update_iff f fun _ c => c.fase = .regiao → c.rep_out.recurso = T).mpr
    ⟨hc, fun j _ => h j⟩

/-- The use of the token: the client sends back what it made of the token of
the server. -/
theorem devolve_percurso {s : Sistema ι} {n : Nat} (h : Percurso s n) (hn : n < 30) {i : ι}
    (hf : (s.clientes i).fase = .regiao)
    (htem : ∀ j, Tem (s.comCliente i (s.clientes i).rel) j → Tem s j) :
    Percurso (s.comCliente i (s.clientes i).rel) n := by
  refine h.fica rfl htem ?_ h.reply ?_
  · exact regiao_update h.regiao i fun hc => absurd hc (rel_fase _)
  · intro j r hr
    rcases List.mem_append.mp hr with hr | hr
    · exact h.rel j r hr
    · obtain ⟨c, hc, hjc⟩ := List.mem_map.mp hr
      simp only [Prod.mk.injEq] at hjc
      obtain ⟨rfl, rfl⟩ := hjc
      refine ⟨hn, ?_⟩
      rw [rel_recurso hc, h.regiao i hf]

/-- A step of a run with one holder after the other, in which no client uses
the token behind the thirtieth release. -/
theorem passo_percurso {pid : ι → Int32} {s s' : Sistema ι} {a : Acao ι} {t e : List (Evento ι)}
    (h : Ordeiro pid s) (hp : Percurso s (devolvidos t)) (hseq : Sequencial s a)
    (ha : ∀ i, a = .devolve i → devolvidos t < 30) (hs : (sistema ι).step s a = some (s', e)) :
    Percurso s' (devolvidos (t ++ e)) := by
  have hpasso : Passo s a s' e := passo_cases h.toHonesto hs
  have htem := fun j => passo_tem hpasso (j := j)
  have hfica : e = [] → ∀ j, Tem s' j → Tem s j := by
    intro he j hj
    rcases htem j hj with hj | ⟨r, rep, hmem⟩
    · exact hj
    · rw [he] at hmem
      cases hmem
  have hnovo : (∀ j, ¬ Tem s j) → ∀ j, Tem s' j → ∃ r rep, .req j r rep ∈ e := by
    intro hninguem j hj
    rcases htem j hj with hj | hmem
    · exact absurd hj (hninguem j)
    · exact hmem
  cases hpasso with
  | pede i hf r hr =>
    obtain ⟨c, o⟩ := r
    rw [List.append_nil]
    refine hp.fica rfl (hfica rfl) ?_ hp.reply ?_
    · apply regiao_update hp.regiao
      intro hc
      cases hr with
      | chama | falha => cases hc
    · intro j r hj
      rcases List.mem_append.mp hj with hj | hj
      · exact hp.rel j r hj
      · cases hr with
        | chama => simp at hj
        | falha => cases hj
  | devolve i hf r hr =>
    rw [List.append_nil]
    unfold sistema Sistema.passo at hs
    simp only [hf, if_true, Option.some.injEq, Prod.mk.injEq] at hs
    rw [← hs.1] at hfica ⊢
    exact devolve_percurso hp (ha i rfl) hf (hfica rfl)
  | atende k i c hk hl srv e hat =>
    have hrel : ∀ j r, (j, .REL r) ∈ s.chamadas.eraseIdx k →
        devolvidos t < 30 ∧ r.recurso_n = usaRecurso s.servidor.TOKEN :=
      fun j r hj => hp.rel j r (List.mem_of_mem_eraseIdx hj)
    cases hat with
    | responde r aux resto hh hcab =>
      -- nobody had the token, so now the caller alone has it
      have hsoele := hnovo (hseq i r hk)
      simp only [List.mem_singleton, Evento.req.injEq] at hsoele
      rw [devolvidos_req]
      refine ⟨hp.token, hp.trinta, ?_, hp.regiao, ?_, hrel⟩
      · intro j k hj hk
        obtain ⟨_, _, rfl, -⟩ := hsoele j hj
        obtain ⟨_, _, rfl, -⟩ := hsoele k hk
        rfl
      · intro j rep hj
        rcases List.mem_append.mp hj with hj | hj
        · exact hp.reply j rep hj
        · simp only [svcSendreply, List.map_cons, List.map_nil, List.mem_singleton,
            Prod.mk.injEq] at hj
          obtain ⟨-, hj⟩ := hj
          split at hj
          · simp only [Resposta.reply.injEq] at hj
            rw [hj]
          · cases hj
    | espera r aux resto hh hcab =>
      rw [List.append_nil]
      refine hp.fica rfl (hfica rfl) hp.regiao ?_ hrel
      simpa using hp.reply
    | libera r =>
      have hi : Tem s i := Or.inr (Or.inr ⟨r, List.mem_of_getElem? hk⟩)
      obtain ⟨hn, hvalor⟩ := hp.rel i r (List.mem_of_getElem? hk)
      rw [devolvidos_rel]
      apply percurso_livre _ (by omega) _
      · have hdobro := usaRecurso_toInt hn hp.token
        rw [← hvalor] at hdobro
        exact hdobro
      · intro j hj
        rcases htem j hj with hjs | ⟨r', rep, hmem⟩
        · obtain rfl := hp.unico i j hi hjs
          exact h.libera_tem hk _ 1 hj
        · simp at hmem
  | gira i r hg =>
    rw [List.append_nil]
    exact hp
  | chega k i r hk c hr =>
    rw [List.append_nil]
    refine hp.fica rfl (hfica rfl) ?_ ?_ hp.rel
    · apply regiao_update hp.regiao
      cases hr with
      | entra rep hf => exact fun _ => hp.reply i rep (List.mem_of_getElem? hk)
      | volta | falha => exact fun hc => by cases hc
      | ignora => exact hp.regiao i
    · intro j rep hj
      exact hp.reply j rep (List.mem_of_mem_eraseIdx hj)
  | desiste i hf =>
    rw [List.append_nil]
    refine hp.fica rfl (hfica rfl) ?_ hp.reply hp.rel
    exact regiao_update hp.regiao i fun hc => by cases hc

/-! ## Every run -/

/-- The token of the server is 2^n behind the n-th release, and the client that
uses the token does so within `int`. -/
def TokenDobra (s : Sistema ι) (t : List (Evento ι)) (a : Acao ι) : Prop :=
  s.servidor.TOKEN.toInt = tokenDepois (devolvidos t) ∧
    ∀ i, a = .devolve i → UsoCabe (s.clientes i).rep_out.recurso

/-- No client uses the token behind the thirtieth release. -/
def AteTrinta (t : List (Evento ι)) (a : Acao ι) : Prop := ∀ i, a = .devolve i → devolvidos t < 30

/-- In every run with one holder after the other, the token is 2^n behind each
n-th release and no client overflows, exactly when no client uses the token
behind the thirtieth release. -/
theorem the_token_doubles_iff_nobody_uses_it_behind_the_thirtieth_release {pid : ι → Int32}
    {as : List (Acao ι)} {s : Sistema ι} {t : List (Evento ι)}
    (hr : (sistema ι).run (Sistema.inicio pid) as = some (s, t))
    (hseq : (sistema ι).Along (fun u _ a => Sequencial u a) (Sistema.inicio pid) as) :
    ((sistema ι).Along TokenDobra (Sistema.inicio pid) as ∧
        s.servidor.TOKEN.toInt = tokenDepois (devolvidos t)) ↔
      (sistema ι).Along (fun _ t a => AteTrinta t a) (Sistema.inicio pid) as := by
  have h0 : Ordeiro pid (Sistema.inicio pid) ∧ Percurso (Sistema.inicio pid) 0 :=
    ⟨inicio_ordeiro pid, inicio_percurso pid⟩
  have hstep : ∀ u t a v e, Ordeiro pid u ∧ Percurso u (devolvidos t) →
      Sequencial u a ∧ AteTrinta t a → (sistema ι).step u a = some (v, e) →
      Ordeiro pid v ∧ Percurso v (devolvidos (t ++ e)) := by
    rintro u t a v e ⟨hu, hp⟩ ⟨hs, ha⟩ hstep
    exact ⟨passo_ordeiro hu (passo_cases hu.toHonesto hstep), passo_percurso hu hp hs ha hstep⟩
  have hiff : (sistema ι).Along (fun u t a => Sequencial u a ∧ TokenDobra u t a)
        (Sistema.inicio pid) as ↔
      (sistema ι).Along (fun u t a => Sequencial u a ∧ AteTrinta t a) (Sistema.inicio pid) as := by
    apply along_iff (I := fun u t => Ordeiro pid u ∧ Percurso u (devolvidos t)) h0 hstep _ hr
    rintro u t a v e ⟨hu, hp⟩ hstep
    apply and_congr_right
    intro _
    unfold TokenDobra AteTrinta
    rw [and_iff_right hp.token]
    apply forall_congr'
    intro i
    apply imp_congr_right
    rintro rfl
    have hpasso : Passo u (.devolve i) v e := passo_cases hu.toHonesto hstep
    cases hpasso with
    | devolve i hf =>
      rw [hp.regiao i hf]
      exact usoCabe_iff hp.trinta hp.token
  rw [along_and, along_and] at hiff
  constructor
  · rintro ⟨hdobra, -⟩
    exact (hiff.mp ⟨hseq, hdobra⟩).2
  · intro hate
    refine ⟨(hiff.mpr ⟨hseq, hate⟩).2, ?_⟩
    have hfim := run_invariant_along (I := fun u t => Ordeiro pid u ∧ Percurso u (devolvidos t))
      h0 hstep (along_and.mpr ⟨hseq, hate⟩) hr
    exact hfim.2.token

/-- `n` rounds of a client that is alone. -/
def rodadas (n : Nat) : List (Acao Unit) :=
  (List.replicate n [.pede (), .atende 0, .chega 0, .devolve (), .atende 0, .chega 0]).flatten

def pidSo : Unit → Int32 := fun _ => 100

def soPedidos (l : List (ι × Chamada)) : Bool :=
  l.all fun x => match x.2 with
    | .REQ _ => true
    | .REL _ => false

theorem sequencial_so {s : Sistema Unit} {a : Acao Unit}
    (h : ∀ x ∈ s.atendida a, soPedidos [x] = true →
      (s.clientes ()).fase ≠ .regiao ∧ s.respostas = [] ∧ soPedidos s.chamadas = true) :
    Sequencial s a := by
  intro i r hk j hj
  obtain ⟨hfase, hresp, hcham⟩ := h _ hk rfl
  rcases hj with hj | ⟨rep, hj⟩ | ⟨rel, hj⟩
  · exact hfase hj
  · rw [hresp] at hj
    cases hj
  · cases List.all_eq_true.mp hcham _ hj

set_option maxRecDepth 4000 in
/-- Thirty rounds leave 2^30. -/
theorem the_token_doubles_for_thirty_rounds : ∃ s t,
    (sistema Unit).run (Sistema.inicio pidSo) (rodadas 30) = some (s, t) ∧
      devolvidos t = 30 ∧ s.servidor.TOKEN.toInt = tokenDepois 30 := by
  obtain ⟨s, t, h, htrinta⟩ : ∃ s t,
      (sistema Unit).run (Sistema.inicio pidSo) (rodadas 30) = some (s, t) ∧ devolvidos t = 30 :=
    exists_run (by decide)
  have hseq : (sistema Unit).Along (fun u _ a => ∀ x ∈ u.atendida a, soPedidos [x] = true →
      (u.clientes ()).fase ≠ .regiao ∧ u.respostas = [] ∧ soPedidos u.chamadas = true)
      (Sistema.inicio pidSo) (rodadas 30) := along_of_check (by decide)
  have hate : (sistema Unit).Along (fun _ t a => (match a with
      | .devolve _ => decide (devolvidos t < 30)
      | _ => true) = true) (Sistema.inicio pidSo) (rodadas 30) := along_of_check (by decide)
  have hdobra := (the_token_doubles_iff_nobody_uses_it_behind_the_thirtieth_release h
    (along_mono hseq fun _ _ _ hu => sequencial_so hu)).mpr
      (along_mono hate fun _ t a ha i hi => by subst hi; exact of_decide_eq_true ha)
  exact ⟨s, t, h, htrinta, htrinta ▸ hdobra.2⟩

set_option maxRecDepth 4000 in
/-- The client that has the token behind the thirtieth release overflows. -/
theorem the_thirty_first_use_overflows : ∃ s t,
    (sistema Unit).run (Sistema.inicio pidSo) (rodadas 30 ++ [.pede (), .atende 0, .chega 0]) =
        some (s, t) ∧
      (sistema Unit).Along (fun u _ a => Sequencial u a) (Sistema.inicio pidSo)
        (rodadas 30 ++ [.pede (), .atende 0, .chega 0]) ∧
      (s.clientes ()).fase = .regiao ∧ ¬ UsoCabe (s.clientes ()).rep_out.recurso := by
  obtain ⟨s, t, h, hfase, hcabe⟩ : ∃ s t,
      (sistema Unit).run (Sistema.inicio pidSo) (rodadas 30 ++ [.pede (), .atende 0, .chega 0]) =
        some (s, t) ∧
      (s.clientes ()).fase = .regiao ∧ ¬ UsoCabe (s.clientes ()).rep_out.recurso :=
    exists_run (by decide)
  have hseq : (sistema Unit).Along (fun u _ a => ∀ x ∈ u.atendida a, soPedidos [x] = true →
      (u.clientes ()).fase ≠ .regiao ∧ u.respostas = [] ∧ soPedidos u.chamadas = true)
      (Sistema.inicio pidSo) (rodadas 30 ++ [.pede (), .atende 0, .chega 0]) :=
    along_of_check (by decide)
  exact ⟨s, t, h, along_mono hseq fun _ _ _ hu => sequencial_so hu, hfase, hcabe⟩

end lab07
