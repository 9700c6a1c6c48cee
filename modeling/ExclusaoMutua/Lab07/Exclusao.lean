-- Mutual exclusion in LAB07-SD/backup. The client that has the token stays at
-- the head of the queue, and `req_1_svc` replies to whoever is at the head. So
-- a newcomer with a smaller stamp than the holder gets the token as well.
import ExclusaoMutua.Lab07.Espera

open fila in_flight machine

namespace lab07

variable {ι : Type}

/-- The call goes past the head of the queue `l`. -/
def Chamada.FuraFila (l : List (Item Int64 Unit)) : Chamada → Prop
  | .REQ r => lab07.FuraFila l r
  | .REL _ => False

instance (l : List (Item Int64 Unit)) : (c : Chamada) → Decidable (c.FuraFila l)
  | .REQ r => inferInstanceAs (Decidable (lab07.FuraFila l r))
  | .REL _ => .isFalse id

/-- The call that the step hands to the server. -/
def Sistema.atendida (s : Sistema ι) : Acao ι → Option (ι × Chamada)
  | .atende k => s.chamadas[k]?
  | _ => none

/-- While a client has the token, the step takes no call that goes past the
head of the queue. -/
def NaoFuraFila (s : Sistema ι) (a : Acao ι) : Prop :=
  (∃ j, Tem s j) → ∀ x ∈ s.atendida a, ¬ x.2.FuraFila s.servidor.suaFila.head

/-- The client at the head of the queue is the only one that has the token. -/
def Dono (pid : ι → Int32) (s : Sistema ι) : Prop :=
  ∀ i, Tem s i → ∃ aux, s.servidor.suaFila.head.head? = some aux ∧ aux.PID = (pid i).toInt64

theorem inicio_dono (pid : ι → Int32) : Dono pid (Sistema.inicio pid) :=
  fun i h => absurd h (inicio_tem pid i)

theorem toInt64_injective {pid : ι → Int32} (hpid : Function.Injective pid) :
    Function.Injective fun i => (pid i).toInt64 := by
  intro i j hij
  apply hpid
  have hij : (pid i).toInt64 = (pid j).toInt64 := hij
  rw [← Int32.toInt32_toInt64 (pid i), hij, Int32.toInt32_toInt64]

/-- Clients with different PIDs do not have the token at once. -/
theorem Dono.unico {pid : ι → Int32} (hpid : Function.Injective pid) {s : Sistema ι}
    (h : Dono pid s) {i j : ι} (hi : Tem s i) (hj : Tem s j) : i = j := by
  obtain ⟨a, ha, hai⟩ := h i hi
  obtain ⟨b, hb, hbj⟩ := h j hj
  rw [ha, Option.some.injEq] at hb
  subst hb
  exact toInt64_injective hpid (hai.symm.trans hbj)

variable [DecidableEq ι]

/-- `insere` leaves the client that has the token at the head. -/
theorem insere_dono {pid : ι → Int32} {s : Sistema ι} (h : Ordeiro pid s) (hd : Dono pid s)
    {k : Nat} {i : ι} {r : RequestIn} (hk : s.chamadas[k]? = some (i, .REQ r))
    (ha : NaoFuraFila s (.atende k)) {aux : Item Int64 Unit} {resto : List (Item Int64 Unit)}
    (hh : (comItem s.servidor.suaFila r.item).head = aux :: resto) {j : ι} (hj : Tem s j) :
    aux.PID = (pid j).toInt64 := by
  obtain ⟨hpidr, htempo⟩ := h.chamadas _ (List.mem_of_getElem? hk)
  obtain ⟨cab, hcab, hpidj⟩ := hd j hj
  obtain ⟨next, hl⟩ := List.head?_eq_some_iff.mp hcab
  have hhead := comItem_fura h.bom.valida h.bom.dez (by simp [xdrLong, hpidr]) htempo hl
  have hnao : ¬ lab07.FuraFila s.servidor.suaFila.head r := ha ⟨j, hj⟩ _ hk
  rw [hh, if_neg hnao, List.head?_cons, Option.some.injEq] at hhead
  rw [hhead, hpidj]

/-- A step in which nobody goes past a client that has the token keeps it with
one client. -/
theorem passo_dono {pid : ι → Int32} (hpid : Function.Injective pid) {s s' : Sistema ι}
    {a : Acao ι} {t : List (Evento ι)} (h : Ordeiro pid s) (hd : Dono pid s)
    (ha : NaoFuraFila s a) (hp : Passo s a s' t) : Dono pid s' := by
  have htem := fun j => passo_tem hp (j := j)
  intro j hj
  cases hp with
  | atende k i c hk hl srv t hat =>
    cases hat with
    | responde r aux resto hh hcab =>
      have hpidr : r.pid_c = (pid i).toInt64 := (h.chamadas _ (List.mem_of_getElem? hk)).1
      refine ⟨aux, congrArg List.head? hh, ?_⟩
      rcases htem j hj with hj | ⟨r', rep, hmem⟩
      · exact insere_dono h hd hk ha hh hj
      · simp only [List.mem_singleton, Evento.req.injEq] at hmem
        rw [hcab, hpidr, hmem.1]
    | espera r aux resto hh hcab =>
      refine ⟨aux, congrArg List.head? hh, ?_⟩
      rcases htem j hj with hj | ⟨r', rep, hmem⟩
      · exact insere_dono h hd hk ha hh hj
      · cases hmem
    | libera r =>
      -- the client that gives the token back is the one at the head, so that
      -- nobody has it behind
      have hi : Tem s i := Or.inr (Or.inr ⟨r, List.mem_of_getElem? hk⟩)
      rcases htem j hj with hjs | ⟨r', rep, hmem⟩
      · obtain rfl := hd.unico hpid hi hjs
        exact absurd hj (h.libera_tem hk _ 1)
      · simp at hmem
  | pede | devolve | gira | chega | desiste =>
    rcases htem j hj with hj | ⟨r, rep, hmem⟩
    · exact hd j hj
    · cases hmem

/-- Mutual exclusion: in every run where nobody goes past a client that has the
token, no two clients have a reply to `req_1` and have not yet called `rel_1`. -/
theorem only_one_client_has_the_token_when_nobody_comes_in_front {pid : ι → Int32}
    (hpid : Function.Injective pid) {as : List (Acao ι)} {s : Sistema ι} {t : List (Evento ι)}
    (hr : (sistema ι).run (Sistema.inicio pid) as = some (s, t))
    (hfrente : (sistema ι).Along (fun u _ a => NaoFuraFila u a) (Sistema.inicio pid) as) :
    ∀ i j, (s.clientes i).fase = .regiao → (s.clientes j).fase = .regiao → i = j := by
  have hinv : Ordeiro pid s ∧ Dono pid s := by
    apply run_invariant_along _ _ hfrente hr
    · exact ⟨inicio_ordeiro pid, inicio_dono pid⟩
    · rintro u t a v e ⟨hu, hd⟩ ha hs
      have hp := passo_cases hu.toHonesto hs
      exact ⟨passo_ordeiro hu hp, passo_dono hpid hu hd ha hp⟩
  intro i j hi hj
  exact hinv.2.unico hpid (Or.inl hi) (Or.inl hj)

/-- Client `i` uses the token, and then `j` calls. -/
def umDepoisDoOutro (i j : ι) : List (Acao ι) :=
  [.pede i, .atende 0, .chega 0, .devolve i, .atende 0, .chega 0, .pede j, .atende 0, .chega 0]

theorem the_other_client_has_the_token_alone : ∃ s t,
    (sistema (Fin 2)).run (Sistema.inicio doisPids) (umDepoisDoOutro 0 1) = some (s, t) ∧
      ∀ i, (s.clientes i).fase = .regiao → i = 1 := by
  obtain ⟨s, t, h, hfase⟩ : ∃ s t,
      (sistema (Fin 2)).run (Sistema.inicio doisPids) (umDepoisDoOutro 0 1) = some (s, t) ∧
      (s.clientes 1).fase = .regiao := exists_run (by decide)
  have hninguem : (sistema (Fin 2)).Along (fun u _ a => ∀ x ∈ u.atendida a,
      ¬ x.2.FuraFila u.servidor.suaFila.head) (Sistema.inicio doisPids) (umDepoisDoOutro 0 1) :=
    along_of_check (by decide)
  refine ⟨s, t, h, fun i hi => ?_⟩
  exact only_one_client_has_the_token_when_nobody_comes_in_front doisPids_injective h
    (along_mono hninguem fun _ _ _ ha _ => ha) i 1 hi hfase

/-- The first client has used the token once and has it again, with stamp 4,
when the second calls with stamp 1. Both have the token. -/
theorem a_new_client_gets_the_token_beside_the_holder : Function.Injective doisPids ∧ ∃ s t,
    (sistema (Fin 2)).run (Sistema.inicio doisPids)
        [.pede 0, .atende 0, .chega 0, .devolve 0, .atende 0, .chega 0, .pede 0, .atende 0,
          .chega 0, .pede 1, .atende 0, .chega 0] = some (s, t) ∧
      (s.clientes 0).fase = .regiao ∧ (s.clientes 1).fase = .regiao :=
  ⟨doisPids_injective, exists_run (by decide)⟩

end lab07
