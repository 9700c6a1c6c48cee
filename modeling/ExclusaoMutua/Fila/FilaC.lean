-- The program `fila.c`. Its `removeItem` asks `malloc` for `sizeof(item)`, which
-- is the size of a pointer, and writes the fields of an item there. The servers'
-- copies ask for `sizeof(struct Sitem)`.
import ExclusaoMutua.Fila.Prioridade

open fila machine

namespace fila_c

variable {κ : Type}

/-! ## The code -/

/-- What an item holds besides `PID` and `tempo`. -/
structure Dados (κ : Type) where
  addrlen : UInt32
  caddr : κ
  deriving DecidableEq

/-- `insere` of `fila.c`, which takes in a PID that already waits. -/
def insere (f : Fila Int32 (Dados κ)) (PID tempo : Int32) (dados : Dados κ) :
    Option (Int32 × Fila Int32 (Dados κ)) :=
  insereSe (fun _ _ => false) f { PID, tempo, dados }

/-- The fields of `struct Sitem` that `removeItem` writes. -/
inductive Campo where
  | PID
  | tempo
  | addrlen
  | caddr

/-- The first byte of a field in the struct. -/
def Campo.offset : Campo → Nat
  | .PID => 0
  | .tempo => 4
  | .addrlen => 8
  | .caddr => 12

def Campo.sizeof : Campo → Nat
  | .PID => 4
  | .tempo => 4
  | .addrlen => 4
  | .caddr => 16

/-- `sizeof(item)`, where `item` is a pointer. -/
def sizeofItem : Nat := 8

/-- `sizeof(struct Sitem)`: four bytes without use behind `caddr`, and `next`. -/
def sizeofSitem : Nat := 40

/-- A block that `malloc` gave, with the number of its bytes, and the item that
they are read as. -/
structure Bloco (κ : Type) where
  bytes : Nat
  item : Item Int32 (Dados κ)

/-- The write of one field. It is `none` when the field is not in the block. -/
def Bloco.grava (b : Bloco κ) (c : Campo) (muda : Item Int32 (Dados κ) → Item Int32 (Dados κ)) :
    Option (Bloco κ) :=
  if c.offset + c.sizeof ≤ b.bytes then some { b with item := muda b.item } else none

/-- `removeItem`, with a block of `bytes` bytes that holds `lixo`. It gives back
the item, or `none` for `NULL`. -/
def removeItemEm (bytes : Nat) (lixo : Item Int32 (Dados κ)) (f : Fila Int32 (Dados κ)) :
    Option (Option (Item Int32 (Dados κ)) × Fila Int32 (Dados κ)) :=
  match f.head with
  | [] => some (none, f)
  | aux :: resto => do
    let item : Bloco κ := { bytes, item := lixo }
    let item ← item.grava .addrlen fun i =>
      { i with dados := { i.dados with addrlen := aux.dados.addrlen } }
    let item ← item.grava .caddr fun i =>
      { i with dados := { i.dados with caddr := aux.dados.caddr } }
    let item ← item.grava .PID fun i => { i with PID := aux.PID }
    let item ← item.grava .tempo fun i => { i with tempo := aux.tempo }
    some (some item.item, { f with head := resto, tamanho := f.tamanho - 1 })

/-- `removeItem` of `fila.c`. -/
def removeItem (lixo : Item Int32 (Dados κ)) (f : Fila Int32 (Dados κ)) :
    Option (Option (Item Int32 (Dados κ)) × Fila Int32 (Dados κ)) :=
  removeItemEm sizeofItem lixo f

/-- The calls of `insere` and `removeItem`, with blocks of `bytes` bytes. -/
def chamadas (bytes : Nat) (κ : Type) :
    Machine (Fila Int32 (Dados κ)) (Operacao Int32 (Dados κ)) (Efeito Int32 (Dados κ)) where
  step f a := match a with
    | .insere novo =>
      (insere f novo.PID novo.tempo novo.dados).map fun r => (r.2, [.insere novo r.1])
    | .removeItem lixo => (removeItemEm bytes lixo f).map fun r => (r.2, [.removeItem r.1])

/-! ## The block -/

theorem removeItemEm_nil {bytes : Nat} {lixo : Item Int32 (Dados κ)} {f : Fila Int32 (Dados κ)}
    (h : f.head = []) : removeItemEm bytes lixo f = some (none, f) := by
  unfold removeItemEm
  simp [h]

/-- `removeItem` writes 28 bytes. -/
theorem removeItemEm_cons {bytes : Nat} {lixo aux : Item Int32 (Dados κ)}
    {f : Fila Int32 (Dados κ)} {resto : List (Item Int32 (Dados κ))} (h : f.head = aux :: resto) :
    removeItemEm bytes lixo f =
      if 28 ≤ bytes then some (some aux, { f with head := resto, tamanho := f.tamanho - 1 })
      else none := by
  unfold removeItemEm Bloco.grava
  rw [h]
  by_cases hb : 28 ≤ bytes
  · have h1 : 12 ≤ bytes := by omega
    have h2 : 4 ≤ bytes := by omega
    have h3 : 8 ≤ bytes := by omega
    simp [Campo.offset, Campo.sizeof, hb, h1, h2, h3]
  · by_cases h1 : 12 ≤ bytes
    · simp [Campo.offset, Campo.sizeof, hb, h1]
    · simp [Campo.offset, Campo.sizeof, hb, h1]

/-- The call writes nothing behind its block. -/
def Cabe (bytes : Nat) (f : Fila Int32 (Dados κ)) : Operacao Int32 (Dados κ) → Prop
  | .insere _ => True
  | .removeItem _ => 28 ≤ bytes ∨ f.head = []

/-- A call that stays in its block does what the servers' copy of the queue does,
with `NULL` where that one gives back the memory of `malloc`. -/
theorem chamadas_step_iff {bytes : Nat} {f f' : Fila Int32 (Dados κ)}
    {a : Operacao Int32 (Dados κ)} {e : List (Efeito Int32 (Dados κ))} :
    (chamadas bytes κ).step f a = some (f', e) ↔
      Cabe bytes f a ∧ (operacoes fun _ _ => false).step f a = some (f', e) := by
  unfold chamadas operacoes Cabe
  cases a with
  | insere novo => simp [insere]
  | removeItem lixo =>
    rcases hh : f.head with _ | ⟨aux, resto⟩
    · simp [hh, removeItemEm_nil hh, removeItem_nil hh]
    · by_cases hb : 28 ≤ bytes
      · simp [hh, removeItemEm_cons hh, removeItem_cons hh, hb]
      · simp [hh, removeItemEm_cons hh, hb]

theorem chamadas_run {bytes : Nat} {f f' : Fila Int32 (Dados κ)}
    {as : List (Operacao Int32 (Dados κ))} {t : List (Efeito Int32 (Dados κ))}
    (hr : (chamadas bytes κ).run f as = some (f', t)) :
    (operacoes fun _ _ => false).run f as = some (f', t) := by
  induction as generalizing f t with
  | nil => exact hr
  | cons a as ih =>
    obtain ⟨f₁, t₁, t₂, hs, hresto, rfl⟩ := run_cons.mp hr
    exact run_cons.mpr ⟨f₁, t₁, t₂, (chamadas_step_iff.mp hs).2, ih hresto, rfl⟩

theorem chamadas_contada {bytes : Nat} {N : Int} {as : List (Operacao Int32 (Dados κ))}
    {f : Fila Int32 (Dados κ)} {t : List (Efeito Int32 (Dados κ))}
    (hr : (chamadas bytes κ).run (init N) as = some (f, t)) : f.Contada ∧ f.N = N :=
  operacoes_contada (chamadas_run hr)

/-! ## The law of a call -/

/-- The law of a bounded priority queue, for a call on `f`. The call comes back.
`insere` adds its item when fewer than `N` wait, and else gives 0 and changes
nothing. `removeItem` takes an item with the smallest stamp out, and gives `NULL`
and changes nothing when nobody waits. -/
def Cumpre (bytes : Nat) (N : Int) (f : Fila Int32 (Dados κ)) : Operacao Int32 (Dados κ) → Prop
  | .insere novo => ∃ n f', insere f novo.PID novo.tempo novo.dados = some (n, f') ∧
      f'.tamanho = f'.head.length ∧ f'.N = N ∧
      ((f.head.length : Int) < N → n = 1 ∧ f'.head.Perm (novo :: f.head)) ∧
      (N ≤ (f.head.length : Int) → n = 0 ∧ f' = f)
  | .removeItem lixo => ∃ r f', removeItemEm bytes lixo f = some (r, f') ∧
      f'.tamanho = f'.head.length ∧ f'.N = N ∧
      (f.head ≠ [] → ∃ aux, r = some aux ∧ f.head.Perm (aux :: f'.head) ∧
        ∀ x ∈ f.head, aux.tempo ≤ x.tempo) ∧
      (f.head = [] → r = none ∧ f' = f)

theorem insere_cumpre {bytes : Nat} {N : Int} {f : Fila Int32 (Dados κ)} (h : f.Contada)
    (hN : f.N = N) (novo : Item Int32 (Dados κ)) : Cumpre bytes N f (.insere novo) := by
  unfold Cumpre insere
  simp only [h.insereSe_eq, and_true]
  by_cases hcabe : f.tamanho < f.N
  · have hf' := h.colocada novo hcabe
    have hlen := h.tam
    refine ⟨1, _, if_pos hcabe, hf'.tam, hN, fun _ => ⟨rfl, colocada_perm _ _⟩, fun hcheia => ?_⟩
    omega
  · have hlen := h.tam
    refine ⟨0, f, if_neg hcabe, h.tam, hN, fun hlt => ?_, fun _ => ⟨rfl, rfl⟩⟩
    omega

theorem removeItem_cumpre_iff {bytes : Nat} {N : Int} {f : Fila Int32 (Dados κ)} (h : f.Contada)
    (hN : f.N = N) (lixo : Item Int32 (Dados κ)) :
    Cumpre bytes N f (.removeItem lixo) ↔ Cabe bytes f (.removeItem lixo) := by
  unfold Cumpre Cabe
  simp only
  constructor
  · rintro ⟨r, f', hrem, -⟩
    rcases hh : f.head with _ | ⟨aux, resto⟩
    · exact Or.inr rfl
    · rw [removeItemEm_cons hh] at hrem
      split at hrem
      · exact Or.inl ‹_›
      · cases hrem
  · intro hcabe
    rcases hh : f.head with _ | ⟨aux, resto⟩
    · refine ⟨none, f, removeItemEm_nil hh, h.tam, hN, ?_, fun _ => ⟨rfl, rfl⟩⟩
      exact fun hne => absurd rfl hne
    · have hb : 28 ≤ bytes := hcabe.resolve_right (by simp [hh])
      have hf' := h.removeItem lixo
      rw [removeItem_cons hh] at hf'
      refine ⟨some aux, _, by rw [removeItemEm_cons hh, if_pos hb], hf'.tam, hN, ?_, ?_⟩
      · have hord := h.ordem
        rw [hh] at hord
        exact fun _ => ⟨aux, rfl, List.Perm.refl _, hord.cabeca_le⟩
      · intro hnil
        cases hnil

/-- A call keeps the law exactly when it stays in its block. -/
theorem cumpre_iff {bytes : Nat} {N : Int} {f : Fila Int32 (Dados κ)} (h : f.Contada)
    (hN : f.N = N) (a : Operacao Int32 (Dados κ)) : Cumpre bytes N f a ↔ Cabe bytes f a := by
  cases a with
  | insere novo => exact iff_of_true (insere_cumpre h hN novo) trivial
  | removeItem lixo => exact removeItem_cumpre_iff h hN lixo

/-! ## Every run -/

/-- No call of `removeItem` comes behind one of `insere`, or the queue has no
room. -/
def SemRetirada (N : Int) (as : List (Operacao Int32 (Dados κ))) : Prop :=
  N ≤ 0 ∨ ∀ as₁ lixo as₂, as = as₁ ++ .removeItem lixo :: as₂ → ∀ novo, .insere novo ∉ as₁

/-- Where nothing can be taken out, the queue is empty until something is put
in. -/
theorem head_eq_nil_iff {bytes : Nat} (hb : bytes < 28) {N : Int}
    {as : List (Operacao Int32 (Dados κ))} {f : Fila Int32 (Dados κ)}
    {t : List (Efeito Int32 (Dados κ))} (hr : (chamadas bytes κ).run (init N) as = some (f, t)) :
    f.head = [] ↔ N ≤ 0 ∨ ∀ novo, .insere novo ∉ as := by
  induction as using List.reverseRecOn generalizing f t with
  | nil =>
    obtain ⟨rfl, -⟩ := of_run_nil hr
    exact iff_of_true rfl (Or.inr fun novo => List.not_mem_nil)
  | append_singleton as a ih =>
    obtain ⟨u, t₁, t₂, h1, h2, -⟩ := run_snoc.mp hr
    obtain ⟨hu, huN⟩ := chamadas_contada h1
    have htam := hu.tam
    obtain ⟨hcabe, hop⟩ := chamadas_step_iff.mp h2
    cases chama_cases hu hop with
    | entra novo hN =>
      have hne : (colocada novo u.head) ≠ [] := fun hnil => by
        have hmem : novo ∈ colocada novo u.head := mem_colocada.mpr (Or.inl rfl)
        rw [hnil] at hmem
        cases hmem
      refine iff_of_false hne ?_
      rintro (hle | hno)
      · omega
      · exact hno novo (by simp)
    | recusa novo hn =>
      have hcheia : f.N ≤ f.tamanho := by simpa using hn
      constructor
      · intro hnil
        rw [hnil, List.length_nil] at htam
        exact Or.inl (by omega)
      · rintro (hle | hno)
        · exact ih h1 |>.mpr (Or.inl hle)
        · exact absurd (by simp) (hno novo)
    | sai lixo aux resto hh =>
      rcases hcabe with hcabe | hnil
      · omega
      · rw [hnil] at hh
        cases hh
    | vazia lixo hh => simp [ih h1]

/-- Calls that all stay in their blocks come back, and only those. -/
theorem run_iff_cabe {bytes : Nat} {f : Fila Int32 (Dados κ)} (h : f.Contada)
    {as : List (Operacao Int32 (Dados κ))} :
    (∃ f' t, (chamadas bytes κ).run f as = some (f', t)) ↔
      (chamadas bytes κ).Along (fun u _ a => Cabe bytes u a) f as := by
  constructor
  · rintro ⟨f', t, hr⟩ as₁ a as₂ rfl u t₁ hu
    obtain ⟨u', t₁', t₂, h1, h2, -⟩ := run_append.mp hr
    rw [hu, Option.some.injEq, Prod.mk.injEq] at h1
    obtain ⟨rfl, rfl⟩ := h1
    obtain ⟨v, e, -, hs, -, -⟩ := run_cons.mp h2
    exact (chamadas_step_iff.mp hs).1
  · intro halong
    induction as using List.reverseRecOn with
    | nil => exact ⟨f, [], rfl⟩
    | append_singleton as a ih =>
      obtain ⟨u, t, hu⟩ := ih (along_front halong)
      have hcont : u.Contada := run_state_invariant h
        (fun _ _ _ _ hv hs => (chama_contada hv (chama_cases hv hs)).1) (chamadas_run hu)
      obtain ⟨v, e, hs⟩ := operacoes_total (fun _ _ => false) hcont [a]
      have hstep := chamadas_step_iff.mpr ⟨along_last halong hu, run_single.mp hs⟩
      exact ⟨v, t ++ e, run_snoc.mpr ⟨u, t, e, hu, hstep, rfl⟩⟩

/-- No call writes behind its block exactly when the block holds an item, or
nothing is taken out. -/
theorem along_cabe_iff {bytes : Nat} {N : Int} {as : List (Operacao Int32 (Dados κ))} :
    (chamadas bytes κ).Along (fun u _ a => Cabe bytes u a) (init N) as ↔
      28 ≤ bytes ∨ SemRetirada N as := by
  rcases Nat.lt_or_ge bytes 28 with hb | hb
  · rw [or_iff_right (Nat.not_le.mpr hb)]
    constructor
    · intro halong
      unfold SemRetirada
      by_cases hN : N ≤ 0
      · exact Or.inl hN
      · refine Or.inr fun as₁ lixo as₂ has novo hnovo => ?_
        subst has
        obtain ⟨u, t, hu⟩ := (run_iff_cabe (contada_init N)).mpr (along_front halong)
        have hcabe := halong as₁ (.removeItem lixo) as₂ rfl u t hu
        have hnil := hcabe.resolve_left (Nat.not_le.mpr hb)
        rcases (head_eq_nil_iff hb hu).mp hnil with hle | hno
        · exact hN hle
        · exact hno novo hnovo
    · intro hsem as₁ a as₂ has u t hu
      cases a with
      | insere novo => exact trivial
      | removeItem lixo =>
        refine Or.inr ((head_eq_nil_iff hb hu).mpr ?_)
        exact hsem.imp_right fun hno novo => hno as₁ lixo as₂ has novo
  · refine iff_of_true (fun _ a _ _ u _ _ => ?_) (Or.inl hb)
    cases a with
    | insere novo => exact trivial
    | removeItem lixo => exact Or.inl hb

/-- The calls keep the law of a bounded priority queue exactly when the block holds
an item, or nothing is taken out. -/
theorem along_cumpre_iff {bytes : Nat} {N : Int} {as : List (Operacao Int32 (Dados κ))} :
    (chamadas bytes κ).Along (fun u _ a => Cumpre bytes N u a) (init N) as ↔
      28 ≤ bytes ∨ SemRetirada N as := by
  rw [← along_cabe_iff]
  have hiff : ∀ as₁ u t, (chamadas bytes κ).run (init N) as₁ = some (u, t) →
      ∀ a, Cumpre bytes N u a ↔ Cabe bytes u a := by
    intro as₁ u t hu a
    obtain ⟨hcont, hN⟩ := chamadas_contada hu
    exact cumpre_iff hcont hN a
  constructor
  · intro h as₁ a as₂ has u t hu
    exact (hiff as₁ u t hu a).mp (h as₁ a as₂ has u t hu)
  · intro h as₁ a as₂ has u t hu
    exact (hiff as₁ u t hu a).mpr (h as₁ a as₂ has u t hu)

/-! ## Filling and emptying -/

/-- The items of `l` go in and come out in the order of their stamps, and when no
two stamps are the same, in this order whatever the order they go in. -/
def SaiEmOrdem (bytes : Nat) (N : Int) (lixo : Item Int32 (Dados κ))
    (l : List (Item Int32 (Dados κ))) : Prop :=
  ∃ f t, (chamadas bytes κ).run (init N) (encheEsvazia lixo l) = some (f, t) ∧ f.head = [] ∧
    (saidas t).Perm l ∧ Ordenada (saidas t) ∧
    ∀ l', l'.Perm l → (l.map Item.tempo).Nodup → ∃ f' t',
      (chamadas bytes κ).run (init N) (encheEsvazia lixo l') = some (f', t') ∧
        saidas t' = saidas t

theorem semRetirada_encheEsvazia {N : Int} {lixo : Item Int32 (Dados κ)}
    {l : List (Item Int32 (Dados κ))} (hl : (l.length : Int) ≤ N) :
    SemRetirada N (encheEsvazia lixo l) ↔ l = [] := by
  unfold SemRetirada encheEsvazia
  constructor
  · intro hsem
    cases l with
    | nil => rfl
    | cons novo l =>
      rw [List.length_cons] at hl
      rcases hsem with hN | hno
      · omega
      · refine absurd ?_ (hno ((novo :: l).map .insere) lixo
          (List.replicate l.length (.removeItem lixo)) rfl novo)
        simp
  · rintro rfl
    refine Or.inr fun as₁ x as₂ has => ?_
    simp at has

theorem saiEmOrdem_iff {bytes : Nat} {N : Int} (lixo : Item Int32 (Dados κ))
    {l : List (Item Int32 (Dados κ))} (hl : (l.length : Int) ≤ N) :
    SaiEmOrdem bytes N lixo l ↔ 28 ≤ bytes ∨ l = [] := by
  have hvolta : ∀ l' : List (Item Int32 (Dados κ)), (l'.length : Int) ≤ N →
      ((∃ f t, (chamadas bytes κ).run (init N) (encheEsvazia lixo l') = some (f, t)) ↔
        28 ≤ bytes ∨ l' = []) := by
    intro l' hl'
    rw [run_iff_cabe (contada_init N), along_cabe_iff, semRetirada_encheEsvazia hl']
  constructor
  · rintro ⟨f, t, hr, -⟩
    exact (hvolta l hl).mp ⟨f, t, hr⟩
  · intro hcabe
    -- a run that comes back is a run of the servers' copy
    have hord : ∀ l' : List (Item Int32 (Dados κ)), l'.Perm l →
        ∃ f t, (chamadas bytes κ).run (init N) (encheEsvazia lixo l') = some (f, t) ∧
          f.head = [] ∧ (saidas t).Perm l' ∧ Ordenada (saidas t) := by
      intro l' hl'
      have hlen : (l'.length : Int) ≤ N := by rw [hl'.length_eq]; exact hl
      obtain ⟨f, t, hr⟩ := (hvolta l' hlen).mpr
        (hcabe.imp_right fun hnil => by rw [hnil] at hl'; exact hl'.eq_nil)
      obtain ⟨f', t', hr', hvazia, hperm, hord⟩ := run_encheEsvazia lixo hlen
      have heq := chamadas_run hr
      rw [hr', Option.some.injEq, Prod.mk.injEq] at heq
      obtain ⟨rfl, rfl⟩ := heq
      exact ⟨f', t', hr, hvazia, hperm, hord⟩
    obtain ⟨f, t, hr, hvazia, hperm, hsai⟩ := hord l (List.Perm.refl l)
    refine ⟨f, t, hr, hvazia, hperm, hsai, fun l' hl' hdist => ?_⟩
    obtain ⟨f', t', hr', -, hperm', hsai'⟩ := hord l' hl'
    refine ⟨f', t', hr', ?_⟩
    have hdist' : ((saidas t').map Item.tempo).Nodup :=
      ((hperm'.trans hl').map Item.tempo).nodup_iff.mpr hdist
    exact ordenada_unica ((hperm'.trans hl').trans hperm.symm) hdist' hsai' hsai

/-- With the block of the servers' copies the queue of `fila.c` is a bounded
priority queue. -/
theorem a_block_for_the_struct_makes_a_bounded_priority_queue (N : Int)
    (as : List (Operacao Int32 (Dados κ))) :
    (chamadas sizeofSitem κ).Along (fun u _ a => Cumpre sizeofSitem N u a) (init N) as :=
  along_cumpre_iff.mpr (Or.inl (by decide))

/-- `fila.c` keeps the law of a bounded priority queue, for any `init(N)` and any
calls, exactly as long as nothing is taken out of it: when the queue has no room,
or no call of `removeItem` comes behind one of `insere`. A list of at most `N`
items can go in and come out only when it is empty. -/
theorem the_queue_of_fila_c_is_a_priority_queue_iff_nothing_is_taken_out (N : Int) :
    (∀ as, (chamadas sizeofItem κ).Along (fun u _ a => Cumpre sizeofItem N u a) (init N) as ↔
        SemRetirada N as) ∧
      ∀ (lixo : Item Int32 (Dados κ)) (l : List (Item Int32 (Dados κ))), (l.length : Int) ≤ N →
        (SaiEmOrdem sizeofItem N lixo l ↔ l = []) := by
  have hb : ¬ 28 ≤ sizeofItem := by decide
  refine ⟨fun as => ?_, fun lixo l hl => ?_⟩
  · rw [along_cumpre_iff, or_iff_right hb]
  · rw [saiEmOrdem_iff lixo hl, or_iff_right hb]

/-- The item of PID 1 with stamp 10. -/
def um : Item Int32 (Dados Unit) :=
  { PID := 1, tempo := 10, dados := { addrlen := 16, caddr := () } }

/-- An empty queue gives `NULL` and takes two items in, but a list of two items
does not come out again. -/
theorem two_items_go_into_an_empty_queue :
    (chamadas sizeofItem Unit).Along (fun u _ a => Cumpre sizeofItem 10 u a) (init 10)
        [.removeItem um, .insere um, .insere um] ∧
      ¬ SaiEmOrdem sizeofItem 10 um [um, um] := by
  obtain ⟨hlei, hesvazia⟩ :=
    @the_queue_of_fila_c_is_a_priority_queue_iff_nothing_is_taken_out Unit 10
  constructor
  · apply (hlei _).mpr
    refine Or.inr fun as₁ lixo as₂ has novo hnovo => ?_
    rcases as₁ with _ | ⟨a, _ | ⟨b, _ | ⟨c, as₁⟩⟩⟩
    · cases hnovo
    · simp at has
    · simp at has
    · simp at has
  · intro hsai
    have hnil := (hesvazia um [um, um] (by decide)).mp hsai
    cases hnil

/-- One item goes in, and the first `removeItem` writes behind its block. -/
theorem the_first_item_taken_out_is_written_behind_its_block :
    (∃ f t, (chamadas sizeofItem Unit).run (init 10) [.insere um] = some (f, t) ∧
        f.head = [um] ∧ removeItem um f = none) ∧
      ¬ (chamadas sizeofItem Unit).Along (fun u _ a => Cumpre sizeofItem 10 u a) (init 10)
        [.insere um, .removeItem um, .removeItem um] ∧
      ¬ SaiEmOrdem sizeofItem 10 um [um] := by
  have hb : ¬ 28 ≤ sizeofItem := by decide
  refine ⟨exists_run (by decide), ?_, ?_⟩
  · rw [along_cumpre_iff, or_iff_right hb]
    rintro (hN | hno)
    · exact absurd hN (by decide)
    · exact hno [.insere um] um [.removeItem um] rfl um (List.mem_singleton.mpr rfl)
  · rw [saiEmOrdem_iff um (by decide), or_iff_right hb]
    exact List.cons_ne_nil um []

end fila_c
