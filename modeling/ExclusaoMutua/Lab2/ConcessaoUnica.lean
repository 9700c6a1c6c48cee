-- One outstanding grant: when the server alone, fed with any datagrams, sends
-- a second REPLY_ALLOW before a RELEASE_TOKEN. `Token.flag` is a `char`, so a
-- holder whose PID ends in the byte 0xFF reads as the mark of a free token.
import ExclusaoMutua.Lab2.Servidor
import ExclusaoMutua.Lib.Marks

open machine marks

namespace lab2

variable {A : Type}

/-! ## Grants and releases in a trace -/

/-- The event sends a REPLY_ALLOW. -/
def Evento.concede : Evento A → Bool
  | .envia _ d => d.conteudo.cod = REPLY_ALLOW
  | .trata _ _ => false

/-- The event comes to the test of `req->cod` with a RELEASE_TOKEN. -/
def Evento.libera : Evento A → Bool
  | .envia _ _ => false
  | .trata _ req => req.cod = RELEASE_TOKEN

def Evento.PID : Evento A → Int32
  | .envia _ d => d.conteudo.PID
  | .trata _ req => req.PID

/-- Between any two REPLY_ALLOW the server handles a RELEASE_TOKEN. -/
abbrev UmaConcessao (t : List (Evento A)) : Prop := Separated Evento.concede Evento.libera t

/-- The PID of the last REPLY_ALLOW, until a RELEASE_TOKEN is handled. -/
def detentor (t : List (Evento A)) : Option Int32 :=
  (standing Evento.concede Evento.libera t).map Evento.PID

/-- The datagram fills the whole of `req`. -/
def Entrada.Inteira (e : Entrada A) : Prop :=
  ∃ dados, e.dados = some dados ∧ dados.length = sizeofRequest

/-- The turn is not one that answers a REQUEST_TOKEN while the token is held
under a PID with the low byte 0xFF. -/
def SemPedidoCego (t : List (Evento A)) (e : Entrada A) : Prop :=
  ∀ dados p, e.dados = some dados → (Request.ofBytes dados).cod = REQUEST_TOKEN →
    0 ≤ e.nsAck → 0 ≤ e.nsRep → detentor t = some p → p.toInt8 ≠ -1

/-! ## One turn -/

theorem ack_nao_concede (s : Servidor A) (dados : List UInt8) (o : Origem A) (n : Nat) :
    (Evento.envia o { conteudo := (recebe s dados).ack, nbytes := n }).concede = false := by
  unfold Evento.concede
  simp [recebe, ACK, REPLY_ALLOW]

/-- The ACK and the test of `req->cod` only take a grant away, when the
message is a RELEASE_TOKEN. -/
theorem detentor_turn (t : List (Evento A)) (s : Servidor A) (dados : List UInt8) (o : Origem A)
    (n : Nat) :
    detentor (t ++ [.envia o { conteudo := (recebe s dados).ack, nbytes := n },
      .trata o (recebe s dados).req]) =
      if (recebe s dados).req.cod = RELEASE_TOKEN then none else detentor t := by
  have hsplit : ∀ a b : Evento A, t ++ [a, b] = (t ++ [a]) ++ [b] := by simp
  unfold detentor
  rw [hsplit, standing_snoc, standing_skip (ack_nao_concede s dados o n) rfl]
  by_cases h : (recebe s dados).req.cod = RELEASE_TOKEN
  · unfold Evento.concede Evento.libera
    simp [h]
  · unfold Evento.concede Evento.libera
    simp [h]

theorem umaConcessao_turn (t : List (Evento A)) (s : Servidor A) (dados : List UInt8)
    (o : Origem A) (n : Nat) :
    UmaConcessao (t ++ [.envia o { conteudo := (recebe s dados).ack, nbytes := n },
      .trata o (recebe s dados).req]) ↔ UmaConcessao t := by
  have hsplit : ∀ a b : Evento A, t ++ [a, b] = (t ++ [a]) ++ [b] := by simp
  unfold UmaConcessao
  rw [hsplit, separated_skip rfl, separated_skip (ack_nao_concede s dados o n)]

theorem detentor_concede (t : List (Evento A)) (s : Servidor A) (p : Int32) (o : Origem A)
    (n : Nat) :
    detentor (t ++ [.envia o { conteudo := (preencheRep s p).rep, nbytes := n }]) = some p := by
  unfold detentor
  simp [standing_snoc, Evento.concede, preencheRep, Evento.PID]

theorem umaConcessao_concede (t : List (Evento A)) (s : Servidor A) (p : Int32) (o : Origem A)
    (n : Nat) :
    UmaConcessao (t ++ [.envia o { conteudo := (preencheRep s p).rep, nbytes := n }]) ↔
      UmaConcessao t ∧ detentor t = none := by
  unfold UmaConcessao
  simp [separated_snoc, detentor, Evento.concede, preencheRep]

/-- While the server runs, `Token.flag` is the low byte of the holder's PID,
and -1 when nobody holds the token. -/
def FlagDiz (s : Servidor A) (t : List (Evento A)) : Prop :=
  s.vivo = true → s.Token.flag = ((detentor t).map Int32.toInt8).getD (-1)

theorem inicio_flagDiz (req ack rep : Request) :
    FlagDiz (Servidor.inicio req ack rep : Servidor A) [] := fun _ => rfl

/-- One turn keeps the reading of `Token.flag`. It sends a second REPLY_ALLOW
only as `SemPedidoCego` says. -/
theorem volta_concessao {s s' : Servidor A} {e : Entrada A} {t te : List (Evento A)}
    (hvivo : s.vivo = true) (hf : FlagDiz s t) (he : e.Inteira) (hv : Volta s e s' te) :
    FlagDiz s' (t ++ te) ∧ (UmaConcessao (t ++ te) ↔ UmaConcessao t ∧ SemPedidoCego t e) := by
  obtain ⟨dados, hdados, hlen⟩ := he
  have hflag := hf hvivo
  cases hv with
  | recvFalha hd => rw [hdados] at hd; cases hd
  | ackFalha dados' hd hn =>
    refine ⟨fun h => (by cases h), ?_⟩
    have hno : SemPedidoCego t e := fun _ _ _ _ hack => absurd hn (not_lt.mpr hack)
    simp [hno]
  | trata dados' hd hn s' te ht =>
    rw [hdados, Option.some.injEq] at hd
    subst hd
    have hreq : (recebe s dados).req = Request.ofBytes dados := recvfrom_full s.req hlen
    have hdet := detentor_turn t s dados e.origem sizeofRequest
    have huma := umaConcessao_turn t s dados e.origem sizeofRequest
    rw [show ∀ a b : Evento A, t ++ (a :: b :: te) = (t ++ [a, b]) ++ te by simp]
    generalize t ++ [_, _] = t₂ at hdet huma ⊢
    -- no turn but the two grants of a REQUEST_TOKEN speaks of a held token
    have hquiet : (recebe s dados).req.cod ≠ REQUEST_TOKEN ∨ (recebe s dados).Token.flag ≠ -1 ∨
        e.nsRep < 0 → SemPedidoCego t e := by
      intro hor d p hd hc _ hrep hp
      rw [hdados, Option.some.injEq] at hd
      subst hd
      rcases hor with h | h | h
      · exact absurd (hreq ▸ hc) h
      · rw [hp] at hflag
        intro hp'
        exact h (by rw [← hp']; exact hflag)
      · exact absurd h (not_lt.mpr hrep)
    have hnovo : (recebe s dados).req.cod ≠ RELEASE_TOKEN → detentor t₂ = detentor t := by
      intro h
      rw [hdet, if_neg h]
    have hlivre : (recebe s dados).req.cod = RELEASE_TOKEN → detentor t₂ = none := by
      intro h
      rw [hdet, if_pos h]
    have hreqrel : (recebe s dados).req.cod = REQUEST_TOKEN →
        (recebe s dados).req.cod ≠ RELEASE_TOKEN := by
      intro h
      rw [h]
      decide
    cases ht with
    | concede hc hfree hrep =>
      refine ⟨fun _ => by rw [detentor_concede]; rfl, ?_⟩
      rw [umaConcessao_concede, huma, hnovo (hreqrel hc)]
      -- a free flag means nobody holds the token, or a PID with the byte 0xFF
      refine and_congr_right fun _ => ?_
      rcases hp : detentor t with _ | p
      · unfold SemPedidoCego
        simp [hp]
      · have hfp : p.toInt8 = -1 := by
          rw [hp] at hflag
          exact hflag.symm.trans hfree
        simp only [reduceCtorEq, false_iff]
        intro hno
        exact hno dados p hdados (hreq ▸ hc) hn hrep hp hfp
    | concedeFalha hc hfree hrep =>
      refine ⟨fun h => (by cases h), ?_⟩
      rw [List.append_nil, huma]
      simp [hquiet (Or.inr (Or.inr hrep))]
    | enfileira hc hfull hcabe hnov | recusa hc hfull hnao =>
      refine ⟨fun _ => ?_, ?_⟩
      · rw [List.append_nil, hnovo (hreqrel hc)]
        exact hflag
      · rw [List.append_nil, huma]
        simp [hquiet (Or.inr (Or.inl hfull))]
    | libera hc hvazia =>
      refine ⟨fun _ => by rw [List.append_nil, hlivre hc]; rfl, ?_⟩
      rw [List.append_nil, huma]
      simp [hquiet (Or.inl (by rw [hc]; decide))]
    | passa hc aux resto hh hrep s' hs =>
      refine ⟨fun _ => by rw [detentor_concede]; rfl, ?_⟩
      rw [umaConcessao_concede, huma, hlivre hc]
      simp [hquiet (Or.inl (by rw [hc]; decide))]
    | passaFalha hc aux resto hh hrep s' hs =>
      refine ⟨fun h => (by cases h), ?_⟩
      rw [List.append_nil, huma]
      simp [hquiet (Or.inl (by rw [hc]; decide))]
    | ignora h1 h2 =>
      refine ⟨fun _ => ?_, ?_⟩
      · rw [List.append_nil, hnovo h2]
        exact hflag
      · rw [List.append_nil, huma]
        simp [hquiet (Or.inl h1)]

/-! ## Every run -/

/-- The law of one outstanding grant, for any datagrams of the full size: the
server sends no second REPLY_ALLOW before a RELEASE_TOKEN exactly when it
answers no REQUEST_TOKEN while a PID with the low byte 0xFF holds the token. -/
theorem grants_stay_apart_iff_no_request_meets_a_blind_flag {req ack rep : Request}
    {es : List (Entrada A)} {s : Servidor A} {t : List (Evento A)}
    (hes : ∀ e ∈ es, e.Inteira)
    (hr : (servidor A).run (Servidor.inicio req ack rep) es = some (s, t)) :
    UmaConcessao t ↔
      (servidor A).Along (fun _ t e => SemPedidoCego t e) (Servidor.inicio req ack rep) es := by
  suffices h : FlagDiz s t ∧ (UmaConcessao t ↔
      (servidor A).Along (fun _ t e => SemPedidoCego t e) (Servidor.inicio req ack rep) es) from h.2
  induction es using List.reverseRecOn generalizing s t with
  | nil =>
    obtain ⟨rfl, rfl⟩ := of_run_nil hr
    exact ⟨inicio_flagDiz req ack rep, by simp [along_nil, UmaConcessao, separated_nil]⟩
  | append_singleton es e ih =>
    obtain ⟨u, t₁, t₂, h1, h2, rfl⟩ := run_snoc.mp hr
    obtain ⟨hflag, hiff⟩ := ih (fun x hx => hes x (by simp [hx])) h1
    obtain ⟨hvivo, hv⟩ := servidor_step (servidor_bom h1) h2
    obtain ⟨hflag', hiff'⟩ := volta_concessao hvivo hflag (hes e (by simp)) hv
    refine ⟨hflag', ?_⟩
    rw [hiff', along_snoc h1, hiff]

/-- A datagram of the full size from the address `a`, with every `sendto`
done. -/
def entrega (a : Nat) (r : Request) : Entrada Nat where
  dados := some r.bytes
  origem := { caddr := a, addrlen := 16 }
  nsAck := 16
  nsRep := 8
  item := { PID := 0, tempo := 0, dados := { caddr := a, addrlen := 16 } }

def branco : Request := { recurso := 0, cod := 0, folga := (0, 0, 0), tempo := 0, PID := 0 }

def pedido (PID tempo : Int32) : Request := { branco with cod := REQUEST_TOKEN, PID, tempo }

def devolucao (PID tempo recurso : Int32) : Request :=
  { branco with cod := RELEASE_TOKEN, PID, tempo, recurso }

/-- Client 1 asks with PID 7 and gives the token back, then client 2 asks. -/
def pedeDevolvePede : List (Entrada Nat) :=
  [entrega 1 (pedido 7 1), entrega 1 (devolucao 7 3 31), entrega 2 (pedido 8 1)]

/-- The two REPLY_ALLOW of the run stay apart, as nobody holds the token under a
PID with the low byte 0xFF. -/
theorem grants_stay_apart_in_a_round : ∃ s t,
    (servidor Nat).run (Servidor.inicio branco branco branco) pedeDevolvePede = some (s, t) ∧
      t.countP Evento.concede = 2 ∧ UmaConcessao t := by
  obtain ⟨s, t, h, hduas⟩ : ∃ s t, (servidor Nat).run (Servidor.inicio branco branco branco)
      pedeDevolvePede = some (s, t) ∧ t.countP Evento.concede = 2 := exists_run (by decide)
  have hes : ∀ e ∈ pedeDevolvePede, e.Inteira := by
    intro e he
    unfold pedeDevolvePede at he
    simp only [List.mem_cons, List.not_mem_nil, or_false] at he
    rcases he with rfl | rfl | rfl <;> exact ⟨_, rfl, length_bytes _⟩
  have hpids : (servidor Nat).Along
      (fun _ t _ => ((detentor t).all fun p => p.toInt8 ≠ -1) = true)
      (Servidor.inicio branco branco branco) pedeDevolvePede := along_of_check (by decide)
  refine ⟨s, t, h, hduas, (grants_stay_apart_iff_no_request_meets_a_blind_flag hes h).mpr ?_⟩
  refine along_mono hpids fun _ t _ hall _ p _ _ _ _ hdet => ?_
  rw [hdet, Option.all_some] at hall
  exact of_decide_eq_true hall

/-- Two clients ask, the first with PID 255, and nobody gives the token back. -/
def doisPedidos : List (Entrada Nat) := [entrega 1 (pedido 255 1), entrega 2 (pedido 7 1)]

/-- PID 255 leaves -1 in `Token.flag`, so both clients get the token. -/
theorem pid_255_lets_a_second_client_in : (∀ e ∈ doisPedidos, e.Inteira) ∧
    ∃ s t, (servidor Nat).run (Servidor.inicio branco branco branco) doisPedidos = some (s, t) ∧
      ¬ UmaConcessao t := by
  have hes : ∀ e ∈ doisPedidos, e.Inteira := by
    intro e he
    unfold doisPedidos at he
    simp only [List.mem_cons, List.not_mem_nil, or_false] at he
    rcases he with rfl | rfl <;> exact ⟨_, rfl, length_bytes _⟩
  exact ⟨hes, exists_run (by decide)⟩

end lab2
