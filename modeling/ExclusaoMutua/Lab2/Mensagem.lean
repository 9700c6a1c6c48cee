-- The messages of LAB2-NETKIT: `struct request` as both programs declare it,
-- its sixteen bytes on a 64-bit build, and what `recvfrom` leaves in the
-- buffer that a program uses again and again.
import ExclusaoMutua.Lib.LittleEndian

open little_endian

namespace lab2

def REQUEST_TOKEN : Int8 := 10
def RELEASE_TOKEN : Int8 := 20
def REPLY_ALLOW : Int8 := 30
def ACK : Int8 := 40

def INT_MAX : Int32 := 2147483647

/-- `struct request`. The field `recurso` is `rec`, and `folga` is the three
bytes that the compiler leaves between `cod` and `tempo`. -/
structure Request where
  recurso : Int32
  cod : Int8
  folga : UInt8 × UInt8 × UInt8
  tempo : Int32
  PID : Int32
  deriving DecidableEq

/-- `sizeof(struct request)`. -/
def sizeofRequest : Nat := 16

/-- `sizeof(rep)`, where `rep` is a pointer. -/
def sizeofRep : Nat := 8

/-! ## The bytes of a message -/

def Request.bytes (r : Request) : List UInt8 :=
  intBytes r.recurso ++ [r.cod.toUInt8, r.folga.1, r.folga.2.1, r.folga.2.2] ++
    intBytes r.tempo ++ intBytes r.PID

def Request.ofBytes (bs : List UInt8) : Request where
  recurso := intOf (bs.take 4)
  cod := (bs.getD 4 0).toInt8
  folga := (bs.getD 5 0, bs.getD 6 0, bs.getD 7 0)
  tempo := intOf ((bs.drop 8).take 4)
  PID := intOf ((bs.drop 12).take 4)

/-- The buffer after `recvfrom(sock, buf, sizeof(struct request), ...)`: the
bytes of the datagram take the place of the first bytes of the buffer. -/
def recvfrom (buf : Request) (dados : List UInt8) : Request :=
  Request.ofBytes (dados.take sizeofRequest ++ buf.bytes.drop dados.length)

theorem intBytes_eq (x : Int32) : ∃ a b c d, intBytes x = [a, b, c, d] := ⟨_, _, _, _, rfl⟩

@[simp] theorem length_bytes (r : Request) : r.bytes.length = sizeofRequest := by
  unfold Request.bytes
  simp [sizeofRequest]

/-- Bytes laid out one field after the other read back field by field. -/
theorem ofBytes_fields (r : Request) :
    Request.ofBytes (intBytes r.recurso ++ [r.cod.toUInt8, r.folga.1, r.folga.2.1, r.folga.2.2] ++
      intBytes r.tempo ++ intBytes r.PID) = r := by
  obtain ⟨a, b, c, d, h1⟩ := intBytes_eq r.recurso
  obtain ⟨e, f, g, i, h2⟩ := intBytes_eq r.tempo
  obtain ⟨j, k, l, n, h3⟩ := intBytes_eq r.PID
  have e1 := h1 ▸ intOf_intBytes r.recurso
  have e2 := h2 ▸ intOf_intBytes r.tempo
  have e3 := h3 ▸ intOf_intBytes r.PID
  rw [h1, h2, h3]
  unfold Request.ofBytes
  simp [e1, e2, e3]

@[simp] theorem ofBytes_bytes (r : Request) : Request.ofBytes r.bytes = r := ofBytes_fields r

/-- Sixteen bytes are the bytes of what they read as. -/
theorem bytes_ofBytes {bs : List UInt8} (h : bs.length = sizeofRequest) :
    (Request.ofBytes bs).bytes = bs := by
  have h1 : intBytes (intOf (bs.take 4)) = bs.take 4 := intBytes_intOf (by simp [h, sizeofRequest])
  have h2 : intBytes (intOf ((bs.drop 8).take 4)) = (bs.drop 8).take 4 :=
    intBytes_intOf (by simp [h, sizeofRequest])
  have h3 : intBytes (intOf ((bs.drop 12).take 4)) = (bs.drop 12).take 4 :=
    intBytes_intOf (by simp [h, sizeofRequest])
  unfold Request.bytes Request.ofBytes
  simp only [h1, h2, h3, UInt8.toUInt8_toInt8]
  match bs, h with
  | [_, _, _, _, _, _, _, _, _, _, _, _, _, _, _, _], _ => rfl

/-- A datagram of the full size takes the place of the whole buffer. -/
theorem recvfrom_full (buf : Request) {dados : List UInt8} (h : dados.length = sizeofRequest) :
    recvfrom buf dados = Request.ofBytes dados := by
  unfold recvfrom
  rw [List.take_of_length_le (by omega), List.drop_of_length_le (by simp [h]), List.append_nil]

@[simp] theorem recvfrom_bytes (buf r : Request) : recvfrom buf r.bytes = r := by
  rw [recvfrom_full buf (length_bytes r), ofBytes_bytes]

/-- The eight bytes that `sizeof(rep)` counts hold `rec` and `cod` with the
bytes behind it. The buffer keeps its own `tempo` and `PID`. -/
@[simp] theorem recvfrom_rep (buf r : Request) :
    recvfrom buf (r.bytes.take sizeofRep) =
      { buf with recurso := r.recurso, cod := r.cod, folga := r.folga } := by
  rw [← ofBytes_fields { buf with recurso := r.recurso, cod := r.cod, folga := r.folga }]
  obtain ⟨a, b, c, d, h1⟩ := intBytes_eq r.recurso
  obtain ⟨e, f, g, i, h2⟩ := intBytes_eq buf.recurso
  unfold recvfrom Request.bytes
  simp [sizeofRep, sizeofRequest, h1, h2]

/-- An outsider reads `rec` and `cod` in those eight bytes. -/
theorem ofBytes_rep (r : Request) : (Request.ofBytes (r.bytes.take sizeofRep)).recurso = r.recurso ∧
    (Request.ofBytes (r.bytes.take sizeofRep)).cod = r.cod := by
  obtain ⟨a, b, c, d, h1⟩ := intBytes_eq r.recurso
  have e1 := h1 ▸ intOf_intBytes r.recurso
  unfold Request.ofBytes Request.bytes
  simp [sizeofRep, h1, e1]

/-! ## Datagrams -/

/-- One `sendto`: the struct that the sender hands over, and the number of
its bytes that go out. -/
structure Datagrama where
  conteudo : Request
  nbytes : Nat
  deriving DecidableEq

def Datagrama.dados (d : Datagrama) : List UInt8 := d.conteudo.bytes.take d.nbytes

/-- A datagram sent whole. -/
def Datagrama.Inteiro (d : Datagrama) : Prop := d.nbytes = sizeofRequest

theorem dados_inteiro {d : Datagrama} (h : d.Inteiro) : d.dados = d.conteudo.bytes := by
  unfold Datagrama.dados
  rw [h, ← length_bytes d.conteudo, List.take_length]

theorem recvfrom_inteiro (buf : Request) {d : Datagrama} (h : d.Inteiro) :
    recvfrom buf d.dados = d.conteudo := by
  rw [dados_inteiro h, recvfrom_bytes]

end lab2
