-- The records of LAB07-SD/backup on the stream of the RPC library:
-- `server_cent_xdr.c`, with the `xdr_long` of the library as a parameter.
import ExclusaoMutua.Lab07.Xdr
import ExclusaoMutua.Lib.StreamFilter

open codec stream_filter

namespace lab07

/-! ## The code -/

def xdr_request_in (xdr_long : StreamFilter Int64) : StreamFilter RequestIn :=
  within (both xdr_long xdr_long) (fun objp => (objp.pid_c, objp.tempo_c))
    fun p => { pid_c := p.1, tempo_c := p.2 }

def xdr_release (xdr_long : StreamFilter Int64) : StreamFilter Release :=
  within (both xdr_long (both xdr_long xdr_long))
    (fun objp => (objp.pid_c, objp.tempo_c, objp.recurso_n))
    fun p => { pid_c := p.1, tempo_c := p.2.1, recurso_n := p.2.2 }

def xdr_reply_out (xdr_long : StreamFilter Int64) : StreamFilter ReplyOut :=
  within (both xdr_long (both xdr_long xdr_long))
    (fun objp => (objp.pid_c, objp.tempo_s, objp.recurso))
    fun p => { pid_c := p.1, tempo_s := p.2.1, recurso := p.2.2 }

/-! ## One number behind the other -/

/-- The bytes of the numbers of a list, in order. There are none when one of the
numbers cannot be written. -/
def emSerie (put : Int64 → Option (List UInt8)) : List Int64 → Option (List UInt8)
  | [] => some []
  | x :: xs => (put x).bind fun bs => (emSerie put xs).map fun cs => bs ++ cs

theorem emSerie_uma (put : Int64 → Option (List UInt8)) (x : Int64) : emSerie put [x] = put x := by
  unfold emSerie emSerie
  cases put x with
  | none => rfl
  | some bs => simp

theorem emSerie_duas (put : Int64 → Option (List UInt8)) (x y : Int64) :
    emSerie put [x, y] = putBoth put put (x, y) := by
  rw [emSerie, emSerie_uma]
  rfl

theorem emSerie_tres (put : Int64 → Option (List UInt8)) (x y z : Int64) :
    emSerie put [x, y, z] = putBoth put (putBoth put put) (x, y, z) := by
  rw [emSerie, emSerie_duas]
  rfl

/-! ## The records there and back -/

section Numero

variable {xdr_long : StreamFilter Int64} {put : Int64 → Option (List UInt8)} {kept : Int64 → Prop}

theorem xdr_request_in_lawful (h : Lawful xdr_long put kept 4) :
    Lawful (xdr_request_in xdr_long) (fun r => emSerie put [r.pid_c, r.tempo_c])
      (fun r => kept r.pid_c ∧ kept r.tempo_c) 8 := by
  simp only [emSerie_duas]
  exact within_lawful (both_lawful h h) (fun _ => rfl) fun _ => rfl

theorem xdr_release_lawful (h : Lawful xdr_long put kept 4) :
    Lawful (xdr_release xdr_long) (fun r => emSerie put [r.pid_c, r.tempo_c, r.recurso_n])
      (fun r => kept r.pid_c ∧ kept r.tempo_c ∧ kept r.recurso_n) 12 := by
  simp only [emSerie_tres]
  exact within_lawful (both_lawful h (both_lawful h h)) (fun _ => rfl) fun _ => rfl

theorem xdr_reply_out_lawful (h : Lawful xdr_long put kept 4) :
    Lawful (xdr_reply_out xdr_long) (fun r => emSerie put [r.pid_c, r.tempo_s, r.recurso])
      (fun r => kept r.pid_c ∧ kept r.tempo_s ∧ kept r.recurso) 12 := by
  simp only [emSerie_tres]
  exact within_lawful (both_lawful h (both_lawful h h)) (fun _ => rfl) fun _ => rfl

end Numero

/-- The three records there and back, whatever `xdr_long` the program is linked
with, as long as that one keeps the laws of a number of four bytes. Each record
is its numbers in order. It is written when each of them can be, and read when
there are bytes enough; what is read is written back as it was, and what is
written reads back when `xdr_long` reads each number back, whatever the object
held before. To free a record always goes well. -/
theorem the_records_read_back_as_they_were_written {xdr_long : StreamFilter Int64}
    {put : Int64 → Option (List UInt8)} {kept : Int64 → Prop}
    (hxdr_long : Lawful xdr_long put kept 4) :
    Lawful (xdr_request_in xdr_long) (fun r => emSerie put [r.pid_c, r.tempo_c])
        (fun r => kept r.pid_c ∧ kept r.tempo_c) 8 ∧
      Lawful (xdr_release xdr_long) (fun r => emSerie put [r.pid_c, r.tempo_c, r.recurso_n])
        (fun r => kept r.pid_c ∧ kept r.tempo_c ∧ kept r.recurso_n) 12 ∧
      Lawful (xdr_reply_out xdr_long) (fun r => emSerie put [r.pid_c, r.tempo_s, r.recurso])
        (fun r => kept r.pid_c ∧ kept r.tempo_s ∧ kept r.recurso) 12 :=
  ⟨xdr_request_in_lawful hxdr_long, xdr_release_lawful hxdr_long, xdr_reply_out_lawful hxdr_long⟩

/-- The REL of PID 7 with a negative number, in front of another byte, reads back
over the numbers of the call before. -/
theorem a_release_reads_back_over_the_one_before :
    xdr_release (ofCodec codecLong)
        (.decode ([0, 0, 0, 7, 0, 0, 0, 5, 255, 255, 255, 254] ++ [9]))
        { pid_c := 8, tempo_c := 3, recurso_n := 30 } =
      (true, .decode [9], { pid_c := 7, tempo_c := 5, recurso_n := -2 }) := by
  obtain ⟨-, hrelease, -⟩ :=
    the_records_read_back_as_they_were_written (ofCodec_lawful codecLong)
  exact hrelease.read { pid_c := 7, tempo_c := 5, recurso_n := -2 } _ [9] _
    ⟨trivial, trivial, trivial⟩ (by decide)

/-! ## The codecs of the wire -/

theorem codecRequestIn_put (r : RequestIn) :
    codecRequestIn.put r = emSerie codecLong.put [r.pid_c, r.tempo_c] := by
  rw [emSerie_duas]
  exact if_pos rfl

theorem codecRelease_put (r : Release) :
    codecRelease.put r = emSerie codecLong.put [r.pid_c, r.tempo_c, r.recurso_n] := by
  rw [emSerie_tres]
  exact if_pos rfl

theorem codecReplyOut_put (r : ReplyOut) :
    codecReplyOut.put r = emSerie codecLong.put [r.pid_c, r.tempo_s, r.recurso] := by
  rw [emSerie_tres]
  exact if_pos rfl

/-- With the `xdr_long` of the wire the records of `server_cent_xdr.c` are those
that the stubs and the dispatcher write and read. -/
theorem the_wire_carries_the_records_of_server_cent_xdr :
    Same (xdr_request_in (ofCodec codecLong)) (ofCodec codecRequestIn) ∧
      Same (xdr_release (ofCodec codecLong)) (ofCodec codecRelease) ∧
      Same (xdr_reply_out (ofCodec codecLong)) (ofCodec codecReplyOut) := by
  have hlong := ofCodec_lawful codecLong
  have hrequest := xdr_request_in_lawful hlong
  have hrelease := xdr_release_lawful hlong
  have hreply := xdr_reply_out_lawful hlong
  simp only [← codecRequestIn_put, and_self] at hrequest
  simp only [← codecRelease_put, and_self] at hrelease
  simp only [← codecReplyOut_put, and_self] at hreply
  exact ⟨hrequest.same (ofCodec_lawful codecRequestIn) fun _ => trivial,
    hrelease.same (ofCodec_lawful codecRelease) fun _ => trivial,
    hreply.same (ofCodec_lawful codecReplyOut) fun _ => trivial⟩

end lab07
