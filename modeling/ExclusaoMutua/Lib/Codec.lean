-- Codecs of a fixed size: a writer that may refuse a value, and a reader that
-- gives back what it did not read. A record is the pair of its fields, seen
-- through the map that names them, so its laws come from those of the fields.
import ExclusaoMutua.Lib.LittleEndian

open little_endian

namespace codec

/-- A codec of `size` bytes. What it writes it reads back, in front of any other
bytes, and it reads nothing but what it writes. -/
structure Codec (α : Type*) where
  size : Nat
  put : α → Option (List UInt8)
  get : List UInt8 → Option (α × List UInt8)
  length_put : ∀ x bs, put x = some bs → bs.length = size
  get_put : ∀ x bs rest, put x = some bs → get (bs ++ rest) = some (x, rest)
  put_get : ∀ bs x rest, get bs = some (x, rest) → ∃ front, put x = some front ∧ bs = front ++ rest
  get_isSome : ∀ bs, size ≤ bs.length → (get bs).isSome = true

variable {α β : Type*}

/-- A reader refuses nothing but what is too short. -/
theorem Codec.get_eq_none_iff (c : Codec α) (bs : List UInt8) :
    c.get bs = none ↔ bs.length < c.size := by
  constructor
  · intro h
    rcases Nat.lt_or_ge bs.length c.size with hlt | hge
    · exact hlt
    · have hsome := c.get_isSome bs hge
      rw [h] at hsome
      cases hsome
  · intro h
    rcases hg : c.get bs with _ | ⟨x, rest⟩
    · rfl
    · obtain ⟨front, hput, rfl⟩ := c.put_get bs x rest hg
      have hlen := c.length_put x front hput
      rw [List.length_append] at h
      omega

theorem Codec.get_put_self (c : Codec α) {x : α} {bs : List UInt8} (h : c.put x = some bs) :
    c.get bs = some (x, []) := by
  have hget := c.get_put x bs [] h
  rwa [List.append_nil] at hget

/-- What is read is what its first bytes are written from. -/
theorem Codec.put_of_get (c : Codec α) {bs rest : List UInt8} {x : α}
    (h : c.get bs = some (x, rest)) : c.put x = some (bs.take c.size) ∧ rest = bs.drop c.size := by
  obtain ⟨front, hput, rfl⟩ := c.put_get bs x rest h
  have hlen := c.length_put x front hput
  rw [List.take_left' hlen, List.drop_left' hlen]
  exact ⟨hput, rfl⟩

/-! ## The codecs -/

/-- Four bytes, the highest first. -/
def word : Codec UInt32 where
  size := 4
  put x := some (encode 4 x.toNat).reverse
  get bs :=
    if 4 ≤ bs.length then some (UInt32.ofNat (decode (bs.take 4).reverse), bs.drop 4) else none
  length_put := by
    intro x bs h
    rw [Option.some.injEq] at h
    rw [← h, List.length_reverse, length_encode]
  get_put := by
    intro x bs rest h
    rw [Option.some.injEq] at h
    subst h
    have hlen : (encode 4 x.toNat).reverse.length = 4 := by rw [List.length_reverse, length_encode]
    have hlt := x.toNat_lt
    rw [if_pos (by rw [List.length_append, hlen]; omega), List.take_left' hlen,
      List.drop_left' hlen, List.reverse_reverse, decode_encode_of_lt (by omega)]
    simp
  put_get := by
    intro bs x rest h
    split at h
    · rename_i hle
      rw [Option.some.injEq, Prod.mk.injEq] at h
      obtain ⟨rfl, rfl⟩ := h
      have hlen : (bs.take 4).reverse.length = 4 := by
        rw [List.length_reverse, List.length_take, Nat.min_eq_left hle]
      have hlt := decode_lt (bs.take 4).reverse
      have henc := encode_decode (bs.take 4).reverse
      rw [hlen] at hlt henc
      refine ⟨bs.take 4, ?_, (List.take_append_drop 4 bs).symm⟩
      rw [UInt32.toNat_ofNat', Nat.mod_eq_of_lt (by omega), henc, List.reverse_reverse]
    · cases h
  get_isSome := by
    intro bs h
    rw [if_pos h]
    rfl

/-- Two codecs, one behind the other. -/
def Codec.pair (c : Codec α) (d : Codec β) : Codec (α × β) where
  size := c.size + d.size
  put x := (c.put x.1).bind fun bs => (d.put x.2).map fun cs => bs ++ cs
  get bs := (c.get bs).bind fun p => (d.get p.2).map fun q => ((p.1, q.1), q.2)
  length_put := by
    intro x bs h
    simp only [Option.bind_eq_some_iff, Option.map_eq_some_iff] at h
    obtain ⟨bs₁, h1, bs₂, h2, rfl⟩ := h
    rw [List.length_append, c.length_put _ _ h1, d.length_put _ _ h2]
  get_put := by
    intro x bs rest h
    simp only [Option.bind_eq_some_iff, Option.map_eq_some_iff] at h
    obtain ⟨bs₁, h1, bs₂, h2, rfl⟩ := h
    rw [List.append_assoc, c.get_put _ _ _ h1, Option.bind_some, d.get_put _ _ _ h2]
    rfl
  put_get := by
    intro bs x rest h
    simp only [Option.bind_eq_some_iff, Option.map_eq_some_iff, Prod.mk.injEq, Prod.exists] at h
    obtain ⟨a, rest₁, h1, b, rest₂, h2, rfl, rfl⟩ := h
    obtain ⟨bs₁, hp1, rfl⟩ := c.put_get _ _ _ h1
    obtain ⟨bs₂, hp2, rfl⟩ := d.put_get _ _ _ h2
    refine ⟨bs₁ ++ bs₂, ?_, (List.append_assoc _ _ _).symm⟩
    rw [hp1, Option.bind_some, hp2]
    rfl
  get_isSome := by
    intro bs h
    obtain ⟨⟨a, rest₁⟩, h1⟩ := Option.isSome_iff_exists.mp (c.get_isSome bs (by omega))
    obtain ⟨bs₁, hp1, rfl⟩ := c.put_get _ _ _ h1
    rw [List.length_append, c.length_put _ _ hp1] at h
    obtain ⟨⟨b, rest₂⟩, h2⟩ := Option.isSome_iff_exists.mp (d.get_isSome rest₁ (by omega))
    rw [h1, Option.bind_some, h2]
    rfl

/-- The codec of `β` for the values of `α` that `f` takes to `β` with nothing
lost. The others cannot be written. -/
def Codec.via [DecidableEq α] (c : Codec β) (f : α → β) (g : β → α) (h : ∀ b, f (g b) = b) :
    Codec α where
  size := c.size
  put x := if g (f x) = x then c.put (f x) else none
  get bs := (c.get bs).map fun p => (g p.1, p.2)
  length_put := by
    intro x bs hput
    split at hput
    · exact c.length_put _ _ hput
    · cases hput
  get_put := by
    intro x bs rest hput
    split at hput
    · rename_i hx
      rw [c.get_put _ _ _ hput, Option.map_some, hx]
    · cases hput
  put_get := by
    intro bs x rest hget
    simp only [Option.map_eq_some_iff, Prod.mk.injEq, Prod.exists] at hget
    obtain ⟨b, rest', hget, rfl, rfl⟩ := hget
    obtain ⟨front, hput, rfl⟩ := c.put_get _ _ _ hget
    exact ⟨front, by rw [h, if_pos rfl, hput], rfl⟩
  get_isSome := by
    intro bs hle
    rw [Option.isSome_map]
    exact c.get_isSome bs hle

/-! ## What can be written -/

theorem word_put_isSome (x : UInt32) : (word.put x).isSome = true := rfl

theorem pair_put_isSome (c : Codec α) (d : Codec β) (x : α × β) :
    ((c.pair d).put x).isSome = ((c.put x.1).isSome && (d.put x.2).isSome) := by
  unfold Codec.pair
  dsimp only
  cases c.put x.1 with
  | none => rfl
  | some bs =>
    cases d.put x.2 with
    | none => rfl
    | some cs => rfl

theorem via_put_isSome [DecidableEq α] (c : Codec β) (f : α → β) (g : β → α)
    (h : ∀ b, f (g b) = b) (x : α) :
    ((c.via f g h).put x).isSome = (decide (g (f x) = x) && (c.put (f x)).isSome) := by
  unfold Codec.via
  by_cases hx : g (f x) = x
  · simp [hx]
  · simp [hx]

end codec
