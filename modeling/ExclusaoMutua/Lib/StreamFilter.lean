-- Filters over a stream of bytes. One function serves the three modes of its
-- stream: it writes an object to it, reads an object from it, or frees the
-- object. The laws of a filter for a record come from those for its fields.
import ExclusaoMutua.Lib.Codec

open codec

namespace stream_filter

/-- A stream in its mode: with the bytes written so far, with the bytes left to
read, or with neither. -/
inductive Stream where
  | encode (written : List UInt8)
  | decode (left : List UInt8)
  | free
  deriving DecidableEq

/-- A filter: whether it went well, and the stream and the object behind it. -/
abbrev StreamFilter (α : Type*) := Stream → α → Bool × Stream × α

variable {α β : Type*}

/-- A filter of `n` bytes that writes `put x` for `x`, or fails where that is
`none`. It reads all that is long enough, and what it reads it would write back.
The values in `kept` read back as they were written, whatever the object was. -/
structure Lawful (f : StreamFilter α) (put : α → Option (List UInt8)) (kept : α → Prop) (n : Nat) :
    Prop where
  write : ∀ w x bs, put x = some bs → f (.encode w) x = (true, .encode (w ++ bs), x)
  refuse : ∀ w x, put x = none → (f (.encode w) x).1 = false
  size : ∀ x bs, put x = some bs → bs.length = n
  read : ∀ x bs rest y, kept x → put x = some bs →
    f (.decode (bs ++ rest)) y = (true, .decode rest, x)
  short : ∀ l y, l.length < n → (f (.decode l) y).1 = false
  long : ∀ l, n ≤ l.length → ∃ x, put x = some (l.take n) ∧
    ∀ y, f (.decode l) y = (true, .decode (l.drop n), x)
  free : ∀ x, f .free x = (true, .free, x)

/-! ## A codec as a filter -/

def ofCodec (c : Codec α) : StreamFilter α
  | .encode w, x =>
    match c.put x with
    | some bs => (true, .encode (w ++ bs), x)
    | none => (false, .encode w, x)
  | .decode l, y =>
    match c.get l with
    | some (x, rest) => (true, .decode rest, x)
    | none => (false, .decode l, y)
  | .free, x => (true, .free, x)

theorem ofCodec_lawful (c : Codec α) : Lawful (ofCodec c) c.put (fun _ => True) c.size where
  write w x bs h := by simp [ofCodec, h]
  refuse w x h := by simp [ofCodec, h]
  size := c.length_put
  read x bs rest y _ h := by simp [ofCodec, c.get_put x bs rest h]
  short l y h := by simp [ofCodec, (c.get_eq_none_iff l).mpr h]
  long l h := by
    obtain ⟨⟨x, rest⟩, hget⟩ := Option.isSome_iff_exists.mp (c.get_isSome l h)
    obtain ⟨hput, rfl⟩ := c.put_of_get hget
    exact ⟨x, hput, fun y => by simp [ofCodec, hget]⟩
  free x := rfl

/-- Two filters succeed alike, and where they do they do the same. -/
def Same (f g : StreamFilter α) : Prop :=
  ∀ s x, (f s x).1 = (g s x).1 ∧ ((f s x).1 = true → f s x = g s x)

/-- The bytes that it writes tell all that a lawful filter does. -/
theorem Lawful.same {f g : StreamFilter α} {put : α → Option (List UInt8)} {kept : α → Prop}
    {n : Nat} (hf : Lawful f put kept n) (hg : Lawful g put kept n) (hkept : ∀ x, kept x) :
    Same f g := by
  intro s x
  cases s with
  | free =>
    rw [hf.free, hg.free]
    exact ⟨rfl, fun _ => rfl⟩
  | encode w =>
    rcases hput : put x with _ | bs
    · rw [hf.refuse w x hput, hg.refuse w x hput]
      exact ⟨rfl, fun h => by cases h⟩
    · rw [hf.write w x bs hput, hg.write w x bs hput]
      exact ⟨rfl, fun _ => rfl⟩
  | decode l =>
    rcases Nat.lt_or_ge l.length n with hlt | hge
    · rw [hf.short l x hlt, hg.short l x hlt]
      exact ⟨rfl, fun h => by cases h⟩
    · obtain ⟨v, hput, -⟩ := hf.long l hge
      have hread := hf.read v _ (l.drop n) x (hkept v) hput
      have hread' := hg.read v _ (l.drop n) x (hkept v) hput
      rw [List.take_append_drop] at hread hread'
      rw [hread, hread']
      exact ⟨rfl, fun _ => rfl⟩

/-! ## Records -/

/-- Two filters in turn, for the two fields of a pair. When the first one fails the
second is not called, and its field stays as it was. -/
def both (f : StreamFilter α) (g : StreamFilter β) : StreamFilter (α × β) := fun s x =>
  let r := f s x.1
  if r.1 then
    let q := g r.2.1 x.2
    (q.1, q.2.1, (r.2.2, q.2.2))
  else (false, r.2.1, (r.2.2, x.2))

/-- What two filters in turn write. -/
def putBoth (p : α → Option (List UInt8)) (q : β → Option (List UInt8)) (x : α × β) :
    Option (List UInt8) :=
  (p x.1).bind fun bs => (q x.2).map fun cs => bs ++ cs

theorem putBoth_eq_some {p : α → Option (List UInt8)} {q : β → Option (List UInt8)} {x : α × β}
    {bs : List UInt8} :
    putBoth p q x = some bs ↔ ∃ cs ds, p x.1 = some cs ∧ q x.2 = some ds ∧ bs = cs ++ ds := by
  unfold putBoth
  simp only [Option.bind_eq_some_iff, Option.map_eq_some_iff]
  constructor
  · rintro ⟨cs, h1, ds, h2, rfl⟩
    exact ⟨cs, ds, h1, h2, rfl⟩
  · rintro ⟨cs, ds, h1, h2, rfl⟩
    exact ⟨cs, h1, ds, h2, rfl⟩

theorem both_of_true {f : StreamFilter α} {g : StreamFilter β} {s s' : Stream} {x : α × β} {a : α}
    (h : f s x.1 = (true, s', a)) :
    both f g s x = ((g s' x.2).1, (g s' x.2).2.1, (a, (g s' x.2).2.2)) := by
  unfold both
  simp [h]

theorem both_of_false {f : StreamFilter α} {g : StreamFilter β} {s : Stream} {x : α × β}
    (h : (f s x.1).1 = false) : (both f g s x).1 = false := by
  unfold both
  simp [h]

theorem both_lawful {f : StreamFilter α} {g : StreamFilter β} {p : α → Option (List UInt8)}
    {q : β → Option (List UInt8)} {k : α → Prop} {j : β → Prop} {n m : Nat} (hf : Lawful f p k n)
    (hg : Lawful g q j m) :
    Lawful (both f g) (putBoth p q) (fun x => k x.1 ∧ j x.2) (n + m) where
  write w x bs h := by
    obtain ⟨cs, ds, h1, h2, rfl⟩ := putBoth_eq_some.mp h
    rw [both_of_true (hf.write w x.1 cs h1), hg.write _ x.2 ds h2, List.append_assoc]
  refuse w x h := by
    rcases h1 : p x.1 with _ | cs
    · exact both_of_false (hf.refuse w x.1 h1)
    · have h2 : q x.2 = none := by simpa [putBoth, h1] using h
      rw [both_of_true (hf.write w x.1 cs h1)]
      exact hg.refuse _ x.2 h2
  size x bs h := by
    obtain ⟨cs, ds, h1, h2, rfl⟩ := putBoth_eq_some.mp h
    rw [List.length_append, hf.size _ cs h1, hg.size _ ds h2]
  read x bs rest y hx h := by
    obtain ⟨cs, ds, h1, h2, rfl⟩ := putBoth_eq_some.mp h
    rw [List.append_assoc, both_of_true (hf.read x.1 cs (ds ++ rest) y.1 hx.1 h1),
      hg.read x.2 ds rest y.2 hx.2 h2]
  short l y h := by
    rcases Nat.lt_or_ge l.length n with hlt | hge
    · exact both_of_false (hf.short l y.1 hlt)
    · obtain ⟨a, -, hread⟩ := hf.long l hge
      rw [both_of_true (hread y.1)]
      exact hg.short _ _ (by rw [List.length_drop]; omega)
  long l h := by
    obtain ⟨a, hput, hread⟩ := hf.long l (by omega)
    obtain ⟨b, hput', hread'⟩ := hg.long (l.drop n) (by rw [List.length_drop]; omega)
    refine ⟨(a, b), putBoth_eq_some.mpr ⟨_, _, hput, hput', ?_⟩, fun y => ?_⟩
    · rw [List.take_add]
    · rw [both_of_true (hread y.1), hread' y.2, List.drop_drop]
  free x := by
    rw [both_of_true (hf.free x.1), hg.free x.2]

/-- A filter for `β` as one for `α`: the object is taken apart for it and put
together again behind it. -/
def within (f : StreamFilter β) (get : α → β) (set : β → α) : StreamFilter α := fun s x =>
  let r := f s (get x)
  (r.1, r.2.1, set r.2.2)

theorem within_eq (f : StreamFilter β) (get : α → β) (set : β → α) (s : Stream) (x : α) :
    within f get set s x = ((f s (get x)).1, (f s (get x)).2.1, set (f s (get x)).2.2) := rfl

theorem within_lawful {f : StreamFilter β} {p : β → Option (List UInt8)} {k : β → Prop} {n : Nat}
    (h : Lawful f p k n) {get : α → β} {set : β → α} (hset : ∀ x, set (get x) = x)
    (hget : ∀ y, get (set y) = y) :
    Lawful (within f get set) (fun x => p (get x)) (fun x => k (get x)) n where
  write w x bs hput := by
    rw [within_eq, h.write w (get x) bs hput, hset]
  refuse w x hput := h.refuse w (get x) hput
  size x bs hput := h.size (get x) bs hput
  read x bs rest y hx hput := by
    rw [within_eq, h.read (get x) bs rest (get y) hx hput, hset]
  short l y hlt := h.short l (get y) hlt
  long l hle := by
    obtain ⟨b, hput, hread⟩ := h.long l hle
    refine ⟨set b, by rw [hget]; exact hput, fun y => ?_⟩
    rw [within_eq, hread (get y)]
  free x := by
    rw [within_eq, h.free, hset]

end stream_filter
