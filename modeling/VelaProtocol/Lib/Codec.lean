import Mathlib.Tactic.Ring

/-! Byte codecs that carry their own round trip.
Decoding takes one value off the front and hands back the rest, so codecs follow one another. -/

universe u v

structure Codec (α : Type u) where
  encode : α → List UInt8
  decode : List UInt8 → Option (α × List UInt8)
  decode_encode : ∀ a rest, decode (encode a ++ rest) = some (a, rest)

namespace Codec

variable {α : Type u} {β : Type v}

def byte : Codec UInt8 where
  encode b := [b]
  decode
    | [] => none
    | b :: rest => some (b, rest)
  decode_encode _ _ := rfl

def pair (first : Codec α) (second : Codec β) : Codec (α × β) where
  encode x := first.encode x.1 ++ second.encode x.2
  decode bytes := (first.decode bytes).bind fun x =>
    (second.decode x.2).map fun y => ((x.1, y.1), y.2)
  decode_encode := by
    intro x rest
    rw [List.append_assoc, first.decode_encode, Option.bind_some, second.decode_encode]
    rfl

/-- Another view of the same bytes, which may refuse some of them. -/
def refine (c : Codec α) (view : α → Option β) (back : β → α)
    (view_back : ∀ b, view (back b) = some b) : Codec β where
  encode b := c.encode (back b)
  decode bytes := (c.decode bytes).bind fun x => (view x.1).map fun b => (b, x.2)
  decode_encode := by
    intro b rest
    rw [c.decode_encode, Option.bind_some, view_back]
    rfl

def iso (c : Codec α) (view : α → β) (back : β → α) (view_back : ∀ b, view (back b) = b) :
    Codec β :=
  c.refine (fun a => some (view a)) back fun b => congrArg some (view_back b)

theorem word_bound {n low high : Nat} (hl : low < 2 ^ 8) (hh : high < 2 ^ (8 * n)) :
    low + 256 * high < 2 ^ (8 * (n + 1)) := by
  have size : 2 ^ (8 * (n + 1)) = 256 * 2 ^ (8 * n) := by
    rw [Nat.mul_add, Nat.pow_add]
    ring
  omega

def word : (n : Nat) → Codec (BitVec (8 * n))
  | 0 => {
      encode := fun _ => []
      decode := fun rest => some (0, rest)
      decode_encode := fun v rest => by rw [BitVec.eq_nil v]; rfl }
  | n + 1 => (byte.pair (word n)).iso
      (fun x => BitVec.ofNat _ (x.1.toNat + 256 * x.2.toNat))
      (fun v => (UInt8.ofNat v.toNat, BitVec.ofNat _ (v.toNat / 256)))
      (by
        intro v
        have bound := v.isLt
        have size : 2 ^ (8 * (n + 1)) = 256 * 2 ^ (8 * n) := by
          rw [Nat.mul_add, Nat.pow_add]
          ring
        have high : v.toNat / 256 < 2 ^ (8 * n) := by
          rw [Nat.div_lt_iff_lt_mul (by decide)]
          omega
        apply BitVec.eq_of_toNat_eq
        rw [BitVec.toNat_ofNat, BitVec.toNat_ofNat, UInt8.toNat_ofNat', Nat.mod_eq_of_lt high]
        rw [Nat.mod_eq_of_lt (by omega)]
        omega)

def u32 : Codec UInt32 := (word 4).iso UInt32.ofBitVec UInt32.toBitVec fun _ => rfl

def u64 : Codec UInt64 := (word 8).iso UInt64.ofBitVec UInt64.toBitVec fun _ => rfl

def i64 : Codec Int64 := (word 8).iso Int64.ofBitVec Int64.toBitVec fun _ => rfl

def variant (view : UInt8 → Option α) (index : α → UInt8)
    (view_index : ∀ a, view (index a) = some a) : Codec α :=
  byte.refine view index view_index

def bool : Codec Bool :=
  variant (fun b => if b = 0 then some false else if b = 1 then some true else none)
    (fun b => if b then 1 else 0) (by decide)

def option (c : Codec α) : Codec (Option α) where
  encode
    | none => [0]
    | some a => 1 :: c.encode a
  decode
    | [] => none
    | flag :: rest =>
      if flag = 0 then some (none, rest)
      else if flag = 1 then (c.decode rest).map fun x => (some x.1, x.2)
      else none
  decode_encode := by
    intro a rest
    cases a with
    | none => rfl
    | some a =>
      have flag : (1 : UInt8) ≠ 0 := by decide
      simp only [List.cons_append, if_neg flag, if_true]
      rw [c.decode_encode]
      rfl

def tagged (tag : List UInt8) (c : Codec α) : Codec α where
  encode a := tag ++ c.encode a
  decode bytes := if bytes.take tag.length = tag then c.decode (bytes.drop tag.length) else none
  decode_encode := by
    intro a rest
    rw [List.append_assoc, List.take_left, if_pos rfl, List.drop_left, c.decode_encode]

def takeMany (c : Codec α) : Nat → List UInt8 → Option (List α × List UInt8)
  | 0, bytes => some ([], bytes)
  | n + 1, bytes => (c.decode bytes).bind fun x =>
      (c.takeMany n x.2).map fun y => (x.1 :: y.1, y.2)

theorem takeMany_encode (c : Codec α) (xs : List α) (rest : List UInt8) :
    c.takeMany xs.length (xs.flatMap c.encode ++ rest) = some (xs, rest) := by
  induction xs with
  | nil => rfl
  | cons x xs ih =>
    rw [List.flatMap_cons, List.append_assoc, List.length_cons, takeMany, c.decode_encode,
      Option.bind_some, ih]
    rfl

theorem takeMany_length {c : Codec α} {n : Nat} {bytes rest : List UInt8} {xs : List α}
    (h : c.takeMany n bytes = some (xs, rest)) : xs.length = n := by
  induction n generalizing bytes xs with
  | zero =>
    cases h
    rfl
  | succ n ih =>
    simp only [takeMany, Option.bind_eq_some_iff, Option.map_eq_some_iff] at h
    obtain ⟨_, _, y, later, same⟩ := h
    cases same
    rw [List.length_cons, ih later]

def vector (c : Codec α) (n : Nat) : Codec (Vector α n) where
  encode v := v.toList.flatMap c.encode
  decode bytes := (c.takeMany n bytes).bind fun x =>
    if h : x.1.length = n then some (⟨x.1.toArray, h⟩, x.2) else none
  decode_encode := by
    intro v rest
    have taken := c.takeMany_encode v.toList rest
    rw [Vector.length_toList] at taken
    rw [taken, Option.bind_some, dif_pos Vector.length_toList]
    rfl

def counted (c : Codec α) : Codec {xs : List α // xs.length < 2 ^ 32} where
  encode xs := u32.encode (UInt32.ofNat xs.1.length) ++ xs.1.flatMap c.encode
  decode bytes := (u32.decode bytes).bind fun n =>
    (c.takeMany n.1.toNat n.2).bind fun x =>
      if h : x.1.length < 2 ^ 32 then some (⟨x.1, h⟩, x.2) else none
  decode_encode := by
    intro xs rest
    rw [List.append_assoc, u32.decode_encode, Option.bind_some]
    have length : (UInt32.ofNat xs.1.length).toNat = xs.1.length :=
      UInt32.toNat_ofNat_of_lt xs.2
    rw [length, c.takeMany_encode, Option.bind_some, dif_pos xs.2]

/-- The value at the front, whatever follows it. -/
def read (c : Codec α) (bytes : List UInt8) : Option α := (c.decode bytes).map Prod.fst

/-- The value is at the front. -/
def Holds (c : Codec α) (bytes : List UInt8) (a : α) : Prop :=
  ∃ padding, bytes = c.encode a ++ padding

theorem Holds.read {c : Codec α} {bytes : List UInt8} {a : α} (holds : c.Holds bytes a) :
    c.read bytes = some a := by
  obtain ⟨padding, rfl⟩ := holds
  rw [Codec.read, c.decode_encode]
  rfl

theorem Holds.tag {c : Codec α} {bytes tag : List UInt8} {a : α}
    (holds : (c.tagged tag).Holds bytes a) : bytes.take tag.length = tag := by
  obtain ⟨padding, rfl⟩ := holds
  rw [tagged, List.append_assoc, List.take_left]

/-- Bytes that decode are the encoding of what they decode to. -/
class Canonical (c : Codec α) : Prop where
  encode_decode : ∀ {bytes rest : List UInt8} {a : α}, c.decode bytes = some (a, rest) →
    bytes = c.encode a ++ rest

/-- Every value takes the same number of bytes. -/
class Sized (c : Codec α) (n : outParam Nat) : Prop where
  length_encode : ∀ a, (c.encode a).length = n

export Canonical (encode_decode)
export Sized (length_encode)

section Closure

variable {c : Codec α} {d : Codec β} {m n : Nat}

instance : Canonical byte where
  encode_decode := by
    intro bytes rest a h
    cases bytes with
    | nil => cases h
    | cons b bytes =>
      cases h
      rfl

instance : Sized byte 1 := ⟨fun _ => rfl⟩

instance [Canonical c] [Canonical d] : Canonical (c.pair d) where
  encode_decode := by
    intro bytes rest a h
    simp only [pair, Option.bind_eq_some_iff, Option.map_eq_some_iff] at h
    obtain ⟨x, front, y, back, same⟩ := h
    cases same
    rw [encode_decode front, encode_decode back]
    exact (List.append_assoc _ _ _).symm

instance [Sized c m] [Sized d n] : Sized (c.pair d) (m + n) where
  length_encode := by
    intro a
    exact List.length_append.trans (congrArg₂ _ (length_encode a.1) (length_encode a.2))

theorem Canonical.refine [Canonical c] {view : α → Option β} {back : β → α}
    {view_back : ∀ b, view (back b) = some b} (back_view : ∀ a b, view a = some b → back b = a) :
    Canonical (c.refine view back view_back) where
  encode_decode := by
    intro bytes rest b h
    simp only [Codec.refine, Option.bind_eq_some_iff, Option.map_eq_some_iff] at h
    obtain ⟨x, front, b, seen, same⟩ := h
    cases same
    rw [encode_decode front, ← back_view x.1 b seen]
    rfl

theorem Canonical.iso [Canonical c] {view : α → β} {back : β → α}
    {view_back : ∀ b, view (back b) = b} (back_view : ∀ a, back (view a) = a) :
    Canonical (c.iso view back view_back) :=
  .refine fun a b h => by
    rw [← Option.some.inj h]
    exact back_view a

theorem Sized.iso [Sized c n] {view : α → β} {back : β → α} {view_back : ∀ b, view (back b) = b} :
    Sized (c.iso view back view_back) n :=
  ⟨fun b => length_encode (back b)⟩

instance canonical_word : (n : Nat) → Canonical (word n)
  | 0 => ⟨fun h => by cases h; rfl⟩
  | n + 1 => by
    have := canonical_word n
    refine .iso fun x => Prod.ext ?_ ?_
    · have low := x.1.toNat_lt
      have high := x.2.isLt
      apply UInt8.toNat_inj.mp
      rw [UInt8.toNat_ofNat', BitVec.toNat_ofNat, Nat.mod_eq_of_lt (word_bound low high)]
      omega
    · have low := x.1.toNat_lt
      have high := x.2.isLt
      apply BitVec.eq_of_toNat_eq
      rw [BitVec.toNat_ofNat, BitVec.toNat_ofNat, Nat.mod_eq_of_lt (word_bound low high)]
      rw [Nat.mod_eq_of_lt (by omega)]
      omega

instance sized_word : (n : Nat) → Sized (word n) n
  | 0 => ⟨fun _ => rfl⟩
  | n + 1 => by
    have := sized_word n
    refine ⟨fun v => ?_⟩
    have length : ((word (n + 1)).encode v).length = 1 + n :=
      length_encode (c := byte.pair (word n)) _
    omega

instance : Canonical u32 := .iso fun _ => rfl
instance : Canonical u64 := .iso fun _ => rfl
instance : Canonical i64 := .iso fun _ => rfl

instance : Sized u32 4 := .iso
instance : Sized u64 8 := .iso
instance : Sized i64 8 := .iso

theorem Canonical.variant {view : UInt8 → Option α} {index : α → UInt8}
    {view_index : ∀ a, view (index a) = some a}
    (index_view : ∀ b a, view b = some a → index a = b) :
    Canonical (Codec.variant view index view_index) :=
  .refine index_view

instance {view : UInt8 → Option α} {index : α → UInt8} {view_index : ∀ a, view (index a) = some a} :
    Sized (Codec.variant view index view_index) 1 :=
  ⟨fun _ => rfl⟩

instance : Canonical bool := .variant fun b a h => by
  split at h
  · cases h
    simp_all
  · split at h
    · cases h
      simp_all
    · cases h

instance : Sized bool 1 := ⟨fun _ => rfl⟩

instance [Canonical c] : Canonical c.option where
  encode_decode := by
    intro bytes rest a h
    cases bytes with
    | nil => cases h
    | cons flag bytes =>
      simp only [Codec.option] at h
      split at h
      · rename_i absent
        cases h
        rw [absent]
        rfl
      · split at h
        · rename_i given
          obtain ⟨x, front, same⟩ := Option.map_eq_some_iff.mp h
          cases same
          rw [given, encode_decode front]
          rfl
        · cases h

instance [Canonical c] {tag : List UInt8} : Canonical (c.tagged tag) where
  encode_decode := by
    intro bytes rest a h
    simp only [Codec.tagged] at h
    split at h
    · rename_i front
      have whole := List.take_append_drop tag.length bytes
      rw [front, encode_decode h] at whole
      rw [← whole]
      exact (List.append_assoc _ _ _).symm
    · cases h

instance [Sized c n] {tag : List UInt8} : Sized (c.tagged tag) (tag.length + n) where
  length_encode a := List.length_append.trans (congrArg (tag.length + ·) (length_encode a))

theorem takeMany_decode [Canonical c] {k : Nat} {bytes rest : List UInt8} {xs : List α}
    (h : c.takeMany k bytes = some (xs, rest)) : bytes = xs.flatMap c.encode ++ rest := by
  induction k generalizing bytes xs with
  | zero =>
    cases h
    rfl
  | succ k ih =>
    simp only [takeMany, Option.bind_eq_some_iff, Option.map_eq_some_iff] at h
    obtain ⟨x, front, y, later, same⟩ := h
    cases same
    rw [encode_decode front, ih later, List.flatMap_cons, List.append_assoc]

theorem length_flatMap [Sized c n] (xs : List α) :
    (xs.flatMap c.encode).length = xs.length * n := by
  induction xs with
  | nil => exact (Nat.zero_mul n).symm
  | cons x xs ih =>
    rw [List.flatMap_cons, List.length_append, ih, length_encode x, List.length_cons, Nat.add_mul]
    omega

instance [Canonical c] {k : Nat} : Canonical (c.vector k) where
  encode_decode := by
    intro bytes rest v h
    simp only [Codec.vector, Option.bind_eq_some_iff] at h
    obtain ⟨x, taken, h⟩ := h
    split at h
    · cases h
      exact takeMany_decode taken
    · cases h

instance [Sized c n] {k : Nat} : Sized (c.vector k) (k * n) where
  length_encode v := by
    have length := length_flatMap (c := c) v.toList
    rw [Vector.length_toList] at length
    exact length

instance [Canonical c] : Canonical c.counted where
  encode_decode := by
    intro bytes rest xs h
    simp only [Codec.counted, Option.bind_eq_some_iff] at h
    obtain ⟨count, front, x, taken, h⟩ := h
    split at h
    · cases h
      have length : UInt32.ofNat x.1.length = count.1 := by
        rw [takeMany_length taken, UInt32.ofNat_toNat]
      rw [encode_decode front, takeMany_decode taken]
      simp only [Codec.counted, length, List.append_assoc]
    · cases h

theorem length_counted [Sized c n] (xs : {xs : List α // xs.length < 2 ^ 32}) :
    (c.counted.encode xs).length = 4 + xs.1.length * n := by
  refine List.length_append.trans ?_
  rw [length_encode (c := u32), length_flatMap]

end Closure

theorem decode_short {c : Codec α} {n : Nat} [Canonical c] [Sized c n] {bytes : List UInt8}
    (short : bytes.length < n) : c.decode bytes = none := by
  cases decoded : c.decode bytes with
  | none => rfl
  | some x =>
    have length := congrArg List.length (encode_decode decoded)
    rw [List.length_append, length_encode x.1] at length
    omega

theorem word_low (n : Nat) (b : UInt8) :
    (word (n + 1)).encode (BitVec.ofNat _ b.toNat) = b :: (word n).encode 0 := by
  have low := b.toNat_lt
  have fits : b.toNat < 2 ^ (8 * (n + 1)) := word_bound low (Nat.two_pow_pos _)
  have value : (BitVec.ofNat (8 * (n + 1)) b.toNat).toNat = b.toNat := by
    rw [BitVec.toNat_ofNat, Nat.mod_eq_of_lt fits]
  have none : b.toNat / 256 = 0 := Nat.div_eq_of_lt low
  change UInt8.ofNat (BitVec.toNat _) :: (word n).encode (BitVec.ofNat _ (BitVec.toNat _ / 256)) = _
  rw [value, none, UInt8.ofNat_toNat]
  rfl

theorem word_zero (n : Nat) : (word n).encode 0 = List.replicate n 0 := by
  induction n with
  | zero => rfl
  | succ n ih =>
    rw [List.replicate_succ, ← ih, ← word_low n 0]
    rfl

end Codec
