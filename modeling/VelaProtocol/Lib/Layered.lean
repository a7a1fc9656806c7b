import VelaProtocol.Lib.Codec

/-! One value in two layouts behind one tag.
No byte names the layout. The current one is tried first and known by its version; the legacy one
is known by the zero bytes after it, so a padded legacy value may never show a current version. -/

universe u v

structure Layered (α : Type u) (β : Type v) where
  tag : List UInt8
  current : Codec α
  legacy : Codec β
  version : α → UInt8
  latest : UInt8
  padded : ∀ old value rest k,
    legacy.encode old ++ List.replicate k 0 = current.encode value ++ rest →
      version value ≠ latest

namespace Layered

open Codec

variable {α : Type u} {β : Type v}

/-- `data.fill(0)`, then the bytes from the front; they must fit. -/
def overwrite (data bytes : List UInt8) : Option (List UInt8) :=
  if bytes.length ≤ data.length then
    some (bytes ++ List.replicate (data.length - bytes.length) 0)
  else none

def blank (bytes : List UInt8) : Bool := bytes.all fun b => b = 0

section Loading

variable (l : Layered α β)

def tryDeserialize (data : List UInt8) : Option α := (l.current.tagged l.tag).read data

def latestIn (data : List UInt8) : Option α :=
  (l.tryDeserialize data).filter fun a => l.version a = l.latest

def legacyIn (data : List UInt8) : Option β :=
  (l.legacy.decode (data.drop l.tag.length)).bind fun x =>
    if blank x.2 = true then some x.1 else none

/-- Current layout first; whatever is not of the latest version is read as a legacy value. -/
def load (data : List UInt8) : Option (α ⊕ β) :=
  if data.take l.tag.length = l.tag then
    match l.latestIn data with
    | some a => some (.inl a)
    | none => (l.legacyIn data).map .inr
  else none

/-- The same, but a current value of another version is refused. -/
def loadStrict (data : List UInt8) : Option (α ⊕ β) :=
  if data.take l.tag.length = l.tag then
    match l.tryDeserialize data with
    | some a => if l.version a = l.latest then some (.inl a) else none
    | none => (l.legacyIn data).map .inr
  else none

def bytesOf : α ⊕ β → List UInt8
  | .inl a => l.tag ++ l.current.encode a
  | .inr b => l.tag ++ l.legacy.encode b

def write (data : List UInt8) (x : α ⊕ β) : Option (List UInt8) := overwrite data (l.bytesOf x)

/-- A value its own layout can be told by. -/
def Valid : α ⊕ β → Prop
  | .inl a => l.version a = l.latest
  | .inr _ => True

end Loading

theorem blank_replicate (k : Nat) : blank (List.replicate k 0) = true := by
  simp [blank]

theorem eq_replicate_of_blank {bytes : List UInt8} (h : blank bytes = true) :
    bytes = List.replicate bytes.length 0 := by
  rw [List.eq_replicate_iff]
  refine ⟨rfl, fun b mem => ?_⟩
  simpa using List.all_eq_true.mp h b mem

theorem padded_of_offset {current : Codec α} {legacy : Codec β} {n : Nat} [Sized legacy n]
    {version : α → UInt8} {offset : Nat} (behind : n ≤ offset)
    (split : ∀ a, ∃ front back, current.encode a = front ++ version a :: back ∧
      front.length = offset)
    {old : β} {value : α} {rest : List UInt8} {k : Nat}
    (same : legacy.encode old ++ List.replicate k 0 = current.encode value ++ rest) :
    version value = 0 := by
  obtain ⟨front, back, shape, length⟩ := split value
  rw [shape, List.append_assoc, List.cons_append] at same
  have place : (legacy.encode old ++ List.replicate k 0)[offset]? =
      (front ++ version value :: (back ++ rest))[offset]? := congrArg (·[offset]?) same
  rw [← length, List.getElem?_append_right (le_refl _), Nat.sub_self, List.getElem?_cons_zero,
    length, List.getElem?_append_right (by rw [length_encode old]; exact behind),
    List.getElem?_replicate] at place
  split at place
  · exact (Option.some.inj place).symm
  · cases place

theorem padded_of_append {current : Codec α} {legacy : Codec β} {version : α → UInt8}
    (split : ∀ a, ∃ old back, current.encode a = legacy.encode old ++ version a :: back)
    {old : β} {value : α} {rest : List UInt8} {k : Nat}
    (same : legacy.encode old ++ List.replicate k 0 = current.encode value ++ rest) :
    version value = 0 := by
  obtain ⟨front, back, shape⟩ := split value
  rw [shape, List.append_assoc] at same
  have read := legacy.decode_encode old (List.replicate k 0)
  rw [same, legacy.decode_encode] at read
  obtain ⟨-, behind⟩ := Prod.mk.inj (Option.some.inj read)
  exact (List.eq_replicate_iff.mp behind).2 _ List.mem_cons_self

/-- Legacy bytes read as a current value from the padding on that makes up for the new fields. -/
theorem decode_padded {current : Codec α} {legacy : Codec β} {n : Nat} {b : β}
    (room : ∃ a, current.encode a = legacy.encode b ++ List.replicate n 0)
    (short : ∀ k < n, current.decode (legacy.encode b ++ List.replicate k 0) = none) (k : Nat) :
    current.decode (legacy.encode b ++ List.replicate k 0) = none ↔ k < n := by
  refine ⟨fun undecoded => ?_, short k⟩
  by_contra enough
  obtain ⟨a, shape⟩ := room
  have parts : List.replicate k (0 : UInt8) = List.replicate n 0 ++ List.replicate (k - n) 0 := by
    rw [List.replicate_append_replicate]
    congr 1
    omega
  rw [parts, ← List.append_assoc, ← shape, current.decode_encode] at undecoded
  cases undecoded

theorem decode_short_of_append {current : Codec α} {legacy : Codec β} [Canonical current]
    {n k : Nat} {b : β}
    (split : ∀ a, ∃ old back, current.encode a = legacy.encode old ++ back ∧ back.length = n)
    (short : k < n) : current.decode (legacy.encode b ++ List.replicate k 0) = none := by
  cases decoded : current.decode (legacy.encode b ++ List.replicate k 0) with
  | none => rfl
  | some x =>
    obtain ⟨old, back, shape, length⟩ := split x.1
    have same := encode_decode decoded
    rw [shape, List.append_assoc] at same
    have read := legacy.decode_encode b (List.replicate k 0)
    rw [same, legacy.decode_encode] at read
    obtain ⟨-, behind⟩ := Prod.mk.inj (Option.some.inj read)
    have lengths := congrArg List.length behind
    rw [List.length_append, List.length_replicate] at lengths
    omega

theorem overwrite_eq_some {data bytes result : List UInt8} :
    overwrite data bytes = some result ↔ bytes.length ≤ data.length ∧
      result = bytes ++ List.replicate (data.length - bytes.length) 0 := by
  rw [overwrite, Option.ite_none_right_eq_some, Option.some.injEq, eq_comm (a := result)]

theorem overwrite_length {data bytes result : List UInt8}
    (h : overwrite data bytes = some result) : result.length = data.length := by
  obtain ⟨fits, rfl⟩ := overwrite_eq_some.mp h
  rw [List.length_append, List.length_replicate]
  omega

theorem overwrite_congr {data other : List UInt8} (length : other.length = data.length)
    (bytes : List UInt8) : overwrite other bytes = overwrite data bytes := by
  rw [overwrite, overwrite, length]

variable {l : Layered α β} {data : List UInt8}

theorem tryDeserialize_eq_some [Canonical l.current] {a : α} :
    l.tryDeserialize data = some a ↔ ∃ rest, data = l.bytesOf (.inl a) ++ rest := by
  constructor
  · intro h
    obtain ⟨x, decoded, rfl⟩ := Option.map_eq_some_iff.mp h
    exact ⟨x.2, encode_decode decoded⟩
  · rintro ⟨rest, rfl⟩
    exact Holds.read ⟨rest, rfl⟩

theorem take_bytesOf (x : α ⊕ β) (rest : List UInt8) :
    (l.bytesOf x ++ rest).take l.tag.length = l.tag := by
  cases x <;> simp [bytesOf]

theorem drop_bytesOf_legacy (b : β) (rest : List UInt8) :
    (l.bytesOf (.inr b) ++ rest).drop l.tag.length = l.legacy.encode b ++ rest := by
  simp [bytesOf]

theorem decode_bytesOf_legacy (l : Layered α β) (b : β) (rest : List UInt8) :
    l.legacy.decode ((l.bytesOf (.inr b) ++ rest).drop l.tag.length) = some (b, rest) := by
  rw [drop_bytesOf_legacy, l.legacy.decode_encode]

theorem latestIn_eq_some [Canonical l.current] {a : α} :
    l.latestIn data = some a ↔
      l.version a = l.latest ∧ ∃ rest, data = l.bytesOf (.inl a) ++ rest := by
  rw [latestIn, Option.filter_eq_some_iff, tryDeserialize_eq_some, decide_eq_true_eq, and_comm]

theorem latestIn_padded [Canonical l.current] (b : β) (k : Nat) :
    l.latestIn (l.bytesOf (.inr b) ++ List.replicate k 0) = none := by
  rw [Option.eq_none_iff_forall_ne_some]
  intro a found
  obtain ⟨version, rest, same⟩ := latestIn_eq_some.mp found
  rw [bytesOf, bytesOf, List.append_assoc, List.append_assoc] at same
  exact l.padded b a rest k (List.append_cancel_left same) version

theorem legacyIn_padded (b : β) (k : Nat) :
    l.legacyIn (l.bytesOf (.inr b) ++ List.replicate k 0) = some b := by
  rw [legacyIn, drop_bytesOf_legacy, l.legacy.decode_encode, Option.bind_some,
    if_pos (blank_replicate k)]

theorem legacyIn_eq_some [Canonical l.legacy] (front : data.take l.tag.length = l.tag) {b : β} :
    l.legacyIn data = some b ↔ ∃ k, data = l.bytesOf (.inr b) ++ List.replicate k 0 := by
  constructor
  · intro h
    simp only [legacyIn, Option.bind_eq_some_iff, Option.ite_none_right_eq_some] at h
    obtain ⟨x, decoded, zero, found⟩ := h
    cases found
    have whole := List.take_append_drop l.tag.length data
    rw [front, encode_decode decoded, eq_replicate_of_blank zero] at whole
    exact ⟨x.2.length, whole.symm.trans (List.append_assoc _ _ _).symm⟩
  · rintro ⟨k, rfl⟩
    exact legacyIn_padded b k

theorem load_current [Canonical l.current] {a : α} (version : l.version a = l.latest)
    (rest : List UInt8) : l.load (l.bytesOf (.inl a) ++ rest) = some (.inl a) := by
  have found : l.latestIn (l.bytesOf (.inl a) ++ rest) = some a :=
    latestIn_eq_some.mpr ⟨version, rest, rfl⟩
  rw [load, if_pos (take_bytesOf _ _), found]

theorem load_legacy [Canonical l.current] (b : β) (k : Nat) :
    l.load (l.bytesOf (.inr b) ++ List.replicate k 0) = some (.inr b) := by
  rw [load, if_pos (take_bytesOf _ _), latestIn_padded, legacyIn_padded]
  rfl

theorem load_eq_current [Canonical l.current] {a : α} :
    l.load data = some (.inl a) ↔
      l.version a = l.latest ∧ ∃ rest, data = l.bytesOf (.inl a) ++ rest := by
  constructor
  · intro h
    rw [load, Option.ite_none_right_eq_some] at h
    obtain ⟨-, h⟩ := h
    split at h
    · rename_i found
      cases h
      exact latestIn_eq_some.mp found
    · obtain ⟨_, _, other⟩ := Option.map_eq_some_iff.mp h
      cases other
  · rintro ⟨version, rest, rfl⟩
    exact load_current version rest

theorem load_eq_legacy [Canonical l.current] [Canonical l.legacy] {b : β} :
    l.load data = some (.inr b) ↔ ∃ k, data = l.bytesOf (.inr b) ++ List.replicate k 0 := by
  constructor
  · intro h
    rw [load, Option.ite_none_right_eq_some] at h
    obtain ⟨front, h⟩ := h
    split at h
    · cases h
    · obtain ⟨_, found, same⟩ := Option.map_eq_some_iff.mp h
      cases same
      exact (legacyIn_eq_some front).mp found
  · rintro ⟨k, rfl⟩
    exact load_legacy b k

theorem load_valid [Canonical l.current] [Canonical l.legacy] {x : α ⊕ β}
    (h : l.load data = some x) : l.Valid x ∧ (l.bytesOf x).length ≤ data.length := by
  cases x with
  | inl a =>
    obtain ⟨version, rest, rfl⟩ := load_eq_current.mp h
    exact ⟨version, by rw [List.length_append]; exact Nat.le_add_right _ _⟩
  | inr b =>
    obtain ⟨k, rfl⟩ := load_eq_legacy.mp h
    exact ⟨trivial, by rw [List.length_append]; exact Nat.le_add_right _ _⟩

theorem load_of_write [Canonical l.current] {x : α ⊕ β} {result : List UInt8} (valid : l.Valid x)
    (h : l.write data x = some result) : l.load result = some x := by
  obtain ⟨-, rfl⟩ := overwrite_eq_some.mp h
  cases x with
  | inl a => exact load_current valid _
  | inr b => exact load_legacy b _

theorem write_loaded [Canonical l.current] [Canonical l.legacy] {x : α ⊕ β}
    (h : l.load data = some x) : ∃ result, l.write data x = some result := by
  obtain ⟨-, fits⟩ := load_valid h
  exact ⟨_, overwrite_eq_some.mpr ⟨fits, rfl⟩⟩

theorem loadStrict_eq_legacy (b : β) (k : Nat) :
    l.loadStrict (l.bytesOf (.inr b) ++ List.replicate k 0) = some (.inr b) ↔
      l.current.decode (l.legacy.encode b ++ List.replicate k 0) = none := by
  have front := take_bytesOf (l := l) (.inr b) (List.replicate k 0)
  have read : l.tryDeserialize (l.bytesOf (.inr b) ++ List.replicate k 0) =
      (l.current.decode (l.legacy.encode b ++ List.replicate k 0)).map Prod.fst := by
    rw [tryDeserialize, Codec.read, Codec.tagged]
    simp only [front, if_true, drop_bytesOf_legacy]
  rw [loadStrict, if_pos front, read]
  cases decoded : l.current.decode (l.legacy.encode b ++ List.replicate k 0) with
  | none => simp [legacyIn_padded]
  | some x =>
    simp only [Option.map_some, Option.ite_none_right_eq_some, reduceCtorEq, iff_false, not_and]
    intro _ other
    cases other

theorem loadStrict_padded [Canonical l.current] {b : β} {k : Nat} {x : α ⊕ β}
    (h : l.loadStrict (l.bytesOf (.inr b) ++ List.replicate k 0) = some x) : x = .inr b := by
  rw [loadStrict, if_pos (take_bytesOf _ _)] at h
  split at h
  · rename_i a found
    obtain ⟨version, -⟩ := Option.ite_none_right_eq_some.mp h
    have latest := latestIn_padded (l := l) b k
    rw [latestIn, found, Option.filter_some, if_pos (decide_eq_true version)] at latest
    cases latest
  · rw [legacyIn_padded] at h
    exact (Option.some.inj h).symm

end Layered
