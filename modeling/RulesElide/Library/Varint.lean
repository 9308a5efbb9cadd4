import Mathlib

/-!
# Base-128 varints

A varint is a nonempty list of bytes in little-endian order.  Every byte carries seven
bits of the value, and every byte but the last has its high bit set.  The relation
`Encodes` admits the encodings that are longer than needed; `encode` is the shortest one.
-/

namespace Varint

/-- `Encodes bytes value`: `bytes` is a varint, padded or not, of the number `value`. -/
inductive Encodes : List UInt8 → ℕ → Prop
  | last {byte : UInt8} (hlast : byte.toNat < 128) : Encodes [byte] byte.toNat
  | more {byte : UInt8} {rest : List UInt8} {value : ℕ} (hmore : 128 ≤ byte.toNat)
      (hrest : Encodes rest value) :
      Encodes (byte :: rest) (byte.toNat % 128 + 128 * value)

/-- The shortest varint of a number. -/
def encode (value : ℕ) : List UInt8 :=
  if value < 128 then [UInt8.ofNat value]
  else UInt8.ofNat (value % 128 + 128) :: encode (value / 128)

theorem encode_of_lt {value : ℕ} (h : value < 128) : encode value = [UInt8.ofNat value] := by
  rw [encode, if_pos h]

theorem encode_of_ge {value : ℕ} (h : 128 ≤ value) :
    encode value = UInt8.ofNat (value % 128 + 128) :: encode (value / 128) := by
  rw [encode, if_neg (not_lt.mpr h)]

theorem toNat_ofNat_of_lt {value : ℕ} (h : value < 256) : (UInt8.ofNat value).toNat = value := by
  rw [UInt8.toNat_ofNat', Nat.mod_eq_of_lt h]

/-- The shortest varint is a varint of the number. -/
theorem encodes_encode (value : ℕ) : Encodes (encode value) value := by
  induction value using Nat.strongRecOn with
  | ind value ih =>
      rcases Nat.lt_or_ge value 128 with hsmall | hlarge
      · have hbyte : (UInt8.ofNat value).toNat = value := toNat_ofNat_of_lt (by omega)
        have hlast : Encodes [UInt8.ofNat value] (UInt8.ofNat value).toNat :=
          Encodes.last (by omega)
        rw [encode_of_lt hsmall]
        rwa [hbyte] at hlast
      · have hbyte : (UInt8.ofNat (value % 128 + 128)).toNat = value % 128 + 128 :=
          toNat_ofNat_of_lt (by omega)
        have hhigh : 128 ≤ (UInt8.ofNat (value % 128 + 128)).toNat := by omega
        have hmore := Encodes.more hhigh (ih (value / 128) (by omega))
        have hvalue : (value % 128 + 128) % 128 + 128 * (value / 128) = value := by omega
        rw [encode_of_ge hlarge]
        rwa [hbyte, hvalue] at hmore

/-- The first byte says whether others follow. -/
theorem encodes_cons_iff {byte : UInt8} {rest : List UInt8} {value : ℕ} :
    Encodes (byte :: rest) value ↔
      (byte.toNat < 128 ∧ rest = [] ∧ value = byte.toNat) ∨
        (128 ≤ byte.toNat ∧ ∃ higher, Encodes rest higher ∧
          value = byte.toNat % 128 + 128 * higher) := by
  constructor
  · intro h
    cases h with
    | last hlast => exact Or.inl ⟨hlast, rfl, rfl⟩
    | more hmore hrest => exact Or.inr ⟨hmore, _, hrest, rfl⟩
  · rintro (⟨hlast, rfl, rfl⟩ | ⟨hmore, higher, hrest, rfl⟩)
    · exact Encodes.last hlast
    · exact Encodes.more hmore hrest

theorem Encodes.length_pos {bytes : List UInt8} {value : ℕ} (h : Encodes bytes value) :
    0 < bytes.length := by
  cases h <;> simp

/-- `k` bytes carry `7 * k` bits. -/
theorem Encodes.lt_pow {bytes : List UInt8} {value : ℕ} (h : Encodes bytes value) :
    value < 2 ^ (7 * bytes.length) := by
  induction h with
  | last hlast => simpa using hlast
  | @more byte rest value _ _ ih =>
      have hpow : 2 ^ (7 * (byte :: rest).length) = 2 ^ (7 * rest.length) * 128 := by
        rw [List.length_cons, Nat.mul_succ, Nat.pow_add]
      omega

/-- No encoding of a number is shorter than `encode`. -/
theorem Encodes.length_encode_le {bytes : List UInt8} {value : ℕ} (h : Encodes bytes value) :
    (encode value).length ≤ bytes.length := by
  induction h with
  | last hlast => simp [encode_of_lt hlast]
  | @more byte rest value _ _ ih =>
      rcases Nat.lt_or_ge (byte.toNat % 128 + 128 * value) 128 with hsmall | hlarge
      · simp [encode_of_lt hsmall]
      · have hquotient : (byte.toNat % 128 + 128 * value) / 128 = value := by omega
        rw [encode_of_ge hlarge, hquotient]
        simpa using ih

/-- The bytes are the digits of the number, so their count determines them. -/
theorem Encodes.eq_of_length_eq {bytes other : List UInt8} {value : ℕ} (h : Encodes bytes value)
    (hother : Encodes other value) (hlength : other.length = bytes.length) : other = bytes := by
  induction h generalizing other with
  | @last byte hlast =>
      obtain ⟨byte', rfl⟩ := List.length_eq_one_iff.mp hlength
      rcases encodes_cons_iff.mp hother with ⟨_, _, hvalue⟩ | ⟨_, _, hnone, _⟩
      · rw [UInt8.toNat_inj.mp hvalue]
      · exact absurd hnone.length_pos (lt_irrefl 0)
  | @more byte rest value hmore hrest ih =>
      obtain ⟨byte', rest', rfl⟩ := List.exists_cons_of_length_eq_add_one hlength
      rw [List.length_cons, List.length_cons, Nat.add_right_cancel_iff] at hlength
      rcases encodes_cons_iff.mp hother with ⟨_, rfl, _⟩ | ⟨hmore', higher, hrest', hvalue⟩
      · exact absurd (hlength ▸ hrest.length_pos) (lt_irrefl 0)
      · have hbyte := byte.toNat_lt
        have hbyte' := byte'.toNat_lt
        -- the low seven bits and the rest determine each other
        obtain rfl : higher = value := by omega
        obtain rfl : byte' = byte := UInt8.toNat_inj.mp (by omega)
        rw [ih hrest' hlength]

/-- `bytes` is a varint of the number, and every other varint of it is longer. -/
def IsShortest (bytes : List UInt8) (value : ℕ) : Prop :=
  Encodes bytes value ∧ ∀ other, Encodes other value → other ≠ bytes → bytes.length < other.length

theorem isShortest_encode (value : ℕ) : IsShortest (encode value) value := by
  refine ⟨encodes_encode value, fun other hother hne => ?_⟩
  apply lt_of_le_of_ne hother.length_encode_le
  intro hlength
  exact hne ((encodes_encode value).eq_of_length_eq hother hlength.symm)

/-- A number of at most `7 * k` bits takes at most `k` bytes. -/
theorem length_encode_le : ∀ {count value : ℕ}, 0 < count → value < 2 ^ (7 * count) →
    (encode value).length ≤ count := by
  intro count
  induction count with
  | zero => intro value hcount _; exact absurd hcount (lt_irrefl 0)
  | succ count ih =>
      intro value _ hvalue
      rcases Nat.lt_or_ge value 128 with hsmall | hlarge
      · simp [encode_of_lt hsmall]
      · have hpow : 2 ^ (7 * (count + 1)) = 2 ^ (7 * count) * 128 := by
          rw [Nat.mul_succ, Nat.pow_add]
        -- seven bits are not enough for this value, so there is room for another byte
        have hcount : 0 < count := by
          rcases Nat.eq_zero_or_pos count with rfl | hpos
          · exact absurd hvalue (by simpa using hlarge)
          · exact hpos
        have hquotient : value / 128 < 2 ^ (7 * count) :=
          Nat.div_lt_of_lt_mul (by rw [Nat.mul_comm, ← hpow]; exact hvalue)
        rw [encode_of_ge hlarge]
        simpa using ih hcount hquotient

/-- Bytes that all have their high bit set are the beginning of a varint. -/
theorem exists_encodes_of_high {bytes : List UInt8} (h : ∀ byte ∈ bytes, 128 ≤ byte.toNat) :
    ∃ value, Encodes (bytes ++ [0]) value := by
  induction bytes with
  | nil => exact ⟨_, Encodes.last (by decide)⟩
  | cons byte bytes ih =>
      obtain ⟨hbyte, hbytes⟩ := List.forall_mem_cons.mp h
      obtain ⟨value, hvalue⟩ := ih hbytes
      exact ⟨_, Encodes.more hbyte hvalue⟩

/-- Bytes begin with a varint, or the high bit of every one of them is set. -/
theorem exists_encodes_append (bytes : List UInt8) :
    (∃ front value rest, Encodes front value ∧ bytes = front ++ rest) ∨
      ∀ byte ∈ bytes, 128 ≤ byte.toNat := by
  induction bytes with
  | nil => exact Or.inr nofun
  | cons byte bytes ih =>
      rcases Nat.lt_or_ge byte.toNat 128 with hlast | hmore
      · exact Or.inl ⟨[byte], _, bytes, Encodes.last hlast, rfl⟩
      · rcases ih with ⟨front, value, rest, hfront, rfl⟩ | hhigh
        · exact Or.inl ⟨byte :: front, _, rest, Encodes.more hmore hfront, rfl⟩
        · exact Or.inr (List.forall_mem_cons.mpr ⟨hmore, hhigh⟩)

end Varint
