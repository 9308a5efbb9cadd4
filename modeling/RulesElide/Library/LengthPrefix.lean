import RulesElide.Library.Framing

/-!
# Length-prefixed chunks

A chunk is written as its length, big-endian in a fixed number of bytes, and its bytes.
Chunks whose lengths fit the prefix can be taken apart again, so a sequence of them is
determined by what it is written as.
-/

namespace LengthPrefix

/-- The low `width` bytes of a number, the most significant one first. -/
def bigEndian : ℕ → ℕ → List UInt8
  | 0, _ => []
  | width + 1, value => bigEndian width (value / 256) ++ [UInt8.ofNat (value % 256)]

/-- A chunk with its length in front. -/
def frame (width : ℕ) (chunk : List UInt8) : List UInt8 :=
  bigEndian width chunk.length ++ chunk

@[simp] theorem length_bigEndian (width value : ℕ) : (bigEndian width value).length = width := by
  induction width generalizing value with
  | zero => rfl
  | succ width ih => rw [bigEndian, List.length_append, ih, List.length_singleton]

/-- Numbers that fit the width are told apart. -/
theorem bigEndian_injective {width : ℕ} :
    ∀ {first second : ℕ}, first < 256 ^ width → second < 256 ^ width →
      bigEndian width first = bigEndian width second → first = second := by
  induction width with
  | zero =>
      intro first second hfirst hsecond _
      simp only [Nat.pow_zero, Nat.lt_one_iff] at hfirst hsecond
      rw [hfirst, hsecond]
  | succ width ih =>
      intro first second hfirst hsecond h
      rw [Nat.pow_succ] at hfirst hsecond
      obtain ⟨hhigh, hlow⟩ := List.append_inj h (by simp)
      have hquotient : first / 256 = second / 256 :=
        ih (Nat.div_lt_of_lt_mul (by omega)) (Nat.div_lt_of_lt_mul (by omega)) hhigh
      have hremainder : first % 256 = second % 256 := by
        have hbyte := congrArg UInt8.toNat (List.singleton_injective hlow)
        simpa using hbyte
      omega

/-- Two sequences of chunks that are written alike are the same sequence. -/
theorem frames_injective {width : ℕ} (hwidth : 0 < width) {first second : List (List UInt8)}
    (hfirst : ∀ chunk ∈ first, chunk.length < 256 ^ width)
    (hsecond : ∀ chunk ∈ second, chunk.length < 256 ^ width)
    (h : first.flatMap (frame width) = second.flatMap (frame width)) : first = second := by
  refine Framing.flatMap_injOn (·.length < 256 ^ width) (fun chunk hnil => ?_)
    (fun chunk chunk' hchunk hchunk' rest rest' h => ?_) hfirst hsecond h
  · have hlength := congrArg List.length hnil
    rw [frame, List.length_append, length_bigEndian, List.length_nil] at hlength
    omega
  · rw [frame, frame, List.append_assoc, List.append_assoc] at h
    obtain ⟨hlengths, hchunks⟩ := List.append_inj h (by simp)
    exact List.append_inj hchunks (bigEndian_injective hchunk hchunk' hlengths)

end LengthPrefix
