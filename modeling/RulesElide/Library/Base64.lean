import Mathlib

/-!
# Base64

The basic alphabet with padding.  Three bytes are four digits of six bits; one or two bytes
at the end are completed by padding, which is no digit, so the text determines the bytes.
-/

namespace Base64

/-- The alphabet, and after its 64 digits the padding. -/
def symbols : List Char :=
  "ABCDEFGHIJKLMNOPQRSTUVWXYZabcdefghijklmnopqrstuvwxyz0123456789+/=".toList

/-- The place of the padding among the symbols. -/
def padding : ℕ := 64

/-- The six-bit digits of a list of bytes. -/
def digits : List UInt8 → List ℕ
  | [] => []
  | [a] => [a.toNat / 4, a.toNat % 4 * 16, padding, padding]
  | [a, b] => [a.toNat / 4, a.toNat % 4 * 16 + b.toNat / 16, b.toNat % 16 * 4, padding]
  | a :: b :: c :: rest =>
      a.toNat / 4 :: (a.toNat % 4 * 16 + b.toNat / 16) :: (b.toNat % 16 * 4 + c.toNat / 64) ::
        c.toNat % 64 :: digits rest

def symbol (digit : ℕ) : Char :=
  symbols.getD digit '='

def encode (bytes : List UInt8) : String :=
  String.ofList ((digits bytes).map symbol)

theorem digits_le (bytes : List UInt8) : ∀ digit ∈ digits bytes, digit ≤ padding := by
  unfold padding
  fun_induction digits bytes with
  | case1 => simp
  | case2 a =>
      have ha := a.toNat_lt
      simp only [List.mem_cons, List.not_mem_nil, or_false, forall_eq_or_imp, forall_eq, padding]
      omega
  | case3 a b =>
      have ha := a.toNat_lt
      have hb := b.toNat_lt
      simp only [List.mem_cons, List.not_mem_nil, or_false, forall_eq_or_imp, forall_eq, padding]
      omega
  | case4 a b c rest ih =>
      have ha := a.toNat_lt
      have hb := b.toNat_lt
      have hc := c.toNat_lt
      simp only [List.mem_cons, forall_eq_or_imp]
      exact ⟨by omega, by omega, by omega, by omega, ih⟩

/-- The bytes of a list of digits: the inverse of `digits`. -/
def undigits : List ℕ → List UInt8
  | p :: q :: r :: s :: rest =>
      let a := UInt8.ofNat (p * 4 + q / 16)
      let b := UInt8.ofNat (q % 16 * 16 + r / 4)
      let c := UInt8.ofNat (r % 4 * 64 + s)
      if r = padding then [a] else if s = padding then [a, b] else a :: b :: c :: undigits rest
  | _ => []

theorem ofNat_eq (byte : UInt8) {value : ℕ} (h : value = byte.toNat) :
    UInt8.ofNat value = byte := by
  rw [h]
  exact UInt8.ofNat_toNat

theorem undigits_digits (bytes : List UInt8) : undigits (digits bytes) = bytes := by
  fun_induction digits bytes with
  | case1 => rfl
  | case2 a =>
      have ha := a.toNat_lt
      rw [undigits]
      simp only [if_true]
      rw [ofNat_eq a (by omega)]
  | case3 a b =>
      have ha := a.toNat_lt
      have hb := b.toNat_lt
      rw [undigits, padding]
      simp only [if_true]
      rw [if_neg (by omega), ofNat_eq a (by omega), ofNat_eq b (by omega)]
  | case4 a b c rest ih =>
      have ha := a.toNat_lt
      have hb := b.toNat_lt
      have hc := c.toNat_lt
      rw [undigits, padding, if_neg (by omega), if_neg (by omega), ofNat_eq a (by omega),
        ofNat_eq b (by omega), ofNat_eq c (by omega), ih]

/-- Every symbol is found where it stands. -/
theorem idxOf_symbol {digit : ℕ} (h : digit ≤ padding) : symbols.idxOf (symbol digit) = digit := by
  have hnodup : symbols.Nodup := by decide
  have hlength : symbols.length = padding + 1 := by decide
  have hdigit : digit < symbols.length := by omega
  rw [symbol, List.getD_eq_getElem _ _ hdigit]
  exact hnodup.idxOf_getElem digit hdigit

/-- The text determines the bytes. -/
theorem encode_injective : Function.Injective encode := by
  have hdigits : ∀ bytes, ((digits bytes).map symbol).map symbols.idxOf = digits bytes := by
    intro bytes
    rw [List.map_map]
    calc (digits bytes).map (symbols.idxOf ∘ symbol) = (digits bytes).map id :=
          List.map_congr_left fun digit hdigit => idxOf_symbol (digits_le bytes digit hdigit)
      _ = digits bytes := List.map_id _
  intro first second h
  have hsymbols : (digits first).map symbol = (digits second).map symbol :=
    String.ofList_injective h
  calc first = undigits (((digits first).map symbol).map symbols.idxOf) := by
        rw [hdigits, undigits_digits]
    _ = undigits (((digits second).map symbol).map symbols.idxOf) := by rw [hsymbols]
    _ = second := by rw [hdigits, undigits_digits]

end Base64
