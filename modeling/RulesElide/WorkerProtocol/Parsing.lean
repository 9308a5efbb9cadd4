import RulesElide.Library.Reader
import RulesElide.Library.WireFormat
import RulesElide.WorkerProtocol.Codec

/-!
# The parser reads the wire grammar

Each function of the parser is a reader in the sense of `Library/Reader.lean`: it keeps the
position inside the array, what it passes over is a phrase of `Library/WireFormat.lean`,
and it fails with an `IOException` only.  Conversely a phrase that stands at the position
is read.  Both directions follow the recursion of the parser: the varint loop on its
rounds, the field on its nesting levels, and the loops over fields on the bytes left.
-/

namespace RulesElide.WorkerProtocol

open Reader WireFormat

variable {data : Bytes}

/-! ## Varints -/

/-- Adding seven bits above the bits collected so far. -/
theorem toNat_or_shiftLeft {result : JavaLong} {value shift : ℕ}
    (hresult : result.toNat < 2 ^ shift)
    (hvalue : value % 128 * 2 ^ shift < 2 ^ 64) :
    (result ||| (BitVec.ofNat 64 (value &&& 127) <<< shift)).toNat =
      result.toNat + value % 128 * 2 ^ shift := by
  have hmask : value &&& 127 = value % 128 := Nat.and_two_pow_sub_one_eq_mod value 7
  have hsmall : value % 128 < 2 ^ 64 := by omega
  have hshifted :
    (BitVec.ofNat 64 (value &&& 127) <<< shift).toNat = 2 ^ shift * (value % 128) := by
    rw [BitVec.toNat_shiftLeft, BitVec.toNat_ofNat, hmask, Nat.mod_eq_of_lt hsmall,
      Nat.shiftLeft_eq, Nat.mod_eq_of_lt hvalue, Nat.mul_comm]
  -- the bits below `shift` are those collected so far, so the two numbers have none in common
  calc (result ||| (BitVec.ofNat 64 (value &&& 127) <<< shift)).toNat
      = 2 ^ shift * (value % 128) ||| result.toNat := by
        rw [BitVec.toNat_or, hshifted, Nat.or_comm]
    _ = 2 ^ shift * (value % 128) + result.toNat := (Nat.two_pow_add_eq_or_of_lt hresult _).symm
    _ = result.toNat + value % 128 * 2 ^ shift := by rw [Nat.add_comm, Nat.mul_comm]

/-- Only the tenth byte can carry a bit out of range, and there a single bit is allowed. -/
theorem payload_lt {rounds value : ℕ} (hrounds : rounds ≤ 9)
    (htenth : ¬ (63 - 7 * rounds = 63 ∧ value > 1)) :
    value % 128 * 2 ^ (63 - 7 * rounds) < 2 ^ 64 := by
  rcases Nat.eq_zero_or_pos rounds with rfl | hpos
  · have : value ≤ 1 := by omega
    interval_cases value <;> norm_num
  · have hpow : 2 ^ (63 - 7 * rounds) ≤ 2 ^ 56 := Nat.pow_le_pow_right (by omega) (by omega)
    calc value % 128 * 2 ^ (63 - 7 * rounds) ≤ 127 * 2 ^ 56 :=
          Nat.mul_le_mul (by omega) hpow
      _ < 2 ^ 64 := by norm_num

/-- A round moves the shift by seven bits. -/
theorem two_pow_shift {rounds : ℕ} (hrounds : rounds ≤ 9) :
    2 ^ (70 - 7 * rounds) = 128 * 2 ^ (63 - 7 * rounds) := by
  rw [show 70 - 7 * rounds = 7 + (63 - 7 * rounds) by omega, Nat.pow_add]

theorem two_pow_bits {rounds : ℕ} (hrounds : 0 < rounds) :
    2 ^ (7 * (rounds + 1) - 6) = 2 ^ (7 * rounds - 6) * 128 := by
  rw [show 7 * (rounds + 1) - 6 = 7 * rounds - 6 + 7 by omega, Nat.pow_add]

/-- After a round the bits collected so far are below the next shift. -/
theorem collected_lt {rounds value : ℕ} {result : JavaLong} (hrounds : rounds ≤ 9)
    (hresult : result.toNat < 2 ^ (63 - 7 * rounds))
    (htenth : ¬ (63 - 7 * rounds = 63 ∧ value > 1)) :
    (result ||| (BitVec.ofNat 64 (value &&& 127) <<< (63 - 7 * rounds))).toNat <
      2 ^ (70 - 7 * rounds) := by
  have hbound : (value % 128 + 1) * 2 ^ (63 - 7 * rounds) ≤ 128 * 2 ^ (63 - 7 * rounds) :=
    Nat.mul_le_mul_right _ (by omega)
  rw [Nat.succ_mul] at hbound
  rw [toNat_or_shiftLeft hresult (payload_lt hrounds htenth), two_pow_shift hrounds]
  omega

/-- The bits of a last byte are among those the rounds left have room for. -/
theorem last_lt {rounds value : ℕ} (hlast : value < 128)
    (htenth : ¬ (63 - 7 * rounds = 63 ∧ value > 1)) : value < 2 ^ (7 * (rounds + 1) - 6) := by
  rcases Nat.eq_zero_or_pos rounds with rfl | hpos
  · exact Nat.lt_succ_of_le (not_lt.mp fun h => htenth ⟨rfl, h⟩)
  · calc value < 2 ^ 7 := hlast
      _ ≤ 2 ^ (7 * (rounds + 1) - 6) := Nat.pow_le_pow_right (by omega) (by omega)

/-- No byte follows the tenth one. -/
theorem rounds_pos {rounds value : ℕ} (hmore : 128 ≤ value)
    (htenth : ¬ (63 - 7 * rounds = 63 ∧ value > 1)) : 0 < rounds := by
  apply Nat.pos_of_ne_zero
  rintro rfl
  exact htenth ⟨rfl, by omega⟩

theorem varintLoop_succ {rounds position : ℕ} {result : JavaLong} {byte : UInt8}
    (hbyte : data[position]? = some byte) :
    Cursor.varintLoop data (rounds + 1) position result =
      if 63 - 7 * rounds = 63 ∧ byte.toNat > 1 then
        .error (.ioException "Invalid protobuf varint")
      else if byte.toNat < 128 then
        .ok (result ||| (BitVec.ofNat 64 (byte.toNat &&& 127) <<< (63 - 7 * rounds)), position + 1)
      else
        Cursor.varintLoop data rounds (position + 1)
          (result ||| (BitVec.ofNat 64 (byte.toNat &&& 127) <<< (63 - 7 * rounds))) := by
  have hposition : position ≠ data.length := by
    rintro rfl
    simp at hbyte
  have hmask : byte.toNat &&& 255 = byte.toNat :=
    (Nat.and_two_pow_sub_one_eq_mod byte.toNat 8).trans (Nat.mod_eq_of_lt byte.toNat_lt)
  have hread : byteAt data position = .ok byte := by simp [byteAt, hbyte]
  simp only [Cursor.varintLoop, if_neg hposition, hread, ok_bind, hmask]

theorem varintLoop_reads : ∀ {rounds position : ℕ} {result : JavaLong}, rounds ≤ 10 →
    position ≤ data.length → result.toNat < 2 ^ (70 - 7 * rounds) →
    Reads data Throwable.IsIOException position
      (fun value bytes => ∃ number, Varint.Encodes bytes number ∧ bytes.length ≤ rounds ∧
        number < 2 ^ (7 * rounds - 6) ∧
        value.toNat = result.toNat + number * 2 ^ (70 - 7 * rounds))
      (Cursor.varintLoop data rounds position result) := by
  intro rounds
  induction rounds with
  | zero => intro position result _ _ _; exact Reads.error trivial
  | succ rounds ih =>
      intro position result hrounds hposition hresult
      have hshift : 70 - 7 * (rounds + 1) = 63 - 7 * rounds := by omega
      rw [hshift] at hresult ⊢
      rcases Nat.eq_or_lt_of_le hposition with rfl | hlt
      · rw [Cursor.varintLoop, if_pos rfl]
        exact Reads.error trivial
      have hbyte : data[position]? = some data[position] := List.getElem?_eq_getElem hlt
      rw [varintLoop_succ hbyte]
      split
      · exact Reads.error trivial
      rename_i htenth
      have hpayload := payload_lt (by omega) htenth
      have hnext := toNat_or_shiftLeft hresult hpayload
      split
      -- the last byte
      · rename_i hlast
        refine ⟨by omega, hlt, data[position].toNat, ?_, ?_, last_lt hlast htenth, ?_⟩
        · rw [slice_succ hlt]
          exact Varint.Encodes.last hlast
        · simp [slice_succ hlt]
        · rw [hnext, Nat.mod_eq_of_lt hlast]
      -- a byte with more to come: the loop goes on with seven bits more
      · rename_i hmore
        have hrounds' : 0 < rounds := rounds_pos (not_lt.mp hmore) htenth
        have hcollected := collected_lt (by omega) hresult htenth
        refine Reads.after (by omega) ((ih (by omega) hlt hcollected).mono ?_)
        rintro value bytes ⟨number, hencodes, hlength, hnumber, hvalue⟩
        rw [slice_succ hlt, List.singleton_append]
        refine ⟨_, Varint.Encodes.more (by omega) hencodes, by simpa using hlength, ?_, ?_⟩
        · rw [two_pow_bits hrounds']
          omega
        · rw [hvalue, hnext, two_pow_shift (by omega)]
          ring

theorem varintLoop_complete {bytes : Bytes} {number : ℕ} (h : Varint.Encodes bytes number) :
    ∀ (rounds position : ℕ) (result : JavaLong), bytes.length ≤ rounds →
      number < 2 ^ (7 * rounds - 6) → result.toNat < 2 ^ (70 - 7 * rounds) → rounds ≤ 10 →
      bytes <+: data.drop position →
      ∃ value, Cursor.varintLoop data rounds position result =
          .ok (value, position + bytes.length) ∧
        value.toNat = result.toNat + number * 2 ^ (70 - 7 * rounds) := by
  induction h with
  | @last byte hlast =>
      intro rounds position result hlength hnumber hresult hrounds hfront
      obtain ⟨rounds, rfl⟩ : ∃ left, rounds = left + 1 :=
        Nat.exists_eq_succ_of_ne_zero (by rw [List.length_singleton] at hlength; omega)
      have hshift : 70 - 7 * (rounds + 1) = 63 - 7 * rounds := by omega
      rw [hshift] at hresult ⊢
      -- the tenth byte has one bit left, and the number fits
      have htenth : ¬ (63 - 7 * rounds = 63 ∧ byte.toNat > 1) := by
        rintro ⟨hzero, hbyte⟩
        obtain rfl : rounds = 0 := by omega
        exact absurd hnumber (not_lt.mpr hbyte)
      have hnext := toNat_or_shiftLeft hresult (payload_lt (by omega) htenth)
      rw [varintLoop_succ (getElem?_of_cons_prefix_drop hfront), if_neg htenth, if_pos hlast]
      exact ⟨_, rfl, by rw [hnext, Nat.mod_eq_of_lt hlast]⟩
  | @more byte rest number hmore hrest ih =>
      intro rounds position result hlength hnumber hresult hrounds hfront
      have hrest' := hrest.length_pos
      simp only [List.length_cons] at hlength
      obtain ⟨rounds, rfl⟩ : ∃ left, rounds = left + 1 :=
        Nat.exists_eq_succ_of_ne_zero (by omega)
      have hshift : 70 - 7 * (rounds + 1) = 63 - 7 * rounds := by omega
      rw [hshift] at hresult ⊢
      have htenth : ¬ (63 - 7 * rounds = 63 ∧ byte.toNat > 1) := by omega
      have hnext := toNat_or_shiftLeft hresult (payload_lt (by omega) htenth)
      have hcollected := collected_lt (by omega) hresult htenth
      rw [two_pow_bits (by omega)] at hnumber
      rw [← List.singleton_append, append_prefix_drop] at hfront
      rw [varintLoop_succ (getElem?_of_cons_prefix_drop hfront.1), if_neg htenth, if_neg (by omega)]
      obtain ⟨value, hread, hvalue⟩ := ih rounds (position + 1)
        (result ||| (BitVec.ofNat 64 (byte.toNat &&& 127) <<< (63 - 7 * rounds)))
        (by omega) (by omega) hcollected (by omega) hfront.2
      refine ⟨value, ?_, ?_⟩
      · rw [hread, List.length_cons, Nat.add_right_comm, Nat.add_assoc]
      · rw [hvalue, hnext, two_pow_shift (by omega)]
        ring

/-- `Cursor.varint` reads one varint of the grammar. -/
theorem varint_reads {position : ℕ} (hposition : position ≤ data.length) :
    Reads data Throwable.IsIOException position (fun value bytes => IsVarint bytes value.toNat)
      (Cursor.varint data position) := by
  refine (varintLoop_reads (by omega) hposition (by simp)).mono ?_
  rintro value bytes ⟨number, hencodes, hlength, hnumber, hvalue⟩
  obtain rfl : value.toNat = number := by simpa using hvalue
  exact isVarint_iff.mpr ⟨hencodes, hlength, hnumber⟩

/-- A varint at the position is read. -/
theorem varint_complete {bytes : Bytes} {number position : ℕ} (h : IsVarint bytes number)
    (hfront : bytes <+: data.drop position) :
    Cursor.varint data position = .ok (BitVec.ofNat 64 number, position + bytes.length) := by
  obtain ⟨hencodes, hlength, hnumber⟩ := isVarint_iff.mp h
  obtain ⟨value, hread, hvalue⟩ :=
    varintLoop_complete hencodes 10 position 0 hlength hnumber (by simp) le_rfl hfront
  have : value = BitVec.ofNat 64 number := BitVec.eq_of_toNat_eq (by
    rw [hvalue, BitVec.toNat_ofNat, Nat.mod_eq_of_lt hnumber]
    simp)
  rw [Cursor.varint, hread, this]

/-! ## Skipping -/

theorem skip_reads {length : JavaLong} {position : ℕ} (hdata : data.length ≤ maxInt) :
    Reads data Throwable.IsIOException position (fun _ passed => passed.length = length.toNat)
      (Cursor.skip data length position) := by
  unfold Cursor.skip
  split
  · exact Reads.error trivial
  · rename_i hlength
    simp only [not_or, not_lt, gt_iff_lt] at hlength
    obtain ⟨hnonneg, hfits⟩ := hlength
    -- the length is not negative, so it is read without its sign
    have hnat : length.toInt = length.toNat := BitVec.toInt_eq_toNat_of_lt (by
      have := BitVec.le_toInt length
      rw [BitVec.toInt_eq_toNat_cond] at hnonneg
      split at hnonneg <;> omega)
    have hnarrow : (length.setWidth 32).toNat = length.toNat := by
      rw [BitVec.toNat_setWidth, Nat.mod_eq_of_lt]
      unfold maxInt at hdata
      omega
    rw [hnarrow]
    refine ⟨by omega, by omega, ?_⟩
    exact (length_slice (by omega)).trans (by omega)

theorem skip_complete {passed : Bytes} {position : ℕ} (hdata : data.length ≤ maxInt)
    (hposition : position ≤ data.length) (hfront : passed <+: data.drop position) :
    Cursor.skip data (BitVec.ofNat 64 passed.length) position =
      .ok ((), position + passed.length) := by
  have hfits := le_length_of_prefix_drop hposition hfront
  unfold maxInt at hdata
  have hnat : (BitVec.ofNat 64 passed.length).toNat = passed.length := by
    rw [BitVec.toNat_ofNat, Nat.mod_eq_of_lt (by omega)]
  have hint : (BitVec.ofNat 64 passed.length).toInt = passed.length := by
    rw [BitVec.toInt_eq_toNat_of_lt (by omega), hnat]
  unfold Cursor.skip
  rw [if_neg (by omega), BitVec.toNat_setWidth, hnat, Nat.mod_eq_of_lt (by omega)]

/-- A value of a fixed number of bytes. -/
theorem skip_of_length {passed : Bytes} {position count : ℕ} (hdata : data.length ≤ maxInt)
    (hlength : passed.length = count) (hposition : position ≤ data.length)
    (hfront : passed <+: data.drop position) :
    Cursor.skip data (BitVec.ofNat 64 count) position = .ok ((), position + count) := by
  subst hlength
  exact skip_complete hdata hposition hfront

theorem copyOfRange_eq_slice {first last : ℕ} (hle : first ≤ last) (hlast : last ≤ data.length) :
    copyOfRange data first last = .ok (slice data first last) := by
  have hpadding : last - data.length = 0 := by omega
  rw [copyOfRange, if_neg (by omega), if_neg (by omega), hpadding, List.replicate_zero,
    List.append_nil, slice]

/-! ## Tags -/

theorem toNat_number (tag : JavaLong) : (tag >>> 3).toNat = tag.toNat / 8 := by
  rw [BitVec.toNat_ushiftRight, Nat.shiftRight_eq_div_pow]

theorem toNat_wire (tag : JavaLong) : (tag &&& 7).toNat = tag.toNat % 8 := by
  rw [BitVec.toNat_and]
  exact Nat.and_two_pow_sub_one_eq_mod tag.toNat 3

/-- The check of a tag, signed as the source writes it, on its value. -/
theorem tag_rejected_iff (tag : JavaLong) :
    (tag.toInt ≤ 0 ∨ tag.toInt > 0xffffffff ∨ tag >>> 3 = 0) ↔
      ¬ (1 ≤ tag.toNat ∧ tag.toNat ≤ 2 ^ 32 - 1 ∧ 1 ≤ tag.toNat / 8) := by
  have hnumber : tag >>> 3 = 0 ↔ tag.toNat / 8 = 0 := by
    rw [← toNat_number, BitVec.toNat_eq]
    simp
  have hint := BitVec.toInt_eq_toNat_cond tag
  have hlt := tag.isLt
  rw [hnumber, hint]
  split <;> omega

theorem readTag_reads {position : ℕ} (hposition : position ≤ data.length) :
    Reads data Throwable.IsIOException position (fun tag bytes => IsTag bytes tag.1 tag.2)
      (readTag data position) := by
  refine Reads.bind (varint_reads hposition) fun tag stop _ hstop htag => ?_
  by_cases hreject : tag.toInt ≤ 0 ∨ tag.toInt > 0xffffffff ∨ tag >>> 3 = 0
  · simp only [if_pos hreject]
    exact Reads.error trivial
  · simp only [if_neg hreject]
    obtain ⟨hpos, hmax, hnumber⟩ := not_not.mp ((tag_rejected_iff tag).not.mp hreject)
    refine Reads.pure hstop ?_
    rw [List.append_nil, toNat_number, toNat_wire]
    exact ⟨tag.toNat, htag, hpos, hmax, rfl, rfl, hnumber⟩

theorem readTag_complete {bytes : Bytes} {number wireType position : ℕ}
    (h : IsTag bytes number wireType) (hfront : bytes <+: data.drop position) :
    readTag data position = .ok ((number, wireType), position + bytes.length) := by
  obtain ⟨tag, htag, hpos, hmax, rfl, rfl, hnumber⟩ := h
  have hnat : (BitVec.ofNat 64 tag).toNat = tag := by
    rw [BitVec.toNat_ofNat, Nat.mod_eq_of_lt (by omega)]
  have haccept := (tag_rejected_iff (BitVec.ofNat 64 tag)).not.mpr
    (not_not.mpr (by rw [hnat]; exact ⟨hpos, hmax, hnumber⟩))
  rw [readTag, varint_complete htag hfront, ok_bind]
  simp only [if_neg haccept, toNat_number, toNat_wire, hnat]

/-! ## Fields -/

/-- The field the parser returns for a token of the grammar. -/
def Field.ofToken (token : Token) : Field where
  number := token.number
  wire := token.value.wireType
  scalar :=
    match token.value with
    | .varint value => BitVec.ofNat 64 value
    | _ => 0
  bytes :=
    match token.value with
    | .lengthDelimited payload => payload
    | _ => []
  raw := token.raw

/-- What one call of `field` reads: a field of the grammar, or the tag that closes a group. -/
def Phrase (depth : ℕ) (result : Field) (bytes : Bytes) : Prop :=
  (∃ token, IsField depth token ∧ token.raw = bytes ∧ result = Field.ofToken token) ∨
    (IsTag bytes result.number endGroup ∧
      result = { number := result.number, wire := endGroup, raw := bytes })

theorem wireType_ne_endGroup (value : Value) : value.wireType ≠ endGroup := by
  cases value <;> simp [Value.wireType, endGroup]

variable {nested : ℕ → Except Throwable (Field × ℕ)}

/-- A reader of phrases with `levels` levels left: without any, it never succeeds. -/
def ReadsPhrase (data : Bytes) (levels : ℕ) (reader : ℕ → Except Throwable (Field × ℕ)) : Prop :=
  ∀ position, position ≤ data.length →
    Reads data Throwable.IsIOException position
      (fun result bytes => 0 < levels ∧ Phrase (levels - 1) result bytes) (reader position)

/-- The loop of a group reads fields up to the end tag.  Every field takes a byte, so the
rounds outlast the bytes. -/
theorem readGroup_reads {number levels : ℕ} (hnested : ReadsPhrase data levels nested) :
    ∀ {rounds position : ℕ}, position ≤ data.length → data.length - position < rounds →
      Reads data Throwable.IsIOException position
        (fun _ bytes => 0 < levels ∧ ∃ body close,
          (∀ token ∈ body, IsField (levels - 1) token) ∧
          IsTag close number endGroup ∧ bytes = spell body ++ close)
        (readGroup nested number rounds position) := by
  intro rounds
  induction rounds with
  | zero => intro position _ hrounds; omega
  | succ rounds ih =>
      intro position hposition hrounds
      refine Reads.bind (hnested position hposition) fun inner stop hle hstop hphrase => ?_
      obtain ⟨hlevels, ⟨token, htoken, hraw, rfl⟩ | ⟨hclose, hinner⟩⟩ := hphrase
      -- a field of the group
      · have hwire : (Field.ofToken token).wire ≠ 4 := wireType_ne_endGroup token.value
        simp only [if_neg hwire]
        have hpassed : 0 < (slice data position stop).length := hraw ▸ htoken.length_pos
        rw [length_slice hstop] at hpassed
        refine (ih hstop (by omega)).mono ?_
        rintro _ bytes ⟨_, body, close, hbody, hclose, rfl⟩
        refine ⟨hlevels, token :: body, close, ?_, hclose, ?_⟩
        · exact List.forall_mem_cons.mpr ⟨htoken, hbody⟩
        · rw [spell_cons, hraw, List.append_assoc]
      -- the end tag
      · have hwire : inner.wire = 4 := by rw [hinner]; rfl
        simp only [if_pos hwire]
        by_cases hnumber : inner.number = number
        · rw [if_neg (not_not.mpr hnumber)]
          refine Reads.pure hstop ⟨hlevels, [], _, by simp, hnumber ▸ hclose, ?_⟩
          rw [List.append_nil, spell_nil, List.nil_append]
        · rw [if_pos hnumber]
          exact Reads.error trivial

/-- After its tag, the value of a field is read as the wire type says. -/
theorem readValue_reads {number wire position levels : ℕ} (hdata : data.length ≤ maxInt)
    (hnested : ReadsPhrase data levels nested) (hposition : position ≤ data.length) :
    Reads data Throwable.IsIOException position
      (fun result bytes => ∀ tag, IsTag tag number wire →
        Phrase levels { result with raw := tag ++ bytes } (tag ++ bytes))
      (readValue data nested number wire position) := by
  unfold readValue
  split
  -- a varint
  · refine Reads.bind (varint_reads hposition) fun scalar stop _ hstop hscalar => ?_
    refine Reads.pure hstop fun tag htag => Or.inl ⟨_, IsField.varint htag hscalar, ?_, ?_⟩
    · rw [List.append_nil]
    · simp [Field.ofToken, Value.wireType]
  -- eight bytes
  · refine Reads.bind (skip_reads hdata) fun _ stop _ hstop hlength => ?_
    refine Reads.pure hstop fun tag htag => Or.inl ⟨_, IsField.fixed64 htag hlength, ?_, ?_⟩
    · rw [List.append_nil]
    · simp [Field.ofToken, Value.wireType]
  -- a length and as many bytes
  · refine Reads.bind (varint_reads hposition) fun length start _ hstart hlength => ?_
    refine Reads.bind (skip_reads hdata) fun _ stop hle hstop hpayload => ?_
    simp only [copyOfRange_eq_slice hle hstop, ok_bind]
    have hvarint : IsVarint _ (slice data start stop).length := hpayload ▸ hlength
    refine Reads.pure hstop fun tag htag => Or.inl ⟨_, IsField.lengthDelimited htag hvarint, ?_, ?_⟩
    · rw [List.append_nil]
    · simp [Field.ofToken, Value.wireType]
  -- a group
  · refine Reads.bind (readGroup_reads hnested hposition (by omega)) fun _ stop _ hstop hgroup => ?_
    obtain ⟨hlevels, body, close, hbody, hclose, hbytes⟩ := hgroup
    obtain ⟨levels, rfl⟩ := Nat.exists_eq_succ_of_ne_zero hlevels.ne'
    refine Reads.pure hstop fun tag htag => Or.inl
      ⟨_, IsField.group htag hbody hclose, ?_, ?_⟩
    · rw [List.append_nil, hbytes]
    · simp [Field.ofToken, Value.wireType, hbytes]
  -- an end tag, which has no value
  · refine Reads.pure hposition fun tag htag => Or.inr ⟨?_, rfl⟩
    rwa [List.append_nil]
  -- four bytes
  · refine Reads.bind (skip_reads hdata) fun _ stop _ hstop hlength => ?_
    refine Reads.pure hstop fun tag htag => Or.inl ⟨_, IsField.fixed32 htag hlength, ?_, ?_⟩
    · rw [List.append_nil]
    · simp [Field.ofToken, Value.wireType]
  · exact Reads.error trivial

/-- `field` reads a phrase: the induction is on the nesting levels left. -/
theorem field_reads (hdata : data.length ≤ maxInt) :
    ∀ levels, ReadsPhrase data levels (field data levels) := by
  intro levels
  induction levels with
  | zero => exact fun _ _ => Reads.error trivial
  | succ levels ih =>
      intro start hstart
      refine Reads.bind (readTag_reads hstart) fun tag position hle hposition htag => ?_
      refine Reads.bind (readValue_reads hdata ih hposition)
        fun result stop hle' hstop hresult => ?_
      simp only [copyOfRange_eq_slice (hle.trans hle') hstop, ok_bind]
      refine Reads.pure hstop ⟨Nat.succ_pos levels, ?_⟩
      have hphrase := hresult _ htag
      rw [slice_append hle hle'] at hphrase
      rwa [List.append_nil, slice_append hle hle']

/-! ## Fields that stand at the position -/

/-- What `field` returns where a phrase of the grammar stands. -/
def ReadsAt (data : Bytes) (reader : ℕ → Except Throwable (Field × ℕ)) (result : Field) : Prop :=
  ∀ {position : ℕ}, position ≤ data.length → result.raw <+: data.drop position →
    reader position = .ok (result, position + result.raw.length)

theorem readGroup_complete {number : ℕ} {body : List Token} {close : Bytes}
    (hbody : ∀ token ∈ body, 0 < token.raw.length ∧ ReadsAt data nested (Field.ofToken token))
    (hclose : ReadsAt data nested { number, wire := endGroup, raw := close }) :
    ∀ {rounds position : ℕ}, position ≤ data.length → data.length - position < rounds →
      spell body ++ close <+: data.drop position →
      readGroup nested number rounds position =
        .ok ((), position + (spell body ++ close).length) := by
  induction body with
  | nil =>
      intro rounds position hposition hrounds hfront
      obtain ⟨rounds, rfl⟩ : ∃ left, rounds = left + 1 :=
        Nat.exists_eq_succ_of_ne_zero (by omega)
      rw [readGroup, hclose hposition hfront, ok_bind]
      simp [endGroup]
  | cons token body ih =>
      intro rounds position hposition hrounds hfront
      obtain ⟨rounds, rfl⟩ : ∃ left, rounds = left + 1 :=
        Nat.exists_eq_succ_of_ne_zero (by omega)
      obtain ⟨⟨hpos, htoken⟩, hrest⟩ := List.forall_mem_cons.mp hbody
      rw [spell_cons, List.append_assoc, append_prefix_drop] at hfront
      have hfits := le_length_of_prefix_drop hposition hfront.1
      -- a field of the body is never taken for the end of the group
      have hwire : (Field.ofToken token).wire ≠ 4 := wireType_ne_endGroup token.value
      rw [readGroup, htoken hposition hfront.1, ok_bind]
      simp only [if_neg hwire]
      have hraw : (Field.ofToken token).raw = token.raw := rfl
      rw [hraw, ih hrest hfits (by omega) hfront.2]
      simp only [spell_cons, List.length_append, Nat.add_assoc]

/-- A tag and the value it announces make up a field. -/
theorem field_of_readValue {levels : ℕ} {tag value : Bytes} {result : Field}
    (htag : IsTag tag result.number result.wire) (hraw : result.raw = tag ++ value)
    (hvalue : ∀ {start : ℕ}, start ≤ data.length → value <+: data.drop start →
      readValue data (field data levels) result.number result.wire start =
        .ok ({ result with raw := [] }, start + value.length)) :
    ReadsAt data (field data (levels + 1)) result := by
  intro position hposition hfront
  have hfits := le_length_of_prefix_drop hposition hfront
  have hslice := slice_of_prefix_drop hfront
  have hstop : position + tag.length + value.length = position + result.raw.length := by
    rw [hraw, List.length_append, Nat.add_assoc]
  rw [hraw, append_prefix_drop] at hfront
  have hstart := le_length_of_prefix_drop hposition hfront.1
  rw [field, readTag_complete htag hfront.1, ok_bind]
  simp only [hvalue hstart hfront.2, ok_bind, hstop]
  rw [copyOfRange_eq_slice (by omega) hfits, ok_bind, hslice]

theorem endGroup_complete {levels number : ℕ} {close : Bytes}
    (hclose : IsTag close number endGroup) :
    ReadsAt data (field data (levels + 1)) { number, wire := endGroup, raw := close } :=
  field_of_readValue hclose (List.append_nil close).symm fun _ _ => rfl

/-- Every field of the grammar is read where it stands: the induction is on its derivation,
and the parser has one level more than the groups nested in the field. -/
theorem field_complete (hdata : data.length ≤ maxInt) {depth : ℕ} {token : Token}
    (h : IsField depth token) : ReadsAt data (field data (depth + 1)) (Field.ofToken token) := by
  induction h with
  | varint htag hvalue =>
      refine field_of_readValue htag rfl fun _ hrest => ?_
      simp only [readValue, Field.ofToken, Value.wireType, varint_complete hvalue hrest, ok_bind]
  | @fixed64 _ _ _ bytes htag hlength =>
      refine field_of_readValue htag rfl fun hstart hrest => ?_
      have hskip := skip_of_length hdata hlength hstart hrest
      simp only [readValue, Field.ofToken, Value.wireType, hlength]
      rw [show (8 : JavaLong) = BitVec.ofNat 64 8 from rfl, hskip, ok_bind]
  | @lengthDelimited _ _ _ length payload htag hlength =>
      refine field_of_readValue htag rfl fun hstart hrest => ?_
      obtain ⟨hlength', hpayload⟩ := append_prefix_drop.mp hrest
      have hbody := le_length_of_prefix_drop hstart hlength'
      have hfits := le_length_of_prefix_drop hbody hpayload
      simp only [readValue, Field.ofToken, Value.wireType, varint_complete hlength hlength',
        skip_complete hdata hbody hpayload, ok_bind]
      rw [copyOfRange_eq_slice (by omega) hfits, ok_bind, slice_of_prefix_drop hpayload,
        List.length_append, ← Nat.add_assoc]
  | @group depth _ _ close body htag hbody hclose ih =>
      refine field_of_readValue htag rfl fun hstart hrest => ?_
      have htokens : ∀ token ∈ body, 0 < token.raw.length ∧
          ReadsAt data (field data (depth + 1)) (Field.ofToken token) :=
        fun token htoken => ⟨(hbody token htoken).length_pos, ih token htoken⟩
      simp only [readValue, Field.ofToken, Value.wireType]
      rw [readGroup_complete htokens (endGroup_complete hclose) hstart (by omega) hrest, ok_bind]
  | @fixed32 _ _ _ bytes htag hlength =>
      refine field_of_readValue htag rfl fun hstart hrest => ?_
      have hskip := skip_of_length hdata hlength hstart hrest
      simp only [readValue, Field.ofToken, Value.wireType, hlength]
      rw [show (4 : JavaLong) = BitVec.ofNat 64 4 from rfl, hskip, ok_bind]

/-! ## Messages -/

/-- The loop over the top-level fields reads the rest of the message. -/
theorem fieldsLoop_reads (hdata : data.length ≤ maxInt) :
    ∀ {rounds position : ℕ}, position ≤ data.length → data.length - position ≤ rounds →
      Reads data Throwable.IsIOException position
        (fun result bytes => bytes = data.drop position ∧
          ∃ tokens, IsMessage 100 bytes tokens ∧ result = tokens.map Field.ofToken)
        (fieldsLoop data rounds position) := by
  intro rounds
  induction rounds with
  | zero =>
      intro position hposition hrounds
      have hend : ¬ position < data.length := by omega
      rw [fieldsLoop, if_neg hend]
      refine Reads.pure hposition
        ⟨(List.drop_eq_nil_of_le (by omega)).symm, [], ⟨by simp, rfl⟩, rfl⟩
  | succ rounds ih =>
      intro position hposition hrounds
      rw [fieldsLoop]
      split
      · refine Reads.bind (field_reads hdata 101 position hposition)
          fun head stop hle hstop hhead => ?_
        obtain ⟨_, ⟨token, htoken, hraw, rfl⟩ | ⟨_, hhead⟩⟩ := hhead
        -- a field of the message
        · have hwire : (Field.ofToken token).wire ≠ 4 := wireType_ne_endGroup token.value
          have hpassed : 0 < (slice data position stop).length := hraw ▸ htoken.length_pos
          rw [length_slice hstop] at hpassed
          simp only [if_neg hwire]
          refine Reads.bind (ih hstop (by omega)) fun tail finish hle' hfinish htail => ?_
          obtain ⟨hrest, tokens, ⟨htokens, hspell⟩, rfl⟩ := htail
          refine Reads.pure hfinish ⟨?_, token :: tokens, ⟨?_, ?_⟩, rfl⟩
          · rw [List.append_nil, hrest, slice_append_drop hle]
          · exact List.forall_mem_cons.mpr ⟨htoken, htokens⟩
          · rw [List.append_nil, spell_cons, hraw, hspell]
        -- an end tag outside of a group
        · have hwire : head.wire = 4 := by rw [hhead]; rfl
          simp only [if_pos hwire]
          exact Reads.error trivial
      · rename_i hend
        exact Reads.pure hposition
          ⟨(List.drop_eq_nil_of_le (by omega)).symm, [], ⟨by simp, rfl⟩, rfl⟩

theorem fieldsLoop_complete (hdata : data.length ≤ maxInt) :
    ∀ {tokens : List Token} {rounds position : ℕ}, (∀ token ∈ tokens, IsField 100 token) →
      position ≤ data.length → data.length - position ≤ rounds →
      spell tokens = data.drop position →
      fieldsLoop data rounds position = .ok (tokens.map Field.ofToken, data.length) := by
  intro tokens
  induction tokens with
  | nil =>
      intro rounds position _ hposition _ hspell
      have hend : data.length ≤ position := List.drop_eq_nil_iff.mp hspell.symm
      have hstop : position = data.length := le_antisymm hposition hend
      unfold fieldsLoop
      rw [if_neg (by omega), hstop, List.map_nil]
  | cons token tokens ih =>
      intro rounds position htokens hposition hrounds hspell
      obtain ⟨htoken, htokens'⟩ := List.forall_mem_cons.mp htokens
      -- each field takes at least one byte, so the rounds last
      have hpos := htoken.length_pos
      rw [spell_cons] at hspell
      have hfront : (Field.ofToken token).raw <+: data.drop position := ⟨_, hspell⟩
      have hfits := le_length_of_prefix_drop hposition hfront
      have hraw : (Field.ofToken token).raw = token.raw := rfl
      rw [hraw] at hfits
      obtain ⟨rounds, rfl⟩ : ∃ left, rounds = left + 1 :=
        Nat.exists_eq_succ_of_ne_zero (by omega)
      have hrest : spell tokens = data.drop (position + token.raw.length) := by
        rw [← List.drop_drop, ← hspell, List.drop_left]
      have hwire : (Field.ofToken token).wire ≠ 4 := wireType_ne_endGroup token.value
      rw [fieldsLoop, if_pos (by omega)]
      simp only [field_complete hdata htoken hposition hfront, ok_bind, if_neg hwire, hraw]
      rw [ih htokens' hfits (by omega) hrest, ok_bind, List.map_cons]

/-- What `fields` returns is the list of the fields of a message. -/
theorem fields_sound {result : List Field} (hdata : data.length ≤ maxInt)
    (h : fields data = .ok result) :
    ∃ tokens, IsMessage 100 data tokens ∧ result = tokens.map Field.ofToken := by
  obtain ⟨⟨found, stop⟩, hloop, hresult⟩ := bind_eq_ok.mp h
  cases hresult
  have hreads := fieldsLoop_reads hdata (Nat.zero_le _) (Nat.sub_le data.length 0)
  rw [hloop] at hreads
  obtain ⟨_, _, hall, tokens, hmessage, htokens⟩ := hreads
  rw [hall, List.drop_zero] at hmessage
  exact ⟨tokens, hmessage, htokens⟩

/-- Every message of the grammar is read. -/
theorem fields_complete {tokens : List Token} (hdata : data.length ≤ maxInt)
    (h : IsMessage 100 data tokens) : fields data = .ok (tokens.map Field.ofToken) := by
  rw [fields, fieldsLoop_complete hdata h.1 (Nat.zero_le _) (by omega) h.2, ok_bind]

/-- A message is split into fields in one way. -/
theorem fields_eq_ok_iff {result : List Field} (hdata : data.length ≤ maxInt) :
    fields data = .ok result ↔
      ∃ tokens, IsMessage 100 data tokens ∧ result = tokens.map Field.ofToken := by
  constructor
  · exact fields_sound hdata
  · rintro ⟨tokens, hmessage, rfl⟩
    exact fields_complete hdata hmessage

/-- The only failures of `fields` are I/O exceptions; in particular every loop ends. -/
theorem fields_error {thrown : Throwable} (hdata : data.length ≤ maxInt)
    (h : fields data = .error thrown) : thrown.IsIOException := by
  have hreads := fieldsLoop_reads hdata (Nat.zero_le _) (Nat.sub_le data.length 0)
  unfold fields at h
  cases hloop : fieldsLoop data data.length 0 with
  | ok found =>
      rw [hloop, ok_bind] at h
      cases h
  | error failure =>
      rw [hloop, error_bind] at h
      rw [hloop] at hreads
      cases h
      exact hreads

/-- Each field returned spans at least one byte. -/
theorem raw_length_pos {result : List Field} (hdata : data.length ≤ maxInt)
    (h : fields data = .ok result) : ∀ field ∈ result, 0 < field.raw.length := by
  obtain ⟨tokens, hmessage, rfl⟩ := fields_sound hdata h
  intro field hfield
  obtain ⟨token, htoken, rfl⟩ := List.mem_map.mp hfield
  exact (hmessage.1 token htoken).length_pos

/-! ## The cursor -/

/-- A reader of the cursor that starts inside the array moves forward and stays inside it. -/
def StaysWithin {Result : Type} (data : Bytes) (reader : ℕ → Except Throwable (Result × ℕ)) :
    Prop :=
  ∀ start result stop, start ≤ data.length → reader start = .ok (result, stop) →
    start ≤ stop ∧ stop ≤ data.length

theorem StaysWithin.of_reads {Result : Type} {reader : ℕ → Except Throwable (Result × ℕ)}
    {spec : Result → Bytes → Prop}
    (h : ∀ {start}, start ≤ data.length →
      Reads data Throwable.IsIOException start spec (reader start)) :
    StaysWithin data reader := by
  intro start result stop hstart hread
  have hreads := h hstart
  rw [hread] at hreads
  exact ⟨hreads.1, hreads.2.1⟩

/-- **The parser accepts exactly the wire grammar.**  It fails with I/O exceptions only, it
succeeds exactly on the messages with at most 100 nested groups, every function that moves
the cursor leaves it inside the array, and each field returned took at least one byte. -/
theorem fields_accepts_wire_grammar (data : JavaBytes) :
    (∀ thrown, fields data.1 = .error thrown → thrown.IsIOException) ∧
      ((∃ result, fields data.1 = .ok result) ↔ ∃ tokens, IsMessage 100 data.1 tokens) ∧
      (StaysWithin data.1 (Cursor.varint data.1) ∧
        (∀ length, StaysWithin data.1 (Cursor.skip data.1 length)) ∧
        ∀ levels, StaysWithin data.1 (field data.1 levels)) ∧
      ∀ result, fields data.1 = .ok result → ∀ field ∈ result, 0 < field.raw.length := by
  have hdata := data.2
  refine ⟨fun _ => fields_error hdata, ⟨?_, ?_⟩, ⟨?_, fun length => ?_, fun levels => ?_⟩,
    fun _ => raw_length_pos hdata⟩
  · rintro ⟨result, hresult⟩
    obtain ⟨tokens, hmessage, _⟩ := fields_sound hdata hresult
    exact ⟨tokens, hmessage⟩
  · rintro ⟨tokens, hmessage⟩
    exact ⟨_, fields_complete hdata hmessage⟩
  · exact StaysWithin.of_reads varint_reads
  · exact StaysWithin.of_reads fun _ => skip_reads hdata
  · exact StaysWithin.of_reads (field_reads hdata levels _)

end RulesElide.WorkerProtocol
