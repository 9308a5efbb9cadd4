import RulesElide.Library.Transition
import RulesElide.WorkerProtocol.Requests

/-!
# Varint arithmetic

The two loops over varints once more, round by round and with the types of the source: a
byte is sign-extended to an `int`, masks and comparisons are those of `int`s, and a shift of a
`long` looks at six bits of its distance.  `Cursor.varint` and `varint` are what these loops
end with.  Along the way no bit is shifted out of the `long` and none is written twice.
-/

namespace RulesElide.WorkerProtocol

open Reader WireFormat Transition

/-! ## The loop of `Cursor.varint` -/

namespace Cursor

/-- `data[position++] & 255`, an `int`. -/
def unsigned (byte : UInt8) : JavaInt :=
  byte.toBitVec.signExtend 32 &&& 255

/-- `(long) (value & 127) << shift`. -/
def payload (value : JavaInt) (shift : ℕ) : JavaLong :=
  (value &&& 127).signExtend 64 <<< (shift % 64)

/-- The variables at the head of the loop. -/
structure Round where
  shift : ℕ
  position : ℕ
  result : JavaLong
  deriving DecidableEq, Repr

/-- The loop starts at `position` with nothing collected. -/
def Round.start (position : ℕ) : Round :=
  ⟨0, position, 0⟩

/-- One round of the loop, which ends the loop or goes on to the next round. -/
def round (data : Bytes) (state : Round) : Except Throwable (JavaLong × ℕ) ⊕ Round :=
  if state.shift < 64 then
    if state.position = data.length then
      .inl (.error (.eofException "Truncated protobuf varint"))
    else
      match byteAt data state.position with
      | .error thrown => .inl (.error thrown)
      | .ok byte =>
          let value := unsigned byte
          if state.shift = 63 ∧ value.toInt > 1 then
            .inl (.error (.ioException "Invalid protobuf varint"))
          else
            let result := state.result ||| payload value state.shift
            if value.toInt < 128 then .inl (.ok (result, state.position + 1))
            else .inr ⟨state.shift + 7, state.position + 1, result⟩
  else .inl (.error (.ioException "Invalid protobuf varint"))

/-- The round comes to add the bits of `byte`. -/
def Round.Adds (data : Bytes) (state : Round) (byte : UInt8) : Prop :=
  state.shift < 64 ∧ data[state.position]? = some byte ∧
    ¬ (state.shift = 63 ∧ (unsigned byte).toInt > 1)

/-- The seven bits a round adds all stay within the `long`, above those collected before. -/
def Round.KeepsBits (data : Bytes) (state : Round) : Prop :=
  ∀ byte, state.Adds data byte →
    (payload (unsigned byte) state.shift).toNat = byte.toNat % 128 * 2 ^ state.shift ∧
      (state.result ||| payload (unsigned byte) state.shift).toNat =
        state.result.toNat + byte.toNat % 128 * 2 ^ state.shift

end Cursor

/-! ## The loop of `varint` -/

/-- `output.write(value)`: the low eight bits of an `int`. -/
def lowByte (value : JavaInt) : UInt8 :=
  ⟨value.setWidth 8⟩

/-- One round of the loop of `varint(OutputStream, long)`, on `value` and what has been
written so far. -/
def writeRound : JavaLong × Bytes → Bytes ⊕ (JavaLong × Bytes)
  | (value, output) =>
      if value &&& ~~~127 ≠ 0 then
        .inr (value >>> 7, output ++ [lowByte (value.setWidth 32 &&& 127 ||| 128)])
      else .inl (output ++ [lowByte (value.setWidth 32)])

variable {data : Bytes}

/-! ## Masks and casts -/

theorem toNat_lowByte (value : JavaInt) : (lowByte value).toNat = value.toNat % 256 :=
  BitVec.toNat_setWidth 8 value

/-- The cast to an `int` leaves the low byte of a `long` as it is. -/
theorem lowByte_setWidth (value : JavaLong) :
    lowByte (value.setWidth 32) = UInt8.ofNat value.toNat := by
  apply UInt8.toNat_inj.mp
  rw [toNat_lowByte, BitVec.toNat_setWidth, UInt8.toNat_ofNat']
  omega

theorem lowByte_or (value : JavaLong) :
    lowByte (value.setWidth 32 &&& 127 ||| 128) = UInt8.ofNat ((value &&& 127) ||| 128).toNat := by
  rw [← lowByte_setWidth, BitVec.setWidth_or, BitVec.setWidth_and]
  rfl

namespace Cursor

theorem toNat_unsigned (byte : UInt8) : (unsigned byte).toNat = byte.toNat := by
  calc (unsigned byte).toNat = (byte.toBitVec.signExtend 32).toNat % 2 ^ 8 := by
        rw [unsigned, BitVec.toNat_and]
        exact Nat.and_two_pow_sub_one_eq_mod _ 8
    _ = ((byte.toBitVec.signExtend 32).setWidth 8).toNat := (BitVec.toNat_setWidth _ _).symm
    _ = byte.toNat := by
        rw [setWidth_signExtend _ (by omega)]
        rfl

theorem toInt_unsigned (byte : UInt8) : (unsigned byte).toInt = byte.toNat := by
  have hbyte := byte.toNat_lt
  rw [BitVec.toInt_eq_toNat_of_lt (by rw [toNat_unsigned]; omega), toNat_unsigned]

theorem payload_unsigned (byte : UInt8) {shift : ℕ} (hshift : shift < 64) :
    payload (unsigned byte) shift = BitVec.ofNat 64 (byte.toNat &&& 127) <<< shift := by
  have hmsb : (unsigned byte &&& 127).msb = false := by
    rw [BitVec.msb_and, show (127 : JavaInt).msb = false by decide, Bool.and_false]
  have hmask : (unsigned byte &&& 127).setWidth 64 = BitVec.ofNat 64 (byte.toNat &&& 127) := by
    apply BitVec.eq_of_toNat_eq
    rw [BitVec.toNat_setWidth, BitVec.toNat_and, toNat_unsigned, BitVec.toNat_ofNat]
    rfl
  rw [payload, BitVec.signExtend_eq_setWidth_of_msb_false hmsb, hmask, Nat.mod_eq_of_lt hshift]

end Cursor

/-! ## The rounds of the writer -/

/-- A turn of the loop of `varint`. -/
theorem varint_eq_ite (value : JavaLong) :
    varint value =
      if value &&& ~~~127 ≠ 0 then
        lowByte (value.setWidth 32 &&& 127 ||| 128) :: varint (value >>> 7)
      else [lowByte (value.setWidth 32)] := by
  have hshift : (value >>> 7).toNat < 2 ^ (7 * 8 + 1) := by
    have hvalue := value.isLt
    rw [BitVec.toNat_ushiftRight, Nat.shiftRight_eq_div_pow]
    omega
  rw [lowByte_or, lowByte_setWidth, varint_eq_encode (value >>> 7),
    ← varintRounds_eq_encode hshift, varint, varintRounds]

theorem writeRound_ends (value : JavaLong) :
    ∀ output, Ends writeRound (value, output) (output ++ varint value) := by
  induction hnumber : value.toNat using Nat.strongRecOn generalizing value with
  | ind number ih =>
      subst hnumber
      intro output
      rw [varint_eq_ite]
      split
      · rename_i hmore
        have hlarge := (hasMoreBits_iff value).mp hmore
        have hsmaller : (value >>> 7).toNat < value.toNat := by
          rw [BitVec.toNat_ushiftRight, Nat.shiftRight_eq_div_pow]
          omega
        rw [List.append_cons]
        exact Ends.later (if_pos hmore) (ih _ hsmaller _ rfl _)
      · rename_i hlast
        exact Ends.now (if_neg hlast)

/-- The loop of `varint` ends, and leaves what `varint` writes behind the earlier output. -/
theorem writeRound_ends_iff {value : JavaLong} {output written : Bytes} :
    Ends writeRound (value, output) written ↔ written = output ++ varint value :=
  (writeRound_ends value output).iff_eq

/-! ## The rounds of the reader -/

namespace Cursor

variable {state after : Round} {byte : UInt8}

theorem adds_iff :
    state.Adds data byte ↔ state.shift < 64 ∧ data[state.position]? = some byte ∧
      ¬ (state.shift = 63 ∧ byte.toNat > 1) := by
  rw [Round.Adds, toInt_unsigned]
  norm_cast

theorem round_of_getElem? (hshift : state.shift < 64) (hbyte : data[state.position]? = some byte) :
    round data state =
      if state.shift = 63 ∧ byte.toNat > 1 then
        .inl (.error (.ioException "Invalid protobuf varint"))
      else if byte.toNat < 128 then
        .inl (.ok (state.result ||| (BitVec.ofNat 64 (byte.toNat &&& 127) <<< state.shift),
          state.position + 1))
      else
        .inr ⟨state.shift + 7, state.position + 1,
          state.result ||| (BitVec.ofNat 64 (byte.toNat &&& 127) <<< state.shift)⟩ := by
  have hposition : state.position ≠ data.length := by
    intro hend
    simp [hend] at hbyte
  have hread : byteAt data state.position = .ok byte := by simp [byteAt, hbyte]
  simp only [round, if_pos hshift, if_neg hposition, hread, toInt_unsigned,
    payload_unsigned byte hshift]
  norm_cast

/-- The loop goes on behind a byte whose bits it has added and whose high bit is set. -/
theorem round_eq_inr (h : round data state = .inr after) :
    ∃ byte, state.Adds data byte ∧ 128 ≤ byte.toNat ∧
      after = ⟨state.shift + 7, state.position + 1,
        state.result ||| (BitVec.ofNat 64 (byte.toNat &&& 127) <<< state.shift)⟩ := by
  -- a round that goes on has a byte, and is not the last one
  by_cases hshift : state.shift < 64
  · cases hbyte : data[state.position]? with
    | none =>
        simp only [round, if_pos hshift, byteAt, hbyte] at h
        split at h <;> cases h
    | some byte =>
        rw [round_of_getElem? hshift hbyte] at h
        split at h
        · cases h
        · rename_i htenth
          split at h
          · cases h
          · rename_i hmore
            exact ⟨byte, adds_iff.mpr ⟨hshift, hbyte, htenth⟩, not_lt.mp hmore,
              (Sum.inr.inj h).symm⟩
  · rw [round, if_neg hshift] at h
    cases h

/-- A turn of `varintLoop` is one round. -/
theorem varintLoop_succ_eq (rounds position : ℕ) (result : JavaLong) :
    varintLoop data (rounds + 1) position result =
      match round data ⟨63 - 7 * rounds, position, result⟩ with
      | .inl outcome => outcome
      | .inr after => varintLoop data rounds after.position after.result := by
  have hshift : 63 - 7 * rounds < 64 := by omega
  cases hbyte : data[position]? with
  | none =>
      simp only [varintLoop, round, if_pos hshift, byteAt, hbyte]
      split <;> rfl
  | some byte =>
      rw [varintLoop_succ hbyte, round_of_getElem? hshift hbyte]
      split
      · rfl
      · split <;> rfl

/-- The rounds end with what `varintLoop` returns: the induction is on the rounds left. -/
theorem round_ends {rounds : ℕ} : ∀ {position : ℕ} {result : JavaLong}, rounds ≤ 9 →
    Ends (round data) ⟨63 - 7 * rounds, position, result⟩
      (varintLoop data (rounds + 1) position result) := by
  induction rounds with
  | zero =>
      intro position result _
      rw [varintLoop_succ_eq]
      cases hround : round data ⟨63 - 7 * 0, position, result⟩ with
      | inl outcome => exact Ends.now hround
      | inr after =>
          -- no round goes on behind a tenth byte
          obtain ⟨byte, hadds, hmore, _⟩ := round_eq_inr hround
          obtain ⟨_, _, htenth⟩ := adds_iff.mp hadds
          exact absurd (rounds_pos hmore htenth) (lt_irrefl 0)
  | succ rounds ih =>
      intro position result hrounds
      rw [varintLoop_succ_eq]
      cases hround : round data ⟨63 - 7 * (rounds + 1), position, result⟩ with
      | inl outcome => exact Ends.now hround
      | inr after =>
          obtain ⟨byte, _, _, rfl⟩ := round_eq_inr hround
          have hshift : 63 - 7 * (rounds + 1) + 7 = 63 - 7 * rounds := by omega
          simp only [hshift] at hround ⊢
          exact Ends.later hround (ih (by omega))

/-- The loop ends, and what it ends with is the outcome of `Cursor.varint`. -/
theorem round_ends_iff {position : ℕ} {outcome : Except Throwable (JavaLong × ℕ)} :
    Ends (round data) (Round.start position) outcome ↔ outcome = Cursor.varint data position := by
  have hends : Ends (round data) (Round.start position) (Cursor.varint data position) :=
    round_ends le_rfl
  exact hends.iff_eq

/-! ## No bit is lost -/

/-- Every round begins with a multiple of seven bits, at most 63. -/
structure Round.Invariant (state : Round) : Prop where
  shift : ∃ rounds ≤ 9, state.shift = 63 - 7 * rounds
  result : state.result.toNat < 2 ^ state.shift

theorem Round.invariant_start (position : ℕ) : (Round.start position).Invariant :=
  ⟨⟨9, le_rfl, rfl⟩, Nat.zero_lt_one⟩

theorem Round.Invariant.round (h : state.Invariant) (hround : round data state = .inr after) :
    after.Invariant := by
  obtain ⟨⟨rounds, hrounds, hshift⟩, hresult⟩ := h
  obtain ⟨byte, hadds, hmore, rfl⟩ := round_eq_inr hround
  obtain ⟨_, _, htenth⟩ := adds_iff.mp hadds
  rw [hshift] at hresult htenth
  have hpos := rounds_pos hmore htenth
  have hcollected := collected_lt hrounds hresult htenth
  have hnext : 63 - 7 * rounds + 7 = 63 - 7 * (rounds - 1) := by omega
  refine ⟨⟨rounds - 1, by omega, ?_⟩, ?_⟩
  · rw [← hnext, hshift]
  · simp only [hshift]
    rwa [show 63 - 7 * rounds + 7 = 70 - 7 * rounds by omega]

theorem Round.Invariant.keepsBits (h : state.Invariant) : state.KeepsBits data := by
  obtain ⟨⟨rounds, hrounds, hshift⟩, hresult⟩ := h
  intro byte hadds
  obtain ⟨hlt, _, htenth⟩ := adds_iff.mp hadds
  have hpayload : byte.toNat % 128 * 2 ^ state.shift < 2 ^ 64 := by
    rw [hshift] at htenth ⊢
    exact payload_lt hrounds htenth
  rw [payload_unsigned byte hlt]
  refine ⟨?_, toNat_or_shiftLeft hresult hpayload⟩
  have hzero : (0 : JavaLong).toNat < 2 ^ state.shift := Nat.two_pow_pos _
  simpa using toNat_or_shiftLeft hzero hpayload

/-- No round of any run of the loop loses a bit. -/
theorem keepsBits_of_heads {position : ℕ} (h : Heads (round data) (Round.start position) state) :
    state.KeepsBits data := by
  apply Round.Invariant.keepsBits
  refine h.invariant (fun first hfirst => ?_) fun state after hstate hround => hstate.round hround
  rw [hfirst]
  exact Round.invariant_start position

end Cursor

/-! ## Exactness -/

/-- `Cursor.varint` reads the varints of 64 bits and nothing else. -/
theorem exact_varint :
    Exact data (fun value bytes => IsVarint bytes value.toNat) (Cursor.varint data) := by
  apply Exact.of_reads
  · exact fun start hstart => varint_reads hstart
  · intro start value bytes hfront hvarint
    simpa using varint_complete hvarint hfront

theorem varint_eq_ok_iff {front data : Bytes} {value : JavaLong} {stop : ℕ} :
    Cursor.varint (front ++ data) front.length = .ok (value, stop) ↔
      ∃ bytes number, bytes <+: data ∧ Varint.Encodes bytes number ∧ bytes.length ≤ 10 ∧
        number < 2 ^ 64 ∧ value = BitVec.ofNat 64 number ∧ stop = front.length + bytes.length := by
  have hfront : front.length ≤ (front ++ data).length := by simp
  rw [exact_varint front.length hfront value stop, List.drop_left]
  constructor
  · rintro ⟨bytes, hbytes, hvarint, hstop⟩
    obtain ⟨hencodes, hlength, hnumber⟩ := isVarint_iff.mp hvarint
    exact ⟨bytes, value.toNat, hbytes, hencodes, hlength, hnumber, by simp, hstop⟩
  · rintro ⟨bytes, number, hbytes, hencodes, hlength, hnumber, rfl, hstop⟩
    have hbits : (BitVec.ofNat 64 number).toNat = number := by
      rw [BitVec.toNat_ofNat, Nat.mod_eq_of_lt hnumber]
    refine ⟨bytes, hbytes, isVarint_iff.mpr ?_, hstop⟩
    rw [hbits]
    exact ⟨hencodes, hlength, hnumber⟩

/-- What is written is read back, wherever it stands. -/
theorem varint_roundtrip (value : JavaLong) (front rest : Bytes) :
    Cursor.varint (front ++ (varint value ++ rest)) front.length =
      .ok (value, front.length + (varint value).length) := by
  obtain ⟨hencodes, hlength, hnumber⟩ := isVarint_iff.mp (isVarint_varint value)
  apply varint_eq_ok_iff.mpr
  exact ⟨varint value, value.toNat, List.prefix_append _ _, hencodes, hlength,
    hnumber, by simp, rfl⟩

/-- **Varint arithmetic is exact.**  The loop of the writer ends with the shortest encoding of
the `long` as an unsigned number, and this is read back in front of any further bytes.  The
loop of the reader ends with a value exactly at the varints of at most ten bytes whose number
has 64 bits, and every round of it, of a run that fails too, keeps the bits it adds. -/
theorem varint_exact :
    (∀ value : JavaLong,
      (1 ≤ (varint value).length ∧ (varint value).length ≤ 10) ∧
        Varint.IsShortest (varint value) value.toNat ∧
        (∀ output written, Ends writeRound (value, output) written ↔
          written = output ++ varint value) ∧
        ∀ front rest, Cursor.varint (front ++ (varint value ++ rest)) front.length =
          .ok (value, front.length + (varint value).length)) ∧
      ∀ front data : Bytes,
        (∀ value stop, Cursor.varint (front ++ data) front.length = .ok (value, stop) ↔
          ∃ bytes number, bytes <+: data ∧ Varint.Encodes bytes number ∧ bytes.length ≤ 10 ∧
            number < 2 ^ 64 ∧ value = BitVec.ofNat 64 number ∧
            stop = front.length + bytes.length) ∧
        (∀ outcome, Ends (Cursor.round (front ++ data)) (Cursor.Round.start front.length) outcome ↔
          outcome = Cursor.varint (front ++ data) front.length) ∧
        ∀ state, Heads (Cursor.round (front ++ data)) (Cursor.Round.start front.length) state →
          state.KeepsBits (front ++ data) := by
  constructor
  · intro value
    obtain ⟨hencodes, hlength, _⟩ := isVarint_iff.mp (isVarint_varint value)
    refine ⟨⟨hencodes.length_pos, hlength⟩, ?_, fun _ _ => writeRound_ends_iff,
      varint_roundtrip value⟩
    rw [varint_eq_encode]
    exact Varint.isShortest_encode value.toNat
  · intro front data
    exact ⟨fun _ _ => varint_eq_ok_iff, fun _ => Cursor.round_ends_iff,
      fun _ => Cursor.keepsBits_of_heads⟩

end RulesElide.WorkerProtocol
