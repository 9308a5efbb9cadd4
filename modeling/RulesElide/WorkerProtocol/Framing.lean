import RulesElide.Library.Effects
import RulesElide.Library.Framing
import RulesElide.WorkerProtocol.Requests

/-!
# Requests on a stream

A request is written as its length and its bytes, and `parseDelimitedFrom` reads it back
off the front of a stream.  What follows a frame is never touched, and a frame that is cut
short is an I/O exception unless nothing of it is there.
-/

namespace RulesElide.WorkerProtocol

open Effects Framing WireFormat

/-! ## Running on a stream -/

theorem run_readByte_cons (byte : UInt8) (stream : Bytes) :
    run readByte (byte :: stream) = (.ok byte.toNat, stream) := rfl

theorem run_readNBytes (count : ℕ) (stream : Bytes) :
    run (readNBytes count) stream = (.ok (stream.take count), stream.drop count) := rfl

/-! ## Length prefixes -/

theorem ofInt_and_127 (byte : UInt8) :
    BitVec.ofInt 64 byte.toNat &&& 127 = BitVec.ofNat 64 (byte.toNat &&& 127) := by
  rw [BitVec.ofInt_natCast]
  apply BitVec.eq_of_toNat_eq
  simp

theorem readLength_last {first : UInt8} (hlast : first.toNat < 128) (rounds : ℕ) (length : JavaLong)
    (stream : Bytes) :
    run (readLength rounds first.toNat length) stream = (.ok length, stream) := by
  unfold readLength
  rw [if_neg (by omega)]
  rfl

/-- A sixth byte is not read. -/
theorem readLength_zero {first : UInt8} (hmore : 128 ≤ first.toNat) (length : JavaLong)
    (stream : Bytes) :
    run (readLength 0 first.toNat length) stream =
      (.error (.ioException "Invalid worker message length"), stream) := by
  unfold readLength
  rw [if_pos (by omega)]
  rfl

theorem readLength_nil {first : UInt8} (hmore : 128 ≤ first.toNat) (rounds : ℕ)
    (length : JavaLong) :
    run (readLength (rounds + 1) first.toNat length) [] =
      (.error (.eofException "Truncated worker message length"), []) := by
  unfold readLength
  rw [if_pos (by omega)]
  rfl

theorem readLength_cons {first : UInt8} (hmore : 128 ≤ first.toNat) (rounds : ℕ) (length : JavaLong)
    (second : UInt8) (stream : Bytes) :
    run (readLength (rounds + 1) first.toNat length) (second :: stream) =
      run (readLength rounds second.toNat
        (length ||| (BitVec.ofNat 64 (second.toNat &&& 127) <<< (28 - 7 * rounds)))) stream := by
  rw [readLength, if_pos (by omega), run_bind_of_ok (run_readByte_cons second stream),
    ← ofInt_and_127]
  dsimp only
  rw [if_neg (by omega)]

/-- A length of at most five bytes is read, and nothing after it. -/
theorem readLength_of_encodes {bytes : Bytes} {value : ℕ} (h : Varint.Encodes bytes value)
    (body : Bytes) :
    ∀ {first : UInt8} {tail : Bytes} {rounds low : ℕ} {length : JavaLong}, bytes = first :: tail →
      tail.length ≤ rounds → rounds ≤ 4 → low < 2 ^ (28 - 7 * rounds) →
      length.toNat = low + first.toNat % 128 * 2 ^ (28 - 7 * rounds) →
      ∃ result, run (readLength rounds first.toNat length) (tail ++ body) = (.ok result, body) ∧
        result.toNat = low + value * 2 ^ (28 - 7 * rounds) := by
  induction h with
  | @last byte hlast =>
      intro first tail rounds low length hbytes htail hrounds hlow hlength
      cases hbytes
      refine ⟨length, readLength_last hlast rounds length body, ?_⟩
      rw [hlength, Nat.mod_eq_of_lt hlast]
  | @more byte rest value hmore hrest ih =>
      intro first tail rounds low length hbytes htail hrounds hlow hlength
      cases hbytes
      obtain ⟨second, tail, rfl⟩ := List.exists_cons_of_length_pos hrest.length_pos
      rw [List.length_cons] at htail
      obtain ⟨rounds, rfl⟩ : ∃ left, rounds = left + 1 :=
        Nat.exists_eq_succ_of_ne_zero (by omega)
      have hpow : 2 ^ (28 - 7 * rounds) = 2 ^ (28 - 7 * (rounds + 1)) * 128 := by
        rw [show 28 - 7 * rounds = 28 - 7 * (rounds + 1) + 7 by omega, Nat.pow_add]
      -- the bits that were read lie below those of the next byte
      have hlow' : length.toNat < 2 ^ (28 - 7 * rounds) := by
        have hbyte : byte.toNat % 128 * 2 ^ (28 - 7 * (rounds + 1)) + 2 ^ (28 - 7 * (rounds + 1)) ≤
            2 ^ (28 - 7 * (rounds + 1)) * 128 := by
          rw [← Nat.succ_mul, Nat.mul_comm]
          exact Nat.mul_le_mul_left _ (by omega)
        omega
      have hvalue : second.toNat % 128 * 2 ^ (28 - 7 * rounds) < 2 ^ 64 :=
        calc second.toNat % 128 * 2 ^ (28 - 7 * rounds) ≤ 128 * 2 ^ 28 :=
              Nat.mul_le_mul (by omega) (Nat.pow_le_pow_right (by omega) (by omega))
          _ < 2 ^ 64 := by norm_num
      obtain ⟨result, hresult, hnat⟩ := ih rfl (by omega) (by omega) hlow'
        (toNat_or_shiftLeft hlow' hvalue)
      refine ⟨result, ?_, ?_⟩
      · rw [List.cons_append, readLength_cons hmore, hresult]
      · rw [hnat, hlength, hpow]
        ring

/-- A longer one is refused once its bytes run past the fifth. -/
theorem readLength_too_long {bytes : Bytes} {value : ℕ} (h : Varint.Encodes bytes value)
    (body : Bytes) :
    ∀ {first : UInt8} {tail : Bytes} {rounds : ℕ} {length : JavaLong}, bytes = first :: tail →
      rounds < tail.length →
      run (readLength rounds first.toNat length) (tail ++ body) =
        (.error (.ioException "Invalid worker message length"), tail.drop rounds ++ body) := by
  induction h with
  | last hlast =>
      intro first tail rounds length hbytes htail
      cases hbytes
      exact absurd htail (Nat.not_lt_zero _)
  | @more byte rest value hmore hrest ih =>
      intro first tail rounds length hbytes htail
      cases hbytes
      obtain ⟨second, tail, rfl⟩ := List.exists_cons_of_length_pos hrest.length_pos
      -- the loop gives up after its last round, whatever follows
      cases rounds with
      | zero => exact readLength_zero hmore length _
      | succ rounds =>
          rw [List.cons_append, readLength_cons hmore, List.drop_succ_cons]
          exact ih rfl (by simpa using htail)

/-- The end of the stream inside a length is an exception. -/
theorem readLength_truncated {bytes : Bytes} {value : ℕ} (h : Varint.Encodes bytes value) :
    ∀ (rounds : ℕ) (length : JavaLong) {first : UInt8} {tail cut : Bytes}, bytes = first :: tail →
      cut <+: tail → cut ≠ tail →
      ∃ thrown left, run (readLength rounds first.toNat length) cut = (.error thrown, left) ∧
        thrown.IsIOException := by
  induction h with
  | last hlast =>
      intro rounds length first tail cut hbytes hcut hne
      cases hbytes
      exact absurd (List.prefix_nil.mp hcut) hne
  | @more byte rest value hmore hrest ih =>
      intro rounds length first tail cut hbytes hcut hne
      cases hbytes
      cases rounds with
      | zero => exact ⟨_, _, readLength_zero hmore length cut, trivial⟩
      | succ rounds =>
          -- the stream ends before the number does
          cases cut with
          | nil => exact ⟨_, _, readLength_nil hmore rounds length, trivial⟩
          | cons second cut =>
              obtain ⟨tail, rfl, hcut'⟩ := List.cons_prefix_iff.mp hcut
              rw [readLength_cons hmore]
              exact ih rounds _ rfl hcut' (fun heq => hne (by rw [heq]))

/-! ## One message -/

/-- The part of `read` after the length. -/
def readBody (length : JavaLong) : Stream (Option JavaBytes) := do
  if length.toInt > maxMessage then throw (.ioException "Worker message exceeds 64 MiB")
  let bytes ← readNBytes (length.setWidth 32).toNat
  if (bytes.length : ℤ) ≠ length.toInt then throw (.eofException "Truncated worker message")
  let bytes ← MonadExcept.ofExcept (JavaBytes.ofList bytes)
  return some bytes

theorem read_nil : run read [] = (.ok none, []) := rfl

theorem read_cons (first : UInt8) (stream : Bytes) :
    run read (first :: stream) =
      run (readLength 4 first.toNat (BitVec.ofNat 64 (first.toNat &&& 127)) >>=
        readBody) stream := by
  rw [read, run_bind_of_ok (run_readByte_cons first stream), ← ofInt_and_127]
  dsimp only
  rw [if_neg (by omega)]
  rfl

variable {length : JavaLong} {body : Bytes}

/-- The bound is checked before the body is read. -/
theorem readBody_of_gt (hlarge : maxMessage < length.toInt) :
    run (readBody length) body = (.error (.ioException "Worker message exceeds 64 MiB"), body) := by
  unfold readBody
  rw [if_pos hlarge]
  rfl

theorem toInt_of_le_maxMessage (hsmall : length.toNat ≤ maxMessage) :
    length.toInt = length.toNat := by
  unfold maxMessage at hsmall
  exact BitVec.toInt_eq_toNat_of_lt (by omega)

theorem toNat_setWidth_of_le_maxMessage (hsmall : length.toNat ≤ maxMessage) :
    (length.setWidth 32).toNat = length.toNat := by
  unfold maxMessage at hsmall
  rw [BitVec.toNat_setWidth, Nat.mod_eq_of_lt (by omega)]

theorem readBody_append (message : JavaBytes) (hsmall : message.1.length ≤ maxMessage)
    (hlength : length.toNat = message.1.length) (left : Bytes) :
    run (readBody length) (message.1 ++ left) = (.ok (some message), left) := by
  rw [← hlength] at hsmall
  have hint := toInt_of_le_maxMessage hsmall
  unfold readBody
  rw [if_neg (by omega), run_bind_of_ok (run_readNBytes _ _),
    toNat_setWidth_of_le_maxMessage hsmall, hlength, List.take_left, List.drop_left]
  dsimp only
  rw [if_neg (by omega), JavaBytes.ofList_of_le message.2]
  rfl

theorem readBody_truncated (hsmall : length.toNat ≤ maxMessage)
    (hshort : body.length < length.toNat) :
    run (readBody length) body = (.error (.eofException "Truncated worker message"), []) := by
  have hint := toInt_of_le_maxMessage hsmall
  unfold readBody
  rw [if_neg (by omega), run_bind_of_ok (run_readNBytes _ _),
    toNat_setWidth_of_le_maxMessage hsmall, List.take_of_length_le (by omega),
    List.drop_of_length_le (by omega)]
  dsimp only
  rw [if_pos (by omega)]
  rfl

variable {first : UInt8} {tail : Bytes} {value : ℕ}

/-- What `read` does with a length of at most five bytes. -/
theorem read_of_encodes (h : Varint.Encodes (first :: tail) value) (htail : tail.length ≤ 4)
    (body : Bytes) :
    ∃ length : JavaLong, length.toNat = value ∧
      run read (first :: (tail ++ body)) = run (readBody length) body := by
  have hfirst : (BitVec.ofNat 64 (first.toNat &&& 127)).toNat =
      0 + first.toNat % 128 * 2 ^ (28 - 7 * 4) := by
    rw [BitVec.toNat_ofNat, show first.toNat &&& 127 = first.toNat % 128 from
      Nat.and_two_pow_sub_one_eq_mod first.toNat 7, Nat.mod_eq_of_lt (by omega)]
    omega
  obtain ⟨length, hlength, hvalue⟩ :=
    readLength_of_encodes h body rfl htail le_rfl (by norm_num) hfirst
  refine ⟨length, by simpa using hvalue, ?_⟩
  rw [read_cons, run_bind_of_ok hlength]

/-- The length of a message of at most 64 MiB takes at most five bytes. -/
theorem exists_encode_eq_cons {message : JavaBytes} (hsmall : message.1.length ≤ maxMessage) :
    ∃ first tail, Varint.encode message.1.length = first :: tail ∧
      Varint.Encodes (first :: tail) message.1.length ∧ tail.length ≤ 4 := by
  have hencodes := Varint.encodes_encode message.1.length
  have hshort : (Varint.encode message.1.length).length ≤ 5 :=
    Varint.length_encode_le (by omega) (by unfold maxMessage at hsmall; omega)
  obtain ⟨first, tail, heq⟩ := List.exists_cons_of_length_pos hencodes.length_pos
  rw [heq] at hencodes hshort
  exact ⟨first, tail, heq, hencodes, Nat.le_of_succ_le_succ hshort⟩

/-- A frame is read off the front of the stream. -/
theorem read_frame {message : JavaBytes} (hsmall : message.1.length ≤ maxMessage) (left : Bytes) :
    run read (Varint.encode message.1.length ++ message.1 ++ left) =
      (.ok (some message), left) := by
  obtain ⟨first, tail, heq, hencodes, hshort⟩ := exists_encode_eq_cons hsmall
  obtain ⟨length, hlength, hread⟩ := read_of_encodes hencodes hshort (message.1 ++ left)
  rw [heq, List.append_assoc, List.cons_append, hread, readBody_append _ hsmall hlength]

/-- A frame that is cut short is an exception, unless nothing of it is there. -/
theorem read_truncated {message : JavaBytes} {cut : Bytes} (hsmall : message.1.length ≤ maxMessage)
    (hcut : cut <+: Varint.encode message.1.length ++ message.1)
    (hne : cut ≠ Varint.encode message.1.length ++ message.1) (hnil : cut ≠ []) :
    ∃ thrown left, run read cut = (.error thrown, left) ∧ thrown.IsIOException := by
  obtain ⟨first, tail, heq, hencodes, hshort⟩ := exists_encode_eq_cons hsmall
  rw [heq, List.cons_append] at hcut hne
  obtain ⟨second, cut, rfl⟩ := List.exists_cons_of_ne_nil hnil
  obtain ⟨rfl, hrest⟩ := List.cons_prefix_cons.mp hcut
  by_cases hfront : tail <+: cut
  -- the cut is in the message
  · obtain ⟨body, rfl⟩ := hfront
    have hbody := (List.prefix_append_right_inj tail).mp hrest
    have hlt : body.length < message.1.length := by
      refine lt_of_le_of_ne hbody.length_le fun hlength => hne ?_
      rw [hbody.eq_of_length hlength]
    obtain ⟨length, hlength, hread⟩ := read_of_encodes hencodes hshort body
    rw [hread, readBody_truncated (by omega) (by omega)]
    exact ⟨_, _, rfl, trivial⟩
  -- the cut is in the length
  · have hpart : cut <+: tail :=
      (List.prefix_or_prefix_of_prefix hrest (List.prefix_append _ _)).resolve_right hfront
    have hpart' : cut ≠ tail := by
      rintro rfl
      exact hfront (List.prefix_refl _)
    obtain ⟨thrown, left, hread, hthrown⟩ := readLength_truncated hencodes 4
      (BitVec.ofNat 64 (second.toNat &&& 127)) rfl hpart hpart'
    exact ⟨thrown, left, by rw [read_cons, run_bind_of_error hread], hthrown⟩

/-- A length of more than five bytes or of more than 64 MiB is refused at its end, or at its
fifth byte when it is longer. -/
theorem read_refused {bytes : Bytes} (h : Varint.Encodes bytes value)
    (hrefused : 5 < bytes.length ∨ maxMessage < value) (body : Bytes) :
    ∃ thrown, run read (bytes ++ body) = (.error thrown, bytes.drop 5 ++ body) ∧
      thrown.IsIOException := by
  obtain ⟨first, tail, rfl⟩ := List.exists_cons_of_length_pos h.length_pos
  rw [List.cons_append, List.drop_succ_cons]
  -- too long for the loop, or read to the end and above the limit
  rcases Nat.lt_or_ge 4 tail.length with hlong | hshort
  · refine ⟨.ioException "Invalid worker message length", ?_, trivial⟩
    rw [read_cons, run_bind_of_error (readLength_too_long h body rfl hlong)]
  · have hlarge : maxMessage < value := by
      rcases hrefused with hlong | hlarge
      · rw [List.length_cons] at hlong
        omega
      · exact hlarge
    obtain ⟨length, hlength, hread⟩ := read_of_encodes h hshort body
    have hbound : length.toNat < 2 ^ 63 := by
      have hvalue := h.lt_pow
      rw [List.length_cons] at hvalue
      calc length.toNat < 2 ^ (7 * (tail.length + 1)) := hlength ▸ hvalue
        _ ≤ 2 ^ 35 := Nat.pow_le_pow_right (by omega) (by omega)
        _ ≤ 2 ^ 63 := by norm_num
    have hint : length.toInt = length.toNat := BitVec.toInt_eq_toNat_of_lt (by omega)
    rw [hread, readBody_of_gt (by omega), List.drop_eq_nil_of_le hshort, List.nil_append]
    exact ⟨_, rfl, trivial⟩

/-- What was read is a frame: a length and as many bytes. -/
theorem frame_of_read {stream left : Bytes} {message : JavaBytes}
    (h : run read stream = (.ok (some message), left)) :
    ∃ front, Varint.Encodes front message.1.length ∧ stream = front ++ message.1 ++ left := by
  rcases Varint.exists_encodes_append stream with ⟨front, value, rest, hencodes, rfl⟩ | hhigh
  · by_cases hrefused : 5 < front.length ∨ maxMessage < value
    · obtain ⟨thrown, hread, -⟩ := read_refused hencodes hrefused rest
      rw [hread] at h
      cases h
    · rw [not_or, not_lt, not_lt] at hrefused
      obtain ⟨first, tail, rfl⟩ := List.exists_cons_of_length_pos hencodes.length_pos
      obtain ⟨length, hlength, hread⟩ :=
        read_of_encodes hencodes (Nat.le_of_succ_le_succ hrefused.1) rest
      rw [List.cons_append, hread] at h
      rcases Nat.lt_or_ge rest.length length.toNat with hshort | hfits
      · rw [readBody_truncated (hlength ▸ hrefused.2) hshort] at h
        cases h
      · have hvalue : (rest.take value).length = value :=
          List.length_take_of_le (hlength ▸ hfits)
        have hmax : (rest.take value).length ≤ maxInt := by
          have hsmall := hrefused.2
          unfold maxMessage at hsmall
          unfold maxInt
          omega
        have hbody := readBody_append ⟨rest.take value, hmax⟩
          (hvalue.trans_le hrefused.2) (hlength.trans hvalue.symm) (rest.drop value)
        rw [List.take_append_drop, h] at hbody
        cases hbody
        exact ⟨first :: tail, hvalue.symm ▸ hencodes, by simp⟩
  -- the stream ends inside the length
  · cases stream with
    | nil =>
        rw [read_nil] at h
        cases h
    | cons first cut =>
        obtain ⟨value, hencodes⟩ := Varint.exists_encodes_of_high hhigh
        obtain ⟨thrown, left', hread, -⟩ := readLength_truncated hencodes 4
          (BitVec.ofNat 64 (first.toNat &&& 127)) rfl (List.prefix_append cut [0]) (by simp)
        rw [read_cons, run_bind_of_error hread] at h
        cases h

/-! ## Requests -/

namespace WorkRequest

theorem parseDelimitedFrom_nil : run parseDelimitedFrom [] = (.ok none, []) := rfl

theorem parseDelimitedFrom_of_error {stream left : Bytes} {thrown : Throwable}
    (h : run read stream = (.error thrown, left)) :
    run parseDelimitedFrom stream = (.error thrown, left) := by
  rw [parseDelimitedFrom, run_bind_of_error h]

theorem parseDelimitedFrom_frame {request : WorkRequest}
    (hsmall : request.bytes.1.length ≤ maxMessage) (left : Bytes) :
    run parseDelimitedFrom (request.writeDelimitedTo ++ left) = (.ok (some request), left) := by
  have hrequest := ofBytes_eq_ok_iff.mpr (rfl : request.bytes = request.bytes)
  rw [parseDelimitedFrom, request.writeDelimitedTo_eq, run_bind_of_ok (read_frame hsmall left)]
  simp only [hrequest]
  rfl

theorem parseDelimitedFrom_calls {requests : List WorkRequest}
    (hsmall : ∀ request ∈ requests, request.bytes.1.length ≤ maxMessage) (left : Bytes) :
    Calls (run parseDelimitedFrom) (requests.flatMap writeDelimitedTo ++ left)
      (requests.map fun request => (.ok (some request), request.writeDelimitedTo)) left :=
  Calls.frames (fun request hrequest => parseDelimitedFrom_frame (hsmall request hrequest)) left

/-- **Framing.**  The frames of a list of requests are read back one by one, each call for
exactly one frame.  Wherever they are cut, the calls return the requests whose frames are
complete, and the next call finds the end of the stream at a frame boundary and throws an
I/O exception anywhere else.  A length that is too long or too large is refused before a
byte of the body is read. -/
theorem parseDelimitedFrom_frames :
    (∀ requests : List WorkRequest,
      (∀ request ∈ requests, request.bytes.1.length ≤ maxMessage) →
      Calls (run parseDelimitedFrom) (requests.flatMap writeDelimitedTo)
          (requests.map fun request => (.ok (some request), request.writeDelimitedTo)) [] ∧
        run parseDelimitedFrom [] = (.ok none, [])) ∧
    (∀ (requests : List WorkRequest) (stream : Bytes),
      (∀ request ∈ requests, request.bytes.1.length ≤ maxMessage) →
      stream <+: requests.flatMap writeDelimitedTo →
      ∃ complete rest cut, requests = complete ++ rest ∧
        stream = complete.flatMap writeDelimitedTo ++ cut ∧
        Calls (run parseDelimitedFrom) stream
          (complete.map fun request => (.ok (some request), request.writeDelimitedTo)) cut ∧
        (cut = [] ∧ run parseDelimitedFrom cut = (.ok none, []) ∨
          cut ≠ [] ∧ (∃ next ∈ rest.head?, cut <+: next.writeDelimitedTo ∧
              cut ≠ next.writeDelimitedTo) ∧
            ∃ thrown left, run parseDelimitedFrom cut = (.error thrown, left) ∧
              thrown.IsIOException)) ∧
      ∀ (bytes : Bytes) (value : ℕ) (body : Bytes), Varint.Encodes bytes value →
        5 < bytes.length ∨ maxMessage < value →
        ∃ thrown, run parseDelimitedFrom (bytes ++ body) = (.error thrown, bytes.drop 5 ++ body) ∧
          thrown.IsIOException := by
  refine ⟨?_, ?_, ?_⟩
  · intro requests hsmall
    have hcalls := parseDelimitedFrom_calls hsmall []
    rw [List.append_nil] at hcalls
    exact ⟨hcalls, parseDelimitedFrom_nil⟩
  · intro requests stream hsmall hstream
    -- the stream is cut between two frames or inside one
    obtain ⟨complete, rest, cut, rfl, rfl, hcut⟩ := exists_cut hstream
    obtain ⟨hcomplete, hrest⟩ := List.forall_mem_append.mp hsmall
    refine ⟨complete, rest, cut, rfl, rfl, parseDelimitedFrom_calls hcomplete cut, ?_⟩
    by_cases hnil : cut = []
    · exact Or.inl ⟨hnil, by rw [hnil, parseDelimitedFrom_nil]⟩
    · obtain ⟨next, hnext, hfront, hne⟩ := hcut.resolve_left hnil
      have hfits := hrest next (List.mem_of_mem_head? hnext)
      rw [next.writeDelimitedTo_eq] at hfront hne
      obtain ⟨thrown, left, hread, hthrown⟩ := read_truncated hfits hfront hne hnil
      refine Or.inr ⟨hnil, ⟨next, hnext, ?_, ?_⟩, thrown, left, ?_, hthrown⟩
      · rwa [next.writeDelimitedTo_eq]
      · rwa [next.writeDelimitedTo_eq]
      · exact parseDelimitedFrom_of_error hread
  · intro bytes value body hencodes hrefused
    obtain ⟨thrown, hread, hthrown⟩ := read_refused hencodes hrefused body
    exact ⟨thrown, parseDelimitedFrom_of_error hread, hthrown⟩

end WorkRequest

end RulesElide.WorkerProtocol
