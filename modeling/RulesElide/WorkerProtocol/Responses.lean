import RulesElide.WorkerProtocol.Framing

/-!
# Responses

A response keeps the bytes it was read from and writes them back as they are; what it says are
the last fields of its three kinds.  `WorkResponse.error` writes a message and reads it back: the
response has exit code 1, the id it was given and the message (`error_of_le`), unless no array
can hold it.
-/

namespace RulesElide.WorkerProtocol.WorkResponse

open Reader WireFormat Effects

/-! ## What a response says -/

/-- The exit code, the request id and the output are those of the last fields. -/
structure Says (tokens : List Token) (response : WorkResponse) : Prop where
  exitCode : response.exitCode = BitVec.ofNat 32 ((lastVarint 1 tokens).getD 0)
  requestId : response.requestId = BitVec.ofNat 32 ((lastVarint 3 tokens).getD 0)
  output : getBytes response.output = (lastPayload 2 tokens).getD []

/-- What one field changes. -/
theorem add_eq_ok {response result : WorkResponse} {field : Field}
    (h : add response field = .ok result) :
    result.bytes = response.bytes ∧
      result.exitCode =
        (if field.number = 1 ∧ field.wire = 0 then field.scalar.setWidth 32
          else response.exitCode) ∧
      result.requestId =
        (if field.number = 3 ∧ field.wire = 0 then field.scalar.setWidth 32
          else response.requestId) ∧
      getBytes result.output =
        if field.number = 2 ∧ field.wire = 2 then field.bytes else getBytes response.output := by
  unfold add at h
  -- a field has one number, so at most one of the three applies
  by_cases houtput : field.number = 2 ∧ field.wire = 2
  · have hexit : ¬ (field.number = 1 ∧ field.wire = 0) := by omega
    have hid : ¬ (field.number = 3 ∧ field.wire = 0) := by omega
    rw [if_neg hexit, if_pos houtput] at h
    obtain ⟨output, hdecode, h⟩ := bind_eq_ok.mp h
    simp only [if_neg hid, ok_bind, Except.ok.injEq] at h
    subst h
    rw [if_neg hexit, if_neg hid, if_pos houtput]
    exact ⟨rfl, rfl, rfl, getBytes_of_decodeUtf8 hdecode⟩
  · rw [if_neg houtput] at h
    by_cases hexit : field.number = 1 ∧ field.wire = 0
    · have hid : ¬ (field.number = 3 ∧ field.wire = 0) := by omega
      simp only [if_pos hexit, if_neg hid, ok_bind, Except.ok.injEq] at h
      subst h
      rw [if_pos hexit, if_neg hid, if_neg houtput]
      exact ⟨rfl, rfl, rfl, rfl⟩
    · rw [if_neg hexit, if_neg houtput]
      simp only [if_neg hexit, ok_bind] at h
      split at h
      · rename_i hid
        cases h
        rw [if_pos hid]
        exact ⟨rfl, rfl, rfl, rfl⟩
      · rename_i hid
        cases h
        rw [if_neg hid]
        exact ⟨rfl, rfl, rfl, rfl⟩

variable {tokens : List Token} {response result : WorkResponse}

theorem scalar_last {number : ℕ} {scalar : JavaInt}
    (h : scalar = BitVec.ofNat 32 ((lastVarint number tokens).getD 0)) (token : Token) :
    (if (Field.ofToken token).number = number ∧ (Field.ofToken token).wire = 0 then
        (Field.ofToken token).scalar.setWidth 32
      else scalar) =
      BitVec.ofNat 32 ((lastVarint number (tokens ++ [token])).getD 0) := by
  rw [lastVarint_concat, Token.varintAt, h]
  cases hvalue : token.value with
  | varint value =>
      by_cases hnumber : token.number = number <;>
        simp [Field.ofToken, Value.wireType, hvalue, hnumber, BitVec.setWidth_ofNat_of_le]
  | fixed64 bytes | lengthDelimited payload | group | fixed32 bytes =>
      simp [Field.ofToken, Value.wireType, hvalue]

theorem payload_last {number : ℕ} {bytes : Bytes}
    (h : bytes = (lastPayload number tokens).getD []) (token : Token) :
    (if (Field.ofToken token).number = number ∧ (Field.ofToken token).wire = 2 then
        (Field.ofToken token).bytes
      else bytes) = (lastPayload number (tokens ++ [token])).getD [] := by
  rw [lastPayload_concat, Token.payloadAt, h]
  cases hvalue : token.value with
  | lengthDelimited payload =>
      by_cases hnumber : token.number = number <;>
        simp [Field.ofToken, Value.wireType, hvalue, hnumber]
  | varint value | fixed64 bytes | group | fixed32 bytes =>
      simp [Field.ofToken, Value.wireType, hvalue]

/-- One more field is read. -/
theorem Says.add {token : Token} (h : Says tokens response)
    (hadd : WorkResponse.add response (Field.ofToken token) = .ok result) :
    Says (tokens ++ [token]) result := by
  obtain ⟨-, hexit, hid, houtput⟩ := add_eq_ok hadd
  refine ⟨?_, ?_, ?_⟩
  · rw [hexit]
    exact scalar_last h.exitCode token
  · rw [hid]
    exact scalar_last h.requestId token
  · rw [houtput]
    exact payload_last h.output token

/-- **The fields of a response** are read in their order, and the last one of a kind counts. -/
theorem foldlM_add_spec {bytes : Bytes}
    (h : (tokens.map Field.ofToken).foldlM WorkResponse.add { bytes } = .ok response) :
    Says tokens response ∧ response.bytes = bytes := by
  induction tokens using List.reverseRecOn generalizing response with
  | nil =>
      cases h
      exact ⟨⟨rfl, rfl, rfl⟩, rfl⟩
  | append_singleton tokens token ih =>
      rw [List.map_append, List.foldlM_append] at h
      obtain ⟨middle, hmiddle, h⟩ := bind_eq_ok.mp h
      obtain ⟨hmeaning, hbytes⟩ := ih hmiddle
      have hadd : WorkResponse.add middle (Field.ofToken token) = .ok response := by
        simpa using h
      exact ⟨hmeaning.add hadd, (add_eq_ok hadd).1.trans hbytes⟩

/-- Every response that is read says what its fields say, however they are told apart, and keeps
its bytes. -/
theorem says_of_ofBytes {bytes : Bytes} (hfits : bytes.length ≤ maxInt)
    (h : ofBytes bytes = .ok response) :
    response.bytes = bytes ∧ (∃ tokens, IsMessage 100 bytes tokens) ∧
      ∀ tokens, IsMessage 100 bytes tokens → Says tokens response := by
  obtain ⟨fields, hfields, h⟩ := bind_eq_ok.mp h
  obtain ⟨tokens, hmessage, rfl⟩ := fields_sound hfits hfields
  refine ⟨(foldlM_add_spec h).2, ⟨tokens, hmessage⟩, fun tokens' hmessage' => ?_⟩
  rw [fields_complete hfits hmessage'] at hfields
  rw [← Except.ok.inj hfields] at h
  exact (foldlM_add_spec h).1

theorem writeDelimitedTo_eq (hfits : response.bytes.length ≤ maxInt) :
    response.writeDelimitedTo = Varint.encode response.bytes.length ++ response.bytes := by
  rw [writeDelimitedTo, varint_ofNat hfits]

/-! ## Responses to requests that failed -/

/-- The bytes that `error` writes. -/
def errorBytes (requestId : JavaInt) (message : String) : Bytes :=
  varint 8 ++ varint 1 ++ string 2 message ++ varint 24 ++ varint (requestId.signExtend 64)

/-- The fields of these bytes. -/
def errorTokens (requestId : JavaInt) (message : String) : List Token :=
  [⟨1, .varint 1, varint 8 ++ varint 1⟩,
    ⟨2, .lengthDelimited (getBytes message), string 2 message⟩,
    ⟨3, .varint (requestId.signExtend 64).toNat,
      varint 24 ++ varint (requestId.signExtend 64)⟩]

theorem isMessage_error {requestId : JavaInt} {message : String}
    (hfits : (errorBytes requestId message).length ≤ maxInt) :
    IsMessage 100 (errorBytes requestId message) (errorTokens requestId message) := by
  have htag : ∀ number, 1 ≤ number → number ≤ 3 →
      IsTag (varint (BitVec.ofNat 64 (8 * number))) number 0 := by
    intro number hpos hle
    rw [varint_ofNat (by unfold maxInt; omega)]
    exact isTag_encode hpos (show 0 < 8 by omega) (by omega)
  refine ⟨fun token htoken => ?_, ?_⟩
  · simp only [errorTokens, List.mem_cons, List.not_mem_nil, or_false] at htoken
    rcases htoken with rfl | rfl | rfl
    · exact IsField.varint (htag 1 le_rfl (by omega)) (isVarint_varint 1)
    · refine WorkRequest.isField_string (by omega) (by omega) (le_trans ?_ hfits)
      simp only [errorBytes, List.length_append]
      omega
    · exact IsField.varint (htag 3 (by omega) le_rfl) (isVarint_varint _)
  · simp [errorTokens, errorBytes]

/-- **Error responses** have exit code 1 and the id of the request. -/
theorem error_of_le {requestId : JavaInt} {message : String}
    (hfits : (errorBytes requestId message).length ≤ maxInt) :
    error requestId message = .ok ⟨errorBytes requestId message, 1, requestId, message⟩ := by
  have hfields := WorkerProtocol.fields_complete hfits (isMessage_error hfits)
  unfold error
  rw [← errorBytes, JavaBytes.ofList_of_le hfits, ok_bind, ofBytes, hfields, ok_bind]
  simp only [errorTokens, List.map_cons, List.map_nil, List.foldlM_cons, List.foldlM_nil]
  simp [add, Field.ofToken, Value.wireType, decodeUtf8_getBytes, setWidth_signExtend]

theorem error_of_lt {requestId : JavaInt} {message : String}
    (hlarge : maxInt < (errorBytes requestId message).length) :
    error requestId message = .error .outOfMemory := by
  unfold error
  rw [← errorBytes, JavaBytes.ofList_of_lt hlarge, error_bind]

/-! ## Responses on a stream -/

/-- `error(id, message)`, written and read back, has exit code 1, this id and this message. -/
def RoundTrips (requestId : JavaInt) (message : String) : Prop :=
  ∃ response, error requestId message = .ok response ∧
    ∃ result, run parseDelimitedFrom response.writeDelimitedTo = (.ok (some result), []) ∧
      result.exitCode = 1 ∧ result.requestId = requestId ∧ result.output = message

theorem parseDelimitedFrom_eq_ok {stream left : Bytes}
    (h : run parseDelimitedFrom stream = (.ok (some response), left)) :
    ∃ data : JavaBytes, run read stream = (.ok (some data), left) ∧
      ofBytes data.1 = .ok response := by
  cases hread : run read stream with
  | mk outcome rest =>
      cases outcome with
      | error thrown =>
          rw [parseDelimitedFrom, run_bind_of_error hread] at h
          cases h
      | ok message =>
          rw [parseDelimitedFrom, run_bind_of_ok hread] at h
          cases message with
          | none => cases h
          | some data =>
              cases hresponse : ofBytes data.1 with
              | error thrown =>
                  simp only [hresponse] at h
                  cases h
              | ok result =>
                  simp only [hresponse] at h
                  cases h
                  exact ⟨data, rfl, hresponse⟩

theorem parseDelimitedFrom_frame {data : JavaBytes} (hsmall : data.1.length ≤ maxMessage)
    (h : ofBytes data.1 = .ok response) (left : Bytes) :
    run parseDelimitedFrom (response.writeDelimitedTo ++ left) = (.ok (some response), left) := by
  have hbytes := (says_of_ofBytes data.2 h).1
  have hfits : response.bytes.length ≤ maxInt := hbytes ▸ data.2
  rw [writeDelimitedTo_eq hfits, hbytes, parseDelimitedFrom,
    run_bind_of_ok (read_frame hsmall left)]
  simp only [h]
  rfl

theorem maxMessage_lt_maxInt : maxMessage < maxInt := by
  unfold maxMessage maxInt
  norm_num

/-- `read` refuses what is longer than 64 MiB. -/
theorem roundTrips_iff (requestId : JavaInt) (message : String) :
    RoundTrips requestId message ↔ (errorBytes requestId message).length ≤ maxMessage := by
  constructor
  · rintro ⟨response, hresponse, result, hparse, -⟩
    -- too large for an array, or refused by the reader
    rcases Nat.lt_or_ge maxInt (errorBytes requestId message).length with hlarge | hfits
    · rw [error_of_lt hlarge] at hresponse
      cases hresponse
    · rw [error_of_le hfits] at hresponse
      cases hresponse
      by_contra hlarge
      obtain ⟨thrown, hread, -⟩ := read_refused
        (Varint.encodes_encode (errorBytes requestId message).length)
        (Or.inr (not_le.mp hlarge)) (errorBytes requestId message)
      rw [writeDelimitedTo_eq hfits, parseDelimitedFrom, run_bind_of_error hread] at hparse
      cases hparse
  · intro hsmall
    have hfits := hsmall.trans maxMessage_lt_maxInt.le
    have hbytes : ofBytes (errorBytes requestId message) =
        .ok ⟨errorBytes requestId message, 1, requestId, message⟩ := by
      have herror := error_of_le hfits
      unfold error at herror
      rwa [← errorBytes, JavaBytes.ofList_of_le hfits, ok_bind] at herror
    let data : JavaBytes := ⟨errorBytes requestId message, hfits⟩
    have hparse := parseDelimitedFrom_frame (show data.1.length ≤ maxMessage from hsmall) hbytes []
    rw [List.append_nil] at hparse
    exact ⟨_, error_of_le hfits, _, hparse, rfl, rfl, rfl⟩

/-- **Responses keep their bytes and their meaning.**  A response that was read is written as the
same bytes after their shortest length, and says what the last fields of its bytes say; a stream
that a response was read from begins with its frame.  A response to a request that failed is read
back as it was meant exactly when it has at most 64 MiB. -/
theorem response_codec :
    (∀ (data : JavaBytes) (response : WorkResponse), ofBytes data.1 = .ok response →
      response.writeDelimitedTo = Varint.encode data.1.length ++ data.1 ∧
        (∃ tokens, IsMessage 100 data.1 tokens) ∧
          ∀ tokens, IsMessage 100 data.1 tokens → Says tokens response) ∧
    (∀ (stream left : Bytes) (response : WorkResponse),
      run parseDelimitedFrom stream = (.ok (some response), left) →
      ∃ (data : JavaBytes) (front : Bytes), Varint.Encodes front data.1.length ∧
        stream = front ++ data.1 ++ left ∧ ofBytes data.1 = .ok response) ∧
    ∀ (requestId : JavaInt) (message : String),
      RoundTrips requestId message ↔ (errorBytes requestId message).length ≤ maxMessage := by
  refine ⟨?_, ?_, roundTrips_iff⟩
  · intro data response hresponse
    obtain ⟨hbytes, hmessage⟩ := says_of_ofBytes data.2 hresponse
    have hfits : response.bytes.length ≤ maxInt := hbytes ▸ data.2
    rw [writeDelimitedTo_eq hfits, hbytes]
    exact ⟨rfl, hmessage⟩
  · intro stream left response hparse
    obtain ⟨data, hread, hresponse⟩ := parseDelimitedFrom_eq_ok hparse
    obtain ⟨front, hfront, hstream⟩ := frame_of_read hread
    exact ⟨data, front, hfront, hstream, hresponse⟩

theorem length_getBytes_replicate (count : ℕ) :
    (getBytes (String.ofList (List.replicate count 'a'))).length = count := by
  rw [getBytes, String.toByteArray_ofList, List.utf8Encode]
  simp [List.length_flatMap, show 'a'.utf8Size = 1 from rfl]

/-- A message of 64 MiB. -/
theorem long_message_refused :
    ¬ ∀ (requestId : JavaInt) (message : String), RoundTrips requestId message := by
  intro h
  have hsmall := (roundTrips_iff 1 _).mp (h 1 (String.ofList (List.replicate maxMessage 'a')))
  have hlength := length_getBytes_replicate maxMessage
  simp only [errorBytes, string, List.length_append, hlength] at hsmall
  have hpos : 0 < (varint 8).length := by decide
  omega

end RulesElide.WorkerProtocol.WorkResponse
