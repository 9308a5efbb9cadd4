import RulesElide.WorkerProtocol.Parsing

/-!
# Requests: decoding, rewriting and writing back

`ReadsAs` says which request a sequence of fields encodes, in the order the fields come
and with any other fields between them.  Decoding computes exactly that request, writing
copies the fields back byte for byte, and `withArguments` exchanges the fields of the
arguments and keeps all others.
-/

namespace RulesElide.WorkerProtocol

open Reader WireFormat

/-! ## Writing varints -/

theorem toNat_and_127 (value : JavaLong) : (value &&& 127).toNat = value.toNat % 128 := by
  rw [BitVec.toNat_and]
  exact Nat.and_two_pow_sub_one_eq_mod value.toNat 7

/-- The test `(value & ~127L) != 0`. -/
theorem hasMoreBits_iff (value : JavaLong) :
    value &&& ~~~(127 : JavaLong) ≠ 0 ↔ 128 ≤ value.toNat := by
  have hsplit : value = value &&& 127 ↔ value.toNat < 128 := by
    rw [← BitVec.toNat_inj, toNat_and_127]
    omega
  rw [← not_lt, ← hsplit, not_iff_not]
  constructor
  · intro hzero
    calc value = value &&& ((127 : JavaLong) ||| ~~~127) := by
          rw [show (127 : JavaLong) ||| ~~~127 = BitVec.allOnes 64 by decide, BitVec.and_allOnes]
      _ = value &&& 127 ||| value &&& ~~~127 := BitVec.and_or_distrib_left
      _ = value &&& 127 := by rw [hzero]; exact BitVec.or_zero
  · intro hlow
    rw [hlow, BitVec.and_assoc, show (127 : JavaLong) &&& ~~~127 = 0 by decide]
    exact BitVec.and_zero

theorem varintRounds_eq_encode {rounds : ℕ} :
    ∀ {value : JavaLong}, value.toNat < 2 ^ (7 * rounds + 1) →
      varintRounds rounds value = Varint.encode value.toNat := by
  induction rounds with
  | zero =>
      intro value hvalue
      rw [varintRounds, Varint.encode_of_lt (by omega)]
  | succ rounds ih =>
      intro value hvalue
      rw [varintRounds]
      split
      · rename_i hmore
        have hlarge := (hasMoreBits_iff value).mp hmore
        have hshift : (value >>> 7).toNat = value.toNat / 128 := by
          rw [BitVec.toNat_ushiftRight, Nat.shiftRight_eq_div_pow]
        -- the seven low bits and the bit that announces more do not overlap
        have hbyte : ((value &&& 127) ||| 128).toNat = value.toNat % 128 + 128 := by
          rw [BitVec.toNat_or, toNat_and_127, Nat.or_comm, Nat.add_comm]
          exact (Nat.two_pow_add_eq_or_of_lt (i := 7) (Nat.mod_lt _ (by norm_num)) 1).symm
        have hpow : 2 ^ (7 * (rounds + 1) + 1) = 2 ^ (7 * rounds + 1) * 128 := by
          rw [show 7 * (rounds + 1) + 1 = 7 * rounds + 1 + 7 by omega, Nat.pow_add]
        rw [Varint.encode_of_ge hlarge, hbyte, ih (by omega), hshift]
      · rename_i hlast
        have hsmall : value.toNat < 128 := not_le.mp ((hasMoreBits_iff value).not.mp hlast)
        rw [Varint.encode_of_lt hsmall]

/-- The loop of `varint` ends with the last bit. -/
theorem varint_eq_encode (value : JavaLong) : varint value = Varint.encode value.toNat :=
  varintRounds_eq_encode value.isLt

theorem isVarint_varint (value : JavaLong) : IsVarint (varint value) value.toNat := by
  rw [varint_eq_encode]
  exact isVarint_encode value.isLt

/-- A length is written as its shortest varint. -/
theorem varint_ofNat {number : ℕ} (hnumber : number ≤ maxInt) :
    varint (BitVec.ofNat 64 number) = Varint.encode number := by
  unfold maxInt at hnumber
  rw [varint_eq_encode, BitVec.toNat_ofNat, Nat.mod_eq_of_lt (by omega)]

/-! ## One field of a request -/

/-- The fields `withArguments` replaces. -/
def Field.isArgument (field : Field) : Bool :=
  field.number = 1 ∧ field.wire = 2

theorem Field.isArgument_iff {field : Field} :
    field.isArgument = true ↔ field.number = 1 ∧ field.wire = 2 :=
  decide_eq_true_iff

namespace WorkRequest

/-- `add` in closed form: its three tests exclude each other. -/
theorem Contents.add_eq (request : Contents) (field : Field) :
    request.add field =
      if field.isArgument then do
        let argument ← decodeUtf8 field.bytes
        .ok { request with arguments := request.arguments ++ [argument] }
      else if field.number = 3 ∧ field.wire = 0 then
        .ok { request with requestId := field.scalar.setWidth 32 }
      else if field.number = 2 ∧ field.wire = 2 then do
        let input ← Input.decode field.bytes
        .ok { request with inputs := request.inputs ++ [input] }
      else .ok request := by
  simp only [Field.isArgument_iff]
  unfold add
  split
  · rename_i hargument
    cases hdecode : decodeUtf8 field.bytes <;> simp [hargument]
  · split
    · rename_i hid
      simp [hid]
    · simp

/-- No field of a message changes the list of the fields. -/
theorem Contents.add_fields {request result : Contents} {field : Field}
    (h : request.add field = .ok result) : result.fields = request.fields := by
  rw [Contents.add_eq] at h
  split at h
  · obtain ⟨argument, _, hresult⟩ := bind_eq_ok.mp h
    cases hresult
    rfl
  · split at h
    · cases h
      rfl
    · split at h
      · obtain ⟨input, _, hresult⟩ := bind_eq_ok.mp h
        cases hresult
        rfl
      · cases h
        rfl

/-- An argument touches nothing but the arguments. -/
theorem Contents.add_argument {request result : Contents} {field : Field}
    (hargument : field.isArgument) (h : request.add field = .ok result) :
    ∃ arguments, result = { request with arguments } := by
  rw [Contents.add_eq, if_pos hargument] at h
  obtain ⟨argument, _, hresult⟩ := bind_eq_ok.mp h
  cases hresult
  exact ⟨_, rfl⟩

/-- A field that is no argument reads and writes neither the arguments nor the fields. -/
theorem Contents.add_of_not_argument {request result : Contents} {field : Field}
    (hargument : ¬ field.isArgument) (h : request.add field = .ok result) (fields : List Field)
    (arguments : List String) :
    Contents.add { request with fields, arguments } field =
      .ok { result with fields, arguments } := by
  rw [Contents.add_eq, if_neg hargument] at h ⊢
  by_cases hid : field.number = 3 ∧ field.wire = 0
  · rw [if_pos hid] at h ⊢
    cases h
    rfl
  · rw [if_neg hid] at h ⊢
    by_cases hinput : field.number = 2 ∧ field.wire = 2
    · rw [if_pos hinput] at h ⊢
      obtain ⟨input, hdecode, hresult⟩ := bind_eq_ok.mp h
      cases hresult
      rw [hdecode, ok_bind]
    · rw [if_neg hinput] at h ⊢
      cases h
      rfl

/-! ## All fields of a request -/

theorem foldlM_add_fields {remaining : List Field} {request result : Contents}
    (h : remaining.foldlM Contents.add request = .ok result) : result.fields = request.fields :=
  foldlM_invariant (fun result => result.fields = request.fields)
    (fun _ _ _ _ hfields hadd => (Contents.add_fields hadd).trans hfields) rfl h

/-- The arguments of a message can be left out and set to anything else. -/
theorem foldlM_add_filter {remaining : List Field} (fields : List Field) (arguments : List String) :
    ∀ (request : Contents) {result : Contents},
      remaining.foldlM Contents.add request = .ok result →
      (remaining.filter (!·.isArgument)).foldlM Contents.add { request with fields, arguments } =
        .ok { result with fields, arguments } := by
  induction remaining with
  | nil =>
      intro request result h
      cases h
      rfl
  | cons field remaining ih =>
      intro request result h
      rw [List.foldlM_cons] at h
      obtain ⟨middle, hfield, hrest⟩ := bind_eq_ok.mp h
      -- an argument only changes the arguments, and these are put in afterwards
      by_cases hargument : field.isArgument
      · obtain ⟨replaced, rfl⟩ := Contents.add_argument hargument hfield
        rw [List.filter_cons_of_neg (by simpa using hargument)]
        exact ih { request with arguments := replaced } hrest
      · rw [List.filter_cons_of_pos (by simpa using hargument), List.foldlM_cons,
          Contents.add_of_not_argument hargument hfield, ok_bind]
        exact ih middle hrest

/-- The field `string(1, argument)` parses into. -/
def argumentField (argument : String) : Field where
  number := 1
  wire := 2
  bytes := getBytes argument
  raw := string 1 argument

theorem foldlM_add_arguments (args : List String) (request : Contents) :
    (args.map argumentField).foldlM Contents.add request =
      .ok { request with arguments := request.arguments ++ args } := by
  induction args generalizing request with
  | nil =>
      rw [List.append_nil]
      rfl
  | cons argument args ih =>
      have hargument : (argumentField argument).isArgument := rfl
      have hbytes : (argumentField argument).bytes = getBytes argument := rfl
      have hadd : request.add (argumentField argument) =
          .ok { request with arguments := request.arguments ++ [argument] } := by
        rw [Contents.add_eq, if_pos hargument, hbytes, decodeUtf8_getBytes, ok_bind]
      rw [List.map_cons, List.foldlM_cons, hadd, ok_bind, ih]
      simp

/-! ## Requests as byte arrays -/

/-- The object that decoding a byte array builds is determined by the array. -/
theorem ofBytes_eq_ok_iff {bytes : JavaBytes} {request : WorkRequest} :
    ofBytes bytes = .ok request ↔ request.bytes = bytes := by
  unfold ofBytes
  constructor
  · intro h
    split at h
    · cases h
      rfl
    · cases h
  · rintro rfl
    split
    · rename_i contents hcontents
      have hsame := request.decodes.symm.trans hcontents
      cases request
      cases hsame
      rfl
    · rename_i thrown hthrown
      exact absurd (request.decodes.symm.trans hthrown) (by simp)

/-- The request of a message that is known to decode. -/
def ofDecodable (message : JavaBytes) (h : (Contents.decode message.1).toOption.isSome) :
    WorkRequest where
  toContents := (Contents.decode message.1).toOption.get h
  bytes := message
  decodes := eq_ok_get h

theorem ofBytes_of_decode {bytes : JavaBytes} {contents : Contents}
    (h : Contents.decode bytes.1 = .ok contents) : ofBytes bytes = .ok ⟨contents, bytes, h⟩ :=
  ofBytes_eq_ok_iff.mpr rfl

theorem fields_eq (request : WorkRequest) :
    WorkerProtocol.fields request.bytes.1 = .ok request.fields := by
  obtain ⟨fields, hfields, hfold⟩ := bind_eq_ok.mp request.decodes
  rw [hfields, foldlM_add_fields hfold]

/-- The fields of a request are the fields of its bytes in the wire grammar. -/
theorem exists_tokens (request : WorkRequest) :
    ∃ tokens, IsMessage 100 request.bytes.1 tokens ∧ request.fields = tokens.map Field.ofToken :=
  fields_sound request.bytes.2 request.fields_eq

/-- Nothing between the fields is lost. -/
theorem flatMap_raw (request : WorkRequest) :
    request.fields.flatMap Field.raw = request.bytes.1 := by
  obtain ⟨tokens, ⟨_, hspell⟩, hfields⟩ := request.exists_tokens
  rw [hfields, List.flatMap_map, ← hspell]
  rfl

/-! ## Writing -/

theorem toNat_lengthSum {fields : List Field} :
    ∀ {start : JavaInt}, start.toNat + (fields.flatMap Field.raw).length ≤ maxInt →
      (fields.foldl (fun length field => length + BitVec.ofNat 32 field.raw.length) start).toNat =
        start.toNat + (fields.flatMap Field.raw).length := by
  induction fields with
  | nil => intro start _; simp
  | cons field fields ih =>
      intro start hfits
      rw [List.flatMap_cons, List.length_append] at hfits ⊢
      unfold maxInt at hfits ih
      have hsum : (start + BitVec.ofNat 32 field.raw.length).toNat =
          start.toNat + field.raw.length := by
        rw [BitVec.toNat_add, BitVec.toNat_ofNat, Nat.add_mod_mod, Nat.mod_eq_of_lt (by omega)]
      rw [List.foldl_cons, ih (by omega), hsum, Nat.add_assoc]

/-- The `int` sum of the lengths of some of the first fields of a request is exact. -/
theorem toInt_lengthSum {request : WorkRequest} {written : List Field}
    (hwritten : written <+: request.fields) :
    (lengthSum written).toInt = (written.flatMap Field.raw).length := by
  obtain ⟨rest, hrest⟩ := hwritten
  have hfits : (written.flatMap Field.raw).length ≤ maxInt := by
    have htotal := request.bytes.2
    rw [← request.flatMap_raw, ← hrest, List.flatMap_append, List.length_append] at htotal
    omega
  -- each partial sum is below the total, which fits an array
  have hsum : (lengthSum written).toNat = (written.flatMap Field.raw).length := by
    rw [lengthSum, toNat_lengthSum (by simpa using hfits)]
    simp
  unfold maxInt at hfits
  rw [BitVec.toInt_eq_toNat_of_lt (by omega), hsum]

/-- A request is written as its length and its bytes. -/
theorem writeDelimitedTo_eq (request : WorkRequest) :
    request.writeDelimitedTo = Varint.encode request.bytes.1.length ++ request.bytes.1 := by
  have hsum := toInt_lengthSum (List.prefix_refl request.fields)
  rw [request.flatMap_raw] at hsum
  have hfits := request.bytes.2
  unfold maxInt at hfits
  -- the sum is not negative, so extending its sign changes nothing
  have hlength : ((lengthSum request.fields).signExtend 64).toNat = request.bytes.1.length := by
    have hint : ((lengthSum request.fields).signExtend 64).toInt = request.bytes.1.length := by
      rw [BitVec.toInt_signExtend_of_le (by omega), hsum]
    have hlt := ((lengthSum request.fields).signExtend 64).isLt
    rw [BitVec.toInt_eq_toNat_cond] at hint
    split at hint <;> omega
  rw [writeDelimitedTo, varint_eq_encode, hlength, request.flatMap_raw]

end WorkRequest

/-! ## What a message says -/

/-- The last path and the last digest of an input message. -/
inductive EncodesInput : List Token → Input → Prop
  | empty : EncodesInput [] {}
  | path {tokens : List Token} {input : Input} {path : String} {raw : Bytes}
      (h : EncodesInput tokens input) :
      EncodesInput (tokens ++ [⟨1, .lengthDelimited (getBytes path), raw⟩]) { input with path }
  | digest {tokens : List Token} {input : Input} {digest raw : Bytes}
      (h : EncodesInput tokens input) :
      EncodesInput (tokens ++ [⟨2, .lengthDelimited digest, raw⟩]) { input with digest }
  | unknown {tokens : List Token} {input : Input} {token : Token} (h : EncodesInput tokens input)
      (hunknown : (token.number, token.value.wireType) ∉ [(1, 2), (2, 2)]) :
      EncodesInput (tokens ++ [token]) input

/-- A request as its sender means it; `requestId` holds the 64 bits that were sent. -/
structure Message where
  arguments : List String := []
  inputs : List Input := []
  requestId : ℕ := 0

/-- The arguments and the inputs of a request message in their order, and its last id. -/
inductive EncodesRequest : List Token → Message → Prop
  | empty : EncodesRequest [] {}
  | argument {tokens : List Token} {message : Message} {argument : String} {raw : Bytes}
      (h : EncodesRequest tokens message) :
      EncodesRequest (tokens ++ [⟨1, .lengthDelimited (getBytes argument), raw⟩])
        { message with arguments := message.arguments ++ [argument] }
  | input {tokens : List Token} {message : Message} {payload raw : Bytes} {parts : List Token}
      {input : Input} (h : EncodesRequest tokens message) (hpayload : IsMessage 100 payload parts)
      (hinput : EncodesInput parts input) :
      EncodesRequest (tokens ++ [⟨2, .lengthDelimited payload, raw⟩])
        { message with inputs := message.inputs ++ [input] }
  | requestId {tokens : List Token} {message : Message} {requestId : ℕ} {raw : Bytes}
      (h : EncodesRequest tokens message) :
      EncodesRequest (tokens ++ [⟨3, .varint requestId, raw⟩]) { message with requestId }
  | unknown {tokens : List Token} {message : Message} {token : Token}
      (h : EncodesRequest tokens message)
      (hunknown : (token.number, token.value.wireType) ∉ [(1, 2), (2, 2), (3, 0)]) :
      EncodesRequest (tokens ++ [token]) message

theorem foldlM_map_append {Result : Type} {step : Result → Field → Except Throwable Result}
    {start middle : Result} {tokens : List Token}
    (h : (tokens.map Field.ofToken).foldlM step start = .ok middle) (token : Token) :
    ((tokens ++ [token]).map Field.ofToken).foldlM step start =
      step middle (Field.ofToken token) := by
  rw [List.map_append, List.foldlM_append, h, ok_bind]
  exact bind_pure _

theorem foldlM_entry {tokens : List Token} {input : Input} (h : EncodesInput tokens input) :
    (tokens.map Field.ofToken).foldlM Input.entry {} = .ok input := by
  induction h with
  | empty => rfl
  | path _ ih =>
      rw [foldlM_map_append ih]
      simp [Input.entry, Field.ofToken, Value.wireType, decodeUtf8_getBytes]
  | digest _ ih =>
      rw [foldlM_map_append ih]
      simp [Input.entry, Field.ofToken, Value.wireType]
  | @unknown _ _ token _ hunknown ih =>
      simp only [List.mem_cons, List.not_mem_nil, or_false, not_or, Prod.mk.injEq] at hunknown
      rw [foldlM_map_append ih]
      simp [Input.entry, Field.ofToken, hunknown]

theorem decode_input {payload : Bytes} {parts : List Token} {input : Input}
    (hfits : payload.length ≤ maxInt) (hpayload : IsMessage 100 payload parts)
    (hinput : EncodesInput parts input) : Input.decode payload = .ok input := by
  rw [Input.decode, fields_complete hfits hpayload, ok_bind, foldlM_entry hinput]

/-- A payload is no longer than the field that holds it. -/
theorem payload_length_le {depth number : ℕ} {payload raw : Bytes}
    (h : IsField depth ⟨number, .lengthDelimited payload, raw⟩) : payload.length ≤ raw.length := by
  cases h
  simp only [List.length_append]
  omega

theorem foldlM_add {tokens : List Token} {message : Message} (fields : List Field)
    (h : EncodesRequest tokens message) (htokens : ∀ token ∈ tokens, IsField 100 token)
    (hfits : (spell tokens).length ≤ maxInt) :
    (tokens.map Field.ofToken).foldlM WorkRequest.Contents.add { fields } =
      .ok { fields, arguments := message.arguments, inputs := message.inputs,
            requestId := BitVec.ofNat 32 message.requestId } := by
  induction h with
  | empty => rfl
  | argument _ ih =>
      obtain ⟨htokens, _⟩ := List.forall_mem_append.mp htokens
      rw [spell_append, List.length_append] at hfits
      rw [foldlM_map_append (ih htokens (by omega))]
      simp [WorkRequest.Contents.add, Field.ofToken, Value.wireType, decodeUtf8_getBytes]
  | input _ hpayload hinput ih =>
      obtain ⟨htokens, htoken⟩ := List.forall_mem_append.mp htokens
      have hlength := payload_length_le (htoken _ List.mem_cons_self)
      simp only [spell_append, spell_cons, List.length_append] at hfits
      -- an input is shorter than the message, so its own bytes fit as well
      have hdecode := decode_input (hlength.trans (by omega)) hpayload hinput
      rw [foldlM_map_append (ih htokens (by omega))]
      simp [WorkRequest.Contents.add, Field.ofToken, Value.wireType, hdecode]
  | requestId _ ih =>
      obtain ⟨htokens, _⟩ := List.forall_mem_append.mp htokens
      rw [spell_append, List.length_append] at hfits
      rw [foldlM_map_append (ih htokens (by omega))]
      simp [WorkRequest.Contents.add, Field.ofToken, Value.wireType,
        BitVec.setWidth_ofNat_of_le]
  | unknown _ hunknown ih =>
      obtain ⟨htokens, _⟩ := List.forall_mem_append.mp htokens
      rw [spell_append, List.length_append] at hfits
      simp only [List.mem_cons, List.not_mem_nil, or_false, not_or, Prod.mk.injEq] at hunknown
      rw [foldlM_map_append (ih htokens (by omega))]
      simp [WorkRequest.Contents.add, Field.ofToken, hunknown]

/-- Decoding a message gives the request it encodes. -/
theorem decode_of_encodes {bytes : JavaBytes} {tokens : List Token} {message : Message}
    (hbytes : IsMessage 100 bytes.1 tokens) (h : EncodesRequest tokens message) :
    WorkRequest.Contents.decode bytes.1 =
      .ok { fields := tokens.map Field.ofToken, arguments := message.arguments,
            inputs := message.inputs, requestId := BitVec.ofNat 32 message.requestId } := by
  rw [WorkRequest.Contents.decode, fields_complete bytes.2 hbytes, ok_bind]
  exact foldlM_add _ h hbytes.1 (hbytes.2 ▸ bytes.2)

/-! ## Lengths -/

/-- The texts and the digest of an input are no longer than the bytes they come from. -/
structure Input.Fits (bound : ℕ) (input : Input) : Prop where
  path : (getBytes input.path).length ≤ bound
  digest : input.digest.length ≤ bound

structure WorkRequest.Contents.Fits (bound : ℕ) (request : WorkRequest.Contents) : Prop where
  arguments : ∀ argument ∈ request.arguments, (getBytes argument).length ≤ bound
  inputs : ∀ input ∈ request.inputs, input.Fits bound

theorem bytes_length_le {data : Bytes} {result : List Field} (hdata : data.length ≤ maxInt)
    (h : fields data = .ok result) : ∀ field ∈ result, field.bytes.length ≤ data.length := by
  obtain ⟨tokens, ⟨htokens, hspell⟩, rfl⟩ := fields_sound hdata h
  intro field hfield
  obtain ⟨token, htoken, rfl⟩ := List.mem_map.mp hfield
  have hraw : token.raw.length ≤ data.length := by
    rw [← hspell]
    exact (List.sublist_flatten_of_mem (List.mem_map_of_mem htoken)).length_le
  refine le_trans ?_ hraw
  cases hvalue : token.value with
  | lengthDelimited payload =>
      have hfield := htokens token htoken
      obtain ⟨number, value, raw⟩ := token
      cases hvalue
      exact payload_length_le hfield
  | _ => simp [Field.ofToken, hvalue]

/-- `entry` in closed form: its two tests exclude each other. -/
theorem Input.entry_eq (input : Input) (entry : Field) :
    input.entry entry =
      if entry.number = 1 ∧ entry.wire = 2 then do
        let path ← decodeUtf8 entry.bytes
        .ok { input with path }
      else if entry.number = 2 ∧ entry.wire = 2 then .ok { input with digest := entry.bytes }
      else .ok input := by
  unfold Input.entry
  split
  · rename_i hpath
    cases hdecode : decodeUtf8 entry.bytes <;> simp [hpath]
  · simp

theorem Input.entry_fits {bound : ℕ} {input result : Input} {entry : Field}
    (hentry : entry.bytes.length ≤ bound) (hinput : input.Fits bound)
    (h : input.entry entry = .ok result) : result.Fits bound := by
  rw [Input.entry_eq] at h
  split at h
  · obtain ⟨path, hdecode, hresult⟩ := bind_eq_ok.mp h
    cases hresult
    exact ⟨by rwa [getBytes_of_decodeUtf8 hdecode], hinput.digest⟩
  · split at h
    · cases h
      exact ⟨hinput.path, hentry⟩
    · cases h
      exact hinput

theorem Input.decode_fits {data : Bytes} {input : Input} (hdata : data.length ≤ maxInt)
    (h : Input.decode data = .ok input) : input.Fits data.length := by
  obtain ⟨entries, hentries, hfold⟩ := bind_eq_ok.mp h
  have hbytes := bytes_length_le hdata hentries
  exact foldlM_invariant (Input.Fits data.length)
    (fun _ entry _ hentry hfits => Input.entry_fits (hbytes entry hentry) hfits)
    ⟨by simp [getBytes], by simp⟩ hfold

namespace WorkRequest

theorem Contents.add_fits {bound : ℕ} {request result : Contents} {field : Field}
    (hbound : bound ≤ maxInt) (hfield : field.bytes.length ≤ bound) (hrequest : request.Fits bound)
    (h : request.add field = .ok result) : result.Fits bound := by
  -- in closed form the tests exclude each other: one case for each kind of field
  rw [Contents.add_eq] at h
  split at h
  · obtain ⟨argument, hdecode, hresult⟩ := bind_eq_ok.mp h
    cases hresult
    refine ⟨List.forall_mem_append.mpr ⟨hrequest.arguments, ?_⟩, hrequest.inputs⟩
    rw [List.forall_mem_singleton, getBytes_of_decodeUtf8 hdecode]
    exact hfield
  · split at h
    · cases h
      exact ⟨hrequest.arguments, hrequest.inputs⟩
    · split at h
      · obtain ⟨input, hdecode, hresult⟩ := bind_eq_ok.mp h
        cases hresult
        have hinput := Input.decode_fits (hfield.trans hbound) hdecode
        refine ⟨hrequest.arguments, List.forall_mem_append.mpr ⟨hrequest.inputs, ?_⟩⟩
        rw [List.forall_mem_singleton]
        exact ⟨hinput.path.trans hfield, hinput.digest.trans hfield⟩
      · cases h
        exact hrequest

/-- What a request holds fits an array, as its bytes do. -/
theorem fits (request : WorkRequest) : request.toContents.Fits maxInt := by
  obtain ⟨fields, hfields, hfold⟩ := bind_eq_ok.mp request.decodes
  have hbytes := bytes_length_le request.bytes.2 hfields
  refine foldlM_invariant (Contents.Fits maxInt) (fun _ field _ hfield hfits => ?_)
    ⟨by simp, by simp⟩ hfold
  exact Contents.add_fits le_rfl ((hbytes field hfield).trans request.bytes.2) hfits

/-! ## Replacing the arguments -/

/-- The token an argument is written as. -/
def argumentToken (argument : String) : Token :=
  ⟨1, .lengthDelimited (getBytes argument), string 1 argument⟩

theorem isField_string {number : ℕ} {value : String} (hpos : 1 ≤ number) (hnumber : number ≤ 15)
    (hfits : (string number value).length ≤ maxInt) :
    IsField 100 ⟨number, .lengthDelimited (getBytes value), string number value⟩ := by
  have htag : IsTag (varint (BitVec.ofNat 64 (number * 8 + 2))) number 2 := by
    rw [varint_ofNat (by unfold maxInt; omega), Nat.mul_comm]
    exact isTag_encode hpos (show 2 < 8 by omega) (by omega)
  have hlength : (getBytes value).length ≤ maxInt := by
    rw [string, List.length_append, List.length_append] at hfits
    omega
  have hvarint : IsVarint (varint (BitVec.ofNat 64 (getBytes value).length))
      (getBytes value).length := by
    rw [varint_ofNat hlength]
    unfold maxInt at hlength
    exact isVarint_encode (by omega)
  exact IsField.lengthDelimited htag hvarint

theorem isField_argumentToken {argument : String} (hfits : (string 1 argument).length ≤ maxInt) :
    IsField 100 (argumentToken argument) :=
  isField_string le_rfl (by omega) hfits

theorem flatMap_kept_raw (fields : List Field) :
    (fields.flatMap fun field => if field.number ≠ 1 ∨ field.wire ≠ 2 then field.raw else []) =
      (fields.filter (!·.isArgument)).flatMap Field.raw := by
  induction fields with
  | nil => rfl
  | cons field fields ih =>
      have hkept : (field.number ≠ 1 ∨ field.wire ≠ 2) ↔ ¬ field.isArgument := by
        rw [Field.isArgument_iff, not_and_or]
      by_cases hargument : field.isArgument
      · rw [List.flatMap_cons, if_neg (hkept.not.mpr (not_not.mpr hargument)), ih,
          List.filter_cons_of_neg (by simpa using hargument), List.nil_append]
      · rw [List.flatMap_cons, if_pos (hkept.mpr hargument), ih,
          List.filter_cons_of_pos (by simpa using hargument), List.flatMap_cons]

theorem rewritten_eq (request : WorkRequest) (args : List String) :
    request.rewritten args =
      args.flatMap (string 1) ++ (request.fields.filter (!·.isArgument)).flatMap Field.raw := by
  rw [rewritten, flatMap_kept_raw]

/-- The rewritten bytes are a message: the new arguments and the fields that were kept. -/
theorem fields_rewritten (request : WorkRequest) {args : List String}
    (hfits : (request.rewritten args).length ≤ maxInt) :
    WorkerProtocol.fields (request.rewritten args) =
      .ok (args.map argumentField ++ request.fields.filter (!·.isArgument)) := by
  obtain ⟨tokens, hmessage, hfields⟩ := request.exists_tokens
  have hkept : request.fields.filter (!·.isArgument) =
      (tokens.filter fun token => !(Field.ofToken token).isArgument).map Field.ofToken := by
    rw [hfields, List.filter_map]
    rfl
  have hspell : spell (args.map argumentToken ++
      tokens.filter fun token => !(Field.ofToken token).isArgument) = request.rewritten args := by
    calc spell (args.map argumentToken ++
          tokens.filter fun token => !(Field.ofToken token).isArgument)
        = args.flatMap (string 1) ++
            (tokens.filter fun token => !(Field.ofToken token).isArgument).flatMap Token.raw := by
          rw [spell_append, spell, spell, List.flatMap_map]
          rfl
      _ = request.rewritten args := by
          rw [rewritten_eq, hkept, List.flatMap_map]
          rfl
  -- the tokens of the new message: the new arguments, then those that were kept
  have hfields' : ∀ token ∈ args.map argumentToken ++
      tokens.filter (fun token => !(Field.ofToken token).isArgument), IsField 100 token := by
    intro token htoken
    rcases List.mem_append.mp htoken with hargument | hkept
    · obtain ⟨argument, hmem, rfl⟩ := List.mem_map.mp hargument
      have hpart : (string 1 argument).length ≤ (args.flatMap (string 1)).length :=
        (List.sublist_flatten_of_mem (List.mem_map_of_mem hmem)).length_le
      rw [rewritten, List.length_append] at hfits
      exact isField_argumentToken (by omega)
    · exact hmessage.1 token (List.mem_filter.mp hkept).1
  rw [fields_complete hfits ⟨hfields', hspell⟩, hkept, List.map_append, List.map_map]
  rfl

/-- Decoding the rewritten bytes: the arguments are the new ones and nothing else changes. -/
theorem decode_rewritten (request : WorkRequest) {args : List String}
    (hfits : (request.rewritten args).length ≤ maxInt) :
    Contents.decode (request.rewritten args) =
      .ok { request.toContents with
        fields := args.map argumentField ++ request.fields.filter (!·.isArgument)
        arguments := args } := by
  obtain ⟨fields, hfields, hfold⟩ := bind_eq_ok.mp request.decodes
  rw [request.fields_eq] at hfields
  cases hfields
  rw [Contents.decode, request.fields_rewritten hfits, ok_bind, List.foldlM_append,
    foldlM_add_arguments, ok_bind]
  exact foldlM_add_filter _ args { fields := request.fields } hfold

/-- `withArguments` succeeds as long as the result fits an array. -/
theorem withArguments_of_le (request : WorkRequest) {args : List String}
    (hfits : (request.rewritten args).length ≤ maxInt) :
    request.withArguments args =
      .ok ⟨_, ⟨request.rewritten args, hfits⟩, request.decode_rewritten hfits⟩ := by
  rw [withArguments, JavaBytes.ofList_of_le hfits, ok_bind]
  exact ofBytes_of_decode (request.decode_rewritten hfits)

theorem withArguments_of_lt (request : WorkRequest) {args : List String}
    (hlarge : maxInt < (request.rewritten args).length) :
    request.withArguments args = .error .outOfMemory := by
  rw [withArguments, JavaBytes.ofList_of_lt hlarge, error_bind]

theorem filter_arguments (args : List String) :
    (args.map argumentField).filter (!·.isArgument) = [] := by
  rw [List.filter_eq_nil_iff]
  intro field hfield
  obtain ⟨argument, _, rfl⟩ := List.mem_map.mp hfield
  simp [argumentField, Field.isArgument]

/-- With other arguments the fields that are no arguments are the same. -/
theorem filter_exchanged (args : List String) (fields : List Field) :
    (args.map argumentField ++ fields.filter (!·.isArgument)).filter (!·.isArgument) =
      fields.filter (!·.isArgument) := by
  calc (args.map argumentField ++ fields.filter (!·.isArgument)).filter (!·.isArgument)
      = (args.map argumentField).filter (!·.isArgument) ++
          (fields.filter (!·.isArgument)).filter (!·.isArgument) := List.filter_append _ _
    _ = fields.filter (!·.isArgument) := by
        rw [filter_arguments, List.nil_append, List.filter_filter]
        simp only [Bool.and_self]

/-- What a request with other arguments is. -/
theorem eq_of_withArguments {request forwarded : WorkRequest} {args : List String}
    (h : request.withArguments args = .ok forwarded) :
    ∃ hfits : (request.rewritten args).length ≤ maxInt,
      forwarded = ⟨_, ⟨request.rewritten args, hfits⟩, request.decode_rewritten hfits⟩ := by
  rcases Nat.lt_or_ge maxInt (request.rewritten args).length with hlarge | hfits
  · rw [request.withArguments_of_lt hlarge] at h
    cases h
  · rw [request.withArguments_of_le hfits] at h
    exact ⟨hfits, (Except.ok.inj h).symm⟩

theorem rewritten_of_fields {request first : WorkRequest} {args : List String}
    (hfields : first.fields = args.map argumentField ++ request.fields.filter (!·.isArgument))
    (again : List String) : first.rewritten again = request.rewritten again := by
  rw [rewritten_eq, rewritten_eq, hfields, filter_exchanged]

/-- A second rewriting forgets the first one. -/
theorem withArguments_withArguments {request first : WorkRequest} {args : List String}
    (h : request.withArguments args = .ok first) (again : List String) :
    first.withArguments again = request.withArguments again := by
  obtain ⟨hfits, hfirst⟩ := eq_of_withArguments h
  have hfields : first.fields =
      args.map argumentField ++ request.fields.filter (!·.isArgument) := by rw [hfirst]
  rw [withArguments, withArguments, rewritten_of_fields hfields]

/-- **The codec preserves what it does not rewrite.**  A parsed request is written back byte
for byte, with a length that the `int` sum computes exactly; a message in the wire grammar is
decoded to the request it encodes; and `withArguments` replaces the arguments alone, whatever
they were replaced by before, unless no array can hold the result. -/
theorem codec_preserves_unmodified :
    (∀ (message : JavaBytes) (request : WorkRequest), ofBytes message = .ok request →
      request.fields.flatMap Field.raw = message.1 ∧
        request.writeDelimitedTo = Varint.encode message.1.length ++ message.1 ∧
        ∀ written, written <+: request.fields →
          (lengthSum written).toInt = (written.flatMap Field.raw).length) ∧
      (∀ (bytes : JavaBytes) (tokens : List Token) (message : Message),
        IsMessage 100 bytes.1 tokens → EncodesRequest tokens message →
          ∃ request, ofBytes bytes = .ok request ∧ request.arguments = message.arguments ∧
            request.inputs = message.inputs ∧
            request.requestId = BitVec.ofNat 32 message.requestId) ∧
      (∀ (request : WorkRequest) (args : List String),
        maxInt < (request.rewritten args).length ∧
            request.withArguments args = .error .outOfMemory ∨
          ∃ replaced, request.withArguments args = .ok replaced ∧ replaced.arguments = args ∧
            replaced.inputs = request.inputs ∧ replaced.requestId = request.requestId ∧
            (replaced.fields.filter (!·.isArgument)).map Field.raw =
              (request.fields.filter (!·.isArgument)).map Field.raw) ∧
      ∀ (request first : WorkRequest) (args again : List String),
        request.withArguments args = .ok first →
          first.withArguments again = request.withArguments again := by
  refine ⟨?_, ?_, ?_, fun _ _ _ again h => withArguments_withArguments h again⟩
  · intro message request hrequest
    obtain rfl := ofBytes_eq_ok_iff.mp hrequest
    exact ⟨request.flatMap_raw, request.writeDelimitedTo_eq, fun _ => toInt_lengthSum⟩
  · intro bytes tokens message hbytes h
    exact ⟨_, ofBytes_of_decode (decode_of_encodes hbytes h), rfl, rfl, rfl⟩
  · intro request args
    -- the only way to fail is that no array holds the result
    rcases Nat.lt_or_ge maxInt (request.rewritten args).length with hlarge | hfits
    · exact Or.inl ⟨hlarge, request.withArguments_of_lt hlarge⟩
    · refine Or.inr ⟨_, request.withArguments_of_le hfits, rfl, rfl, rfl, ?_⟩
      exact congrArg (List.map Field.raw) (filter_exchanged args request.fields)

end WorkRequest

end RulesElide.WorkerProtocol
