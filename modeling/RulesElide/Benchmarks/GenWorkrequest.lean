import RulesElide.Library.Framing
import RulesElide.Library.Reader
import RulesElide.Library.Varint
import RulesElide.Platform.Strings

/-!
# The benchmark's worker protocol

`gen_workrequest.py`: what the benchmark writes to a worker, and how it checks the replies.  Its
numbers have no bound, and `fields` knows the two wire types that the worker's messages use.
`checkResponses_exact` says which replies pass.
-/

namespace RulesElide.GenWorkrequest

open Reader

/-! ## The script -/

/-- What the script raises.  `compileFailed output` is the `ValueError` whose message ends with the
decoded `output`, and `unfinished` stands for a loop that goes on for ever. -/
inductive PythonError
  | valueError (message : String)
  | compileFailed (output : Bytes)
  | attributeError
  | osError (message : String)
  | unfinished

/-- `_varint`. -/
def varint (n : ℕ) : Bytes :=
  if n >>> 7 = 0 then [UInt8.ofNat (n &&& 0x7F)]
  else UInt8.ofNat ((n &&& 0x7F) ||| 0x80) :: varint (n >>> 7)
termination_by n
decreasing_by
  rename_i h
  rw [Nat.shiftRight_eq_div_pow] at h ⊢
  omega

/-- `_field`. -/
def field (number : ℕ) (data : Bytes) : Bytes :=
  varint (number * 8 + 2) ++ varint data.length ++ data

/-- `request`, where `readBytes path` is the content of the file and `sha256` the digest of it. -/
def request (sha256 : Bytes → Bytes) (readBytes : String → Except PythonError Bytes)
    (arguments inputs : List String) : Except PythonError Bytes := do
  let msg ← inputs.foldlM (fun msg path => do
    let content ← readBytes path
    let entry := field 1 (getBytes path) ++ field 2 (sha256 content)
    .ok (msg ++ field 2 entry)) (arguments.flatMap fun a => field 1 (getBytes a))
  .ok (varint msg.length ++ msg)

/-- The loop of `_read_varint`, with the shifts that are left. -/
def readVarintLoop (data : Bytes) : List ℕ → ℕ → ℕ → Except PythonError (ℕ × ℕ)
  | [], _, _ => .error (.valueError "oversized protobuf varint")
  | shift :: shifts, value, offset =>
      match data[offset]? with
      | none => .error (.valueError "truncated protobuf varint")
      | some b =>
          let value := value ||| (b.toNat &&& 127) <<< shift
          if b.toNat < 128 then .ok (value, offset + 1)
          else readVarintLoop data shifts value (offset + 1)

/-- `_read_varint`. -/
def readVarint (data : Bytes) (offset : ℕ) : Except PythonError (ℕ × ℕ) :=
  readVarintLoop data (List.range' 0 10 7) 0 offset

/-- The value of a field. -/
inductive Value
  | int (value : ℕ)
  | bytes (value : Bytes)
  deriving DecidableEq

/-- The round of `fields` after the two varints: `value` is the number of a varint field and the
length of one that is length-delimited. -/
def readValue (data : Bytes) (tag value offset : ℕ) : Except PythonError ((ℕ × Value) × ℕ) :=
  if tag &&& 7 = 2 then
    if offset + value > data.length then .error (.valueError "truncated protobuf field")
    else .ok ((tag >>> 3, .bytes (slice data offset (offset + value))), offset + value)
  else if tag &&& 7 ≠ 0 then .error (.valueError "unsupported protobuf wire type")
  else .ok ((tag >>> 3, .int value), offset)

/-- One round of the loop of `fields`. -/
def readField (data : Bytes) (offset : ℕ) : Except PythonError ((ℕ × Value) × ℕ) := do
  let (tag, offset) ← readVarint data offset
  let (value, offset) ← readVarint data offset
  readValue data tag value offset

/-- `list(fields(data))`. -/
def fields (data : Bytes) : Except PythonError (List (ℕ × Value)) :=
  whileLeft data .unfinished (fun yielded offset => do
    let (field, offset) ← readField data offset
    .ok (yielded ++ [field], offset)) data.length [] 0

/-- `dict(fields).get(number)`: a later field replaces an earlier one. -/
def get (fields : List (ℕ × Value)) (number : ℕ) : Option Value :=
  (fields.filter (·.1 = number)).getLast?.map Prod.snd

/-- `bool(value)`. -/
def Value.truthy : Value → Bool
  | .int value => value ≠ 0
  | .bytes value => value ≠ []

/-- `response.get(1, 0) or response.get(4, 0)`. -/
def failed (response : List (ℕ × Value)) : Bool :=
  (get response 1).any Value.truthy || (get response 4).any Value.truthy

/-- What a failed response raises: an integer has no `decode`. -/
def failure (response : List (ℕ × Value)) : PythonError :=
  match get response 2 with
  | none => .compileFailed []
  | some (.bytes output) => .compileFailed output
  | some (.int _) => .attributeError

/-- What `check_responses` does with the body of a response. -/
def checkResponse (body : Bytes) : Except PythonError Unit := do
  let response ← fields body
  if failed response then .error (failure response) else .ok ()

/-- One round of the loop of `check_responses`. -/
def readResponse (data : Bytes) (offset : ℕ) : Except PythonError (Unit × ℕ) := do
  let (size, offset) ← readVarint data offset
  if offset + size > data.length then .error (.valueError "truncated WorkResponse")
  else do
    let () ← checkResponse (slice data offset (offset + size))
    .ok ((), offset + size)

/-- The loop of `check_responses`. -/
def countResponses (data : Bytes) : Except PythonError ℕ :=
  whileLeft data .unfinished (fun count offset => do
    let ((), offset) ← readResponse data offset
    .ok (count + 1, offset)) data.length 0 0

/-- `check_responses`. -/
def checkResponses (data : Bytes) (expected : ℤ) : Except PythonError Unit := do
  let count ← countResponses data
  if (count : ℤ) ≠ expected then
    .error (.valueError s!"expected {expected} responses, received {count}")
  else .ok ()

/-! ## Varints -/

/-- A varint as the script reads it: of at most ten bytes, and of any value. -/
def IsVarint (value : ℕ) (bytes : Bytes) : Prop :=
  Varint.Encodes bytes value ∧ bytes.length ≤ 10

theorem or_shiftLeft {value shift : ℕ} (hvalue : value < 2 ^ shift) (byte : ℕ) :
    value ||| (byte &&& 127) <<< shift = value + byte % 128 * 2 ^ shift := by
  have hmask : byte &&& 127 = byte % 128 := Nat.and_two_pow_sub_one_eq_mod byte 7
  rw [hmask, Nat.shiftLeft_eq, Nat.or_comm, Nat.mul_comm, ← Nat.two_pow_add_eq_or_of_lt hvalue,
    Nat.add_comm]

/-- Seven bits above those collected so far. -/
theorem add_mul_lt {value shift : ℕ} (hvalue : value < 2 ^ shift) (byte : ℕ) :
    value + byte % 128 * 2 ^ shift < 2 ^ (shift + 7) := by
  have hbits : (byte % 128 + 1) * 2 ^ shift ≤ 128 * 2 ^ shift := Nat.mul_le_mul_right _ (by omega)
  calc value + byte % 128 * 2 ^ shift < (byte % 128 + 1) * 2 ^ shift := by
        rw [Nat.add_mul]
        omega
    _ ≤ 2 ^ (shift + 7) := by
        rw [Nat.pow_add, Nat.mul_comm (2 ^ shift)]
        exact hbits

/-- The varints of at most `rounds` bytes, read above the bits of `value`. -/
def ReadsAbove (rounds shift value : ℕ) (result : ℕ) (bytes : Bytes) : Prop :=
  ∃ number, Varint.Encodes bytes number ∧ bytes.length ≤ rounds ∧
    result = value + number * 2 ^ shift

/-- What a round does behind its byte, if the rounds after it do what they should. -/
theorem readVarintRound_exact {data : Bytes} {shifts : List ℕ} {rounds shift value : ℕ}
    (hvalue : value < 2 ^ shift)
    (hlater : ∀ value, value < 2 ^ (shift + 7) →
      Exact data (ReadsAbove rounds (shift + 7) value) (readVarintLoop data shifts value))
    (b : UInt8) :
    Exact data (fun result rest => ReadsAbove (rounds + 1) shift value result (b :: rest))
      (fun offset =>
        if b.toNat < 128 then .ok (value ||| (b.toNat &&& 127) <<< shift, offset)
        else readVarintLoop data shifts (value ||| (b.toNat &&& 127) <<< shift) offset) := by
  rw [or_shiftLeft hvalue]
  by_cases hlast : b.toNat < 128
  · simp only [if_pos hlast]
    refine (Exact.pure _).congr fun result rest => ?_
    simp only [ReadsAbove, Varint.encodes_cons_iff, hlast, not_le.mpr hlast, true_and, false_and,
      or_false, Nat.mod_eq_of_lt]
    constructor
    · rintro ⟨rfl, rfl⟩
      exact ⟨b.toNat, ⟨rfl, rfl⟩, by simp, rfl⟩
    · rintro ⟨number, ⟨rfl, rfl⟩, -, rfl⟩
      exact ⟨rfl, rfl⟩
  · simp only [if_neg hlast]
    refine (hlater _ (add_mul_lt hvalue b.toNat)).congr fun result rest => ?_
    simp only [ReadsAbove, Varint.encodes_cons_iff, hlast, not_lt.mp hlast, true_and, false_and,
      false_or, List.length_cons, Nat.add_le_add_iff_right]
    constructor
    · rintro ⟨higher, hhigher, hlength, rfl⟩
      refine ⟨_, ⟨higher, hhigher, rfl⟩, hlength, ?_⟩
      rw [Nat.pow_add]
      ring
    · rintro ⟨_, ⟨higher, hhigher, rfl⟩, hlength, rfl⟩
      refine ⟨higher, hhigher, hlength, ?_⟩
      rw [Nat.pow_add]
      ring

theorem readVarintLoop_exact (data : Bytes) :
    ∀ (rounds shift value : ℕ), value < 2 ^ shift →
      Exact data (ReadsAbove rounds shift value)
        (readVarintLoop data (List.range' shift rounds 7) value) := by
  intro rounds
  induction rounds with
  | zero =>
      intro shift value _
      -- no rounds are left, and a number has at least one byte
      refine Exact.error.congr fun result bytes => iff_of_false not_false ?_
      rintro ⟨number, hencodes, hlength, -⟩
      exact absurd hencodes.length_pos (by omega)
  | succ rounds ih =>
      intro shift value hvalue
      rw [List.range'_succ]
      have hround := Exact.element (.valueError "truncated protobuf varint")
        (readVarintRound_exact hvalue (ih (shift + 7)))
      refine (hround.of_eq fun offset => ?_).congr fun result bytes => ?_
      · rw [readVarintLoop]
        cases data[offset]? <;> rfl
      · constructor
        · rintro ⟨b, rest, rfl, hreads⟩
          exact hreads
        · rintro ⟨number, hencodes, hlength, rfl⟩
          obtain ⟨b, rest, rfl⟩ := List.exists_cons_of_length_pos hencodes.length_pos
          exact ⟨b, rest, rfl, number, hencodes, hlength, rfl⟩

theorem readVarint_exact (data : Bytes) : Exact data IsVarint (readVarint data) := by
  refine (readVarintLoop_exact data 10 0 0 (by simp)).congr fun result bytes => ?_
  constructor
  · rintro ⟨number, hencodes, hlength, rfl⟩
    rw [Nat.zero_add, Nat.pow_zero, Nat.mul_one]
    exact ⟨hencodes, hlength⟩
  · rintro ⟨hencodes, hlength⟩
    exact ⟨result, hencodes, hlength, by rw [Nat.zero_add, Nat.pow_zero, Nat.mul_one]⟩

theorem readVarint_ne_unfinished (data : Bytes) (offset : ℕ) :
    readVarint data offset ≠ .error .unfinished := by
  have hloop : ∀ (shifts : List ℕ) (value offset : ℕ),
      readVarintLoop data shifts value offset ≠ .error .unfinished := by
    intro shifts
    induction shifts with
    | nil => exact fun _ _ h => by cases h
    | cons shift shifts ih =>
        intro value offset
        rw [readVarintLoop]
        split
        · exact fun h => by cases h
        · dsimp only
          split
          · exact fun h => by cases h
          · exact ih _ _
  exact hloop _ _ _

/-! ## Fields -/

/-- A varint field or a length-delimited one, and the bytes that spell it. -/
inductive IsField : ℕ × Value → Bytes → Prop
  | int {tag value : ℕ} {first second : Bytes} (htag : IsVarint tag first) (hwire : tag % 8 = 0)
      (hvalue : IsVarint value second) : IsField (tag / 8, .int value) (first ++ second)
  | bytes {tag : ℕ} {first second payload : Bytes} (htag : IsVarint tag first)
      (hwire : tag % 8 = 2) (hlength : IsVarint payload.length second) :
      IsField (tag / 8, .bytes payload) (first ++ (second ++ payload))

/-- The bytes that spell a sequence of fields. -/
def IsMessage (fields : List (ℕ × Value)) (bytes : Bytes) : Prop :=
  ∃ parts, List.Forall₂ IsField fields parts ∧ parts.flatten = bytes

theorem IsField.ne_nil {field : ℕ × Value} {bytes : Bytes} (h : IsField field bytes) :
    bytes ≠ [] := by
  cases h with
  | int htag _ _ =>
      exact List.append_ne_nil_of_left_ne_nil (List.length_pos_iff.mp htag.1.length_pos) _
  | bytes htag _ _ =>
      exact List.append_ne_nil_of_left_ne_nil (List.length_pos_iff.mp htag.1.length_pos) _

theorem readValue_exact (data : Bytes) (tag value : ℕ) :
    Exact data
      (fun field passed =>
        (tag % 8 = 2 ∧ passed.length = value ∧ field = (tag / 8, .bytes passed)) ∨
          (tag % 8 = 0 ∧ passed = [] ∧ field = (tag / 8, .int value)))
      (readValue data tag value) := by
  have hwire : tag &&& 7 = tag % 8 := Nat.and_two_pow_sub_one_eq_mod tag 3
  have hnumber : tag >>> 3 = tag / 8 := Nat.shiftRight_eq_div_pow tag 3
  unfold readValue
  rw [hwire, hnumber]
  by_cases htwo : tag % 8 = 2
  · simp only [if_pos htwo]
    refine (Exact.block fun bytes => .ok (tag / 8, Value.bytes bytes)).congr ?_
    intro field passed
    simp only [htwo, Except.ok.injEq, eq_comm (b := field), true_and, reduceCtorEq, false_and,
      or_false]
  · simp only [if_neg htwo]
    by_cases hzero : tag % 8 = 0
    · simp only [hzero]
      refine (Exact.pure _).congr fun field passed => ?_
      simp
    · simp only [if_pos hzero]
      exact Exact.error.congr fun field passed => by simp [htwo, hzero]

theorem readField_exact (data : Bytes) : Exact data IsField (readField data) := by
  refine ((readVarint_exact data).bind fun tag => (readVarint_exact data).bind fun value =>
    readValue_exact data tag value).congr fun field passed => ?_
  constructor
  · rintro ⟨tag, first, rest, rfl, htag, value, second, payload, rfl, hvalue, hrest⟩
    -- a field has one of two wire types, everything else is refused
    rcases hrest with ⟨hwire, rfl, rfl⟩ | ⟨hwire, rfl, rfl⟩
    · exact IsField.bytes htag hwire hvalue
    · rw [List.append_nil]
      exact IsField.int htag hwire hvalue
  · intro h
    cases h with
    | @int tag value first second htag hwire hvalue =>
        exact ⟨tag, first, second, rfl, htag, value, second, [], (List.append_nil _).symm, hvalue,
          Or.inr ⟨hwire, rfl, rfl⟩⟩
    | @bytes tag first second payload htag hwire hlength =>
        exact ⟨tag, first, _, rfl, htag, payload.length, second, payload, rfl, hlength,
          Or.inl ⟨hwire, rfl, rfl⟩⟩

/-- `fields` succeeds exactly on messages, and returns their fields in order. -/
theorem fields_eq_ok_iff {data : Bytes} {result : List (ℕ × Value)} :
    fields data = .ok result ↔ IsMessage result data := by
  have hfold (items yielded : List (ℕ × Value)) :
      items.foldl (fun yielded field => yielded ++ [field]) yielded = yielded ++ items := by
    rw [List.foldl_append_eq_append, ← List.flatMap_def, List.flatMap_singleton']
  rw [fields, whileLeft_eq_ok_iff (fun yielded => (readField_exact data).map (yielded ++ [·]))
    (fun _ _ h => h.ne_nil) (Nat.zero_le _) (Nat.sub_le _ _)]
  simp only [hfold, List.nil_append, List.drop_zero]
  constructor
  · rintro ⟨items, parts, hparts, hflat, rfl⟩
    exact ⟨parts, hparts, hflat⟩
  · rintro ⟨parts, hparts, hflat⟩
    exact ⟨result, parts, hparts, hflat, rfl⟩

theorem readField_ne_unfinished (data : Bytes) (offset : ℕ) :
    readField data offset ≠ .error .unfinished := by
  refine bind_ne_error (readVarint_ne_unfinished _ _) fun tag => ?_
  refine bind_ne_error (readVarint_ne_unfinished _ _) fun value => ?_
  dsimp only
  unfold readValue
  split
  · split <;> simp
  · split <;> simp

/-- The loop of `fields` ends. -/
theorem fields_ne_unfinished (data : Bytes) : fields data ≠ .error .unfinished := by
  refine whileLeft_ne_unfinished (fun yielded start => ?_)
    (fun yielded => (readField_exact data).map (yielded ++ [·])) ?_ (Nat.sub_le _ _)
  · exact bind_ne_error (readField_ne_unfinished data start) fun field => by simp
  · rintro yielded after passed ⟨field, hfield, -⟩
    exact hfield.ne_nil

/-! ## Replies -/

/-- Neither the last field 1, the exit code, nor the last field 4, whether the request was
cancelled, holds anything. -/
def Succeeded (response : List (ℕ × Value)) : Prop :=
  ∀ value, value ∈ get response 1 ∨ value ∈ get response 4 → value = .int 0 ∨ value = .bytes []

/-- A frame around the body of a response that succeeded. -/
def IsReply (frame : Bytes) : Prop :=
  ∃ length body response, frame = length ++ body ∧ IsVarint body.length length ∧
    IsMessage response body ∧ Succeeded response

theorem IsReply.ne_nil {frame : Bytes} (h : IsReply frame) : frame ≠ [] := by
  obtain ⟨length, body, -, rfl, hlength, -⟩ := h
  exact List.append_ne_nil_of_left_ne_nil (List.length_pos_iff.mp hlength.1.length_pos) _

theorem truthy_eq_false_iff {value : Value} :
    value.truthy = false ↔ value = .int 0 ∨ value = .bytes [] := by
  cases value <;> simp [Value.truthy]

theorem failed_eq_false_iff {response : List (ℕ × Value)} :
    failed response = false ↔ Succeeded response := by
  have hany (field : Option Value) : field.any Value.truthy = false ↔
      ∀ value ∈ field, value = .int 0 ∨ value = .bytes [] := by
    cases field <;> simp [truthy_eq_false_iff]
  rw [failed, Bool.or_eq_false_iff, Succeeded, hany, hany]
  simp only [or_imp, forall_and]

theorem checkResponse_eq_ok_iff {body : Bytes} {result : Unit} :
    checkResponse body = .ok result ↔ ∃ response, IsMessage response body ∧ Succeeded response := by
  rw [checkResponse, bind_eq_ok]
  simp only [fields_eq_ok_iff, ← failed_eq_false_iff]
  refine exists_congr fun response => and_congr_right fun _ => ?_
  cases failed response <;> simp

theorem readResponse_exact (data : Bytes) :
    Exact data (fun (_ : Unit) frame => IsReply frame) (readResponse data) := by
  have hblock (size : ℕ) : Exact data
      (fun result body => body.length = size ∧ checkResponse body = .ok result)
      (fun offset =>
        if offset + size > data.length then .error (.valueError "truncated WorkResponse")
        else do
          let () ← checkResponse (slice data offset (offset + size))
          .ok ((), offset + size)) :=
    Exact.block checkResponse
  refine ((readVarint_exact data).bind hblock).congr fun result frame => ?_
  simp only [checkResponse_eq_ok_iff]
  constructor
  · rintro ⟨_, length, body, rfl, hlength, rfl, response, hresponse, hsucceeded⟩
    exact ⟨length, body, response, rfl, hlength, hresponse, hsucceeded⟩
  · rintro ⟨length, body, response, rfl, hlength, hresponse, hsucceeded⟩
    exact ⟨body.length, length, body, rfl, hlength, rfl, response, hresponse, hsucceeded⟩

theorem readResponse_ne_unfinished (data : Bytes) (offset : ℕ) :
    readResponse data offset ≠ .error .unfinished := by
  refine bind_ne_error (readVarint_ne_unfinished _ _) fun size => ?_
  dsimp only
  split
  · simp
  · refine bind_ne_error
      (bind_ne_error (fields_ne_unfinished _) fun response => ?_) fun _ => by simp
    split
    · unfold failure
      split <;> simp
    · simp

/-- `data` is a sequence of `expected` successful replies. -/
def Replies (data : Bytes) (expected : ℤ) : Prop :=
  ∃ frames : List Bytes, (frames.length : ℤ) = expected ∧ (∀ frame ∈ frames, IsReply frame) ∧
    frames.flatten = data

/-- The script stops with an exception. -/
def Raises {Result : Type} (outcome : Except PythonError Result) : Prop :=
  ∃ raised, raised ≠ .unfinished ∧ outcome = .error raised

theorem raises_of_ne {outcome : Except PythonError Unit} (hends : outcome ≠ .error .unfinished)
    (hfails : outcome ≠ .ok ()) : Raises outcome := by
  cases outcome with
  | ok result => exact absurd rfl hfails
  | error raised => exact ⟨raised, fun heq => hends (heq ▸ rfl), rfl⟩

/-- The loop of `check_responses` counts the replies. -/
theorem countResponses_eq_ok_iff {data : Bytes} {count : ℕ} :
    countResponses data = .ok count ↔
      ∃ frames : List Bytes, frames.length = count ∧ (∀ frame ∈ frames, IsReply frame) ∧
        frames.flatten = data := by
  -- the count is the number of replies
  have hfold (items : List Unit) (start : ℕ) :
      items.foldl (fun count _ => count + 1) start = start + items.length := by
    induction items generalizing start with
    | nil => rfl
    | cons item items ih =>
        rw [List.foldl_cons, ih, List.length_cons]
        omega
  rw [countResponses, whileLeft_eq_ok_iff
    (fun count => (readResponse_exact data).map fun _ => count + 1)
    (fun _ _ h => h.ne_nil) (Nat.zero_le _) (Nat.sub_le _ _)]
  simp only [hfold, Nat.zero_add, List.drop_zero]
  constructor
  · rintro ⟨items, frames, hframes, hflat, rfl⟩
    refine ⟨frames, hframes.length_eq.symm, ?_, hflat⟩
    clear hflat
    induction hframes with
    | nil => exact nofun
    | cons hframe _ ih => exact List.forall_mem_cons.mpr ⟨hframe, ih⟩
  · rintro ⟨frames, rfl, hframes, hflat⟩
    refine ⟨frames.map fun _ => (), frames, ?_, hflat, by rw [List.length_map]⟩
    rw [List.forall₂_map_left_iff, List.forall₂_same]
    exact hframes

theorem countResponses_ne_unfinished (data : Bytes) : countResponses data ≠ .error .unfinished := by
  refine whileLeft_ne_unfinished (fun count start => ?_)
    (fun count => (readResponse_exact data).map fun _ => count + 1) ?_ (Nat.sub_le _ _)
  · exact bind_ne_error (readResponse_ne_unfinished data start) fun _ => by simp
  · rintro count after passed ⟨_, hreply, -⟩
    exact hreply.ne_nil

theorem checkResponses_ne_unfinished (data : Bytes) (expected : ℤ) :
    checkResponses data expected ≠ .error .unfinished := by
  refine bind_ne_error (countResponses_ne_unfinished data) fun count => ?_
  split <;> simp

theorem checkResponses_eq_ok_iff {data : Bytes} {expected : ℤ} :
    checkResponses data expected = .ok () ↔ Replies data expected := by
  have hcount (count : ℕ) : (if (count : ℤ) ≠ expected then
      .error (.valueError s!"expected {expected} responses, received {count}")
      else .ok () : Except PythonError Unit) = .ok () ↔ (count : ℤ) = expected := by
    split <;> simp_all
  rw [checkResponses, bind_eq_ok]
  simp only [countResponses_eq_ok_iff, hcount]
  constructor
  · rintro ⟨_, ⟨frames, rfl, hframes, hflat⟩, hexpected⟩
    exact ⟨frames, hexpected, hframes, hflat⟩
  · rintro ⟨frames, hexpected, hframes, hflat⟩
    exact ⟨frames.length, ⟨frames, rfl, hframes, hflat⟩, hexpected⟩

/-- Replies are not followed by anything that is not one. -/
theorem Replies.front_unique {front data : Bytes} {expected : ℤ} (hfront : Replies front expected)
    (hdata : Replies data expected) (hlead : front <+: data) : front = data := by
  obtain ⟨frames, hcount, hframes, rfl⟩ := hfront
  obtain ⟨frames', hcount', hframes', rfl⟩ := hdata
  refine congrArg List.flatten (Framing.flatten_front_unique IsReply ?_ hframes hframes'
    (by omega) hlead)
  intro first second stream hfirst hsecond hstream hstream'
  exact (Exact.unique () () (readResponse_exact stream) (Nat.zero_le _) hstream hstream' hfirst
    hsecond).2

/-- **No lost and no failed reply counts.**  The check ends on every byte string; it passes exactly
when the string is as many replies as expected, each of them of a request that succeeded, and raises
otherwise.  A string that ends early does not pass. -/
theorem checkResponses_exact (data : Bytes) (expected : ℤ) :
    (checkResponses data expected = .ok () ∨ Raises (checkResponses data expected)) ∧
    (checkResponses data expected = .ok () ↔ Replies data expected) ∧
    ∀ front, front <+: data → front ≠ data → checkResponses data expected = .ok () →
      Raises (checkResponses front expected) := by
  have hraises (data : Bytes) (hfails : checkResponses data expected ≠ .ok ()) :
      Raises (checkResponses data expected) :=
    raises_of_ne (checkResponses_ne_unfinished data expected) hfails
  refine ⟨Classical.or_iff_not_imp_left.mpr (hraises data), checkResponses_eq_ok_iff, ?_⟩
  intro front hlead hne hpasses
  refine hraises front fun hfront => hne ?_
  exact (checkResponses_eq_ok_iff.mp hfront).front_unique (checkResponses_eq_ok_iff.mp hpasses)
    hlead

/-- A default and an explicit exit code. -/
example : checkResponses [0x00, 0x02, 0x08, 0x00] 2 = .ok () := rfl

end RulesElide.GenWorkrequest
