import RulesElide.Platform.Strings

/-!
# The worker wire codec

`WorkerProtocol.java`, function by function.  A `Cursor` is the array it reads and a
position; since the array never changes, the functions below take it as a parameter and
pass the position along.  Every access to the array goes through `byteAt` or
`copyOfRange`, so an index out of range is an outcome of the model and not excluded by it.

A `while (true)` loop is given as many rounds as there are bytes left to read and throws
`unfinished` when they run out; `Parsing.lean` shows that this never happens.
-/

namespace RulesElide.WorkerProtocol

/-- `MAX_MESSAGE`: 64 MiB. -/
def maxMessage : ℕ := 64 * 1024 * 1024

/-! ## `Cursor` -/

namespace Cursor

/-- The loop `for (int shift = 0; shift < 64; shift += 7)` of `Cursor.varint`, with `rounds`
of its ten rounds left, so that `shift` is `63 - 7 * (rounds - 1)`. -/
def varintLoop (data : Bytes) : ℕ → ℕ → JavaLong → Except Throwable (JavaLong × ℕ)
  | 0, _, _ => .error (.ioException "Invalid protobuf varint")
  | rounds + 1, position, result =>
      let shift := 63 - 7 * rounds
      if position = data.length then .error (.eofException "Truncated protobuf varint")
      else do
        let byte ← byteAt data position
        let value := byte.toNat &&& 255
        if shift = 63 ∧ value > 1 then .error (.ioException "Invalid protobuf varint")
        else
          let result := result ||| (BitVec.ofNat 64 (value &&& 127) <<< shift)
          if value < 128 then .ok (result, position + 1)
          else varintLoop data rounds (position + 1) result

/-- `Cursor.varint`. -/
def varint (data : Bytes) (position : ℕ) : Except Throwable (JavaLong × ℕ) :=
  varintLoop data 10 position 0

/-- `Cursor.skip`; the last step narrows the `long` to an `int`. -/
def skip (data : Bytes) (length : JavaLong) (position : ℕ) : Except Throwable (Unit × ℕ) :=
  if length.toInt < 0 ∨ length.toInt > data.length - position then
    .error (.eofException "Truncated protobuf field")
  else .ok ((), position + (length.setWidth 32).toNat)

end Cursor

/-! ## Fields -/

/-- `Field`.  `scalar` is set for wire type 0 and `bytes` for wire type 2; elsewhere they
hold the initial values, and no caller reads them. -/
structure Field where
  number : ℕ
  wire : ℕ
  scalar : JavaLong := 0
  bytes : Bytes := []
  raw : Bytes := []
  deriving DecidableEq, Repr

/-- The tag of a field, read at `position`: its number and wire type.  A tag that passes the
check has 32 bits, so the casts to `int` lose nothing. -/
def readTag (data : Bytes) (position : ℕ) : Except Throwable ((ℕ × ℕ) × ℕ) := do
  let (tag, position) ← Cursor.varint data position
  if tag.toInt ≤ 0 ∨ tag.toInt > 0xffffffff ∨ tag >>> 3 = 0 then
    .error (.ioException "Invalid protobuf tag")
  else .ok (((tag >>> 3).toNat, (tag &&& 7).toNat), position)

/-- The `while (true)` loop of a group: fields are read and dropped up to the end tag. -/
def readGroup (nested : ℕ → Except Throwable (Field × ℕ)) (number : ℕ) :
    ℕ → ℕ → Except Throwable (Unit × ℕ)
  | 0, _ => .error .unfinished
  | rounds + 1, position => do
      let (inner, position) ← nested position
      if inner.wire = 4 then
        if inner.number ≠ number then .error (.ioException "Mismatched protobuf group")
        else .ok ((), position)
      else readGroup nested number rounds position

/-- The `switch (field.wire)` of `field`: the value after the tag. -/
def readValue (data : Bytes) (nested : ℕ → Except Throwable (Field × ℕ))
    (number wire position : ℕ) :
    Except Throwable (Field × ℕ) :=
  match wire with
  | 0 => do
      let (scalar, position) ← Cursor.varint data position
      .ok ({ number, wire, scalar }, position)
  | 1 => do
      let ((), position) ← Cursor.skip data 8 position
      .ok ({ number, wire }, position)
  | 2 => do
      let (length, start) ← Cursor.varint data position
      let ((), position) ← Cursor.skip data length start
      let bytes ← copyOfRange data start position
      .ok ({ number, wire, bytes }, position)
  | 3 => do
      let ((), position) ← readGroup nested number (data.length + 1) position
      .ok ({ number, wire }, position)
  | 4 => .ok ({ number, wire }, position)
  | 5 => do
      let ((), position) ← Cursor.skip data 4 position
      .ok ({ number, wire }, position)
  | _ => .error (.ioException "Invalid protobuf wire type")

/-- `field(cursor, depth)`, where `levels = 101 - depth` nesting levels are left: the
recursion of the source goes from `depth` to `depth + 1` and stops past 100. -/
def field (data : Bytes) : ℕ → ℕ → Except Throwable (Field × ℕ)
  | 0, _ => .error (.ioException "Protobuf nesting limit exceeded")
  | levels + 1, start => do
      let ((number, wire), position) ← readTag data start
      let (result, position) ← readValue data (field data levels) number wire position
      let raw ← copyOfRange data start position
      .ok ({ result with raw }, position)

/-- The loop of `fields`, with a bound on its rounds. -/
def fieldsLoop (data : Bytes) : ℕ → ℕ → Except Throwable (List Field × ℕ)
  | rounds, position =>
      if position < data.length then
        match rounds with
        | 0 => .error .unfinished
        | rounds + 1 => do
            let (head, position) ← field data 101 position
            if head.wire = 4 then .error (.ioException "Unexpected protobuf end group")
            else do
              let (tail, position) ← fieldsLoop data rounds position
              .ok (head :: tail, position)
      else .ok ([], position)

/-- `fields`. -/
def fields (data : Bytes) : Except Throwable (List Field) := do
  let (fields, _) ← fieldsLoop data data.length 0
  .ok fields

/-! ## Writing -/

/-- The loop of `varint(OutputStream, long)`, with `rounds` of its rounds left; after nine of
them at most one of the 64 bits is left. -/
def varintRounds : ℕ → JavaLong → Bytes
  | 0, value => [UInt8.ofNat value.toNat]
  | rounds + 1, value =>
      if value &&& ~~~127 ≠ 0 then
        UInt8.ofNat ((value &&& 127) ||| 128).toNat :: varintRounds rounds (value >>> 7)
      else [UInt8.ofNat value.toNat]

/-- `varint(OutputStream, long)`. -/
def varint (value : JavaLong) : Bytes :=
  varintRounds 9 value

/-- `string`. -/
def string (number : ℕ) (value : String) : Bytes :=
  let bytes := getBytes value
  varint (BitVec.ofNat 64 (number * 8 + 2)) ++ (varint (BitVec.ofNat 64 bytes.length) ++ bytes)

/-! ## `Input` and `WorkRequest` -/

/-- `Input`. -/
structure Input where
  path : String := ""
  digest : Bytes := []
  deriving DecidableEq

/-- One round of the loop over the fields of an input. -/
def Input.entry (input : Input) (entry : Field) : Except Throwable Input := do
  let input ←
    if entry.number = 1 ∧ entry.wire = 2 then do
      let path ← decodeUtf8 entry.bytes
      .ok { input with path }
    else .ok input
  if entry.number = 2 ∧ entry.wire = 2 then .ok { input with digest := entry.bytes }
  else .ok input

def Input.decode (bytes : Bytes) : Except Throwable Input := do
  let entries ← fields bytes
  entries.foldlM Input.entry {}

namespace WorkRequest

/-- The fields of a `WorkRequest` object. -/
structure Contents where
  fields : List Field := []
  arguments : List String := []
  inputs : List Input := []
  requestId : JavaInt := 0
  deriving DecidableEq

/-- One round of the loop of the constructor. -/
def Contents.add (request : Contents) (field : Field) : Except Throwable Contents := do
  let request ←
    if field.number = 1 ∧ field.wire = 2 then do
      let argument ← decodeUtf8 field.bytes
      .ok { request with arguments := request.arguments ++ [argument] }
    else .ok request
  let request ←
    if field.number = 3 ∧ field.wire = 0 then
      .ok { request with requestId := field.scalar.setWidth 32 }
    else .ok request
  if field.number = 2 ∧ field.wire = 2 then do
    let input ← Input.decode field.bytes
    .ok { request with inputs := request.inputs ++ [input] }
  else .ok request

/-- What the constructor computes from a message. -/
def Contents.decode (bytes : Bytes) : Except Throwable Contents := do
  let fields ← WorkerProtocol.fields bytes
  fields.foldlM Contents.add { fields }

end WorkRequest

/-- `WorkRequest`.  Its only constructor decodes a byte array, so an object is kept together
with the array it came from. -/
structure WorkRequest extends WorkRequest.Contents where
  bytes : JavaBytes
  decodes : WorkRequest.Contents.decode bytes.1 = .ok toContents

namespace WorkRequest

/-- `new WorkRequest(bytes)`. -/
def ofBytes (bytes : JavaBytes) : Except Throwable WorkRequest :=
  match h : Contents.decode bytes.1 with
  | .ok contents => .ok ⟨contents, bytes, h⟩
  | .error thrown => .error thrown

/-- The bytes `withArguments` collects: the new arguments, then every field that is not an
argument. -/
def rewritten (request : WorkRequest) (args : List String) : Bytes :=
  args.flatMap (string 1) ++
    request.fields.flatMap fun field =>
      if field.number ≠ 1 ∨ field.wire ≠ 2 then field.raw else []

/-- `withArguments`. -/
def withArguments (request : WorkRequest) (args : List String) : Except Throwable WorkRequest := do
  let output ← JavaBytes.ofList (request.rewritten args)
  ofBytes output

/-- `create`. -/
def create (args : List String) : Except Throwable WorkRequest := do
  let empty ← ofBytes ⟨[], Nat.zero_le _⟩
  empty.withArguments args

/-- The `int length` that `writeDelimitedTo` sums up over the fields. -/
def lengthSum (fields : List Field) : JavaInt :=
  fields.foldl (fun length field => length + BitVec.ofNat 32 field.raw.length) 0

/-- `writeDelimitedTo`; the `int` length is widened to the `long` that `varint` takes. -/
def writeDelimitedTo (request : WorkRequest) : Bytes :=
  varint ((lengthSum request.fields).signExtend 64) ++ request.fields.flatMap Field.raw

end WorkRequest

/-! ## `WorkResponse` -/

/-- `WorkResponse`. -/
structure WorkResponse where
  bytes : Bytes
  exitCode : JavaInt := 0
  requestId : JavaInt := 0
  output : String := ""
  deriving DecidableEq

namespace WorkResponse

/-- One round of the loop of the constructor. -/
def add (response : WorkResponse) (field : Field) : Except Throwable WorkResponse := do
  let response :=
    if field.number = 1 ∧ field.wire = 0 then
      { response with exitCode := field.scalar.setWidth 32 }
    else response
  let response ←
    if field.number = 2 ∧ field.wire = 2 then do
      let output ← decodeUtf8 field.bytes
      .ok { response with output }
    else .ok response
  if field.number = 3 ∧ field.wire = 0 then
    .ok { response with requestId := field.scalar.setWidth 32 }
  else .ok response

/-- `new WorkResponse(bytes)`. -/
def ofBytes (bytes : Bytes) : Except Throwable WorkResponse := do
  let fields ← fields bytes
  fields.foldlM add { bytes }

/-- `WorkResponse.error`. -/
def error (requestId : JavaInt) (message : String) : Except Throwable WorkResponse := do
  let output ← JavaBytes.ofList
    (varint 8 ++ varint 1 ++ string 2 message ++ varint 24 ++ varint (requestId.signExtend 64))
  ofBytes output.1

/-- `writeDelimitedTo`. -/
def writeDelimitedTo (response : WorkResponse) : Bytes :=
  varint (BitVec.ofNat 64 response.bytes.length) ++ response.bytes

end WorkResponse

/-! ## Frames -/

/-- Code that reads an `InputStream`, whose remaining bytes are the state. -/
abbrev Stream := ExceptT Throwable (StateM Bytes)

/-- `InputStream.read()`: the next byte, or `-1` at the end. -/
def readByte : Stream ℤ := do
  match ← get with
  | [] => return -1
  | byte :: rest =>
      set rest
      return byte.toNat

/-- `InputStream.readNBytes(count)`: fewer bytes only at the end of the stream. -/
def readNBytes (count : ℕ) : Stream Bytes := do
  let bytes ← get
  set (bytes.drop count)
  return bytes.take count

/-- The loop `for (int shift = 7; value >= 128; shift += 7)` of `read`, where `rounds` more
bytes may follow, so that `shift` is `35 - 7 * rounds`. -/
def readLength : ℕ → ℤ → JavaLong → Stream JavaLong
  | rounds, value, length =>
      if value ≥ 128 then
        match rounds with
        | 0 => throw (.ioException "Invalid worker message length")
        | rounds + 1 => do
            let value ← readByte
            if value < 0 then throw (.eofException "Truncated worker message length")
            readLength rounds value
              (length ||| ((BitVec.ofInt 64 value &&& 127) <<< (28 - 7 * rounds)))
      else return length

/-- `read`. -/
def read : Stream (Option JavaBytes) := do
  let first ← readByte
  if first < 0 then return none
  let length ← readLength 4 first (BitVec.ofInt 64 first &&& 127)
  if length.toInt > maxMessage then throw (.ioException "Worker message exceeds 64 MiB")
  let bytes ← readNBytes (length.setWidth 32).toNat
  if (bytes.length : ℤ) ≠ length.toInt then throw (.eofException "Truncated worker message")
  let bytes ← MonadExcept.ofExcept (JavaBytes.ofList bytes)
  return some bytes

/-- `WorkRequest.parseDelimitedFrom`. -/
def WorkRequest.parseDelimitedFrom : Stream (Option WorkRequest) := do
  match ← read with
  | none => return none
  | some bytes =>
      let request ← MonadExcept.ofExcept (WorkRequest.ofBytes bytes)
      return some request

/-- `WorkResponse.parseDelimitedFrom`. -/
def WorkResponse.parseDelimitedFrom : Stream (Option WorkResponse) := do
  match ← read with
  | none => return none
  | some bytes =>
      let response ← MonadExcept.ofExcept (WorkResponse.ofBytes bytes.1)
      return some response

end RulesElide.WorkerProtocol
