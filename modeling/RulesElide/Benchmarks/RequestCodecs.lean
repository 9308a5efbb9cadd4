import RulesElide.Benchmarks.GenWorkrequest
import RulesElide.WorkerProtocol.Framing

/-!
# The two request codecs

`gen_workrequest.py` writes requests that `WorkerProtocol.java` reads.  Both spell a request as the
message of `message`: one field for each argument, then one for each input.  `codecs_agree` follows
such a message through both programs.
-/

namespace RulesElide.GenWorkrequest

open Effects WireFormat

/-! ## What the script writes -/

theorem varint_eq_encode (n : ℕ) : varint n = Varint.encode n := by
  induction n using Nat.strongRecOn with
  | ind n ih =>
      have hshift : n >>> 7 = n / 128 := Nat.shiftRight_eq_div_pow n 7
      have hmask : n &&& 0x7F = n % 128 := Nat.and_two_pow_sub_one_eq_mod n 7
      have hhigh : n % 128 ||| 0x80 = n % 128 + 128 := by
        rw [Nat.or_comm, Nat.add_comm]
        exact (Nat.two_pow_add_eq_or_of_lt (i := 7) (Nat.mod_lt n (by decide)) 1).symm
      rw [varint, hshift, hmask]
      rcases Nat.lt_or_ge n 128 with hsmall | hlarge
      · rw [if_pos (by omega), Varint.encode_of_lt hsmall, Nat.mod_eq_of_lt hsmall]
      · rw [if_neg (by omega), Varint.encode_of_ge hlarge, ih (n / 128) (by omega), hhigh]

theorem field_eq (number : ℕ) (data : Bytes) :
    field number data =
      Varint.encode (number * 8 + 2) ++ (Varint.encode data.length ++ data) := by
  rw [field, varint_eq_encode, varint_eq_encode, List.append_assoc]

/-- Fields one after the other. -/
def spellFields (parts : List (ℕ × Bytes)) : Bytes :=
  parts.flatMap fun part => field part.1 part.2

theorem length_le_spellFields {parts : List (ℕ × Bytes)} {part : ℕ × Bytes} (h : part ∈ parts) :
    part.2.length ≤ (spellFields parts).length := by
  have hfield : part.2.length ≤ (field part.1 part.2).length := by
    rw [field_eq, List.length_append, List.length_append]
    omega
  have hmem : field part.1 part.2 ∈ parts.map fun part : ℕ × Bytes => field part.1 part.2 :=
    List.mem_map_of_mem h
  exact hfield.trans (List.sublist_flatten_of_mem hmem).length_le

section Message

variable (sha256 : Bytes → Bytes) (content : String → Bytes) (arguments inputs : List String)

/-- The fields of an input. -/
def inputParts (path : String) : List (ℕ × Bytes) :=
  [(1, getBytes path), (2, sha256 (content path))]

/-- The fields of a request. -/
def requestParts : List (ℕ × Bytes) :=
  arguments.map (fun argument => (1, getBytes argument)) ++
    inputs.map fun path => (2, spellFields (inputParts sha256 content path))

/-- The message of a request. -/
def message : Bytes :=
  spellFields (requestParts sha256 content arguments inputs)

/-- The script writes the message after its length, if it can read the files. -/
theorem request_eq {readBytes : String → Except PythonError Bytes}
    (hreadable : ∀ path ∈ inputs, readBytes path = .ok (content path)) :
    request sha256 readBytes arguments inputs =
      .ok (Varint.encode (message sha256 content arguments inputs).length ++
        message sha256 content arguments inputs) := by
  -- every input is readable, so the loop appends one entry for each
  have hloop (msg : Bytes) : inputs.foldlM (fun msg path => do
      let content ← readBytes path
      let entry := field 1 (getBytes path) ++ field 2 (sha256 content)
      .ok (msg ++ field 2 entry)) msg =
        .ok (msg ++ spellFields (inputs.map fun path =>
          (2, spellFields (inputParts sha256 content path)))) := by
    induction inputs generalizing msg with
    | nil => exact congrArg Except.ok (List.append_nil msg).symm
    | cons path inputs ih =>
        obtain ⟨hpath, hinputs⟩ := List.forall_mem_cons.mp hreadable
        rw [List.foldlM_cons, hpath, List.map_cons, spellFields, List.flatMap_cons,
          ← List.append_assoc]
        refine (ih hinputs _).trans ?_
        simp [spellFields, inputParts]
  have hmessage : message sha256 content arguments inputs =
      (arguments.flatMap fun a => field 1 (getBytes a)) ++ spellFields (inputs.map fun path =>
        (2, spellFields (inputParts sha256 content path))) := by
    rw [message, requestParts, spellFields, spellFields, List.flatMap_append, List.flatMap_map]
  rw [request, hloop, Reader.ok_bind, varint_eq_encode, hmessage]

end Message

/-! ## What the script reads back -/

theorem isVarint_encode {value : ℕ} (hvalue : value < 2 ^ 64) :
    IsVarint value (Varint.encode value) :=
  ⟨Varint.encodes_encode value, (WireFormat.isVarint_encode hvalue).2.1⟩

theorem isField_field {number : ℕ} {data : Bytes} (hnumber : number ≤ 15)
    (hfits : data.length < 2 ^ 64) : IsField (number, .bytes data) (field number data) := by
  have htag : IsVarint (number * 8 + 2) (Varint.encode (number * 8 + 2)) :=
    isVarint_encode (by omega)
  have hfield := IsField.bytes htag (by omega) (isVarint_encode hfits)
  rwa [show (number * 8 + 2) / 8 = number by omega, ← field_eq] at hfield

/-- `fields` reads what `_field` wrote. -/
theorem fields_spellFields {parts : List (ℕ × Bytes)} (hnumber : ∀ part ∈ parts, part.1 ≤ 15)
    (hfits : (spellFields parts).length < 2 ^ 64) :
    fields (spellFields parts) = .ok (parts.map fun part => (part.1, .bytes part.2)) := by
  refine fields_eq_ok_iff.mpr ⟨parts.map fun part : ℕ × Bytes => field part.1 part.2, ?_, rfl⟩
  rw [List.forall₂_map_left_iff, List.forall₂_map_right_iff, List.forall₂_same]
  exact fun part hpart =>
    isField_field (hnumber part hpart) ((length_le_spellFields hpart).trans_lt hfits)

/-! ## What the worker reads -/

/-- What the worker reads where the script wrote a field. -/
def token (part : ℕ × Bytes) : Token :=
  ⟨part.1, .lengthDelimited part.2, field part.1 part.2⟩

theorem isMessage_spellFields {depth : ℕ} {parts : List (ℕ × Bytes)}
    (hnumber : ∀ part ∈ parts, 1 ≤ part.1 ∧ part.1 ≤ 15)
    (hfits : (spellFields parts).length < 2 ^ 64) :
    WireFormat.IsMessage depth (spellFields parts) (parts.map token) := by
  refine ⟨fun token htoken => ?_, ?_⟩
  · obtain ⟨part, hpart, rfl⟩ := List.mem_map.mp htoken
    obtain ⟨hpos, hle⟩ := hnumber part hpart
    rw [GenWorkrequest.token, field_eq]
    refine WireFormat.IsField.lengthDelimited ?_
      (WireFormat.isVarint_encode ((length_le_spellFields hpart).trans_lt hfits))
    rw [Nat.mul_comm]
    exact isTag_encode hpos (by omega) (by omega)
  · rw [spell, List.flatMap_map]
    rfl

open WorkerProtocol

section Message

variable {sha256 : Bytes → Bytes} {content : String → Bytes} {arguments inputs : List String}

theorem number_of_mem_inputParts {path : String} :
    ∀ part ∈ inputParts sha256 content path, 1 ≤ part.1 ∧ part.1 ≤ 15 := by
  simp [inputParts]

theorem number_of_mem_requestParts :
    ∀ part ∈ requestParts sha256 content arguments inputs, 1 ≤ part.1 ∧ part.1 ≤ 15 := by
  intro part hpart
  rcases List.mem_append.mp hpart with hargument | hinput
  · obtain ⟨argument, _, rfl⟩ := List.mem_map.mp hargument
    exact ⟨le_rfl, show 1 ≤ 15 by decide⟩
  · obtain ⟨path, _, rfl⟩ := List.mem_map.mp hinput
    exact ⟨show 1 ≤ 2 by decide, show 2 ≤ 15 by decide⟩

/-- An input as the worker sees it. -/
def inputOf (sha256 : Bytes → Bytes) (content : String → Bytes) (path : String) : Input where
  path := path
  digest := sha256 (content path)

theorem encodesInput (path : String) :
    EncodesInput ((inputParts sha256 content path).map token) (inputOf sha256 content path) :=
  EncodesInput.digest (EncodesInput.path EncodesInput.empty)

theorem encodes_arguments :
    EncodesRequest (arguments.map fun argument => token (1, getBytes argument)) { arguments } := by
  induction arguments using List.reverseRecOn with
  | nil => exact EncodesRequest.empty
  | append_singleton arguments argument ih =>
      rw [List.map_append]
      exact EncodesRequest.argument ih

theorem encodes_inputs {tokens : List Token} {message : Message} (h : EncodesRequest tokens message)
    (hfits : ∀ path ∈ inputs, (spellFields (inputParts sha256 content path)).length < 2 ^ 64) :
    EncodesRequest
      (tokens ++ inputs.map fun path => token (2, spellFields (inputParts sha256 content path)))
      { message with inputs := message.inputs ++ inputs.map (inputOf sha256 content) } := by
  induction inputs generalizing tokens message with
  | nil =>
      rw [List.map_nil, List.map_nil, List.append_nil, List.append_nil]
      exact h
  | cons path inputs ih =>
      obtain ⟨hpath, hinputs⟩ := List.forall_mem_cons.mp hfits
      have hinput : EncodesRequest
          (tokens ++ [token (2, spellFields (inputParts sha256 content path))])
          { message with inputs := message.inputs ++ [inputOf sha256 content path] } :=
        EncodesRequest.input h (isMessage_spellFields number_of_mem_inputParts hpath)
          (encodesInput path)
      have hlater := ih hinput hinputs
      rw [List.append_assoc, List.append_assoc] at hlater
      exact hlater

/-- The message encodes the request for the worker. -/
theorem encodesRequest (hfits : (message sha256 content arguments inputs).length < 2 ^ 64) :
    EncodesRequest ((requestParts sha256 content arguments inputs).map token)
      { arguments, inputs := inputs.map (inputOf sha256 content) } := by
  have hinputs : ∀ path ∈ inputs,
      (spellFields (inputParts sha256 content path)).length < 2 ^ 64 := fun path hpath =>
    (length_le_spellFields (List.mem_append_right _ (List.mem_map_of_mem hpath))).trans_lt hfits
  rw [requestParts, List.map_append, List.map_map, List.map_map]
  exact encodes_inputs encodes_arguments hinputs

/-- The request that the worker reads. -/
def workRequest (hfits : (message sha256 content arguments inputs).length ≤ maxInt) :
    WorkRequest where
  fields := ((requestParts sha256 content arguments inputs).map token).map Field.ofToken
  arguments := arguments
  inputs := inputs.map (inputOf sha256 content)
  requestId := 0
  bytes := ⟨message sha256 content arguments inputs, hfits⟩
  decodes := by
    have hsmall : (message sha256 content arguments inputs).length < 2 ^ 64 :=
      hfits.trans_lt (by decide)
    let bytes : JavaBytes := ⟨message sha256 content arguments inputs, hfits⟩
    have hbytes : WireFormat.IsMessage 100 bytes.1
        ((requestParts sha256 content arguments inputs).map token) :=
      isMessage_spellFields number_of_mem_requestParts hsmall
    exact decode_of_encodes hbytes (encodesRequest hsmall)

/-- The two programs write an argument alike. -/
theorem string_eq_field {argument : String} (hfits : (getBytes argument).length ≤ maxInt) :
    string 1 argument = field 1 (getBytes argument) := by
  rw [string, varint_ofNat hfits, varint_ofNat (by decide), field_eq]

/-- The arguments come first in what the script writes, so they stay where they are. -/
theorem rewritten_workRequest
    (hfits : (message sha256 content arguments inputs).length ≤ maxInt) :
    (workRequest hfits).rewritten arguments = message sha256 content arguments inputs := by
  let inputFields := inputs.map fun path =>
    Field.ofToken (token (2, spellFields (inputParts sha256 content path)))
  have hfields : (workRequest hfits).fields =
      arguments.map (fun argument => Field.ofToken (token (1, getBytes argument))) ++
        inputFields := by
    simp only [workRequest, requestParts, inputFields, List.map_append, List.map_map]
    rfl
  -- the new arguments take the place of the old, and the inputs stay behind them
  have harguments : (arguments.map fun argument =>
      Field.ofToken (token (1, getBytes argument))).filter (!·.isArgument) = [] := by
    rw [List.filter_eq_nil_iff]
    intro field hfield
    obtain ⟨argument, _, rfl⟩ := List.mem_map.mp hfield
    simp [Field.ofToken, token, Value.wireType, Field.isArgument]
  have hinputs : inputFields.filter (!·.isArgument) = inputFields := by
    rw [List.filter_eq_self]
    intro field hfield
    obtain ⟨path, _, rfl⟩ := List.mem_map.mp hfield
    simp [Field.ofToken, token, Field.isArgument]
  have hstrings : arguments.flatMap (string 1) =
      spellFields (arguments.map fun argument => (1, getBytes argument)) := by
    rw [spellFields, List.flatMap_map]
    refine List.flatMap_congr fun argument hargument => string_eq_field ?_
    exact (length_le_spellFields
      (List.mem_append_left _ (List.mem_map_of_mem hargument))).trans hfits
  rw [WorkRequest.rewritten_eq, hfields, List.filter_append, harguments, hinputs, hstrings,
    List.nil_append]
  simp only [inputFields, message, requestParts, spellFields, List.flatMap_append,
    List.flatMap_map]
  rfl

theorem writeDelimitedTo_workRequest
    (hfits : (message sha256 content arguments inputs).length ≤ maxInt) :
    (workRequest hfits).writeDelimitedTo =
      Varint.encode (message sha256 content arguments inputs).length ++
        message sha256 content arguments inputs :=
  (workRequest hfits).writeDelimitedTo_eq

end Message

/-- **The codecs agree.**  A worker reads the frame that the script writes, and nothing beyond it,
as a request of the same arguments and inputs; the script's own reader finds the same data in the
message and in every input; and the worker writes the request with its own arguments back as it
was. -/
theorem codecs_agree (sha256 : Bytes → Bytes) (readBytes : String → Except PythonError Bytes)
    (content : String → Bytes) (arguments inputs : List String)
    (hreadable : ∀ path ∈ inputs, readBytes path = .ok (content path))
    (hsmall : (message sha256 content arguments inputs).length ≤ maxMessage) :
    ∃ (frame : Bytes) (read rewritten : WorkRequest) (entries : List Bytes),
      request sha256 readBytes arguments inputs = .ok frame ∧
      frame = varint (message sha256 content arguments inputs).length ++
        message sha256 content arguments inputs ∧
      (∀ left, run WorkRequest.parseDelimitedFrom (frame ++ left) = (.ok (some read), left)) ∧
      read.arguments = arguments ∧
      read.inputs = inputs.map (fun path => { path, digest := sha256 (content path) }) ∧
      read.requestId = 0 ∧
      fields (message sha256 content arguments inputs) =
        .ok (arguments.map (fun argument => (1, .bytes (getBytes argument))) ++
          entries.map fun entry => (2, .bytes entry)) ∧
      List.Forall₂ (fun path entry => fields entry =
        .ok [(1, .bytes (getBytes path)), (2, .bytes (sha256 (content path)))]) inputs entries ∧
      read.withArguments read.arguments = .ok rewritten ∧
      rewritten.writeDelimitedTo = frame := by
  have hfits : (message sha256 content arguments inputs).length ≤ maxInt :=
    hsmall.trans (by decide)
  have hlarge : (message sha256 content arguments inputs).length < 2 ^ 64 :=
    hfits.trans_lt (by decide)
  -- the message with its own arguments put in again is the same message
  have hrewritten := rewritten_workRequest hfits
  have hfits' : ((workRequest hfits).rewritten arguments).length ≤ maxInt := hrewritten.symm ▸ hfits
  refine ⟨(workRequest hfits).writeDelimitedTo, workRequest hfits, _,
    inputs.map fun path => spellFields (inputParts sha256 content path), ?_, ?_,
    fun left => WorkRequest.parseDelimitedFrom_frame hsmall left, rfl, rfl, rfl, ?_, ?_,
    (workRequest hfits).withArguments_of_le hfits', ?_⟩
  · rw [request_eq sha256 content arguments inputs hreadable, writeDelimitedTo_workRequest]
  · rw [writeDelimitedTo_workRequest, varint_eq_encode]
  · refine (fields_spellFields (fun part hpart => ?_) hlarge).trans ?_
    · exact (number_of_mem_requestParts part hpart).2
    · rw [requestParts, List.map_append, List.map_map, List.map_map, List.map_map]
      rfl
  · rw [List.forall₂_map_right_iff, List.forall₂_same]
    intro path hpath
    refine fields_spellFields (fun part hpart => (number_of_mem_inputParts part hpart).2) ?_
    exact (length_le_spellFields
      (List.mem_append_right _ (List.mem_map_of_mem hpath))).trans_lt hlarge
  · rw [WorkRequest.writeDelimitedTo_eq, writeDelimitedTo_workRequest]
    simp only [hrewritten]

/-- The digest of the five bytes `first`. -/
def digestOfFirst : Bytes :=
  [0xa7, 0x93, 0x7b, 0x64, 0xb8, 0xca, 0xa5, 0x8f, 0x03, 0x72, 0x1b, 0xb6, 0xba, 0xcf, 0x5c,
   0x78, 0xcb, 0x23, 0x5f, 0xeb, 0xe0, 0xe7, 0x0b, 0x1b, 0x84, 0xcd, 0x99, 0x54, 0x14, 0x61,
   0xa0, 0x8e]

theorem codecs_agree_sample :
    ∃ (frame : Bytes) (read : WorkRequest),
      request (fun _ => digestOfFirst) (fun path =>
        if path = "a.jar" then .ok (getBytes "first") else .error (.osError "No such file"))
        ["--", "a.jar"] ["a.jar"] = .ok frame ∧
      run WorkRequest.parseDelimitedFrom frame = (.ok (some read), []) ∧
      read.arguments = ["--", "a.jar"] ∧ read.inputs = [⟨"a.jar", digestOfFirst⟩] := by
  have hlength : (message (fun _ => digestOfFirst) (fun _ => getBytes "first") ["--", "a.jar"]
      ["a.jar"]).length ≤ maxMessage := by
    have hoption : getBytes "--" = [45, 45] := by decide
    have hpath : getBytes "a.jar" = [97, 46, 106, 97, 114] := by decide
    simp [message, requestParts, inputParts, spellFields, field_eq, Varint.encode_of_lt, hoption,
      hpath, digestOfFirst, maxMessage]
  obtain ⟨frame, read, _, _, hrequest, -, hread, harguments, hinputs, -⟩ :=
    codecs_agree (fun _ => digestOfFirst) (fun path =>
        if path = "a.jar" then .ok (getBytes "first") else .error (.osError "No such file"))
      (fun _ => getBytes "first") ["--", "a.jar"] ["a.jar"] (by simp) hlength
  have hall := hread []
  rw [List.append_nil] at hall
  exact ⟨frame, read, hrequest, hall, harguments, hinputs⟩

end RulesElide.GenWorkrequest
