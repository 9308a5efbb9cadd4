import RulesElide.Library.Varint

/-!
# The protobuf wire grammar

The byte strings that are protobuf messages, without a schema: a message is a sequence of
fields, a field is a tag followed by a value whose shape the low three bits of the tag
select, and a group is a value that holds fields of its own up to a closing tag of the same
number.  The number of groups that may be nested is a parameter of the grammar.
-/

namespace WireFormat

/-- A varint as protobuf reads it: at most ten bytes, and the tenth carries a single bit. -/
def IsVarint (bytes : List UInt8) (value : ℕ) : Prop :=
  Varint.Encodes bytes value ∧ bytes.length ≤ 10 ∧ ∀ tenth ∈ bytes[9]?, tenth.toNat ≤ 1

/-- A tag: the varint of `8 * number + wireType`, in 32 bits, with a nonzero number. -/
def IsTag (bytes : List UInt8) (number wireType : ℕ) : Prop :=
  ∃ tag, IsVarint bytes tag ∧ 1 ≤ tag ∧ tag ≤ 2 ^ 32 - 1 ∧
    number = tag / 8 ∧ wireType = tag % 8 ∧ 1 ≤ number

/-- What a field holds. -/
inductive Value
  | varint (value : ℕ)
  | fixed64 (bytes : List UInt8)
  | lengthDelimited (payload : List UInt8)
  | group
  | fixed32 (bytes : List UInt8)

/-- The wire type that announces a value. -/
def Value.wireType : Value → ℕ
  | .varint _ => 0
  | .fixed64 _ => 1
  | .lengthDelimited _ => 2
  | .group => 3
  | .fixed32 _ => 5

/-- The wire type of the tag that closes a group. -/
def endGroup : ℕ := 4

/-- A field of a message: its number, what it holds, and the bytes that spell it. -/
structure Token where
  number : ℕ
  value : Value
  raw : List UInt8

/-- The bytes of a sequence of fields. -/
def spell (tokens : List Token) : List UInt8 :=
  tokens.flatMap Token.raw

/-- `IsField depth token`: the bytes of `token` spell it, and inside it groups are nested at
most `depth` deep. -/
inductive IsField : ℕ → Token → Prop
  | varint {depth number value : ℕ} {tag bytes : List UInt8} (htag : IsTag tag number 0)
      (hvalue : IsVarint bytes value) : IsField depth ⟨number, .varint value, tag ++ bytes⟩
  | fixed64 {depth number : ℕ} {tag bytes : List UInt8} (htag : IsTag tag number 1)
      (hlength : bytes.length = 8) : IsField depth ⟨number, .fixed64 bytes, tag ++ bytes⟩
  | lengthDelimited {depth number : ℕ} {tag length payload : List UInt8}
      (htag : IsTag tag number 2) (hlength : IsVarint length payload.length) :
      IsField depth ⟨number, .lengthDelimited payload, tag ++ (length ++ payload)⟩
  | group {depth number : ℕ} {tag close : List UInt8} {body : List Token}
      (htag : IsTag tag number 3) (hbody : ∀ token ∈ body, IsField depth token)
      (hclose : IsTag close number endGroup) :
      IsField (depth + 1) ⟨number, .group, tag ++ (spell body ++ close)⟩
  | fixed32 {depth number : ℕ} {tag bytes : List UInt8} (htag : IsTag tag number 5)
      (hlength : bytes.length = 4) : IsField depth ⟨number, .fixed32 bytes, tag ++ bytes⟩

/-- `IsMessage depth bytes tokens`: `bytes` is the message made of the fields `tokens`. -/
def IsMessage (depth : ℕ) (bytes : List UInt8) (tokens : List Token) : Prop :=
  (∀ token ∈ tokens, IsField depth token) ∧ spell tokens = bytes

@[simp] theorem spell_nil : spell [] = [] := rfl

@[simp] theorem spell_cons (token : Token) (tokens : List Token) :
    spell (token :: tokens) = token.raw ++ spell tokens := rfl

@[simp] theorem spell_append (first second : List Token) :
    spell (first ++ second) = spell first ++ spell second := by
  simp [spell]

/-! ## The last of several fields -/

/-- The number that a varint field of this number holds. -/
def Token.varintAt (number : ℕ) (token : Token) : Option ℕ :=
  match token.value with
  | .varint value => if token.number = number then some value else none
  | _ => none

/-- The bytes that a length-delimited field of this number holds. -/
def Token.payloadAt (number : ℕ) (token : Token) : Option (List UInt8) :=
  match token.value with
  | .lengthDelimited payload => if token.number = number then some payload else none
  | _ => none

def lastVarint (number : ℕ) (tokens : List Token) : Option ℕ :=
  (tokens.filterMap (Token.varintAt number)).getLast?

def lastPayload (number : ℕ) (tokens : List Token) : Option (List UInt8) :=
  (tokens.filterMap (Token.payloadAt number)).getLast?

@[simp] theorem lastVarint_concat (number : ℕ) (tokens : List Token) (token : Token) :
    lastVarint number (tokens ++ [token]) =
      (token.varintAt number).or (lastVarint number tokens) := by
  cases h : token.varintAt number <;> simp [lastVarint, h]

@[simp] theorem lastPayload_concat (number : ℕ) (tokens : List Token) (token : Token) :
    lastPayload number (tokens ++ [token]) =
      (token.payloadAt number).or (lastPayload number tokens) := by
  cases h : token.payloadAt number <;> simp [lastPayload, h]

/-! ## Varints of ten bytes -/

theorem tenth_le_iff {bytes : List UInt8} {value : ℕ} (h : Varint.Encodes bytes value)
    {count : ℕ} (hlength : bytes.length ≤ count + 1) :
    (∀ last ∈ bytes[count]?, last.toNat ≤ 1) ↔ value < 2 ^ (7 * count + 1) := by
  induction h generalizing count with
  | @last byte hlast =>
      cases count with
      | zero => simp
      | succ count =>
          have hpow : 2 ^ 8 ≤ 2 ^ (7 * (count + 1) + 1) :=
            Nat.pow_le_pow_right (by omega) (by omega)
          simp only [List.getElem?_cons_succ, List.getElem?_nil, Option.mem_def, reduceCtorEq,
            false_implies, implies_true, true_iff]
          omega
  | @more byte rest value hmore hrest ih =>
      cases count with
      | zero =>
          have := hrest.length_pos
          simp only [List.length_cons] at hlength
          omega
      | succ count =>
          -- each byte before the tenth carries seven bits
          have hpow : 2 ^ (7 * (count + 1) + 1) = 2 ^ (7 * count + 1) * 128 := by
            rw [Nat.mul_succ, show 7 * count + 7 + 1 = 7 * count + 1 + 7 by omega, Nat.pow_add]
          rw [List.getElem?_cons_succ, ih (by simpa using hlength), hpow]
          omega

/-- Ten bytes whose tenth is at most one carry exactly the numbers of 64 bits. -/
theorem isVarint_iff {bytes : List UInt8} {value : ℕ} :
    IsVarint bytes value ↔
      Varint.Encodes bytes value ∧ bytes.length ≤ 10 ∧ value < 2 ^ 64 := by
  constructor
  · rintro ⟨hencodes, hlength, htenth⟩
    exact ⟨hencodes, hlength, (tenth_le_iff hencodes hlength).mp htenth⟩
  · rintro ⟨hencodes, hlength, hvalue⟩
    exact ⟨hencodes, hlength, (tenth_le_iff hencodes hlength).mpr hvalue⟩

/-- The shortest varint of a 64-bit number is one protobuf reads. -/
theorem isVarint_encode {value : ℕ} (hvalue : value < 2 ^ 64) :
    IsVarint (Varint.encode value) value :=
  isVarint_iff.mpr ⟨Varint.encodes_encode value,
    Varint.length_encode_le (by omega)
      (hvalue.trans_le (Nat.pow_le_pow_right (by omega) (by omega))), hvalue⟩

theorem IsVarint.length_pos {bytes : List UInt8} {value : ℕ} (h : IsVarint bytes value) :
    0 < bytes.length :=
  h.1.length_pos

theorem IsTag.length_pos {bytes : List UInt8} {number wireType : ℕ}
    (h : IsTag bytes number wireType) : 0 < bytes.length := by
  obtain ⟨tag, htag, _⟩ := h
  exact htag.length_pos

/-- The shortest tag of a field number. -/
theorem isTag_encode {number wireType : ℕ} (hnumber : 1 ≤ number) (hwire : wireType < 8)
    (htag : 8 * number + wireType ≤ 2 ^ 32 - 1) :
    IsTag (Varint.encode (8 * number + wireType)) number wireType :=
  ⟨8 * number + wireType, isVarint_encode (by omega), by omega, htag, by omega, by omega, hnumber⟩

/-- Every field has at least the byte of its tag. -/
theorem IsField.length_pos {depth : ℕ} {token : Token} (h : IsField depth token) :
    0 < token.raw.length := by
  cases h <;> rename_i htag _ <;> simp only [List.length_append] <;>
    exact Nat.lt_of_lt_of_le (IsTag.length_pos (by assumption)) (Nat.le_add_right _ _)

end WireFormat
