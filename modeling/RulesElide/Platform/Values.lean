import Mathlib

/-!
# Java values

The fixed-width integers, byte arrays and exceptions of the JVM, as far as the modelled
code observes them.  An `int` that counts something (an index, a length, a field number)
is a `ℕ` in the model; an `int` or `long` whose bits matter is a `BitVec`.
-/

namespace RulesElide

abbrev Bytes := List UInt8

/-- A Java `int` whose bits matter. -/
abbrev JavaInt := BitVec 32

/-- A Java `long`. -/
abbrev JavaLong := BitVec 64

/-- `Integer.MAX_VALUE`. -/
def maxInt : ℕ := 2 ^ 31 - 1

/-- A Java `byte[]`: the length of an array is an `int`. -/
abbrev JavaBytes := {bytes : Bytes // bytes.length ≤ maxInt}

/-- What a modelled call may throw.  `unfinished` is no Java exception: it marks a `while`
loop that the model stopped before the loop ended. -/
inductive Throwable
  | ioException (message : String)
  | eofException (message : String)
  | malformedInput
  | arrayIndexOutOfBounds
  | illegalArgument (message : String)
  | illegalState (message : String)
  | nullPointer
  | securityException (message : String)
  | noSuchElement (message : String)
  | outOfMemory
  | unfinished
  deriving DecidableEq, Repr

/-- The subclasses of `java.io.IOException`. -/
def Throwable.IsIOException : Throwable → Prop
  | .ioException _ | .eofException _ | .malformedInput => True
  | _ => False

/-- The subclasses of `java.lang.Exception`: what `catch (Exception failure)` catches. -/
def Throwable.isException : Throwable → Bool
  | .outOfMemory | .unfinished => false
  | _ => true

/-- Allocating an array: past `Integer.MAX_VALUE` the JVM throws `OutOfMemoryError`. -/
def JavaBytes.ofList (bytes : Bytes) : Except Throwable JavaBytes :=
  if h : bytes.length ≤ maxInt then .ok ⟨bytes, h⟩ else .error .outOfMemory

/-- `data[index]`. -/
def byteAt (data : Bytes) (index : ℕ) : Except Throwable UInt8 :=
  match data[index]? with
  | some byte => .ok byte
  | none => .error .arrayIndexOutOfBounds

/-- `Arrays.copyOfRange`: past the end of the array the copy is padded with zeros. -/
def copyOfRange (data : Bytes) (first last : ℕ) : Except Throwable Bytes :=
  if last < first then .error (.illegalArgument s!"{first} > {last}")
  else if data.length < first then .error .arrayIndexOutOfBounds
  else .ok ((data.drop first).take (last - first) ++ List.replicate (last - data.length) 0)

/-- A cast to a wider integer and back changes nothing. -/
theorem setWidth_signExtend {width wider : ℕ} (value : BitVec width) (h : width ≤ wider) :
    (value.signExtend wider).setWidth width = value := by
  ext index hindex
  simp [BitVec.getLsbD_signExtend, hindex]
  omega

theorem JavaBytes.ofList_of_le {bytes : Bytes} (h : bytes.length ≤ maxInt) :
    JavaBytes.ofList bytes = .ok ⟨bytes, h⟩ := by
  rw [JavaBytes.ofList, dif_pos h]

theorem JavaBytes.ofList_of_lt {bytes : Bytes} (h : maxInt < bytes.length) :
    JavaBytes.ofList bytes = .error .outOfMemory := by
  rw [JavaBytes.ofList, dif_neg (not_le.mpr h)]

end RulesElide
