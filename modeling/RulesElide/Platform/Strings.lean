import RulesElide.Library.Framing
import RulesElide.Platform.Values

/-!
# Strings of the JDK and the Kotlin standard library

A well-formed Java string is a sequence of Unicode scalar values, which is what a Lean
`String` is.  The operations below are those the modelled code calls, read off the list of
characters; where Java compares UTF-16 code units, so does the model.
-/

namespace RulesElide

/-- `value.getBytes(StandardCharsets.UTF_8)`. -/
def getBytes (value : String) : Bytes :=
  value.toByteArray.data.toList

/-- `StandardCharsets.UTF_8.newDecoder().decode(…)`: a decoder that reports malformed input
instead of replacing it. -/
def decodeUtf8 (bytes : Bytes) : Except Throwable String :=
  match String.fromUTF8? ⟨bytes.toArray⟩ with
  | some value => .ok value
  | none => .error .malformedInput

def startsWith (value text : String) : Bool :=
  text.toList.isPrefixOf value.toList

def endsWith (value text : String) : Bool :=
  text.toList.isSuffixOf value.toList

/-- The UTF-16 code units of a character: one, or a surrogate pair. -/
def utf16Units (character : Char) : List ℕ :=
  let code := character.toNat
  if code < 0x10000 then [code]
  else [0xD800 + (code - 0x10000) / 0x400, 0xDC00 + (code - 0x10000) % 0x400]

/-- The UTF-16 code units of a string. -/
def utf16 (value : String) : List ℕ :=
  value.toList.flatMap utf16Units

/-- `first.compareTo(second) <= 0`: lexicographic in UTF-16 code units. -/
def compareToLe (first second : String) : Prop :=
  utf16 first ≤ utf16 second

instance : DecidableRel compareToLe := fun first second =>
  inferInstanceAs (Decidable (utf16 first ≤ utf16 second))

/-- `value.split(Pattern.quote(separator))`: without a match the value itself, and otherwise the
parts between the matches, less the empty ones at the end. -/
def split (separator : Char) (value : String) : List String :=
  if separator ∈ value.toList then
    ((value.toList.splitOn separator).map String.ofList).rdropWhile (· = "")
  else [value]

/-- The parts of a value between the separators. -/
def parts (separator : Char) (value : String) : List String :=
  (value.toList.splitOn separator).map String.ofList

/-- `list.indexOf(value)`: `-1` when the value does not occur. -/
def indexOf (list : List String) (value : String) : ℤ :=
  match list.idxOf? value with
  | some index => index
  | none => -1

/-- `text in value`. -/
def contains (value text : String) : Bool :=
  text.toList <:+: value.toList

/-- `value.removePrefix(text)`. -/
def removePrefix (value text : String) : String :=
  if startsWith value text then String.ofList (value.toList.drop text.length) else value

/-- `value.substringAfterLast(delimiter)`: the whole value when there is no delimiter. -/
def substringAfterLast (value : String) (delimiter : Char) : String :=
  String.ofList (value.toList.rtakeWhile (· ≠ delimiter))

/-- `value.substringAfter(delimiter)`: the whole value when there is no delimiter. -/
def substringAfter (value : String) (delimiter : Char) : String :=
  if delimiter ∈ value.toList then
    String.ofList ((value.toList.dropWhile (· ≠ delimiter)).drop 1)
  else value

/-- The lines of a reader from some point on; `line` is what was read of the current line. -/
def linesFrom (line : List Char) : List Char → List String
  | [] => if line = [] then [] else [String.ofList line]
  | '\r' :: '\n' :: rest => String.ofList line :: linesFrom [] rest
  | character :: rest =>
      if character = '\n' ∨ character = '\r' then String.ofList line :: linesFrom [] rest
      else linesFrom (line ++ [character]) rest

/-- `readAllLines` and `readLines`, once the bytes are decoded. -/
def lines (text : String) : List String :=
  linesFrom [] text.toList

/-- `character.isWhitespace()`. -/
def isWhitespace (character : Char) : Bool :=
  let code := character.toNat
  (9 ≤ code && code ≤ 13) || (28 ≤ code && code ≤ 32) || code = 0xA0 || code = 0x1680 ||
    (0x2000 ≤ code && code ≤ 0x200A) || code = 0x2028 || code = 0x2029 || code = 0x202F ||
    code = 0x205F || code = 0x3000

/-- `value.trim()`. -/
def trim (value : String) : String :=
  String.ofList ((value.toList.dropWhile isWhitespace).rdropWhile isWhitespace)

/-! ## Parts -/

theorem notMem_of_mem_splitOn {separator : Char} {text part : List Char}
    (h : part ∈ text.splitOn separator) : separator ∉ part := by
  induction text generalizing part with
  | nil =>
      rw [List.splitOn_nil, List.mem_singleton] at h
      exact h ▸ List.not_mem_nil
  | cons character text ih =>
      rw [List.splitOn, List.splitOnP_cons_eq_if_modifyHead] at h
      split at h
      · rcases List.mem_cons.mp h with rfl | hlater
        · exact List.not_mem_nil
        · exact ih hlater
      · rename_i hother
        -- the character joins the first part of the rest
        obtain ⟨first, parts, hparts⟩ := List.exists_cons_of_ne_nil
          (List.splitOnP_ne_nil (· == separator) text)
        rw [hparts, List.modifyHead_cons] at h
        have hfirst : first ∈ text.splitOn separator := by
          rw [List.splitOn, hparts]
          exact List.mem_cons_self
        rcases List.mem_cons.mp h with rfl | hlater
        · rw [List.mem_cons, not_or]
          exact ⟨fun heq => hother (by simp [heq]), ih hfirst⟩
        · refine ih ?_
          rw [List.splitOn, hparts]
          exact List.mem_cons_of_mem _ hlater

theorem notMem_of_mem_parts {separator : Char} {value part : String}
    (h : part ∈ parts separator value) : separator ∉ part.toList := by
  obtain ⟨text, htext, rfl⟩ := List.mem_map.mp h
  rw [String.toList_ofList]
  exact notMem_of_mem_splitOn htext

/-- Values without a separator can be read off their join. -/
theorem parts_intercalate {separator : Char} {values : List String}
    (h : ∀ value ∈ values, separator ∉ value.toList) (hne : values ≠ []) :
    parts separator (separator.toString.intercalate values) = values := by
  have hparts : ∀ part ∈ values.map String.toList, separator ∉ part := by
    intro part hpart
    obtain ⟨value, hvalue, rfl⟩ := List.mem_map.mp hpart
    exact h value hvalue
  have htexts : (values.map String.toList).map String.ofList = values := by
    rw [List.map_map]
    exact (List.map_congr_left fun value _ => String.ofList_toList).trans (List.map_id _)
  rw [parts, String.toList_intercalate, Char.toString, String.toList_singleton,
    List.splitOn_intercalate separator hparts (by simpa using hne), htexts]

theorem parts_ne_nil (separator : Char) (value : String) : parts separator value ≠ [] :=
  fun h => List.splitOn_ne_nil _ _ (List.map_eq_nil_iff.mp h)

/-- A value is the join of its parts. -/
theorem intercalate_parts (separator : Char) (value : String) :
    separator.toString.intercalate (parts separator value) = value := by
  have htexts : ((value.toList.splitOn separator).map String.ofList).map String.toList =
      value.toList.splitOn separator := by
    rw [List.map_map]
    exact (List.map_congr_left fun part _ => String.toList_ofList).trans (List.map_id _)
  apply String.toList_injective
  rw [String.toList_intercalate, Char.toString, String.toList_singleton, parts, htexts,
    List.intercalate_splitOn]

theorem parts_append (separator : Char) (first second : String) :
    parts separator (first ++ separator.toString ++ second) =
      parts separator first ++ parts separator second := by
  rw [parts, String.toList_append, String.toList_append, Char.toString, String.toList_singleton,
    List.append_assoc, List.singleton_append, List.splitOn_append_cons_self, List.map_append]
  rfl

theorem intercalate_ne_empty {separator : String} {values : List String}
    (h : ∀ value ∈ values, value ≠ "") (hne : values ≠ []) : separator.intercalate values ≠ "" := by
  obtain ⟨first, rest, rfl⟩ := List.exists_cons_of_ne_nil hne
  intro hempty
  have hfirst : first ≠ "" := h first List.mem_cons_self
  cases rest with
  | nil => exact hfirst (String.intercalate_singleton.symm.trans hempty)
  | cons second rest =>
      rw [String.intercalate_cons_cons, String.append_assoc, String.append_eq_empty_iff] at hempty
      exact hfirst hempty.1

/-- A value behind a separator, unless it is the first one. -/
def joinWith (separator joined value : String) : String :=
  if joined = "" then value else joined ++ separator ++ value

/-- A loop that joins values, none of them empty. -/
theorem foldl_joinWith {separator : String} {values : List String}
    (h : ∀ value ∈ values, value ≠ "") :
    values.foldl (joinWith separator) "" = separator.intercalate values := by
  induction values using List.reverseRecOn with
  | nil => rfl
  | append_singleton values value ih =>
      have hvalues : ∀ other ∈ values, other ≠ "" :=
        fun other hother => h other (List.mem_append_left _ hother)
      rw [List.foldl_concat, ih hvalues, joinWith]
      by_cases hnil : values = []
      · subst hnil
        simp
      · rw [if_neg (intercalate_ne_empty hvalues hnil),
          String.intercalate_append_of_ne_nil hnil (List.cons_ne_nil _ _),
          String.intercalate_singleton]

/-! ## Prefixes -/

theorem startsWith_iff {value text : String} :
    startsWith value text = true ↔ text.toList <+: value.toList := by
  rw [startsWith, List.isPrefixOf_iff_prefix]

theorem startsWith_append (text rest : String) : startsWith (text ++ rest) text = true := by
  rw [startsWith_iff, String.toList_append]
  exact List.prefix_append _ _

theorem contains_trans {value text part : String} (htext : contains value text = true)
    (hpart : contains text part = true) : contains value part = true :=
  decide_eq_true ((of_decide_eq_true hpart).trans (of_decide_eq_true htext))

/-- What is joined stands in the result. -/
theorem contains_join {texts : List String} {text : String} (h : text ∈ texts) :
    contains (String.join texts) text = true := by
  obtain ⟨before, after, rfl⟩ := List.append_of_mem h
  refine decide_eq_true ⟨before.flatMap String.toList, after.flatMap String.toList, ?_⟩
  rw [String.toList_join, List.flatMap_append, List.flatMap_cons, List.append_assoc]

theorem append_removePrefix {value text : String} (h : startsWith value text = true) :
    text ++ removePrefix value text = value := by
  rw [removePrefix, if_pos h]
  obtain ⟨rest, hrest⟩ := startsWith_iff.mp h
  apply String.toList_injective
  rw [String.toList_append, String.toList_ofList, ← hrest, ← String.length_toList, List.drop_left]

theorem removePrefix_append (text rest : String) : removePrefix (text ++ rest) text = rest :=
  String.append_right_inj text |>.mp (append_removePrefix (startsWith_append text rest))

/-- A text that an append begins with begins its first part, or goes on beyond it. -/
theorem startsWith_of_append {first second text : String}
    (h : startsWith (first ++ second) text = true) :
    startsWith first text = true ∨ startsWith text first = true := by
  rw [startsWith_iff, String.toList_append] at h
  rw [startsWith_iff, startsWith_iff]
  exact List.prefix_or_prefix_of_prefix h (List.prefix_append _ _)

/-- A text that contains no separator begins joined values only if it begins the first one. -/
theorem startsWith_of_intercalate {separator : Char} {values : List String} {text : String}
    (hseparator : separator ∉ text.toList) (htext : text ≠ "")
    (h : startsWith (separator.toString.intercalate values) text = true) :
    ∃ value ∈ values, startsWith value text = true := by
  cases values with
  | nil =>
      rw [String.intercalate_nil, startsWith_iff] at h
      exact absurd (String.toList_eq_nil_iff.mp (List.prefix_nil.mp h)) htext
  | cons value values =>
      cases values with
      | nil =>
          rw [String.intercalate_singleton] at h
          exact ⟨value, List.mem_cons_self, h⟩
      | cons next values =>
          rw [String.intercalate_cons_cons, startsWith_iff, String.toList_append,
            String.toList_append, List.append_assoc, Char.toString, String.toList_singleton] at h
          refine ⟨value, List.mem_cons_self, startsWith_iff.mpr ?_⟩
          rcases List.prefix_or_prefix_of_prefix h (List.prefix_append _ _) with hfirst | hlonger
          · exact hfirst
          · -- otherwise the text goes on with the separator
            obtain ⟨rest, hrest⟩ := hlonger
            rw [← hrest, List.prefix_append_right_inj] at h
            cases rest with
            | nil => exact ⟨[], by rw [List.append_nil, ← hrest, List.append_nil]⟩
            | cons character rest =>
                obtain ⟨rfl, _⟩ := List.cons_prefix_cons.mp h
                exact absurd (hrest ▸ by simp) hseparator

/-! ## UTF-8 -/

theorem decodeUtf8_getBytes (value : String) : decodeUtf8 (getBytes value) = .ok value := by
  have hvalid : String.fromUTF8? ⟨(getBytes value).toArray⟩ = some value := by
    simp [getBytes, String.fromUTF8?, String.fromUTF8, value.isValidUTF8]
  rw [decodeUtf8, hvalid]

/-- What decodes is the encoding of what it decodes to: the decoder is strict. -/
theorem getBytes_of_decodeUtf8 {bytes : Bytes} {value : String}
    (h : decodeUtf8 bytes = .ok value) : getBytes value = bytes := by
  unfold decodeUtf8 at h
  split at h
  · rename_i decoded hdecoded
    cases h
    unfold String.fromUTF8? at hdecoded
    split at hdecoded
    · cases hdecoded
      simp [getBytes, String.fromUTF8]
    · cases hdecoded
  · cases h

theorem getBytes_injective : Function.Injective getBytes := by
  intro first second h
  have hdecode : decodeUtf8 (getBytes first) = decodeUtf8 (getBytes second) := by rw [h]
  rw [decodeUtf8_getBytes, decodeUtf8_getBytes] at hdecode
  exact Except.ok.inj hdecode

/-! ## UTF-16 -/

/-- The units of a character tell where it ends: no character below the supplementary planes
lies in the range of the surrogates. -/
theorem utf16Units_append_inj {first second : Char} {rest rest' : List ℕ}
    (h : utf16Units first ++ rest = utf16Units second ++ rest') :
    first = second ∧ rest = rest' := by
  have hfirst : first.toNat < 0xd800 ∨ 0xdfff < first.toNat ∧ first.toNat < 0x110000 := first.valid
  have hsecond : second.toNat < 0xd800 ∨ 0xdfff < second.toNat ∧ second.toNat < 0x110000 :=
    second.valid
  unfold utf16Units at h
  dsimp only at h
  split at h <;> split at h <;>
    simp only [List.cons_append, List.nil_append, List.cons.injEq] at h
  · exact ⟨Char.toNat_inj.mp h.1, h.2⟩
  · omega
  · omega
  · exact ⟨Char.toNat_inj.mp (by omega), h.2.2⟩

theorem utf16Units_ne_nil (character : Char) : utf16Units character ≠ [] := by
  unfold utf16Units
  dsimp only
  split <;> simp

theorem utf16_injective : Function.Injective utf16 := by
  intro first second h
  refine String.toList_injective (Framing.flatMap_injOn (fun _ => True) utf16Units_ne_nil ?_
    (fun _ _ => trivial) (fun _ _ => trivial) h)
  exact fun _ _ _ _ _ _ h => utf16Units_append_inj h

instance : Std.Total compareToLe := ⟨fun first second => le_total (utf16 first) (utf16 second)⟩

theorem compareToLe_antisymm {first second : String} (h : compareToLe first second)
    (h' : compareToLe second first) : first = second :=
  utf16_injective (le_antisymm h h')

end RulesElide
