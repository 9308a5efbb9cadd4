import Mathlib

/-!
# Semantic versions

Version numbers with prereleases and build metadata, their precedence, and how precedence
compares with the order of the texts.  The texts of two prereleases are in the order of
their precedence unless the first identifiers that differ are `Misread`: two numbers read as
words, a number next to a word, or an identifier that goes on with a hyphen where the other
one ends.
-/

namespace SemVer

/-! ## Numbers -/

/-- The value of decimal digits. -/
def decimal (digits : List Char) : ℕ :=
  Nat.ofDigitChars 10 digits 0

/-- The digits of a number, without leading zeros. -/
structure Numeric where
  digits : List Char
  nonempty : digits ≠ []
  areDigits : ∀ digit ∈ digits, digit.isDigit = true
  canonical : digits.head? = some '0' → digits = ['0']
  deriving DecidableEq

def Numeric.value (number : Numeric) : ℕ :=
  decimal number.digits

theorem isDigit_iff {character : Char} :
    character.isDigit = true ↔ 48 ≤ character.toNat ∧ character.toNat ≤ 57 := by
  simp only [Char.isDigit, Bool.and_eq_true, decide_eq_true_eq]
  rfl

theorem digitChar_toNat {digit : Char} (h : digit.isDigit = true) :
    Nat.digitChar (digit.toNat - 48) = digit := by
  have hrange := isDigit_iff.mp h
  apply Char.toNat_inj.mp
  rw [Nat.toNat_digitChar_of_lt_ten (by omega)]
  omega

/-- Digits that follow a positive number are the last digits of the result. -/
theorem toDigits_ofDigitChars {digits : List Char}
    (hdigits : ∀ digit ∈ digits, digit.isDigit = true) :
    ∀ {number : ℕ}, 0 < number →
      Nat.toDigits 10 (Nat.ofDigitChars 10 digits number) = Nat.toDigits 10 number ++ digits := by
  induction digits with
  | nil => exact fun _ => (List.append_nil _).symm
  | cons digit digits ih =>
      intro number hnumber
      obtain ⟨hdigit, hlater⟩ := List.forall_mem_cons.mp hdigits
      have hrange := isDigit_iff.mp hdigit
      have hlast : Nat.toDigits 10 (digit.toNat - 48) = [digit] := by
        rw [Nat.toDigits_of_lt_base (by omega), digitChar_toNat hdigit]
      calc Nat.toDigits 10 (Nat.ofDigitChars 10 (digit :: digits) number)
          = Nat.toDigits 10 (10 * number + (digit.toNat - 48)) ++ digits := by
            rw [Nat.ofDigitChars_cons]
            exact ih hlater (by omega)
        _ = Nat.toDigits 10 number ++ Nat.toDigits 10 (digit.toNat - 48) ++ digits := by
            rw [Nat.toDigits_append_toDigits (by decide) hnumber (by omega)]
        _ = Nat.toDigits 10 number ++ digit :: digits := by
            rw [hlast, List.append_assoc, List.singleton_append]

theorem Numeric.toDigits_value (number : Numeric) :
    Nat.toDigits 10 number.value = number.digits := by
  obtain ⟨digits, hnonempty, hdigits, hcanonical⟩ := number
  cases digits with
  | nil => exact absurd rfl hnonempty
  | cons digit digits =>
      obtain ⟨hdigit, hlater⟩ := List.forall_mem_cons.mp hdigits
      change Nat.toDigits 10 (Nat.ofDigitChars 10 (digit :: digits) 0) = digit :: digits
      by_cases hzero : digit = '0'
      · subst hzero
        rw [hcanonical rfl]
        rfl
      · have hrange := isDigit_iff.mp hdigit
        have hne : digit.toNat ≠ 48 := fun h => hzero (Char.toNat_inj.mp h)
        rw [Nat.ofDigitChars_cons, Nat.mul_zero, Nat.zero_add]
        change Nat.toDigits 10 (Nat.ofDigitChars 10 digits (digit.toNat - 48)) = _
        rw [toDigits_ofDigitChars hlater (by omega), Nat.toDigits_of_lt_base (by omega),
          digitChar_toNat hdigit]
        rfl

/-- Without leading zeros, the value determines the digits. -/
theorem Numeric.digits_eq_of_value_eq {first second : Numeric} (h : first.value = second.value) :
    first.digits = second.digits := by
  rw [← first.toDigits_value, ← second.toDigits_value, h]

/-- More digits make no smaller number. -/
theorem decimal_le_append (digits more : List Char) :
    decimal digits ≤ decimal (digits ++ more) := by
  calc decimal digits
      ≤ 10 ^ more.length * decimal digits := Nat.le_mul_of_pos_left _ (by positivity)
    _ ≤ 10 ^ more.length * decimal digits + decimal more := Nat.le_add_right _ _
    _ = Nat.ofDigitChars 10 more (decimal digits) := Nat.ofDigitChars_eq_ofDigitChars_zero.symm
    _ = decimal (digits ++ more) := (Nat.ofDigitChars_append 0).symm

/-! ## Identifiers -/

/-- A letter, a digit or a hyphen. -/
def isIdentifierChar (character : Char) : Bool :=
  character.isAlphanum || character = '-'

/-- An identifier of a prerelease. -/
structure Identifier where
  text : List Char
  nonempty : text ≠ []
  areIdentifierChars : ∀ character ∈ text, isIdentifierChar character = true
  canonical : (∀ character ∈ text, character.isDigit = true) → text.head? = some '0' → text = ['0']
  deriving DecidableEq

/-- An identifier of build metadata, which may be a number with leading zeros. -/
structure Label where
  text : List Char
  nonempty : text ≠ []
  areIdentifierChars : ∀ character ∈ text, isIdentifierChar character = true
  deriving DecidableEq

def Identifier.isNumeric (identifier : Identifier) : Bool :=
  identifier.text.all Char.isDigit

/-- The first identifier ranks below the second one: numbers by their values and below words,
words by their texts. -/
def Identifier.Below (first second : Identifier) : Prop :=
  if first.isNumeric then
    if second.isNumeric then decimal first.text < decimal second.text else True
  else if second.isNumeric then False
  else first.text < second.text

instance : DecidableRel Identifier.Below := fun first second =>
  inferInstanceAs (Decidable
    (if first.isNumeric then
      if second.isNumeric then decimal first.text < decimal second.text else True
    else if second.isNumeric then False
    else first.text < second.text))

/-- The first identifiers that differ decide; a longer list ranks above its beginning. -/
def PrereleaseBelow : List Identifier → List Identifier → Prop
  | _, [] => False
  | [], _ :: _ => True
  | first :: firsts, second :: seconds =>
      if first = second then PrereleaseBelow firsts seconds else first.Below second

def PrereleaseBelow.decide :
    (firsts seconds : List Identifier) → Decidable (PrereleaseBelow firsts seconds)
  | [], [] | _ :: _, [] => .isFalse id
  | [], _ :: _ => .isTrue trivial
  | first :: firsts, second :: seconds =>
      if h : first = second then
        have := PrereleaseBelow.decide firsts seconds
        decidable_of_iff (PrereleaseBelow firsts seconds) (by rw [PrereleaseBelow, if_pos h])
      else decidable_of_iff (first.Below second) (by rw [PrereleaseBelow, if_neg h])

instance : DecidableRel PrereleaseBelow := PrereleaseBelow.decide

/-! ## Versions -/

structure Version where
  major : Numeric
  minor : Numeric
  patch : Numeric
  prerelease : List Identifier := []
  build : List Label := []
  deriving DecidableEq

namespace Version

def core (version : Version) : ℕ ×ₗ ℕ ×ₗ ℕ :=
  toLex (version.major.value, toLex (version.minor.value, version.patch.value))

/-- The first version has lower precedence than the second one. -/
def Below (first second : Version) : Prop :=
  first.core < second.core ∨
    first.core = second.core ∧ first.prerelease ≠ [] ∧
      (second.prerelease = [] ∨ PrereleaseBelow first.prerelease second.prerelease)

instance : DecidableRel Below := fun first second =>
  inferInstanceAs (Decidable
    (first.core < second.core ∨
      first.core = second.core ∧ first.prerelease ≠ [] ∧
        (second.prerelease = [] ∨ PrereleaseBelow first.prerelease second.prerelease)))

/-- `X.Y.Z`. -/
def coreText (version : Version) : List Char :=
  ['.'].intercalate [version.major.digits, version.minor.digits, version.patch.digits]

/-- Texts with dots between them. -/
def dotted (texts : List (List Char)) : List Char :=
  ['.'].intercalate texts

def prereleaseText (version : Version) : List Char :=
  if version.prerelease = [] then [] else '-' :: dotted (version.prerelease.map Identifier.text)

def buildText (version : Version) : List Char :=
  if version.build = [] then [] else '+' :: dotted (version.build.map Label.text)

def text (version : Version) : String :=
  String.ofList (version.coreText ++ version.prereleaseText ++ version.buildText)

end Version

/-! ## The order of texts -/

/-- Of two identifiers, the first reads above the second, though it ranks below it: its text
is greater where they first differ, or the second one goes on with a hyphen where the first
one ends with a dot. -/
def Identifier.ReadsAbove (first second : Identifier) (more : Bool) : Prop :=
  (¬ first.text <+: second.text ∧ second.text < first.text) ∨
    (more = true ∧ first.text ++ ['-'] <+: second.text)

/-- The first prerelease ranks below the second one, but its text is greater. -/
def Misread : List Identifier → List Identifier → Prop
  | first :: firsts, second :: seconds =>
      if first = second then Misread firsts seconds
      else first.Below second ∧ first.ReadsAbove second (!firsts.isEmpty)
  | _, _ => False

/-- Where neither text begins the other, what follows them does not matter. -/
theorem append_lt_append_iff {first second : List Char} (hfirst : ¬ first <+: second)
    (hsecond : ¬ second <+: first) (rest rest' : List Char) :
    first ++ rest < second ++ rest' ↔ first < second := by
  induction first generalizing second with
  | nil => exact absurd List.nil_prefix hfirst
  | cons character first ih =>
      cases second with
      | nil => exact absurd List.nil_prefix hsecond
      | cons character' second =>
          rw [List.cons_append, List.cons_append, List.cons_lt_cons_iff, List.cons_lt_cons_iff]
          by_cases hsame : character = character'
          · subst hsame
            rw [List.prefix_cons_inj] at hfirst hsecond
            rw [ih hfirst hsecond]
          · simp [hsame]

theorem append_left_lt_iff (text rest rest' : List Char) :
    text ++ rest < text ++ rest' ↔ rest < rest' := by
  induction text with
  | nil => rfl
  | cons character text ih =>
      rw [List.cons_append, List.cons_append, List.cons_lt_cons_iff, ih]
      simp

theorem lt_iff_toNat_lt {first second : Char} :
    first < second ↔ first.toNat < second.toNat := Iff.rfl

theorem isIdentifierChar_iff {character : Char} :
    isIdentifierChar character = true ↔
      character.toNat = 45 ∨ (48 ≤ character.toNat ∧ character.toNat ≤ 57) ∨
        (65 ≤ character.toNat ∧ character.toNat ≤ 90) ∨
          (97 ≤ character.toNat ∧ character.toNat ≤ 122) := by
  have hhyphen : character = '-' ↔ character.toNat = 45 :=
    ⟨fun h => h ▸ rfl, fun h => Char.toNat_inj.mp h⟩
  simp only [isIdentifierChar, Bool.or_eq_true, decide_eq_true_eq, hhyphen, Char.isAlphanum,
    Char.isAlpha, isDigit_iff, Char.isUpper, Char.isLower, Bool.and_eq_true]
  change ((65 ≤ character.toNat ∧ character.toNat ≤ 90 ∨
    97 ≤ character.toNat ∧ character.toNat ≤ 122) ∨ _) ∨ _ ↔ _
  omega

/-- A word or a greater number does not begin an identifier that ranks below it. -/
theorem Identifier.Below.not_prefix {first second : Identifier} (h : first.Below second) :
    ¬ second.text <+: first.text := by
  rintro ⟨rest, hrest⟩
  unfold Identifier.Below at h
  split at h
  · rename_i hfirst
    split at h
    · -- a longer numeral of the same digits is not smaller
      have hle := decimal_le_append second.text rest
      rw [hrest] at hle
      omega
    · rename_i hsecond
      apply hsecond
      rw [Identifier.isNumeric, List.all_eq_true] at hfirst ⊢
      exact fun character hmem => hfirst character (hrest ▸ List.mem_append_left _ hmem)
  · split at h
    · exact h
    · rw [← hrest, ← List.append_nil second.text, List.append_assoc, append_left_lt_iff] at h
      exact absurd h (List.not_lt_nil _)

/-- What follows the first identifier of a prerelease. -/
def tailText (identifiers : List Identifier) (build : List Char) : List Char :=
  (identifiers.flatMap fun identifier => '.' :: identifier.text) ++ build

theorem tailText_cons (identifier : Identifier) (identifiers : List Identifier)
    (build : List Char) :
    tailText (identifier :: identifiers) build =
      '.' :: (identifier.text ++ tailText identifiers build) := by
  simp [tailText]

/-- Build metadata, with its sign. -/
def IsBuild (build : List Char) : Prop :=
  ∀ character ∈ build.head?, character = '+'

/-- What follows an identifier, next to an identifier that goes on. -/
theorem tailText_lt {identifiers : List Identifier} {build rest : List Char} {character : Char}
    (hbuild : IsBuild build) (hcharacter : isIdentifierChar character = true)
    (hword : character ≠ '-' ∨ identifiers = []) :
    tailText identifiers build < character :: rest := by
  have hrange := isIdentifierChar_iff.mp hcharacter
  cases identifiers with
  | nil =>
      cases build with
      | nil => exact List.nil_lt_cons _ _
      | cons sign build =>
          obtain rfl := hbuild sign rfl
          exact List.cons_lt_cons_iff.mpr (Or.inl (lt_iff_toNat_lt.mpr (by simp; omega)))
  | cons identifier identifiers =>
      have hne := hword.resolve_right (List.cons_ne_nil _ _)
      have hhyphen : character.toNat ≠ 45 := fun h => hne (Char.toNat_inj.mp h)
      exact List.cons_lt_cons_iff.mpr (Or.inl (lt_iff_toNat_lt.mpr (by simp; omega)))

theorem hyphen_lt_tailText {identifiers : List Identifier} (hmore : identifiers ≠ [])
    (build rest : List Char) : '-' :: rest < tailText identifiers build := by
  cases identifiers with
  | nil => exact absurd rfl hmore
  | cons identifier identifiers => exact List.cons_lt_cons_iff.mpr (Or.inl (by decide))

/-- Two identifiers and what follows them: their texts are in the order of their ranks unless
the lower one reads above the other. -/
theorem Identifier.Below.text_lt {first second : Identifier} (h : first.Below second)
    {firsts seconds : List Identifier} {build build' : List Char} (hbuild : IsBuild build) :
    (first.ReadsAbove second (!firsts.isEmpty) →
        second.text ++ tailText seconds build' < first.text ++ tailText firsts build) ∧
      (¬ first.ReadsAbove second (!firsts.isEmpty) →
        first.text ++ tailText firsts build < second.text ++ tailText seconds build') := by
  have hnot := h.not_prefix
  by_cases hbegins : first.text <+: second.text
  · -- the second identifier goes on where the first one ends
    obtain ⟨rest, hrest⟩ := hbegins
    cases rest with
    | nil => exact absurd (by rw [← hrest, List.append_nil]) hnot
    | cons character rest =>
        have hcharacter : isIdentifierChar character = true :=
          second.areIdentifierChars character (by rw [← hrest]; simp)
        have hreads : first.ReadsAbove second (!firsts.isEmpty) ↔
          firsts ≠ [] ∧ character = '-' := by
          rw [Identifier.ReadsAbove, ← hrest, List.prefix_append_right_inj, List.cons_prefix_cons]
          simp [@eq_comm _ '-' character]
        rw [hreads, ← hrest, List.append_assoc, append_left_lt_iff, append_left_lt_iff,
          List.cons_append]
        constructor
        · rintro ⟨hmore, rfl⟩
          exact hyphen_lt_tailText hmore build _
        · intro hreads
          refine tailText_lt hbuild hcharacter ?_
          by_contra hboth
          rw [not_or, not_not] at hboth
          exact hreads ⟨hboth.2, hboth.1⟩
  · have hmore : ¬ first.text ++ ['-'] <+: second.text :=
      fun hlonger => hbegins ((List.prefix_append _ _).trans hlonger)
    have hreads : first.ReadsAbove second (!firsts.isEmpty) ↔ second.text < first.text := by
      rw [Identifier.ReadsAbove]
      tauto
    have hne : first.text ≠ second.text := fun heq => hbegins (heq ▸ List.prefix_refl _)
    rw [hreads, append_lt_append_iff hnot hbegins, append_lt_append_iff hbegins hnot]
    exact ⟨id, fun hle => lt_of_le_of_ne (not_lt.mp hle) hne⟩

/-- Where the prereleases differ, their first identifiers decide. -/
theorem prerelease_text_lt_of_ne {first second : Identifier} {firsts seconds : List Identifier}
    {build build' : List Char} (hbuild : IsBuild build) (hne : first ≠ second)
    (h : PrereleaseBelow (first :: firsts) (second :: seconds)) :
    (Misread (first :: firsts) (second :: seconds) →
        second.text ++ tailText seconds build' < first.text ++ tailText firsts build) ∧
      (¬ Misread (first :: firsts) (second :: seconds) →
        first.text ++ tailText firsts build < second.text ++ tailText seconds build') := by
  rw [PrereleaseBelow, if_neg hne] at h
  rw [Misread, if_neg hne, and_iff_right h]
  exact h.text_lt hbuild

/-- **Prereleases and their texts.**  The text of a lower prerelease is greater exactly when it
is misread. -/
theorem prerelease_text_lt {first second : Identifier} {firsts seconds : List Identifier}
    {build build' : List Char} (hbuild : IsBuild build)
    (h : PrereleaseBelow (first :: firsts) (second :: seconds)) :
    (Misread (first :: firsts) (second :: seconds) →
        second.text ++ tailText seconds build' < first.text ++ tailText firsts build) ∧
      (¬ Misread (first :: firsts) (second :: seconds) →
        first.text ++ tailText firsts build < second.text ++ tailText seconds build') := by
  induction firsts generalizing first second seconds with
  | nil =>
      -- equal identifiers drop out of the comparison on both sides
      by_cases hsame : first = second
      · subst hsame
        rw [PrereleaseBelow, if_pos rfl] at h
        cases seconds with
        | nil => exact h.elim
        | cons next seconds =>
            rw [Misread, if_pos rfl, append_left_lt_iff, append_left_lt_iff]
            refine ⟨False.elim, fun _ => ?_⟩
            -- the shorter text ends here, or goes on with a sign below every identifier
            cases build with
            | nil => exact List.nil_lt_cons _ _
            | cons sign build =>
                obtain rfl := hbuild sign rfl
                exact List.cons_lt_cons_iff.mpr (Or.inl (by decide))
      · exact prerelease_text_lt_of_ne hbuild hsame h
  | cons next firsts ih =>
      by_cases hsame : first = second
      · subst hsame
        rw [PrereleaseBelow, if_pos rfl] at h
        cases seconds with
        | nil => exact h.elim
        | cons next' seconds =>
            rw [Misread, if_pos rfl, append_left_lt_iff, append_left_lt_iff, tailText_cons,
              tailText_cons, List.cons_lt_cons_iff, List.cons_lt_cons_iff]
            simpa using ih h
      · exact prerelease_text_lt_of_ne hbuild hsame h

/-- What is misread ranks below. -/
theorem Misread.below : ∀ {firsts seconds : List Identifier}, Misread firsts seconds →
    PrereleaseBelow firsts seconds := by
  intro firsts
  induction firsts with
  | nil => exact fun h => h.elim
  | cons first firsts ih =>
      intro seconds h
      cases seconds with
      | nil => exact h.elim
      | cons second seconds =>
          by_cases hsame : first = second
          · rw [Misread, if_pos hsame] at h
            rw [PrereleaseBelow, if_pos hsame]
            exact ih h
          · rw [Misread, if_neg hsame] at h
            rw [PrereleaseBelow, if_neg hsame]
            exact h.1

/-! ## The text of a version -/

theorem intercalate_dot (text : List Char) (texts : List (List Char)) :
    ['.'].intercalate (text :: texts) = text ++ texts.flatMap fun next => '.' :: next := by
  induction texts generalizing text with
  | nil => simp
  | cons next texts ih =>
      rw [List.intercalate_cons_cons, ih, List.flatMap_cons]
      simp

namespace Version

theorem isBuild_buildText (version : Version) : IsBuild version.buildText := by
  unfold buildText
  split
  · exact nofun
  · rintro character ⟨⟩
    rfl

/-- The text of a prerelease, from its first identifier on. -/
theorem prereleaseText_append {version : Version} {first : Identifier} {firsts : List Identifier}
    (h : version.prerelease = first :: firsts) :
    version.prereleaseText ++ version.buildText =
      '-' :: (first.text ++ tailText firsts version.buildText) := by
  rw [prereleaseText, h, if_neg (List.cons_ne_nil _ _), dotted, List.map_cons, intercalate_dot]
  simp [tailText, List.flatMap_map]

theorem coreText_eq_of_core_eq {first second : Version} (h : first.core = second.core) :
    first.coreText = second.coreText := by
  obtain ⟨hmajor, hrest⟩ := Prod.mk.inj (toLex.injective h)
  obtain ⟨hminor, hpatch⟩ := Prod.mk.inj (toLex.injective hrest)
  rw [coreText, coreText, Numeric.digits_eq_of_value_eq hmajor,
    Numeric.digits_eq_of_value_eq hminor, Numeric.digits_eq_of_value_eq hpatch]

/-- **Prereleases of one version.**  The text of the lower one is greater exactly when it is
misread. -/
theorem text_lt_iff_misread {first second : Version} (hcore : first.core = second.core)
    (hbelow : PrereleaseBelow first.prerelease second.prerelease) (hfirst : first.prerelease ≠ []) :
    (Misread first.prerelease second.prerelease → second.text < first.text) ∧
      (¬ Misread first.prerelease second.prerelease → first.text < second.text) := by
  cases hfirsts : first.prerelease with
  | nil => exact absurd hfirsts hfirst
  | cons identifier firsts =>
      cases hseconds : second.prerelease with
      | nil =>
          rw [hfirsts, hseconds] at hbelow
          exact hbelow.elim
      | cons identifier' seconds =>
          rw [hfirsts, hseconds] at hbelow
          have htexts :=
            @prerelease_text_lt identifier identifier' firsts seconds _ second.buildText
            first.isBuild_buildText hbelow
          -- the texts agree up to the hyphen, so the rest decides
          have hlt : ∀ {version other : Version} {identifier identifier' : Identifier}
              {firsts seconds : List Identifier}, version.coreText = other.coreText →
              version.prerelease = identifier :: firsts →
                other.prerelease = identifier' :: seconds →
              (version.text < other.text ↔
                identifier.text ++ tailText firsts version.buildText <
                  identifier'.text ++ tailText seconds other.buildText) := by
            intro version other identifier identifier' firsts seconds hcores hpre hpre'
            change (String.ofList _).toList < (String.ofList _).toList ↔ _
            rw [String.toList_ofList, String.toList_ofList, List.append_assoc, List.append_assoc,
              prereleaseText_append hpre, prereleaseText_append hpre', hcores,
              append_left_lt_iff, List.cons_lt_cons_iff]
            simp
          have hcores := coreText_eq_of_core_eq hcore
          rw [hlt hcores hfirsts hseconds, hlt hcores.symm hseconds hfirsts]
          exact htexts

end Version

end SemVer
