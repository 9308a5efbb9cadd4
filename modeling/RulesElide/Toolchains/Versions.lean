import RulesElide.Library.SemVer

/-!
# Choosing a version

`select_version` of `versions.bzl` sorts versions by a tuple that `_parse_semver` makes of
their texts: the three numbers, whether the version is a release, and the text itself.  So
prereleases of one version are compared as texts.  `selects_highest_iff` says for which lists
the last of them is one of the highest precedence.
-/

namespace RulesElide.Toolchains

open SemVer

/-! ## The code -/

/-- The tuples that `_parse_semver` returns, in their lexicographic order. -/
abbrev Key := ℤ ×ₗ ℤ ×ₗ ℤ ×ₗ ℤ ×ₗ String

def Key.of (first second third stable : ℤ) (text : String) : Key :=
  toLex (first, toLex (second, toLex (third, toLex (stable, text))))

/-- `p.isdigit()`. -/
def isdigit (p : List Char) : Bool :=
  !p.isEmpty && p.all Char.isDigit

/-- `int(p)`, of digits. -/
def int (p : List Char) : ℤ :=
  Nat.ofDigitChars 10 p 0

/-- `_parse_semver`. -/
def parseSemver (version : String) : Key :=
  if version = "latest" then Key.of 999999999 0 0 1 ""
  else
    -- `version.split("+", 1)[0]` and `base.split("-", 1)[0]`
    let base := version.toList.takeWhile (· ≠ '+')
    let core := base.takeWhile (· ≠ '-')
    let stable := if '-' ∈ base then 0 else 1
    let parts := core.splitOn '.'
    if parts.all isdigit then
      let nums := parts.map int ++ List.replicate (3 - parts.length) 0
      Key.of (nums.getD 0 0) (nums.getD 1 0) (nums.getD 2 0) stable version
    else Key.of (-1) 0 0 0 version

/-- The order `sorted(versions, key = _parse_semver)` uses. -/
def keyLe (first second : String) : Prop :=
  parseSemver first ≤ parseSemver second

instance : DecidableRel keyLe := fun first second =>
  inferInstanceAs (Decidable (parseSemver first ≤ parseSemver second))

instance : Std.Total keyLe :=
  ⟨fun first second => le_total (parseSemver first) (parseSemver second)⟩

instance : IsTrans String keyLe := ⟨fun _ _ _ h h' => le_trans h h'⟩

/-- `select_version`; there is no last element of an empty list. -/
def selectVersion (versions : List String) : Option String :=
  (versions.insertionSort keyLe).getLast?

/-! ## What it selects -/

/-- The last of the sorted versions is one with the greatest key. -/
theorem selectVersion_spec {versions : List String} {version : String}
    (h : selectVersion versions = some version) :
    version ∈ versions ∧ ∀ other ∈ versions, keyLe other version := by
  obtain ⟨initial, hsorted⟩ := List.getLast?_eq_some_iff.mp h
  have hmem : ∀ other, other ∈ versions ↔ other ∈ initial ++ [version] := by
    intro other
    rw [← hsorted, List.mem_insertionSort]
  have hpairwise := List.pairwise_insertionSort keyLe versions
  rw [hsorted, List.pairwise_append] at hpairwise
  refine ⟨(hmem version).mpr (by simp), fun other hother => ?_⟩
  rcases List.mem_append.mp ((hmem other).mp hother) with hinitial | hlast
  · exact hpairwise.2.2 other hinitial version List.mem_cons_self
  · obtain rfl := List.mem_singleton.mp hlast
    exact le_refl (parseSemver other)

theorem exists_selectVersion {versions : List String} (h : versions ≠ []) :
    ∃ version, selectVersion versions = some version := by
  have hsorted : versions.insertionSort keyLe ≠ [] := by
    rw [← List.length_pos_iff, List.length_insertionSort]
    exact List.length_pos_iff.mpr h
  exact ⟨_, List.getLast?_eq_some_getLast hsorted⟩

/-! ## The order of the keys -/

/-- The text that a key is of: only `latest` has an empty last component. -/
def Key.text (key : Key) : String :=
  let text := (ofLex (ofLex (ofLex (ofLex key).2).2).2).2
  if text = "" ∧ (ofLex key).1 ≠ -1 then "latest" else text

theorem parseSemver_latest : parseSemver "latest" = Key.of 999999999 0 0 1 "" := if_pos rfl

theorem parseSemver_empty : parseSemver "" = Key.of (-1) 0 0 0 "" := by
  decide

@[simp] theorem Key.text_of (first second third stable : ℤ) (text : String) :
    (Key.of first second third stable text).text =
      if text = "" ∧ first ≠ -1 then "latest" else text := rfl

/-- A key tells which text it is of. -/
@[simp] theorem text_parseSemver (version : String) : (parseSemver version).text = version := by
  by_cases hlatest : version = "latest"
  · rw [hlatest, parseSemver_latest]
    decide
  · by_cases hempty : version = ""
    · rw [hempty, parseSemver_empty]
      decide
    · unfold parseSemver
      rw [if_neg hlatest]
      dsimp only
      split
      · simp [hempty]
      · simp [hempty]

theorem parseSemver_injective : Function.Injective parseSemver :=
  Function.LeftInverse.injective text_parseSemver

instance : Std.Antisymm keyLe :=
  ⟨fun _ _ h h' => parseSemver_injective (le_antisymm h h')⟩

/-- The selected version is the one version with the greatest key. -/
theorem selectVersion_eq_some_iff {versions : List String} {version : String} :
    selectVersion versions = some version ↔
      version ∈ versions ∧ ∀ other ∈ versions, keyLe other version := by
  constructor
  · exact selectVersion_spec
  · rintro ⟨hmem, hgreatest⟩
    obtain ⟨selected, hselected⟩ := exists_selectVersion (List.ne_nil_of_mem hmem)
    obtain ⟨hin, hall⟩ := selectVersion_spec hselected
    have hle : keyLe selected version := hgreatest selected hin
    have hge : keyLe version selected := hall version hmem
    rw [hselected, antisymm hle hge]

theorem selectVersion_perm {versions versions' : List String} (h : versions.Perm versions') :
    selectVersion versions = selectVersion versions' := by
  ext version
  simp only [selectVersion_eq_some_iff, h.mem_iff]

/-- The version selected from two lists is selected from the two selected versions. -/
theorem selectVersion_append {versions versions' : List String} {version version' : String}
    (h : selectVersion versions = some version) (h' : selectVersion versions' = some version') :
    selectVersion (versions ++ versions') = selectVersion [version, version'] := by
  obtain ⟨hmem, hgreatest⟩ := selectVersion_spec h
  obtain ⟨hmem', hgreatest'⟩ := selectVersion_spec h'
  obtain ⟨selected, hselected⟩ := exists_selectVersion (List.cons_ne_nil version [version'])
  obtain ⟨hin, hall⟩ := selectVersion_spec hselected
  have hle : keyLe version selected := hall version (by simp)
  have hle' : keyLe version' selected := hall version' (by simp)
  rw [hselected, selectVersion_eq_some_iff]
  constructor
  · rcases List.mem_pair.mp hin with rfl | rfl
    · exact List.mem_append_left _ hmem
    · exact List.mem_append_right _ hmem'
  · intro other hother
    rcases List.mem_append.mp hother with hother | hother
    · exact Trans.trans (hgreatest other hother) hle
    · exact Trans.trans (hgreatest' other hother) hle'

/-! ## The key of a semantic version -/

/-- Whether the version is a release. -/
def stability (version : Version) : ℤ :=
  if version.prerelease = [] then 1 else 0

variable {version : Version} {character : Char}

theorem mem_dotted {texts : List (List Char)} (h : character ∈ Version.dotted texts) :
    character = '.' ∨ ∃ text ∈ texts, character ∈ text := by
  cases texts with
  | nil => exact absurd h (by simp [Version.dotted])
  | cons text texts =>
      rw [Version.dotted, intercalate_dot] at h
      rcases List.mem_append.mp h with hfirst | hlater
      · exact Or.inr ⟨text, List.mem_cons_self, hfirst⟩
      · obtain ⟨next, hnext, hmem⟩ := List.mem_flatMap.mp hlater
        rcases List.mem_cons.mp hmem with hdot | hmem
        · exact Or.inl hdot
        · exact Or.inr ⟨next, List.mem_cons_of_mem _ hnext, hmem⟩

theorem mem_coreText (h : character ∈ version.coreText) :
    character = '.' ∨ character.isDigit = true := by
  rcases mem_dotted h with hdot | ⟨digits, hdigits, hmem⟩
  · exact Or.inl hdot
  · simp only [List.mem_cons, List.not_mem_nil, or_false] at hdigits
    rcases hdigits with rfl | rfl | rfl
    · exact Or.inr (version.major.areDigits character hmem)
    · exact Or.inr (version.minor.areDigits character hmem)
    · exact Or.inr (version.patch.areDigits character hmem)

theorem plus_not_mem_prereleaseText : '+' ∉ version.prereleaseText := by
  intro h
  unfold Version.prereleaseText at h
  split at h
  · exact absurd h List.not_mem_nil
  · rcases List.mem_cons.mp h with hhyphen | hdotted
    · exact absurd hhyphen (by decide)
    · rcases mem_dotted hdotted with hdot | ⟨text, htext, hmem⟩
      · exact absurd hdot (by decide)
      · obtain ⟨identifier, _, rfl⟩ := List.mem_map.mp htext
        exact absurd (identifier.areIdentifierChars '+' hmem) (by decide)

/-- Everything in front of the first character of a text that begins with it. -/
theorem takeWhile_append_eq {text rest : List Char} (htext : character ∉ text)
    (hrest : ∀ first ∈ rest.head?, first = character) :
    (text ++ rest).takeWhile (· ≠ character) = text := by
  have hnone : rest.takeWhile (· ≠ character) = [] := by
    cases rest with
    | nil => rfl
    | cons first rest =>
        obtain rfl := hrest first rfl
        exact List.takeWhile_cons_of_neg (by simp)
  rw [List.takeWhile_append_of_pos, hnone, List.append_nil]
  exact fun other hother => decide_eq_true fun heq => htext (heq ▸ hother)

theorem hyphen_not_mem_coreText : '-' ∉ version.coreText := by
  intro h
  rcases mem_coreText h with hdot | hdigit
  · exact absurd hdot (by decide)
  · exact absurd hdigit (by decide)

theorem plus_not_mem_coreText : '+' ∉ version.coreText := by
  intro h
  rcases mem_coreText h with hdot | hdigit
  · exact absurd hdot (by decide)
  · exact absurd hdigit (by decide)

theorem head_prereleaseText : ∀ first ∈ version.prereleaseText.head?, first = '-' := by
  unfold Version.prereleaseText
  split
  · exact nofun
  · rintro first ⟨⟩
    rfl

theorem hyphen_mem_prereleaseText_iff : '-' ∈ version.prereleaseText ↔ version.prerelease ≠ [] := by
  unfold Version.prereleaseText
  split
  · simp [*]
  · simp [*]

theorem splitOn_coreText : version.coreText.splitOn '.' =
    [version.major.digits, version.minor.digits, version.patch.digits] := by
  refine List.splitOn_intercalate '.' ?_ (List.cons_ne_nil _ _)
  intro digits hdigits hdot
  simp only [List.mem_cons, List.not_mem_nil, or_false] at hdigits
  rcases hdigits with rfl | rfl | rfl
  · exact absurd (version.major.areDigits '.' hdot) (by decide)
  · exact absurd (version.minor.areDigits '.' hdot) (by decide)
  · exact absurd (version.patch.areDigits '.' hdot) (by decide)

theorem isdigit_digits (number : Numeric) : isdigit number.digits = true := by
  rw [isdigit, Bool.and_eq_true, List.all_eq_true]
  exact ⟨by simpa using number.nonempty, number.areDigits⟩

theorem text_ne_latest (version : Version) : version.text ≠ "latest" := by
  intro h
  have hlist := congrArg String.toList h
  rw [Version.text, String.toList_ofList, List.append_assoc, Version.coreText,
    intercalate_dot] at hlist
  cases hdigits : version.major.digits with
  | nil => exact version.major.nonempty hdigits
  | cons digit digits =>
      rw [hdigits] at hlist
      have hfirst : digit = 'l' := (List.cons.inj hlist).1
      have hdigit := version.major.areDigits digit (hdigits ▸ List.mem_cons_self)
      rw [hfirst] at hdigit
      exact absurd hdigit (by decide)

/-- **The key** of a semantic version: its numbers, whether it is a release, and its text. -/
theorem parseSemver_text (version : Version) :
    parseSemver version.text =
      Key.of version.major.value version.minor.value version.patch.value (stability version)
        version.text := by
  -- no sign of the grammar occurs inside the parts that it ends
  have hbase : version.text.toList.takeWhile (· ≠ '+') =
      version.coreText ++ version.prereleaseText := by
    rw [Version.text, String.toList_ofList]
    refine takeWhile_append_eq ?_ version.isBuild_buildText
    rw [List.mem_append, not_or]
    exact ⟨plus_not_mem_coreText, plus_not_mem_prereleaseText⟩
  have hcore :
    (version.coreText ++ version.prereleaseText).takeWhile (· ≠ '-') = version.coreText :=
    takeWhile_append_eq hyphen_not_mem_coreText head_prereleaseText
  have hstable : ('-' ∈ version.coreText ++ version.prereleaseText) ↔ version.prerelease ≠ [] := by
    rw [List.mem_append, or_iff_right hyphen_not_mem_coreText, hyphen_mem_prereleaseText_iff]
  have hdigits : [version.major.digits, version.minor.digits, version.patch.digits].all isdigit =
      true := by
    simp [isdigit_digits]
  rw [parseSemver, if_neg (text_ne_latest version)]
  simp only [hbase, hcore, splitOn_coreText, hdigits, if_true]
  unfold stability
  by_cases hrelease : version.prerelease = []
  · rw [if_neg (by rw [hstable]; exact not_not.mpr hrelease), if_pos hrelease]
    rfl
  · rw [if_pos (hstable.mpr hrelease), if_neg hrelease]
    rfl

/-! ## Precedence -/

/-- The order of the keys: numbers first, then releases above prereleases, then texts. -/
theorem keyLe_text_iff (first second : Version) :
    keyLe first.text second.text ↔
      first.core < second.core ∨ first.core = second.core ∧
        (stability first < stability second ∨
          stability first = stability second ∧ first.text ≤ second.text) := by
  rw [keyLe, parseSemver_text, parseSemver_text]
  simp only [Key.of, Version.core, Prod.Lex.toLex_le_toLex, Prod.Lex.toLex_lt_toLex,
    toLex_inj, Prod.mk.injEq, Nat.cast_lt, Nat.cast_inj, and_or_left, and_assoc, or_assoc]

/-- One with the greatest key is selected, and no other text has this key. -/
theorem selectVersion_of_greatest {versions : List Version} {version : Version}
    (hmem : version ∈ versions)
    (hgreatest : ∀ other ∈ versions, keyLe other.text version.text) :
    selectVersion (versions.map Version.text) = some version.text := by
  refine selectVersion_eq_some_iff.mpr ⟨List.mem_map_of_mem hmem, fun text htext => ?_⟩
  obtain ⟨other, hother, rfl⟩ := List.mem_map.mp htext
  exact hgreatest other hother

/-- A version of the list is selected, and none has higher precedence. -/
def SelectsHighest (versions : List Version) : Prop :=
  ∃ selected, selectVersion (versions.map Version.text) = some selected ∧
    selected ∈ versions.map Version.text ∧
      ∀ version ∈ versions, version.text = selected → ∀ other ∈ versions, ¬ version.Below other

/-- Two prereleases of the highest numbers, of which there is no release: the first one has the
greatest text and is misread next to the second one. -/
structure Misleading (versions : List Version) (first second : Version) : Prop where
  first_mem : first ∈ versions
  second_mem : second ∈ versions
  misread : Misread first.prerelease second.prerelease
  core_eq : first.core = second.core
  highest : ∀ other ∈ versions, other.core ≤ first.core
  noRelease : ∀ other ∈ versions, other.core = first.core → other.prerelease ≠ []
  greatest : ∀ other ∈ versions, other.core = first.core → other.text ≤ first.text

theorem stability_eq_zero {version : Version} :
    stability version = 0 ↔ version.prerelease ≠ [] := by
  unfold stability
  split <;> simp [*]

theorem stability_eq_one {version : Version} : stability version = 1 ↔ version.prerelease = [] := by
  unfold stability
  split <;> simp [*]

theorem Misread.ne_nil {first second : List Identifier} (h : Misread first second) :
    first ≠ [] := by
  rintro rfl
  exact h.elim

theorem Misleading.selected {versions : List Version} {first second : Version}
    (h : Misleading versions first second) :
    selectVersion (versions.map Version.text) = some first.text := by
  refine selectVersion_of_greatest h.first_mem fun other hother =>
    (keyLe_text_iff other first).mpr ?_
  rcases (h.highest other hother).lt_or_eq with hlt | hcore
  · exact Or.inl hlt
  · refine Or.inr ⟨hcore, Or.inr ⟨?_, h.greatest other hother hcore⟩⟩
    rw [stability_eq_zero.mpr (h.noRelease other hother hcore),
      stability_eq_zero.mpr (Misread.ne_nil h.misread)]

/-- What outranks the selected version misleads. -/
theorem misleading_of_below {versions : List Version} {first second : Version}
    (hfirst : first ∈ versions) (hsecond : second ∈ versions)
    (hgreatest : ∀ other ∈ versions, keyLe other.text first.text) (hbelow : first.Below second) :
    Misleading versions first second := by
  have hkeys := fun other hother => (keyLe_text_iff other first).mp (hgreatest other hother)
  rcases hbelow with hlt | ⟨hcore, hprerelease, hrank⟩
  · have hsecond := hkeys second hsecond
    exact absurd hsecond (by simp [hlt.not_gt, hlt.ne'])
  · have hstable := stability_eq_zero.mpr hprerelease
    -- among the versions with this core the first has the greatest text
    have hequal : ∀ other ∈ versions, other.core = first.core →
        other.prerelease ≠ [] ∧ other.text ≤ first.text := by
      intro other hother hcore
      have hkey := hkeys other hother
      rw [hcore, hstable] at hkey
      have hkey := (hkey.resolve_left (lt_irrefl _)).2
      by_cases hrelease : other.prerelease = []
      · rw [stability_eq_one.mpr hrelease] at hkey
        omega
      · rw [stability_eq_zero.mpr hrelease] at hkey
        exact ⟨hrelease, (hkey.resolve_left (lt_irrefl _)).2⟩
    obtain ⟨hother, htext⟩ := hequal second hsecond hcore.symm
    have hmisread : Misread first.prerelease second.prerelease := by
      by_contra hnot
      have hlt := (Version.text_lt_iff_misread hcore (hrank.resolve_left hother) hprerelease).2 hnot
      exact absurd htext (not_le.mpr hlt)
    refine ⟨hfirst, hsecond, hmisread, hcore, fun other hother => ?_,
      fun other hother hcore => (hequal other hother hcore).1,
      fun other hother hcore => (hequal other hother hcore).2⟩
    rcases hkeys other hother with hlt | ⟨hcore, _⟩
    · exact hlt.le
    · exact hcore.le

/-- **The highest version.**  `select_version` returns a version of the highest precedence
exactly when no two prereleases mislead it. -/
theorem selects_highest_iff (versions : List Version) (hne : versions ≠ []) :
    SelectsHighest versions ↔ ¬ ∃ first second, Misleading versions first second := by
  constructor
  · rintro ⟨selected, hselected, -, hhighest⟩ ⟨first, second, hmisleading⟩
    have hfirst : first.text = selected :=
      Option.some.inj (hmisleading.selected.symm.trans hselected)
    refine hhighest first hmisleading.first_mem hfirst second hmisleading.second_mem ?_
    exact Or.inr ⟨hmisleading.core_eq, Misread.ne_nil hmisleading.misread,
      Or.inr hmisleading.misread.below⟩
  · intro hnot
    obtain ⟨selected, hselected⟩ := exists_selectVersion (mt List.map_eq_nil_iff.mp hne)
    obtain ⟨hmem, hall⟩ := selectVersion_spec hselected
    refine ⟨selected, hselected, hmem, ?_⟩
    rintro version hversion rfl other hother hbelow
    refine hnot ⟨version, other, misleading_of_below hversion hother ?_ hbelow⟩
    exact fun other hother => hall _ (List.mem_map_of_mem hother)

/-- `1.6.0-rc.N`, where `N` is the number with these digits. -/
def candidate (number : Identifier) : Version where
  major := ⟨['1'], by decide, by simp, by decide⟩
  minor := ⟨['6'], by decide, by simp, by decide⟩
  patch := ⟨['0'], by decide, by simp, by decide⟩
  prerelease := [⟨['r', 'c'], by decide, by simp [isIdentifierChar], by simp⟩, number]

def secondCandidate : Version :=
  candidate ⟨['2'], by decide, by simp [isIdentifierChar], by simp⟩

def tenthCandidate : Version :=
  candidate ⟨['1', '0'], by decide, by simp [isIdentifierChar], by simp⟩

theorem selects_highest_iff_sample :
    SelectsHighest [secondCandidate, tenthCandidate] ↔
      ¬ ∃ first second, Misleading [secondCandidate, tenthCandidate] first second :=
  selects_highest_iff [secondCandidate, tenthCandidate] (by decide)

/-- `1.6.0-rc.2` is selected, although `1.6.0-rc.10` is later. -/
theorem lower_candidate_selected :
    ¬ ∀ versions : List Version, versions ≠ [] → SelectsHighest versions := by
  intro h
  obtain ⟨selected, hselected, -, hhighest⟩ := h [secondCandidate, tenthCandidate] (by decide)
  have hsecond : selectVersion ([secondCandidate, tenthCandidate].map Version.text) =
      some secondCandidate.text := by
    decide +kernel
  refine hhighest secondCandidate (by simp) ?_ tenthCandidate (by simp) ?_
  · exact Option.some.inj (hsecond.symm.trans hselected)
  · decide +kernel

end RulesElide.Toolchains
