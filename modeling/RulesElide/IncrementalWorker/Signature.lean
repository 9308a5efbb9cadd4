import RulesElide.Library.Base64
import RulesElide.Library.LengthPrefix
import RulesElide.Platform.Files
import RulesElide.WorkerProtocol.Requests

/-!
# The signature of a request

`IncrementalWorker.signature` hashes the arguments of a request and then its tracked inputs
in the order of their paths.  Each text is hashed with its length in front, so the hash
determines the sequence of texts; it does not determine where the arguments end and the
inputs begin.  `signature_separates_iff` says for which pairs of requests this matters.
-/

namespace RulesElide.IncrementalWorker

open WorkerProtocol

/-- What the worker takes from the machine it runs on: the digest of SHA-256,
`File.pathSeparator`, and the directory it was started in. -/
structure Platform where
  sha256 : Bytes → Bytes
  pathSeparator : Char := ':'
  workingDirectory : Path := []

/-! ## The code -/

/-- `hash`: the bytes it adds to the digest. -/
def hash (bytes : Bytes) : Bytes :=
  LengthPrefix.frame 4 bytes

/-- `conservative`: some argument is an option of a plugin or of a friend module. -/
def conservative (arguments : List String) : Bool :=
  arguments.any fun arg =>
    startsWith arg "-Xplugin" || startsWith arg "-Xcompiler-plugin" || arg == "-P" ||
      startsWith arg "-P=" || startsWith arg "-Xfriend-paths" || arg == "--plugins" ||
      startsWith arg "--plugins="

/-- The loop that collects the jars of `-classpath` and `-cp`, from the argument it starts at;
an argument that was a value is not an option. -/
def scanClasspath (platform : Platform) : List String → List String
  | option :: value :: rest =>
      if option = "-classpath" ∨ option = "-cp" then
        (split platform.pathSeparator value).filter (endsWith · ".jar") ++
          scanClasspath platform rest
      else scanClasspath platform (value :: rest)
  | _ => []

/-- `classpath`; without a separator `indexOf` is `-1` and the loop starts at the first
argument. -/
def classpath (platform : Platform) (arguments : List String) : List String :=
  if conservative arguments then []
  else scanClasspath platform (arguments.drop (indexOf arguments "--" + 1).toNat)

/-- The inputs the second loop does not skip. -/
def isTracked (classpath : List String) (input : Input) : Bool :=
  !(endsWith input.path ".kt" || endsWith input.path ".java" || classpath.contains input.path)

/-- `Comparator.comparing(Input::getPath)`. -/
def pathLe (first second : Input) : Prop :=
  compareToLe first.path second.path

instance : DecidableRel pathLe := fun first second =>
  inferInstanceAs (Decidable (compareToLe first.path second.path))

/-- `signature`. -/
def signature (platform : Platform) (request : WorkRequest) : String :=
  let classpath := classpath platform request.arguments
  let arguments := request.arguments.flatMap fun arg => hash (getBytes arg)
  let sorted := request.inputs.insertionSort pathLe
  let inputs := sorted.flatMap fun input =>
    if isTracked classpath input then hash (getBytes input.path) ++ hash input.digest else []
  Base64.encode (platform.sha256 (arguments ++ inputs))

/-! ## What the signature should say -/

/-- The arguments after the separator, none if there is no separator. -/
def afterSeparator (arguments : List String) : List String :=
  (arguments.dropWhile (· ≠ "--")).drop 1

/-- The jars on a class path after the separator, unless the arguments are conservative. -/
def ordinaryClasspath (platform : Platform) (arguments : List String) : List String :=
  if conservative arguments then [] else scanClasspath platform (afterSeparator arguments)

/-- Inputs as a map from paths to digests. -/
def digests (inputs : List Input) (path : String) : Option Bytes :=
  (inputs.find? fun input => input.path = path).map Input.digest

/-- The tracked inputs of a request, as a map. -/
def trackedDigests (platform : Platform) (request : WorkRequest) : String → Option Bytes :=
  digests (request.inputs.filter (isTracked (ordinaryClasspath platform request.arguments)))

/-- No two inputs of a request have one path. -/
def DistinctPaths (request : WorkRequest) : Prop :=
  (request.inputs.map Input.path).Nodup

instance : DecidablePred DistinctPaths := fun request =>
  inferInstanceAs (Decidable (request.inputs.map Input.path).Nodup)

/-- Two requests have one signature exactly when nothing differs that must reset the state. -/
def SignatureSeparates (platform : Platform) (first second : WorkRequest) : Prop :=
  signature platform first = signature platform second ↔
    first.arguments = second.arguments ∧
      trackedDigests platform first = trackedDigests platform second

/-! ## When it does not -/

/-- The inputs that are hashed, in the order of their paths. -/
def trackedInputs (platform : Platform) (request : WorkRequest) : List Input :=
  (request.inputs.insertionSort pathLe).filter
    (isTracked (classpath platform request.arguments))

/-- The two texts that are hashed for an input. -/
def chunks (input : Input) : List Bytes :=
  [getBytes input.path, input.digest]

/-- The arguments of `first` go on, where those of `second` end, with the path and the digest
of one tracked input of `second` after the other; both have the same tracked inputs left. -/
def TakesInputsForArguments (platform : Platform) (first second : WorkRequest) : Prop :=
  ∃ leading, leading ≠ [] ∧
    first.arguments.map getBytes = second.arguments.map getBytes ++ leading.flatMap chunks ∧
    trackedInputs platform second = leading ++ trackedInputs platform first

/-- Without a separator, the jars on a class path are left out although they are tracked. -/
def DiffersInUnseparatedJars (platform : Platform) (first second : WorkRequest) : Prop :=
  first.arguments = second.arguments ∧ "--" ∉ first.arguments ∧
    trackedInputs platform first = trackedInputs platform second ∧
    trackedDigests platform first ≠ trackedDigests platform second

variable {platform : Platform} {first second request : WorkRequest}

/-! ## The hashed texts -/

/-- The texts that are hashed for a request. -/
def hashedChunks (platform : Platform) (request : WorkRequest) : List Bytes :=
  request.arguments.map getBytes ++ (trackedInputs platform request).flatMap chunks

theorem signature_eq (platform : Platform) (request : WorkRequest) :
    signature platform request =
      Base64.encode (platform.sha256 ((hashedChunks platform request).flatMap hash)) := by
  -- the loop over the inputs skips those that are not tracked
  have hinputs : ∀ inputs : List Input,
      (inputs.flatMap fun input =>
        if isTracked (classpath platform request.arguments) input then
          hash (getBytes input.path) ++ hash input.digest else []) =
        ((inputs.filter (isTracked (classpath platform request.arguments))).flatMap chunks).flatMap
          hash := by
    intro inputs
    induction inputs with
    | nil => rfl
    | cons input inputs ih =>
        rw [List.flatMap_cons, ih]
        by_cases htracked : isTracked (classpath platform request.arguments) input
        · rw [if_pos htracked, List.filter_cons_of_pos htracked]
          simp [chunks]
        · rw [if_neg htracked, List.filter_cons_of_neg htracked, List.nil_append]
  unfold signature hashedChunks
  rw [List.flatMap_append, List.flatMap_map]
  dsimp only
  rw [hinputs]
  rfl

/-- Every hashed text fits its length prefix. -/
theorem length_lt_of_mem_hashedChunks {chunk : Bytes} (h : chunk ∈ hashedChunks platform request) :
    chunk.length < 256 ^ 4 := by
  have hfits := request.fits
  have hbound : chunk.length ≤ maxInt := by
    rcases List.mem_append.mp h with hargument | hinput
    · obtain ⟨argument, hmem, rfl⟩ := List.mem_map.mp hargument
      exact hfits.arguments argument hmem
    · obtain ⟨input, hmem, hchunk⟩ := List.mem_flatMap.mp hinput
      have hsorted := (List.mem_filter.mp hmem).1
      have htexts := hfits.inputs input ((List.mem_insertionSort _).mp hsorted)
      rcases List.mem_pair.mp hchunk with rfl | rfl
      · exact htexts.path
      · exact htexts.digest
  unfold maxInt at hbound
  omega

/-- Where the digest has no collisions, the signature determines the hashed texts. -/
theorem signature_eq_iff (hsha : Function.Injective platform.sha256) :
    signature platform first = signature platform second ↔
      hashedChunks platform first = hashedChunks platform second := by
  rw [signature_eq, signature_eq]
  constructor
  · intro h
    exact LengthPrefix.frames_injective (by norm_num) (fun _ => length_lt_of_mem_hashedChunks)
      (fun _ => length_lt_of_mem_hashedChunks) (hsha (Base64.encode_injective h))
  · intro h
    rw [h]

theorem flatMap_chunks_injective {inputs inputs' : List Input}
    (h : inputs.flatMap chunks = inputs'.flatMap chunks) : inputs = inputs' := by
  refine Framing.flatMap_injOn (fun _ => True) (fun _ => by simp [chunks])
    (fun input input' _ _ rest rest' h => ?_) (fun _ _ => trivial) (fun _ _ => trivial) h
  simp only [chunks, List.cons_append, List.nil_append, List.cons.injEq] at h
  obtain ⟨hpath, hdigest, hrest⟩ := h
  cases input
  cases input'
  cases getBytes_injective hpath
  cases hdigest
  exact ⟨rfl, hrest⟩

/-- Texts in front of those of some inputs are the texts of inputs themselves, if the whole is. -/
theorem exists_leading {inputs inputs' : List Input} {extra : List Bytes}
    (h : inputs'.flatMap chunks = extra ++ inputs.flatMap chunks) :
    ∃ leading, extra = leading.flatMap chunks ∧ inputs' = leading ++ inputs := by
  have hlength : ∀ inputs : List Input, (inputs.flatMap chunks).length = 2 * inputs.length := by
    intro inputs
    simp [chunks, List.length_flatMap, Nat.mul_comm]
  have hsplit := List.take_append_drop (inputs'.length - inputs.length) inputs'
  rw [← hsplit, List.flatMap_append] at h
  have htotal := congrArg List.length h
  rw [← List.flatMap_append, hsplit, List.length_append, hlength, hlength] at htotal
  have hdrop : ((inputs'.drop (inputs'.length - inputs.length)).flatMap chunks).length =
      (inputs.flatMap chunks).length := by
    rw [hlength, hlength, List.length_drop]
    omega
  obtain ⟨hextra, hrest⟩ := List.append_inj' h hdrop
  rw [flatMap_chunks_injective hrest] at hsplit
  exact ⟨_, hextra.symm, hsplit.symm⟩

/-- Two requests that are hashed alike have the same arguments and tracked inputs, or one of
them takes inputs of the other for arguments. -/
theorem hashedChunks_eq (h : hashedChunks platform first = hashedChunks platform second) :
    (first.arguments = second.arguments ∧
        trackedInputs platform first = trackedInputs platform second) ∨
      TakesInputsForArguments platform first second ∨
      TakesInputsForArguments platform second first := by
  -- the chunks that are too many among the arguments are inputs of the other request
  have hcase : ∀ {first second : WorkRequest} {extra : List Bytes},
      first.arguments.map getBytes = second.arguments.map getBytes ++ extra →
      (trackedInputs platform second).flatMap chunks =
        extra ++ (trackedInputs platform first).flatMap chunks →
      (first.arguments = second.arguments ∧
          trackedInputs platform first = trackedInputs platform second) ∨
        TakesInputsForArguments platform first second := by
    intro first second extra harguments hinputs
    obtain ⟨leading, rfl, hleading⟩ := exists_leading hinputs
    by_cases hnil : leading = []
    · rw [hnil, List.flatMap_nil, List.append_nil] at harguments
      rw [hnil, List.nil_append] at hleading
      exact Or.inl ⟨List.map_injective_iff.mpr getBytes_injective harguments, hleading.symm⟩
    · exact Or.inr ⟨leading, hnil, harguments, hleading⟩
  -- one list of arguments is a prefix of the other
  rcases List.append_eq_append_iff.mp h with
    ⟨extra, harguments, hinputs⟩ | ⟨extra, harguments, hinputs⟩
  · rcases hcase harguments hinputs with ⟨hsame, hsame'⟩ | hconfused
    · exact Or.inl ⟨hsame.symm, hsame'.symm⟩
    · exact Or.inr (Or.inr hconfused)
  · rcases hcase harguments hinputs with hsame | hconfused
    · exact Or.inl hsame
    · exact Or.inr (Or.inl hconfused)

theorem hashedChunks_of_takesInputsForArguments
    (h : TakesInputsForArguments platform first second) :
    hashedChunks platform first = hashedChunks platform second := by
  obtain ⟨leading, _, harguments, hinputs⟩ := h
  calc hashedChunks platform first
      = second.arguments.map getBytes ++ leading.flatMap chunks ++
          (trackedInputs platform first).flatMap chunks := by rw [hashedChunks, harguments]
    _ = second.arguments.map getBytes ++
      (leading ++ trackedInputs platform first).flatMap chunks := by
        rw [List.append_assoc, List.flatMap_append]
    _ = hashedChunks platform second := by rw [hashedChunks, hinputs]

theorem arguments_ne_of_takesInputsForArguments
    (h : TakesInputsForArguments platform first second) : first.arguments ≠ second.arguments := by
  obtain ⟨leading, hnil, harguments, _⟩ := h
  rintro hsame
  rw [hsame] at harguments
  have hlength := congrArg List.length harguments
  obtain ⟨input, leading, rfl⟩ := List.exists_cons_of_ne_nil hnil
  simp [chunks] at hlength

/-! ## Tracked inputs as maps -/

theorem digests_eq_some_iff {inputs : List Input} (hdistinct : (inputs.map Input.path).Nodup)
    {path : String} {digest : Bytes} :
    digests inputs path = some digest ↔ ⟨path, digest⟩ ∈ inputs := by
  induction inputs with
  | nil => simp [digests]
  | cons input inputs ih =>
      obtain ⟨hnew, hrest⟩ := List.nodup_cons.mp hdistinct
      have hcons : digests (input :: inputs) path =
          if input.path = path then some input.digest else digests inputs path := by
        unfold digests
        rw [List.find?_cons]
        by_cases hpath : input.path = path <;> simp [hpath]
      rw [hcons, List.mem_cons]
      by_cases hpath : input.path = path
      · -- with distinct paths the first entry for a path is the only one
        have hnone : (⟨path, digest⟩ : Input) ∉ inputs := by
          intro hmem
          exact hnew (hpath ▸ List.mem_map_of_mem hmem)
        rw [if_pos hpath, Option.some.injEq]
        constructor
        · intro hdigest
          left
          cases input
          cases hpath
          cases hdigest
          rfl
        · rintro (rfl | hmem)
          · rfl
          · exact absurd hmem hnone
      · rw [if_neg hpath, ih hrest]
        constructor
        · exact Or.inr
        · rintro (rfl | hmem)
          · exact absurd rfl hpath
          · exact hmem

/-- Inputs with distinct paths are the same map exactly when they are the same up to order. -/
theorem digests_eq_iff_perm {inputs inputs' : List Input}
    (hdistinct : (inputs.map Input.path).Nodup)
    (hdistinct' : (inputs'.map Input.path).Nodup) :
    digests inputs = digests inputs' ↔ inputs.Perm inputs' := by
  rw [List.perm_ext_iff_of_nodup hdistinct.of_map hdistinct'.of_map]
  constructor
  · intro h input
    rw [← digests_eq_some_iff hdistinct, ← digests_eq_some_iff hdistinct', h]
  · intro h
    funext path
    ext digest
    rw [digests_eq_some_iff hdistinct, digests_eq_some_iff hdistinct', h]

instance : Std.Total pathLe :=
    ⟨fun first second => Std.Total.total (r := compareToLe) first.path second.path⟩

instance : IsTrans Input pathLe := ⟨fun _ _ _ h h' => le_trans h h'⟩

theorem trackedInputs_perm (platform : Platform) (request : WorkRequest) :
    (trackedInputs platform request).Perm
      (request.inputs.filter (isTracked (classpath platform request.arguments))) :=
  (List.perm_insertionSort pathLe request.inputs).filter _

theorem nodup_filter {inputs : List Input} (hdistinct : (inputs.map Input.path).Nodup)
    (keep : Input → Bool) : ((inputs.filter keep).map Input.path).Nodup :=
  hdistinct.sublist (List.filter_sublist.map _)

/-- The order of the paths leaves the hashed inputs one order. -/
theorem trackedInputs_eq_iff_perm (hsecond : DistinctPaths second) :
    trackedInputs platform first = trackedInputs platform second ↔
      (first.inputs.filter (isTracked (classpath platform first.arguments))).Perm
        (second.inputs.filter (isTracked (classpath platform second.arguments))) := by
  have hperm := trackedInputs_perm platform first
  have hperm' := trackedInputs_perm platform second
  constructor
  · intro h
    exact hperm.symm.trans (h ▸ hperm')
  · intro h
    have hsame := (hperm.trans h).trans hperm'.symm
    have hdistinct : ((trackedInputs platform second).map Input.path).Nodup :=
      (hperm'.map Input.path).nodup_iff.mpr (nodup_filter hsecond _)
    have hsorted : ∀ request, (trackedInputs platform request).Pairwise pathLe := fun request =>
      (List.pairwise_insertionSort pathLe request.inputs).filter _
    -- sorted lists with the same elements, and no two have one path
    refine hsame.eq_of_pairwise (fun input input' hinput hinput' hle hle' => ?_) (hsorted first)
      (hsorted second)
    exact List.inj_on_of_nodup_map hdistinct (hsame.mem_iff.mp hinput) hinput'
      (compareToLe_antisymm hle hle')

/-! ## The separator -/

theorem drop_indexOf {arguments : List String} (h : "--" ∈ arguments) :
    arguments.drop (indexOf arguments "--" + 1).toNat = afterSeparator arguments := by
  -- by induction on the arguments before the separator
  have hdrop : ∀ index, arguments.idxOf? "--" = some index →
      arguments.drop (index + 1) = afterSeparator arguments := by
    unfold afterSeparator
    induction arguments with
    | nil => simp at h
    | cons argument arguments ih =>
        intro index hindex
        rw [List.idxOf?_cons] at hindex
        by_cases hargument : argument = "--"
        · rw [if_pos (by simpa using hargument)] at hindex
          cases hindex
          rw [List.dropWhile_cons_of_neg (by simpa using hargument)]
        · rw [if_neg (by simpa using hargument)] at hindex
          obtain ⟨rest, hrest, rfl⟩ := Option.map_eq_some_iff.mp hindex
          rw [List.dropWhile_cons_of_pos (by simpa using hargument), List.drop_succ_cons]
          exact ih ((List.mem_cons.mp h).resolve_left (Ne.symm hargument)) rest hrest
  unfold indexOf
  cases hindex : arguments.idxOf? "--" with
  | none => exact absurd h (List.idxOf?_eq_none_iff.mp hindex)
  | some index =>
      have hnat : ((index : ℤ) + 1).toNat = index + 1 := by omega
      dsimp only
      rw [hnat, hdrop index hindex]

theorem classpath_of_mem {arguments : List String} (h : "--" ∈ arguments) :
    classpath platform arguments = ordinaryClasspath platform arguments := by
  rw [classpath, ordinaryClasspath, drop_indexOf h]

theorem ordinaryClasspath_of_not_mem {arguments : List String} (h : "--" ∉ arguments) :
    ordinaryClasspath platform arguments = [] := by
  have hafter : afterSeparator arguments = [] := by
    have hall : arguments.dropWhile (· ≠ "--") = [] := by
      rw [List.dropWhile_eq_nil_iff]
      intro argument hargument
      have hne : argument ≠ "--" := fun hsame => h (hsame ▸ hargument)
      simpa using hne
    rw [afterSeparator, hall, List.drop_nil]
  rw [ordinaryClasspath, hafter]
  split <;> rfl

/-- What the code hashes is tracked, with a separator or without. -/
theorem filter_filter_tracked (platform : Platform) (arguments : List String)
    (inputs : List Input) :
    (inputs.filter (isTracked (ordinaryClasspath platform arguments))).filter
        (isTracked (classpath platform arguments)) =
      inputs.filter (isTracked (classpath platform arguments)) := by
  rw [List.filter_filter]
  refine List.filter_congr fun input _ => ?_
  by_cases hseparator : "--" ∈ arguments
  · rw [classpath_of_mem hseparator, Bool.and_self]
  · rw [ordinaryClasspath_of_not_mem hseparator, Bool.and_eq_left_iff_imp]
    intro htracked
    simp only [isTracked, Bool.not_or, Bool.and_eq_true] at htracked ⊢
    exact ⟨htracked.1, by simp⟩

/-- Requests with the same arguments and the same tracked inputs are hashed alike. -/
theorem trackedInputs_of_trackedDigests (hfirst : DistinctPaths first)
    (hsecond : DistinctPaths second) (harguments : first.arguments = second.arguments)
    (hdigests : trackedDigests platform first = trackedDigests platform second) :
    trackedInputs platform first = trackedInputs platform second := by
  have hperm := (digests_eq_iff_perm (nodup_filter hfirst _) (nodup_filter hsecond _)).mp hdigests
  have hfiltered := hperm.filter (isTracked (classpath platform second.arguments))
  rw [harguments, filter_filter_tracked, filter_filter_tracked] at hfiltered
  rw [trackedInputs_eq_iff_perm hsecond, harguments]
  exact hfiltered

theorem trackedDigests_of_trackedInputs (hfirst : DistinctPaths first)
    (hsecond : DistinctPaths second) (harguments : first.arguments = second.arguments)
    (hseparator : "--" ∈ first.arguments)
    (hinputs : trackedInputs platform first = trackedInputs platform second) :
    trackedDigests platform first = trackedDigests platform second := by
  have hperm := (trackedInputs_eq_iff_perm hsecond).mp hinputs
  rw [classpath_of_mem hseparator, classpath_of_mem (harguments ▸ hseparator)] at hperm
  exact (digests_eq_iff_perm (nodup_filter hfirst _) (nodup_filter hsecond _)).mpr hperm

/-- **The signature.**  Where the digest has no collisions, two requests with distinct input
paths have one signature exactly when nothing differs that must reset the state, except in
two cases: one request takes tracked inputs of the other for arguments, or there is no
separator and only jars on a class path differ. -/
theorem signature_separates_iff (hsha : Function.Injective platform.sha256)
    (hfirst : DistinctPaths first) (hsecond : DistinctPaths second) :
    SignatureSeparates platform first second ↔
      ¬ TakesInputsForArguments platform first second ∧
        ¬ TakesInputsForArguments platform second first ∧
        ¬ DiffersInUnseparatedJars platform first second := by
  unfold SignatureSeparates
  rw [signature_eq_iff hsha]
  constructor
  · intro h
    refine ⟨fun hconfused => ?_, fun hconfused => ?_, ?_⟩
    · exact arguments_ne_of_takesInputsForArguments hconfused
        (h.mp (hashedChunks_of_takesInputsForArguments hconfused)).1
    · exact arguments_ne_of_takesInputsForArguments hconfused
        (h.mp (hashedChunks_of_takesInputsForArguments hconfused).symm).1.symm
    · rintro ⟨harguments, _, hinputs, hdiffer⟩
      refine hdiffer (h.mp ?_).2
      rw [hashedChunks, hashedChunks, harguments, hinputs]
  · rintro ⟨hconfused, hconfused', hjars⟩
    constructor
    · intro h
      -- equal signatures: the same pairs, or one of the two confusions
      rcases hashedChunks_eq h with ⟨harguments, hinputs⟩ | hwrong | hwrong
      · refine ⟨harguments, ?_⟩
        by_cases hseparator : "--" ∈ first.arguments
        · exact trackedDigests_of_trackedInputs hfirst hsecond harguments hseparator hinputs
        · -- without `--` nothing is tracked, though jars may be on the class path
          by_contra hdiffer
          exact hjars ⟨harguments, hseparator, hinputs, hdiffer⟩
      · exact absurd hwrong hconfused
      · exact absurd hwrong hconfused'
    · rintro ⟨harguments, hdigests⟩
      rw [hashedChunks, hashedChunks, harguments,
        trackedInputs_of_trackedDigests hfirst hsecond harguments hdigests]

/-! ## A pair of requests with one signature -/

/-- The arguments `-- -d out.jar tool dig` and one source. -/
def argumentsRequest : WorkRequest :=
  .ofDecodable ⟨[10, 2] ++ getBytes "--" ++ [10, 2] ++ getBytes "-d" ++ [10, 7] ++
    getBytes "out.jar" ++ [10, 4] ++ getBytes "tool" ++ [10, 3] ++ getBytes "dig" ++
    [18, 6, 10, 4] ++ getBytes "A.kt", by decide⟩ (by decide)

/-- The arguments `-- -d out.jar`, one source, and the input `tool` with the digest `dig`. -/
def inputsRequest : WorkRequest :=
  .ofDecodable ⟨[10, 2] ++ getBytes "--" ++ [10, 2] ++ getBytes "-d" ++ [10, 7] ++
    getBytes "out.jar" ++ [18, 6, 10, 4] ++ getBytes "A.kt" ++ [18, 11, 10, 4] ++
    getBytes "tool" ++ [18, 3] ++ getBytes "dig", by decide⟩ (by decide)

/-- The bytes that are hashed for either of them. -/
def sharedStream : Bytes :=
  [0, 0, 0, 2] ++ getBytes "--" ++ [0, 0, 0, 2] ++ getBytes "-d" ++ [0, 0, 0, 7] ++
    getBytes "out.jar" ++ [0, 0, 0, 4] ++ getBytes "tool" ++ [0, 0, 0, 3] ++ getBytes "dig"

/-- A digest without collisions that agrees with SHA-256 on `sharedStream`. -/
def sampleDigest (bytes : Bytes) : Bytes :=
  if bytes = sharedStream then
    [25, 247, 224, 74, 117, 179, 38, 70, 78, 96, 49, 245, 114, 135, 142, 50, 172, 69,
      229, 221, 143, 234, 17, 153, 97, 164, 190, 123, 50, 152, 202, 15]
  else List.replicate 33 0 ++ bytes

theorem sampleDigest_injective : Function.Injective sampleDigest := by
  intro bytes bytes' h
  unfold sampleDigest at h
  split at h <;> split at h
  · rename_i hbytes hbytes'
    rw [hbytes, hbytes']
  · have hlength := congrArg List.length h
    simp only [List.length_append, List.length_replicate, List.length_cons,
      List.length_nil] at hlength
    omega
  · have hlength := congrArg List.length h
    simp only [List.length_append, List.length_replicate, List.length_cons,
      List.length_nil] at hlength
    omega
  · exact List.append_cancel_left h

theorem signature_separates_iff_sample :
    let platform : Platform := ⟨sampleDigest, ':', []⟩
    SignatureSeparates platform argumentsRequest inputsRequest ↔
      ¬ TakesInputsForArguments platform argumentsRequest inputsRequest ∧
        ¬ TakesInputsForArguments platform inputsRequest argumentsRequest ∧
        ¬ DiffersInUnseparatedJars platform argumentsRequest inputsRequest :=
  signature_separates_iff sampleDigest_injective (by decide) (by decide)

theorem signature_confuses_inputs_and_arguments :
    ¬ ∀ (platform : Platform) (first second : WorkRequest), Function.Injective platform.sha256 →
      DistinctPaths first → DistinctPaths second → SignatureSeparates platform first second := by
  intro h
  have hseparates := h ⟨sampleDigest, ':', []⟩ argumentsRequest inputsRequest sampleDigest_injective
    (by decide) (by decide)
  have hchunks : hashedChunks ⟨sampleDigest, ':', []⟩ argumentsRequest =
      hashedChunks ⟨sampleDigest, ':', []⟩ inputsRequest := by decide
  have hsignature := hseparates.mp (by rw [signature_eq, signature_eq, hchunks])
  exact absurd hsignature.1 (by decide)

end RulesElide.IncrementalWorker
