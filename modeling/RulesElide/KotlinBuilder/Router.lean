import RulesElide.KotlinBuilder.ElideCompile

/-!
# Routing

`Router.route` decides whether Elide compiles a request or the fallback builder does.
`route_conservative_iff` compares it with what the planner emits: a request is routed
conservatively exactly when it is `Covered`.
-/

namespace RulesElide.KotlinBuilder

inductive Route
  | fast
  | fallback
  deriving DecidableEq

structure Routing where
  route : Route
  reason : String
  deriving DecidableEq

namespace Router

/-- `KSP_MARKERS`. -/
def kspMarkers : List String :=
  ["symbol-processing", "/ksp", "ksp-"]

def anyKsp (jars : List String) : Bool :=
  jars.any fun jar => kspMarkers.any fun marker => contains jar marker

/-- `req.raw["--experimental_psi_resolution"]?.contains("true") == true`. -/
def psiOverride (req : CompileRequest) : Bool :=
  (req.raw "--experimental_psi_resolution").any fun values => values.contains "true"

/-- `route`. -/
def route (req : CompileRequest) (nativeTools : Bool) : Routing :=
  if req.kspSources.isSome then
    if !nativeTools || psiOverride req then
      ⟨.fallback, "KSP2 requires native tools without PSI override"⟩
    else ⟨.fast, "Elide KSP2"⟩
  else if nativeTools && req.kaptSources.isSome && req.stubsPluginClasspath.isEmpty &&
      req.stubsPluginOptions.isEmpty && req.javacOpts.all (startsWith · "-A") then
    ⟨.fast, "Elide header-based KAPT"⟩
  else if !req.processors.isEmpty then ⟨.fallback, "KAPT processors present"⟩
  else if anyKsp req.compilerPluginClasspath || anyKsp req.stubsPluginClasspath then
    ⟨.fallback, "KSP plugin present"⟩
  else ⟨.fast, "plain Kotlin/Java compile"⟩

end Router

/-! ## What routing should do -/

open Router ElideCompile

/-- A KSP plugin is on the class path of the compiler or of the stubs. -/
def HasKspPlugin (req : CompileRequest) : Prop :=
  anyKsp req.compilerPluginClasspath ∨ anyKsp req.stubsPluginClasspath

instance : DecidablePred HasKspPlugin := fun _ => inferInstanceAs (Decidable (_ ∨ _))

def CarriesProcessing (req : CompileRequest) : Prop :=
  req.kaptSources ≠ none ∨ req.kspSources ≠ none ∨ req.processors ≠ [] ∨ HasKspPlugin req

/-- A stubs plugin, or an option for `javac` itself. -/
def HasCustomJavac (req : CompileRequest) : Prop :=
  req.stubsPluginClasspath ≠ [] ∨ req.stubsPluginOptions ≠ [] ∨
    ∃ opt ∈ req.javacOpts, startsWith opt "-A" = false

instance : DecidablePred HasCustomJavac := fun _ => inferInstanceAs (Decidable (_ ∨ _ ∨ _))

/-- The settings of annotation processing.  The options of `javac` that begin with `-A` are
in `processorOptions`; `javacOpts` stands for the others. -/
inductive Setting
  | kaptSources
  | kaptClasses
  | kaptStubs
  | kspSources
  | kspClasses
  | processors
  | processorPath
  | processorOptions
  | stubsPluginClasspath
  | stubsPluginOptions
  | javacOpts

namespace Setting

def isSet (req : CompileRequest) : Setting → Prop
  | kaptSources => req.kaptSources ≠ none
  | kaptClasses => req.kaptClasses ≠ none
  | kaptStubs => req.kaptStubs ≠ none
  | kspSources => req.kspSources ≠ none
  | kspClasses => req.kspClasses ≠ none
  | processors => req.processors ≠ []
  | processorPath => req.processorPath ≠ []
  | processorOptions => req.processorOptions ≠ []
  | stubsPluginClasspath => req.stubsPluginClasspath ≠ []
  | stubsPluginOptions => req.stubsPluginOptions ≠ []
  | javacOpts => ∃ opt ∈ req.javacOpts, startsWith opt "-A" = false

/-- The request without the setting. -/
def clear (req : CompileRequest) : Setting → CompileRequest
  | kaptSources => { req with kaptSources := none }
  | kaptClasses => { req with kaptClasses := none }
  | kaptStubs => { req with kaptStubs := none }
  | kspSources => { req with kspSources := none }
  | kspClasses => { req with kspClasses := none }
  | processors => { req with processors := [] }
  | processorPath => { req with processorPath := [] }
  | processorOptions => { req with processorOptions := [] }
  | stubsPluginClasspath => { req with stubsPluginClasspath := [] }
  | stubsPluginOptions => { req with stubsPluginOptions := [] }
  | javacOpts => { req with javacOpts := req.javacOpts.filter (startsWith · "-A") }

end Setting

/-- The planner reads the setting when it plans a processing request in native mode. -/
def Setting.isEmitted (req : CompileRequest) : Setting → Bool
  | kspSources | kspClasses => req.kspSources.isSome
  | kaptSources | kaptClasses | kaptStubs | processors => req.kspSources.isNone
  | processorPath | processorOptions => true
  | stubsPluginClasspath | stubsPluginOptions | javacOpts => false

/-- The request has the setting, and the plan is the same without it. -/
def Drops (host : Host) (req : CompileRequest) (nativeTools : Bool) (setting : Setting) : Prop :=
  setting.isSet req ∧ ∀ elidePath extraSources usedDepsReport,
    plan host (setting.clear req) elidePath extraSources usedDepsReport nativeTools =
      plan host req elidePath extraSources usedDepsReport nativeTools

/-- Routing is conservative: what Elide cannot do goes to the fallback builder, and no
processing request whose settings the planner drops is compiled by Elide. -/
structure Conservative (host : Host) (req : CompileRequest) (nativeTools : Bool) : Prop where
  legacy : nativeTools = false → CarriesProcessing req → (route req nativeTools).route = .fallback
  custom : nativeTools = true → req.kaptSources ≠ none → HasCustomJavac req →
    (route req nativeTools).route = .fallback
  plugin : req.kspSources = none → HasKspPlugin req → (route req nativeTools).route = .fallback
  emitted : (route req nativeTools).route = .fast → CarriesProcessing req →
    ∀ setting, ¬ Drops host req nativeTools setting

/-! ## When it does -/

/-- KSP2 gets only what the planner emits for it. -/
def KspCovered (req : CompileRequest) : Prop :=
  req.kaptSources = none ∧ req.kaptClasses = none ∧ req.kaptStubs = none ∧ req.processors = [] ∧
    ¬ HasCustomJavac req

/-- The requests that are routed conservatively. -/
def Covered (req : CompileRequest) : Bool → Prop
  | false => req.kspSources = none → req.kaptSources ≠ none → req.processors ≠ [] ∨ HasKspPlugin req
  | true =>
      (req.kspSources ≠ none → psiOverride req = false → KspCovered req) ∧
      (req.kspSources = none → req.kaptSources ≠ none →
        if HasCustomJavac req then req.processors ≠ [] ∨ HasKspPlugin req
        else req.kspClasses = none ∧ ¬ HasKspPlugin req)

variable {host : Host} {req : CompileRequest} {nativeTools : Bool}

/-! ## The planner -/

theorem remainder_clear (setting : Setting) (extraSources : List String)
    (usedDepsReport : Option String) :
    remainder host (setting.clear req) extraSources usedDepsReport =
      remainder host req extraSources usedDepsReport := by
  cases setting <;> rfl

/-- Between two processing requests only the native options can differ. -/
theorem plan_clear_eq_iff {setting : Setting} (h : processing req = true)
    (hclear : processing (setting.clear req) = true) (elidePath : String)
    (extraSources : List String) (usedDepsReport : Option String) :
    plan host (setting.clear req) elidePath extraSources usedDepsReport true =
        plan host req elidePath extraSources usedDepsReport true ↔
      nativeOptions host (setting.clear req) = nativeOptions host req := by
  rw [plan_of_processing h, plan_of_processing hclear, remainder_clear]
  constructor
  · intro heq
    have hcommands := List.head_eq_of_cons_eq (Except.ok.inj heq)
    rw [List.append_left_inj, List.append_right_inj] at hcommands
    exact hcommands
  · intro heq
    rw [heq]

theorem append_ne_of_take_ne {text other : String} (count : ℕ)
    (hcount : count ≤ text.toList.length)
    (h : text.toList.take count ≠ other.toList.take count) (rest : String) :
    text ++ rest ≠ other := by
  intro heq
  apply h
  calc text.toList.take count = (text.toList ++ rest.toList).take count :=
        (List.take_append_of_le_length hcount).symm
    _ = other.toList.take count := by rw [← String.toList_append, heq]

/-- The first option of a request that carries no processing is none of the two flags. -/
theorem head_options_of_not_processing {flag : String}
    (hflag : flag = "--kapt-sources" ∨ flag = "--ksp-sources") (h : processing req = false)
    (rest : List String) :
    (nativeOptions host req ++ (commonOptions req none ++ rest)).head? ≠ some flag := by
  have hlabel : ∀ label : String, "--target-label=" ++ label ≠ flag := by
    rcases hflag with rfl | rfl
    · exact append_ne_of_take_ne 3 (by decide) (by decide)
    · exact append_ne_of_take_ne 3 (by decide) (by decide)
  have hplugins : ∀ names : String, "--plugins=" ++ names ≠ flag := by
    rcases hflag with rfl | rfl
    · exact append_ne_of_take_ne 3 (by decide) (by decide)
    · exact append_ne_of_take_ne 3 (by decide) (by decide)
  have hjdeps : "--jdeps" ≠ flag ∧ "--" ≠ flag := by
    rcases hflag with rfl | rfl <;> decide
  obtain ⟨hkapt, hksp⟩ : req.kaptSources = none ∧ req.kspSources = none := by
    simpa [processing] using h
  have hnative : nativeOptions host req =
      option "--jdeps" req.jdeps ++ req.targetLabel.toList.map ("--target-label=" ++ ·) := by
    simp [nativeOptions, h, hkapt, hksp]
  rw [hnative, commonOptions]
  -- the first option is that of the first setting that is there
  cases req.jdeps with
  | some jdeps => simpa [option] using hjdeps.1
  | none =>
      cases req.targetLabel with
      | some label => simpa [option] using hlabel label
      | none =>
          split
          · simpa [option] using hjdeps.2
          · simpa [option] using hplugins _

/-- A request that no longer carries processing is planned differently. -/
theorem plan_ne_of_not_processing {after : CompileRequest} {flag value : String}
    {options : List String} (hflag : flag = "--kapt-sources" ∨ flag = "--ksp-sources")
    (h : processing req = true) (hnative : nativeOptions host req = flag :: value :: options)
    (hafter : processing after = false) :
    plan host after "" [] none true ≠ plan host req "" [] none true := by
  rw [plan_of_processing h, hnative]
  intro heq
  rw [plan, abiArguments_native, hafter] at heq
  cases houtput : after.output with
  | none =>
      rw [houtput] at heq
      cases heq
  | some output =>
      -- the third argument of the command is the first option of the request
      rw [houtput] at heq
      have hcommand := List.head_eq_of_cons_eq (Except.ok.inj heq)
      have hthird := congrArg (fun command => (command.drop 2).head?) hcommand
      simp only [if_true, List.cons_append, List.nil_append, List.append_assoc, List.drop_succ_cons,
        List.drop_zero, List.head?_cons] at hthird
      exact head_options_of_not_processing hflag hafter _ hthird

theorem length_option (flag : String) (value : Option String) :
    (option flag value).length = if value = none then 0 else 2 := by
  cases value <;> rfl

theorem length_joined (flag separator : String) (values : List String) :
    (joined flag separator values).length = if values = [] then 0 else 2 := by
  rw [joined]
  split <;> rfl

/-- The number of the options for the processors. -/
def processorOptionCount (req : CompileRequest) : ℕ :=
  (if req.processorPath = [] then 0 else 2) + 2 * req.processorOptions.length

theorem length_processorOptions (host : Host) (req : CompileRequest) :
    (processorOptions host req).length = processorOptionCount req := by
  simp [processorOptions, processorOptionCount, length_joined, List.length_flatMap, mul_comm]

theorem length_nativeOptions_of_ksp (host : Host) (h : req.kspSources.isSome) :
    (nativeOptions host req).length =
      2 + (if req.kspClasses = none then 0 else 2) + processorOptionCount req := by
  obtain ⟨kspSources, hksp⟩ := Option.isSome_iff_exists.mp h
  rw [nativeOptions_of_ksp host hksp]
  simp only [List.length_cons, List.length_append, length_option, length_processorOptions]
  omega

theorem length_nativeOptions_of_kapt (host : Host) (h : req.kspSources = none)
    (hkapt : req.kaptSources.isSome) :
    (nativeOptions host req).length =
      2 + (if req.kaptClasses = none then 0 else 2) + (if req.kaptStubs = none then 0 else 2) +
        (if req.processors = [] then 0 else 2) + processorOptionCount req := by
  obtain ⟨kaptSources, hkapt⟩ := Option.isSome_iff_exists.mp hkapt
  rw [nativeOptions_of_kapt host h hkapt]
  simp only [List.length_cons, List.length_append, length_option, length_joined,
    length_processorOptions]
  omega

/-- What the planner does not read can be cleared. -/
theorem clear_of_not_emitted (host : Host) {setting : Setting} (h : processing req = true)
    (hnot : setting.isEmitted req = false) :
    processing (setting.clear req) = true ∧
      nativeOptions host (setting.clear req) = nativeOptions host req := by
  -- KSP comes first: with it the settings of kapt are not emitted, without it those of KSP
  cases hksp : req.kspSources with
  | none =>
      obtain ⟨kaptSources, hkapt⟩ : ∃ kaptSources, req.kaptSources = some kaptSources := by
        simpa [processing, hksp, Option.isSome_iff_exists] using h
      rw [nativeOptions_of_kapt host hksp hkapt]
      cases setting with
      | kspSources | kspClasses | stubsPluginClasspath | stubsPluginOptions | javacOpts =>
          exact ⟨by simp [processing, Setting.clear, hkapt],
            nativeOptions_of_kapt host (by simp [Setting.clear, hksp])
              (by simp [Setting.clear, hkapt])⟩
      | _ => simp [Setting.isEmitted, hksp] at hnot
  | some kspSources =>
      rw [nativeOptions_of_ksp host hksp]
      cases setting with
      | kaptSources | kaptClasses | kaptStubs | processors | stubsPluginClasspath
      | stubsPluginOptions | javacOpts =>
          exact ⟨by simp [processing, Setting.clear, hksp],
            nativeOptions_of_ksp host (by simp [Setting.clear, hksp])⟩
      | _ => simp [Setting.isEmitted, hksp] at hnot

/-- A setting that the planner reads for KAPT cannot be cleared without another plan. -/
theorem plan_clear_ne_of_kapt {setting : Setting} (h : processing req = true)
    (hksp : req.kspSources = none) (hset : setting.isSet req)
    (hemitted : setting.isEmitted req = true) :
    plan host (setting.clear req) "" [] none true ≠ plan host req "" [] none true := by
  have hkapt : req.kaptSources.isSome := by simpa [processing, hksp] using h
  cases setting with
  | kaptSources =>
      obtain ⟨kaptSources, hkapt⟩ := Option.isSome_iff_exists.mp hkapt
      exact plan_ne_of_not_processing (Or.inl rfl) h (nativeOptions_of_kapt host hksp hkapt)
        (by simp [processing, Setting.clear, hksp])
  | kaptClasses | kaptStubs | processors | processorPath | processorOptions =>
      -- without the setting there are fewer options
      intro heq
      rw [plan_clear_eq_iff h (by simp [processing, Setting.clear, hkapt])] at heq
      have hlength := congrArg List.length heq
      rw [length_nativeOptions_of_kapt host hksp hkapt,
        length_nativeOptions_of_kapt host (by exact hksp) (by exact hkapt)] at hlength
      simp_all [Setting.isSet, Setting.clear, processorOptionCount]
  | _ => simp [Setting.isEmitted, hksp] at hemitted

/-- A setting that the planner reads for KSP2 cannot be cleared without another plan. -/
theorem plan_clear_ne_of_ksp {setting : Setting} {kspSources : String} (h : processing req = true)
    (hksp : req.kspSources = some kspSources) (hset : setting.isSet req)
    (hemitted : setting.isEmitted req = true) :
    plan host (setting.clear req) "" [] none true ≠ plan host req "" [] none true := by
  cases setting with
  | kspSources =>
      have hoptions := nativeOptions_of_ksp host hksp
      cases hkapt : req.kaptSources with
      | none =>
          exact plan_ne_of_not_processing (Or.inr rfl) h hoptions
            (by simp [processing, Setting.clear, hkapt])
      | some kaptSources =>
          -- the request without the sources for KSP2 is planned for KAPT
          intro heq
          rw [plan_clear_eq_iff h (by simp [processing, Setting.clear, hkapt]), hoptions] at heq
          have hkept : nativeOptions host (Setting.kspSources.clear req) = _ :=
            nativeOptions_of_kapt host rfl hkapt
          have hhead := List.head_eq_of_cons_eq (hkept.symm.trans heq)
          exact absurd hhead (by decide)
  | kspClasses | processorPath | processorOptions =>
      intro heq
      rw [plan_clear_eq_iff h (by simp [processing, Setting.clear, hksp])] at heq
      have hlength := congrArg List.length heq
      have hsome : req.kspSources.isSome := Option.isSome_of_eq_some hksp
      rw [length_nativeOptions_of_ksp host hsome,
        length_nativeOptions_of_ksp host (by exact hsome)] at hlength
      simp_all [Setting.isSet, Setting.clear, processorOptionCount]
  | _ => simp [Setting.isEmitted, hksp] at hemitted

/-- What the planner reads cannot be cleared without another plan. -/
theorem plan_clear_ne {setting : Setting} (h : processing req = true) (hset : setting.isSet req)
    (hemitted : setting.isEmitted req = true) :
    plan host (setting.clear req) "" [] none true ≠ plan host req "" [] none true := by
  cases hksp : req.kspSources with
  | none => exact plan_clear_ne_of_kapt h hksp hset hemitted
  | some kspSources => exact plan_clear_ne_of_ksp h hksp hset hemitted

/-- The settings of a processing request that the planner drops. -/
theorem drops_iff {setting : Setting} (h : processing req = true) :
    Drops host req true setting ↔ setting.isSet req ∧ setting.isEmitted req = false := by
  refine and_congr_right fun hset => ⟨?_, ?_⟩
  · intro hplans
    by_contra hemitted
    exact plan_clear_ne h hset (Bool.eq_true_of_not_eq_false hemitted) (hplans "" [] none)
  · intro hnot elidePath extraSources usedDepsReport
    obtain ⟨hclear, hoptions⟩ := clear_of_not_emitted host h hnot
    exact (plan_clear_eq_iff h hclear elidePath extraSources usedDepsReport).mpr hoptions

/-! ## The router -/

theorem route_of_ksp (h : req.kspSources ≠ none) (nativeTools : Bool) :
    (route req nativeTools).route =
      if nativeTools = true ∧ psiOverride req = false then .fast else .fallback := by
  have hsome : req.kspSources.isSome = true := Option.isSome_iff_ne_none.mpr h
  rw [route, if_pos hsome]
  cases nativeTools <;> cases psiOverride req <;> rfl

/-- The condition of the branch for KAPT. -/
theorem kapt_condition_iff :
    (nativeTools && req.kaptSources.isSome && req.stubsPluginClasspath.isEmpty &&
        req.stubsPluginOptions.isEmpty && req.javacOpts.all (startsWith · "-A")) = true ↔
      nativeTools = true ∧ req.kaptSources ≠ none ∧ ¬ HasCustomJavac req := by
  simp only [HasCustomJavac, Bool.and_eq_true, Option.isSome_iff_ne_none, List.isEmpty_iff,
    List.all_eq_true, not_or, not_not, not_exists, not_and, Bool.not_eq_false, and_assoc]

theorem route_of_kapt (hksp : req.kspSources = none) (hkapt : req.kaptSources ≠ none)
    (hcustom : ¬ HasCustomJavac req) : (route req true).route = .fast := by
  rw [route, hksp, if_neg (by decide), if_pos (kapt_condition_iff.mpr ⟨rfl, hkapt, hcustom⟩)]

/-- The last three branches. -/
theorem route_of_rest (nativeTools : Bool) (hksp : req.kspSources = none)
    (h : ¬ (nativeTools = true ∧ req.kaptSources ≠ none ∧ ¬ HasCustomJavac req)) :
    (route req nativeTools).route =
      if req.processors ≠ [] ∨ HasKspPlugin req then .fallback else .fast := by
  rw [route, hksp, if_neg (by decide),
    if_neg fun hcondition => h (kapt_condition_iff.mp hcondition)]
  cases hprocessors : req.processors with
  | cons processor processors => rfl
  | nil =>
      by_cases hplugin : HasKspPlugin req
      · have hany :
          (anyKsp req.compilerPluginClasspath || anyKsp req.stubsPluginClasspath) = true :=
          Bool.or_eq_true_iff.mpr hplugin
        rw [if_neg (by decide), if_pos hany, if_pos (Or.inr hplugin)]
      · have hany :
          ¬ (anyKsp req.compilerPluginClasspath || anyKsp req.stubsPluginClasspath) = true :=
          fun hany => hplugin (Bool.or_eq_true_iff.mp hany)
        rw [if_neg (by decide), if_neg hany, if_neg (by simp [hplugin])]

/-- Where the planner reads all settings, one that it does not read is missing. -/
theorem not_isSet_of_emitted
    (h : ∀ setting : Setting, setting.isSet req → setting.isEmitted req = true) (setting : Setting)
    (hnot : setting.isEmitted req = false) : ¬ setting.isSet req := by
  intro hset
  rw [h setting hset] at hnot
  cases hnot

/-- The planner reads none of the settings that make the compilation of stubs or `javac` custom. -/
theorem not_customJavac_of_emitted
    (h : ∀ setting : Setting, setting.isSet req → setting.isEmitted req = true) :
    ¬ HasCustomJavac req := by
  rintro (hset | hset | hset)
  · exact not_isSet_of_emitted h .stubsPluginClasspath rfl hset
  · exact not_isSet_of_emitted h .stubsPluginOptions rfl hset
  · exact not_isSet_of_emitted h .javacOpts rfl hset

/-- For KSP2 nothing is lost exactly when the request is covered. -/
theorem kspCovered_iff (h : req.kspSources ≠ none) :
    KspCovered req ↔ ∀ setting : Setting, setting.isSet req → setting.isEmitted req = true := by
  have hsome : req.kspSources.isSome = true := Option.isSome_iff_ne_none.mpr h
  constructor
  · intro hcovered setting hset
    obtain ⟨hkapt, hclasses, hstubs, hprocessors, hcustom⟩ := hcovered
    -- the conditions are about every setting that KSP does not emit
    cases setting with
    | kaptSources => exact absurd hkapt hset
    | kaptClasses => exact absurd hclasses hset
    | kaptStubs => exact absurd hstubs hset
    | processors => exact absurd hprocessors hset
    | kspSources | kspClasses => exact hsome
    | processorPath | processorOptions => rfl
    | stubsPluginClasspath => exact absurd (Or.inl hset) hcustom
    | stubsPluginOptions => exact absurd (Or.inr (Or.inl hset)) hcustom
    | javacOpts => exact absurd (Or.inr (Or.inr hset)) hcustom
  · intro hemitted
    have hnone : req.kspSources.isNone = false := by
      rw [Option.isNone_eq_false_iff, hsome]
    exact ⟨not_not.mp (not_isSet_of_emitted hemitted .kaptSources hnone),
      not_not.mp (not_isSet_of_emitted hemitted .kaptClasses hnone),
      not_not.mp (not_isSet_of_emitted hemitted .kaptStubs hnone),
      not_not.mp (not_isSet_of_emitted hemitted .processors hnone),
      not_customJavac_of_emitted hemitted⟩

/-- For KAPT nothing is lost exactly when there is nothing for KSP or `javac`. -/
theorem kaptCovered_iff (h : req.kspSources = none) :
    req.kspClasses = none ∧ ¬ HasCustomJavac req ↔
      ∀ setting : Setting, setting.isSet req → setting.isEmitted req = true := by
  have hsome : req.kspSources.isSome = false := by rw [h]; rfl
  constructor
  · intro hcovered setting hset
    obtain ⟨hclasses, hcustom⟩ := hcovered
    cases setting with
    | kspSources => exact absurd h hset
    | kspClasses => exact absurd hclasses hset
    | kaptSources | kaptClasses | kaptStubs | processors => exact Option.isNone_iff_eq_none.mpr h
    | processorPath | processorOptions => rfl
    | stubsPluginClasspath => exact absurd (Or.inl hset) hcustom
    | stubsPluginOptions => exact absurd (Or.inr (Or.inl hset)) hcustom
    | javacOpts => exact absurd (Or.inr (Or.inr hset)) hcustom
  · intro hemitted
    exact ⟨not_not.mp (not_isSet_of_emitted hemitted .kspClasses hsome),
      not_customJavac_of_emitted hemitted⟩

/-- The planner drops nothing exactly when it reads whatever is set. -/
theorem not_drops_iff (host : Host) (h : processing req = true) :
    (∀ setting, ¬ Drops host req true setting) ↔
      ∀ setting : Setting, setting.isSet req → setting.isEmitted req = true := by
  refine forall_congr' fun setting => ?_
  rw [drops_iff h, not_and, Bool.not_eq_false]

theorem conservative_legacy_iff (host : Host) (req : CompileRequest) :
    Conservative host req false ↔ Covered req false := by
  constructor
  · intro h hksp hkapt
    by_contra hnot
    have hfast : (route req false).route = .fast := by
      rw [route_of_rest false hksp (by simp), if_neg hnot]
    exact absurd (hfast.symm.trans (h.legacy rfl (Or.inl hkapt))) (by decide)
  · intro h
    -- in this mode the route is decided by what it looks at, in its order
    have hlegacy : CarriesProcessing req → (route req false).route = .fallback := by
      intro hcarries
      by_cases hksp : req.kspSources = none
      · rw [route_of_rest false hksp (by simp), if_pos]
        rcases hcarries with hkapt | hksp' | hrest
        · exact h hksp hkapt
        · exact absurd hksp hksp'
        · exact hrest
      · rw [route_of_ksp hksp, if_neg (by simp)]
    refine ⟨fun _ => hlegacy, Bool.noConfusion, fun _ hplugin => ?_, fun hfast hcarries => ?_⟩
    · exact hlegacy (Or.inr (Or.inr (Or.inr hplugin)))
    · exact absurd (hfast.symm.trans (hlegacy hcarries)) (by decide)

theorem conservative_native_of_ksp (host : Host) (hksp : req.kspSources ≠ none) :
    Conservative host req true ↔ (psiOverride req = false → KspCovered req) := by
  have hprocessing : processing req = true := by
    simp [processing, Option.isSome_iff_ne_none.mpr hksp]
  have hroute := route_of_ksp hksp true
  rw [kspCovered_iff hksp, ← not_drops_iff host hprocessing]
  constructor
  · intro h hpsi
    rw [if_pos ⟨rfl, hpsi⟩] at hroute
    exact h.emitted hroute (Or.inr (Or.inl hksp))
  · intro h
    cases hpsi : psiOverride req with
    | true =>
        -- with the override the stock worker gets the request
        rw [if_neg (by simp [hpsi])] at hroute
        refine ⟨Bool.noConfusion, fun _ _ _ => hroute, fun hnone => absurd hnone hksp,
          fun hfast => ?_⟩
        exact absurd (hfast.symm.trans hroute) (by decide)
    | false =>
        have hdrops := h hpsi
        refine ⟨Bool.noConfusion, fun _ hkapt _ => ?_, fun hnone => absurd hnone hksp,
          fun _ _ => hdrops⟩
        have hcovered := (kspCovered_iff hksp).mpr ((not_drops_iff host hprocessing).mp hdrops)
        exact absurd hcovered.1 hkapt

theorem conservative_native_of_kapt (host : Host) (hksp : req.kspSources = none)
    (hkapt : req.kaptSources ≠ none) :
    Conservative host req true ↔
      if HasCustomJavac req then req.processors ≠ [] ∨ HasKspPlugin req
      else req.kspClasses = none ∧ ¬ HasKspPlugin req := by
  have hprocessing : processing req = true := by
    simp [processing, Option.isSome_iff_ne_none.mpr hkapt]
  split
  -- with a custom option the last branches decide, and they do not look at the sources for KAPT
  · rename_i hcustom
    have hroute := route_of_rest true hksp (by simp [hcustom])
    constructor
    · intro h
      by_contra hnot
      rw [if_neg hnot] at hroute
      exact absurd (hroute.symm.trans (h.custom rfl hkapt hcustom)) (by decide)
    · intro h
      rw [if_pos h] at hroute
      refine ⟨Bool.noConfusion, fun _ _ _ => hroute, fun _ _ => hroute, fun hfast => ?_⟩
      exact absurd (hfast.symm.trans hroute) (by decide)
  · rename_i hcustom
    have hroute := route_of_kapt hksp hkapt hcustom
    have hcovered : req.kspClasses = none ↔ ∀ setting, ¬ Drops host req true setting := by
      rw [not_drops_iff host hprocessing, ← kaptCovered_iff hksp, and_iff_left hcustom]
    rw [hcovered]
    constructor
    · intro h
      refine ⟨h.emitted hroute (Or.inl hkapt), fun hplugin => ?_⟩
      exact absurd (hroute.symm.trans (h.plugin hksp hplugin)) (by decide)
    · intro h
      obtain ⟨hdrops, hplugin⟩ := h
      exact ⟨Bool.noConfusion, fun _ _ hcustom' => absurd hcustom' hcustom,
        fun _ hplugin' => absurd hplugin' hplugin, fun _ _ => hdrops⟩

/-- Without sources for KAPT or KSP2 the last branches decide. -/
theorem conservative_native_of_plain (host : Host) (hksp : req.kspSources = none)
    (hkapt : req.kaptSources = none) : Conservative host req true := by
  have hroute := route_of_rest true hksp (by simp [hkapt])
  refine ⟨Bool.noConfusion, fun _ hset => absurd hkapt hset, fun _ hplugin => ?_,
    fun hfast hcarries => ?_⟩
  · rw [hroute, if_pos (Or.inr hplugin)]
  · rcases hcarries with hset | hset | hrest
    · exact absurd hkapt hset
    · exact absurd hksp hset
    · rw [if_pos hrest] at hroute
      exact absurd (hfast.symm.trans hroute) (by decide)

/-- **Routing.**  A request is routed conservatively exactly when it is covered. -/
theorem route_conservative_iff (host : Host) (req : CompileRequest) (nativeTools : Bool) :
    Conservative host req nativeTools ↔ Covered req nativeTools := by
  cases nativeTools with
  | false => exact conservative_legacy_iff host req
  | true =>
      by_cases hksp : req.kspSources = none
      · by_cases hkapt : req.kaptSources = none
        · exact iff_of_true (conservative_native_of_plain host hksp hkapt)
            ⟨fun hset => absurd hksp hset, fun _ hset => absurd hkapt hset⟩
        · rw [conservative_native_of_kapt host hksp hkapt]
          exact ⟨fun h => ⟨fun hset => absurd hksp hset, fun _ _ => h⟩, fun h => h.2 hksp hkapt⟩
      · rw [conservative_native_of_ksp host hksp]
        exact ⟨fun h => ⟨fun _ => h, fun hnone => absurd hnone hksp⟩, fun h => h.1 hksp⟩

theorem route_not_conservative :
    ¬ ∀ (host : Host) (req : CompileRequest) (nativeTools : Bool),
      Conservative host req nativeTools := by
  intro h
  have hlegacy := (h {} { kaptSources := some "src.jar" } false).legacy rfl (Or.inl (by simp))
  exact absurd hlegacy (by decide)

end RulesElide.KotlinBuilder
