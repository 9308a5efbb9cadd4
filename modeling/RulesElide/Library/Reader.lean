import Mathlib

/-!
# Readers over a list

A reader takes a position in a fixed list and returns a value and a later position, or
fails.  `Reads` is its specification: the position stays inside the list, the value is
related to the elements passed over, and a failure is one of the allowed ones.  Readers in
sequence read what they read one after the other (`Reads.bind`).  An `Exact` reader also reads
whatever its grammar derives, and `whileLeft` repeats a reader up to the end of the list.
-/

namespace Reader

universe u

variable {Element Failure : Type*} {Result Next : Type u}

@[simp] theorem ok_bind (result : Result) (second : Result → Except Failure Next) :
    (Except.ok result >>= second) = second result := rfl

@[simp] theorem error_bind (failure : Failure) (second : Result → Except Failure Next) :
    (Except.error failure >>= second) = .error failure := rfl

/-- A sequence succeeds exactly when both of its steps do. -/
theorem bind_eq_ok {first : Except Failure Result} {second : Result → Except Failure Next}
    {value : Next} :
    (first >>= second) = .ok value ↔ ∃ result, first = .ok result ∧ second result = .ok value := by
  cases first <;> simp

/-- A sequence fails in no way that neither of its steps fails. -/
theorem bind_ne_error {first : Except Failure Result} {second : Result → Except Failure Next}
    {failure : Failure} (hfirst : first ≠ .error failure)
    (hsecond : ∀ result, second result ≠ .error failure) : (first >>= second) ≠ .error failure := by
  cases first with
  | ok result => exact hsecond result
  | error other => exact fun h => hfirst (congrArg Except.error (Except.error.inj h))

theorem eq_ok_get {result : Except Failure Result} (h : result.toOption.isSome) :
    result = .ok (result.toOption.get h) := by
  cases result with
  | ok value => rfl
  | error failure => exact absurd h (by simp [Except.toOption])

/-- A loop that may fail keeps what each of its rounds keeps. -/
theorem foldlM_invariant {State : Type u} {step : State → Element → Except Failure State}
    (Invariant : State → Prop) {elements : List Element}
    (hstep : ∀ state element next, element ∈ elements → Invariant state →
      step state element = .ok next → Invariant next) :
    ∀ {state final : State}, Invariant state → elements.foldlM step state = .ok final →
      Invariant final := by
  induction elements with
  | nil =>
      intro state final hstate h
      cases h
      exact hstate
  | cons element elements ih =>
      intro state final hstate h
      rw [List.foldlM_cons] at h
      obtain ⟨next, hnext, hrest⟩ := bind_eq_ok.mp h
      refine ih (fun state element next helement => ?_) ?_ hrest
      · exact hstep state element next (List.mem_cons_of_mem _ helement)
      · exact hstep state element next List.mem_cons_self hstate hnext

/-- What the results of a loop have in common with the elements they were made from. -/
theorem map_of_mapM {Common : Type*} {make : Element → Except Failure Result}
    {ofElement : Element → Common} {ofResult : Result → Common}
    (hmake : ∀ element result, make element = .ok result → ofResult result = ofElement element) :
    ∀ {elements : List Element} {results : List Result}, elements.mapM make = .ok results →
      results.map ofResult = elements.map ofElement := by
  intro elements
  induction elements with
  | nil =>
      intro results h
      cases h
      rfl
  | cons element elements ih =>
      intro results h
      rw [List.mapM_cons] at h
      obtain ⟨result, hresult, h⟩ := bind_eq_ok.mp h
      obtain ⟨later, hlater, h⟩ := bind_eq_ok.mp h
      cases h
      rw [List.map_cons, List.map_cons, hmake element result hresult, ih hlater]

/-- A result of a loop was made from an element. -/
theorem exists_of_mapM {make : Element → Except Failure Result} {elements : List Element}
    {results : List Result} (h : elements.mapM make = .ok results) {result : Result}
    (hmem : result ∈ results) : ∃ element ∈ elements, make element = .ok result := by
  induction elements generalizing results with
  | nil =>
      cases h
      exact absurd hmem List.not_mem_nil
  | cons element elements ih =>
      rw [List.mapM_cons] at h
      obtain ⟨first, hfirst, h⟩ := bind_eq_ok.mp h
      obtain ⟨later, hlater, h⟩ := bind_eq_ok.mp h
      cases h
      rcases List.mem_cons.mp hmem with rfl | hmem
      · exact ⟨element, List.mem_cons_self, hfirst⟩
      · obtain ⟨element', helement', hresult⟩ := ih hlater hmem
        exact ⟨element', List.mem_cons_of_mem _ helement', hresult⟩

/-- A loop has results when each element has one. -/
theorem exists_mapM_eq_ok {make : Element → Except Failure Result} {elements : List Element} :
    (∃ results, elements.mapM make = .ok results) ↔
      ∀ element ∈ elements, ∃ result, make element = .ok result := by
  induction elements with
  | nil => exact iff_of_true ⟨[], rfl⟩ (List.forall_mem_nil _)
  | cons element elements ih =>
      rw [List.forall_mem_cons, ← ih, List.mapM_cons]
      constructor
      · rintro ⟨results, h⟩
        obtain ⟨result, hresult, h⟩ := bind_eq_ok.mp h
        obtain ⟨later, hlater, -⟩ := bind_eq_ok.mp h
        exact ⟨⟨result, hresult⟩, later, hlater⟩
      · rintro ⟨⟨result, hresult⟩, later, hlater⟩
        exact ⟨result :: later,
          bind_eq_ok.mpr ⟨result, hresult, bind_eq_ok.mpr ⟨later, hlater, rfl⟩⟩⟩

/-- The elements from position `start` up to position `stop`. -/
def slice (data : List Element) (start stop : ℕ) : List Element :=
  (data.drop start).take (stop - start)

theorem length_slice {data : List Element} {start stop : ℕ} (hstop : stop ≤ data.length) :
    (slice data start stop).length = stop - start := by
  simp [slice]
  omega

@[simp] theorem slice_self (data : List Element) (start : ℕ) : slice data start start = [] := by
  simp [slice]

theorem slice_append {data : List Element} {start middle stop : ℕ} (hfirst : start ≤ middle)
    (hsecond : middle ≤ stop) :
    slice data start middle ++ slice data middle stop = slice data start stop := by
  unfold slice
  rw [show stop - start = (middle - start) + (stop - middle) by omega, List.take_add,
    List.drop_drop, show start + (middle - start) = middle by omega]

theorem slice_append_drop {data : List Element} {start stop : ℕ} (hle : start ≤ stop) :
    slice data start stop ++ data.drop stop = data.drop start := by
  rw [slice, show data.drop stop = (data.drop start).drop (stop - start) by
    rw [List.drop_drop, show start + (stop - start) = stop by omega]]
  exact List.take_append_drop _ _

theorem slice_succ {data : List Element} {start : ℕ} (hstart : start < data.length) :
    slice data start (start + 1) = [data[start]] := by
  unfold slice
  rw [List.drop_eq_getElem_cons hstart, show start + 1 - start = 1 by omega]
  rfl

/-- The elements passed over are a prefix of those that were left. -/
theorem slice_of_prefix_drop {data passed : List Element} {start : ℕ}
    (hpassed : passed <+: data.drop start) :
    slice data start (start + passed.length) = passed := by
  unfold slice
  rw [show start + passed.length - start = passed.length by omega]
  exact (List.prefix_iff_eq_take.mp hpassed).symm

theorem le_length_of_prefix_drop {data passed : List Element} {start : ℕ}
    (hstart : start ≤ data.length)
    (hpassed : passed <+: data.drop start) : start + passed.length ≤ data.length := by
  have := hpassed.length_le
  rw [List.length_drop] at this
  omega

theorem append_prefix_drop {data first second : List Element} {start : ℕ} :
    first ++ second <+: data.drop start ↔
      first <+: data.drop start ∧ second <+: data.drop (start + first.length) := by
  constructor
  · rintro ⟨rest, hrest⟩
    have hdrop : data.drop (start + first.length) = second ++ rest := by
      rw [← List.drop_drop, ← hrest, List.append_assoc, List.drop_left]
    exact ⟨⟨second ++ rest, by rw [← hrest, List.append_assoc]⟩, ⟨rest, hdrop.symm⟩⟩
  · rintro ⟨⟨left, hleft⟩, hsecond⟩
    rw [← List.drop_drop, ← hleft, List.drop_left] at hsecond
    obtain ⟨rest, rfl⟩ := hsecond
    exact ⟨rest, by rw [← hleft, List.append_assoc]⟩

theorem getElem?_of_cons_prefix_drop {data rest : List Element} {head : Element} {start : ℕ}
    (hfront : head :: rest <+: data.drop start) : data[start]? = some head := by
  obtain ⟨tail, htail⟩ := hfront
  rw [← Nat.add_zero start, ← List.getElem?_drop, ← htail]
  rfl

/-- A reader started at `start` stays inside the list and relates its value to the elements
it passed over; where it fails, the failure is an `allowed` one. -/
def Reads (data : List Element) (allowed : Failure → Prop) (start : ℕ)
    (spec : Result → List Element → Prop) : Except Failure (Result × ℕ) → Prop
  | .ok (result, stop) => start ≤ stop ∧ stop ≤ data.length ∧ spec result (slice data start stop)
  | .error failure => allowed failure

variable {data : List Element} {allowed : Failure → Prop} {start : ℕ}
  {spec : Result → List Element → Prop} {next : Next → List Element → Prop}

theorem Reads.error {failure : Failure} (h : allowed failure) :
    Reads data allowed start spec (.error failure) := h

/-- A reader that moves nothing. -/
theorem Reads.pure {result : Result} (hstart : start ≤ data.length) (h : spec result []) :
    Reads data allowed start spec (.ok (result, start)) :=
  ⟨le_rfl, hstart, by rwa [slice_self]⟩

/-- A reader started later also reads what was passed over before it. -/
theorem Reads.after {middle : ℕ} {reader : Except Failure (Result × ℕ)} (hle : start ≤ middle)
    (h : Reads data allowed middle
      (fun result passed => spec result (slice data start middle ++ passed)) reader) :
    Reads data allowed start spec reader := by
  match reader, h with
  | .error _, hfailure => exact hfailure
  | .ok (result, stop), ⟨hle', hstop, hspec⟩ =>
      have happended : spec result (slice data start middle ++ slice data middle stop) := hspec
      rw [slice_append hle hle'] at happended
      exact ⟨hle.trans hle', hstop, happended⟩

/-- **Sequencing.**  The second reader starts where the first one stopped, and the two
together pass over what each of them passed over. -/
theorem Reads.bind {first : Except Failure (Result × ℕ)}
    {second : Result × ℕ → Except Failure (Next × ℕ)}
    (hfirst : Reads data allowed start spec first)
    (hsecond : ∀ result stop, start ≤ stop → stop ≤ data.length →
      spec result (slice data start stop) →
      Reads data allowed stop (fun value passed => next value (slice data start stop ++ passed))
        (second (result, stop))) :
    Reads data allowed start next (first >>= second) := by
  match first, hfirst with
  | .error _, hfailure => exact hfailure
  | .ok (result, stop), ⟨hle, hstop, hspec⟩ =>
      exact Reads.after hle (hsecond result stop hle hstop hspec)

/-- A specification may be weakened. -/
theorem Reads.mono {weaker : Result → List Element → Prop}
    {reader : Except Failure (Result × ℕ)} (h : Reads data allowed start spec reader)
    (hweaker : ∀ result passed, spec result passed → weaker result passed) :
    Reads data allowed start weaker reader := by
  match reader, h with
  | .error _, hfailure => exact hfailure
  | .ok (_, _), ⟨hle, hstop, hspec⟩ => exact ⟨hle, hstop, hweaker _ _ hspec⟩

/-! ## Exact readers -/

/-- The reader passes over exactly what the grammar `spec` derives its result from. -/
def Exact (data : List Element) (spec : Result → List Element → Prop)
    (reader : ℕ → Except Failure (Result × ℕ)) : Prop :=
  ∀ start ≤ data.length, ∀ result stop, reader start = .ok (result, stop) ↔
    ∃ passed, passed <+: data.drop start ∧ spec result passed ∧ stop = start + passed.length

/-- A reader that reads phrases of the grammar, and every phrase it is started at, is exact. -/
theorem Exact.of_reads {reader : ℕ → Except Failure (Result × ℕ)}
    (hreads : ∀ start ≤ data.length, Reads data allowed start spec (reader start))
    (hcomplete : ∀ start result passed, passed <+: data.drop start → spec result passed →
      reader start = .ok (result, start + passed.length)) : Exact data spec reader := by
  intro start hstart result stop
  constructor
  · intro hread
    have hspec := hreads start hstart
    rw [hread] at hspec
    obtain ⟨hle, hstop, hspec⟩ := hspec
    refine ⟨slice data start stop, ⟨_, slice_append_drop hle⟩, hspec, ?_⟩
    rw [length_slice hstop]
    omega
  · rintro ⟨passed, hpassed, hspec, rfl⟩
    exact hcomplete start result passed hpassed hspec

theorem Exact.stop_le {reader : ℕ → Except Failure (Result × ℕ)} {result : Result} {stop : ℕ}
    (h : Exact data spec reader) (hstart : start ≤ data.length)
    (hread : reader start = .ok (result, stop)) : stop ≤ data.length := by
  obtain ⟨passed, hpassed, -, rfl⟩ := (h start hstart result stop).mp hread
  exact le_length_of_prefix_drop hstart hpassed

theorem Exact.lt_stop {reader : ℕ → Except Failure (Result × ℕ)} {result : Result} {stop : ℕ}
    (h : Exact data spec reader) (hne : ∀ result passed, spec result passed → passed ≠ [])
    (hstart : start ≤ data.length) (hread : reader start = .ok (result, stop)) : start < stop := by
  obtain ⟨passed, -, hspec, rfl⟩ := (h start hstart result stop).mp hread
  have := List.length_pos_of_ne_nil (hne result passed hspec)
  omega

/-- What an exact reader reads, it reads in one way only. -/
theorem Exact.unique {reader : ℕ → Except Failure (Result × ℕ)} {first second : List Element}
    (result result' : Result) (h : Exact data spec reader) (hstart : start ≤ data.length)
    (hfirst : first <+: data.drop start) (hsecond : second <+: data.drop start)
    (hspec : spec result first) (hspec' : spec result' second) :
    result = result' ∧ first = second := by
  have hread := (h start hstart result _).mpr ⟨first, hfirst, hspec, rfl⟩
  have hread' := (h start hstart result' _).mpr ⟨second, hsecond, hspec', rfl⟩
  rw [hread] at hread'
  obtain ⟨rfl, hlength⟩ := Prod.mk.injEq .. ▸ Except.ok.inj hread'
  refine ⟨rfl, ?_⟩
  rw [← slice_of_prefix_drop hfirst, hlength, slice_of_prefix_drop hsecond]

/-- **Sequencing.**  The second reader goes on where the first one stopped. -/
theorem Exact.bind {first : ℕ → Except Failure (Result × ℕ)}
    {second : Result → ℕ → Except Failure (Next × ℕ)} {next : Result → Next → List Element → Prop}
    (hfirst : Exact data spec first)
    (hsecond : ∀ result, Exact data (next result) (second result)) :
    Exact data
      (fun value passed => ∃ result front rest, passed = front ++ rest ∧ spec result front ∧
        next result value rest)
      (fun start => first start >>= fun read => second read.1 read.2) := by
  intro start hstart value stop
  rw [bind_eq_ok]
  constructor
  · rintro ⟨⟨result, middle⟩, hread, hlater⟩
    -- the second reader starts where the first one stopped
    have hmiddle := hfirst.stop_le hstart hread
    obtain ⟨front, hfront, hspec, rfl⟩ := (hfirst start hstart result middle).mp hread
    obtain ⟨rest, hrest, hnext, rfl⟩ := (hsecond result _ hmiddle value stop).mp hlater
    exact ⟨front ++ rest, append_prefix_drop.mpr ⟨hfront, hrest⟩,
      ⟨result, front, rest, rfl, hspec, hnext⟩, by rw [List.length_append, Nat.add_assoc]⟩
  · rintro ⟨passed, hpassed, ⟨result, front, rest, rfl, hspec, hnext⟩, rfl⟩
    obtain ⟨hfront, hrest⟩ := append_prefix_drop.mp hpassed
    have hread := (hfirst start hstart result _).mpr ⟨front, hfront, hspec, rfl⟩
    refine ⟨(result, start + front.length), hread, ?_⟩
    refine (hsecond result _ (hfirst.stop_le hstart hread) value _).mpr ⟨rest, hrest, hnext, ?_⟩
    rw [List.length_append, Nat.add_assoc]

theorem Exact.congr {other : Result → List Element → Prop}
    {reader : ℕ → Except Failure (Result × ℕ)} (h : Exact data spec reader)
    (hspec : ∀ result passed, spec result passed ↔ other result passed) :
    Exact data other reader := by
  intro start hstart result stop
  rw [h start hstart result stop]
  simp only [hspec]

/-- A reader that takes one element and goes on behind it. -/
theorem Exact.element (failure : Failure) {next : Element → ℕ → Except Failure (Result × ℕ)}
    {spec : Element → Result → List Element → Prop}
    (h : ∀ head, Exact data (spec head) (next head)) :
    Exact data (fun result passed => ∃ head rest, passed = head :: rest ∧ spec head result rest)
      (fun start =>
        match data[start]? with
        | none => .error failure
        | some head => next head (start + 1)) := by
  intro start hstart result stop
  dsimp only
  rcases hstart.lt_or_eq with hlt | rfl
  · rw [List.getElem?_eq_getElem hlt, List.drop_eq_getElem_cons hlt]
    generalize data[start] = head
    refine (h head (start + 1) hlt result stop).trans ?_
    constructor
    · rintro ⟨rest, hrest, hspec, rfl⟩
      refine ⟨head :: rest, List.cons_prefix_cons.mpr ⟨rfl, hrest⟩, ⟨head, rest, rfl, hspec⟩, ?_⟩
      rw [List.length_cons]
      omega
    · rintro ⟨passed, hpassed, ⟨head', rest, rfl, hspec⟩, rfl⟩
      obtain ⟨rfl, hrest⟩ := List.cons_prefix_cons.mp hpassed
      refine ⟨rest, hrest, hspec, ?_⟩
      rw [List.length_cons]
      omega
  -- at the end there is no element
  · rw [List.getElem?_eq_none le_rfl, List.drop_length]
    constructor
    · rintro ⟨⟩
    · rintro ⟨passed, hpassed, ⟨head, rest, rfl, -⟩, -⟩
      exact absurd (List.prefix_nil.mp hpassed) (List.cons_ne_nil _ _)

/-- A reader of a block of known length that lies in the list. -/
theorem Exact.block {size : ℕ} {failure : Failure}
    (decode : List Element → Except Failure Result) :
    Exact data (fun result passed => passed.length = size ∧ decode passed = .ok result)
      (fun start =>
        if start + size > data.length then .error failure
        else decode (slice data start (start + size)) >>= fun result =>
          .ok (result, start + size)) := by
  intro start hstart result stop
  dsimp only
  constructor
  · intro h
    split at h
    · cases h
    · rename_i hfits
      obtain ⟨value, hvalue, h⟩ := bind_eq_ok.mp h
      cases h
      have hlength : (slice data start (start + size)).length = size := by
        rw [length_slice (not_lt.mp hfits), Nat.add_sub_cancel_left]
      exact ⟨_, ⟨_, slice_append_drop (Nat.le_add_right _ _)⟩, ⟨hlength, hvalue⟩, by rw [hlength]⟩
  · rintro ⟨passed, hpassed, ⟨rfl, hdecode⟩, rfl⟩
    have hfits := le_length_of_prefix_drop hstart hpassed
    rw [if_neg (not_lt.mpr hfits), slice_of_prefix_drop hpassed, hdecode]
    rfl

/-- A reader that moves nothing. -/
theorem Exact.pure (result : Result) :
    Exact data (fun value passed => passed = [] ∧ value = result)
      (fun start => (.ok (result, start) : Except Failure (Result × ℕ))) := by
  intro start _ value stop
  constructor
  · rintro ⟨⟩
    exact ⟨[], List.nil_prefix, ⟨rfl, rfl⟩, rfl⟩
  · rintro ⟨passed, -, ⟨rfl, rfl⟩, rfl⟩
    rfl

theorem Exact.map {reader : ℕ → Except Failure (Result × ℕ)} (h : Exact data spec reader)
    (make : Result → Next) :
    Exact data (fun value passed => ∃ result, spec result passed ∧ value = make result)
      (fun start => reader start >>= fun read => .ok (make read.1, read.2)) := by
  refine (h.bind fun result => Exact.pure (make result)).congr fun value passed => ?_
  constructor
  · rintro ⟨result, front, rest, rfl, hspec, rfl, rfl⟩
    exact ⟨result, by rwa [List.append_nil], rfl⟩
  · rintro ⟨result, hspec, rfl⟩
    exact ⟨result, passed, [], (List.append_nil _).symm, hspec, rfl, rfl⟩

theorem Exact.error {failure : Failure} :
    Exact data (fun _ _ => False)
      (fun _ => (.error failure : Except Failure (Result × ℕ))) := by
  intro start _ value stop
  constructor
  · rintro ⟨⟩
  · rintro ⟨passed, -, hfalse, -⟩
    exact hfalse.elim

theorem Exact.of_eq {reader other : ℕ → Except Failure (Result × ℕ)} (h : Exact data spec reader)
    (heq : ∀ start, other start = reader start) : Exact data spec other := by
  intro start hstart result stop
  rw [heq]
  exact h start hstart result stop

/-! ## Reading up to the end -/

variable {State Item : Type u} {unfinished : Failure}
  {step : State → ℕ → Except Failure (State × ℕ)}

/-- The loop `while start < len(data)`.  It is given a number of rounds, and fails as
`unfinished` when they run out. -/
def whileLeft (data : List Element) (unfinished : Failure)
    (step : State → ℕ → Except Failure (State × ℕ)) : ℕ → State → ℕ → Except Failure State
  | 0, state, start => if start < data.length then .error unfinished else .ok state
  | rounds + 1, state, start =>
      if start < data.length then do
        let (state, stop) ← step state start
        whileLeft data unfinished step rounds state stop
      else .ok state

theorem whileLeft_done {rounds : ℕ} {state : State} (h : data.length ≤ start) :
    whileLeft data unfinished step rounds state start = .ok state := by
  cases rounds <;> exact if_neg (not_lt.mpr h)

theorem whileLeft_succ {rounds : ℕ} {state : State} (h : start < data.length) :
    whileLeft data unfinished step (rounds + 1) state start =
      step state start >>= fun read =>
        whileLeft data unfinished step rounds read.1 read.2 := by
  rw [whileLeft, if_pos h]

/-- Steps that pass over something take no more rounds than there are elements. -/
theorem whileLeft_ne_unfinished {passes : State → State → List Element → Prop}
    (hstep : ∀ state start, step state start ≠ .error unfinished)
    (hexact : ∀ state, Exact data (passes state) (step state))
    (hne : ∀ state after passed, passes state after passed → passed ≠ []) :
    ∀ {rounds : ℕ} {state : State} {start : ℕ}, data.length - start ≤ rounds →
      whileLeft data unfinished step rounds state start ≠ .error unfinished := by
  intro rounds
  induction rounds with
  | zero =>
      intro state start hrounds h
      rw [whileLeft_done (by omega)] at h
      cases h
  | succ rounds ih =>
      intro state start hrounds h
      rcases Nat.lt_or_ge start data.length with hstart | hend
      · rw [whileLeft_succ hstart] at h
        cases hread : step state start with
        | error failure =>
            rw [hread, error_bind] at h
            exact hstep state start (hread.trans (congrArg Except.error (Except.error.inj h)))
        | ok read =>
            rw [hread, ok_bind] at h
            -- each round passes over something, so the rounds last to the end
            have hmove := (hexact state).lt_stop (hne state) hstart.le hread
            exact ih (by omega) h
      · rw [whileLeft_done hend] at h
        cases h

section Items

variable {Spells : Item → List Element → Prop} {next : State → Item → State} {final : State}

/-- One round of a loop over exact steps that read one item each. -/
theorem whileLeft_round {rounds : ℕ} {state : State}
    (hstep : ∀ state, Exact data
      (fun after passed => ∃ item, Spells item passed ∧ after = next state item) (step state))
    (hstart : start < data.length) :
    whileLeft data unfinished step (rounds + 1) state start = .ok final ↔
      ∃ item part, Spells item part ∧ part <+: data.drop start ∧
        whileLeft data unfinished step rounds (next state item) (start + part.length) =
          .ok final := by
  rw [whileLeft_succ hstart, bind_eq_ok]
  constructor
  · rintro ⟨⟨after, stop⟩, hread, hlater⟩
    obtain ⟨part, hpart, ⟨item, hitem, rfl⟩, rfl⟩ :=
      (hstep state start hstart.le after stop).mp hread
    exact ⟨item, part, hitem, hpart, hlater⟩
  · rintro ⟨item, part, hitem, hpart, hlater⟩
    exact ⟨(next state item, start + part.length),
      (hstep state start hstart.le _ _).mpr ⟨part, hpart, ⟨item, hitem, rfl⟩, rfl⟩, hlater⟩

/-- At the end of the list there are no further items. -/
theorem whileLeft_end {rounds : ℕ} {state : State}
    (hne : ∀ item passed, Spells item passed → passed ≠ []) :
    whileLeft data unfinished step rounds state data.length = .ok final ↔
      ∃ items parts, List.Forall₂ Spells items parts ∧ parts.flatten = data.drop data.length ∧
        final = items.foldl next state := by
  rw [whileLeft_done le_rfl, List.drop_length]
  constructor
  · rintro ⟨⟩
    exact ⟨[], [], List.Forall₂.nil, rfl, rfl⟩
  · rintro ⟨items, parts, hspells, hflat, rfl⟩
    cases hspells with
    | nil => rfl
    | cons hitem _ =>
        rw [List.flatten_cons] at hflat
        exact absurd (List.append_eq_nil_iff.mp hflat).1 (hne _ _ hitem)

/-- **Repetition.**  A loop over exact steps that pass over one item each reads exactly the
sequences of items, and folds them. -/
theorem whileLeft_eq_ok_iff
    (hstep : ∀ state, Exact data
      (fun after passed => ∃ item, Spells item passed ∧ after = next state item) (step state))
    (hne : ∀ item passed, Spells item passed → passed ≠ []) :
    ∀ {rounds : ℕ} {state : State} {start : ℕ}, start ≤ data.length →
      data.length - start ≤ rounds →
      (whileLeft data unfinished step rounds state start = .ok final ↔
        ∃ items parts, List.Forall₂ Spells items parts ∧ parts.flatten = data.drop start ∧
          final = items.foldl next state) := by
  intro rounds
  induction rounds with
  | zero =>
      intro state start hstart hrounds
      obtain rfl : start = data.length := by omega
      exact whileLeft_end hne
  | succ rounds ih =>
      intro state start hstart hrounds
      rcases hstart.lt_or_eq with hlt | rfl
      · -- the part that is read leaves fewer elements than rounds
        have hlater : ∀ item part, Spells item part → part <+: data.drop start →
            start + part.length ≤ data.length ∧
              data.length - (start + part.length) ≤ rounds := by
          intro item part hitem hpart
          have hpos := List.length_pos_of_ne_nil (hne item part hitem)
          exact ⟨le_length_of_prefix_drop hstart hpart, by omega⟩
        rw [whileLeft_round hstep hlt]
        constructor
        · rintro ⟨item, part, hitem, hpart, hread⟩
          obtain ⟨hstop, hleft⟩ := hlater item part hitem hpart
          obtain ⟨items, parts, hspells, hflat, rfl⟩ := (ih hstop hleft).mp hread
          refine ⟨item :: items, part :: parts, List.Forall₂.cons hitem hspells, ?_, rfl⟩
          obtain ⟨rest, hrest⟩ := hpart
          rw [List.flatten_cons, hflat, ← List.drop_drop, ← hrest, List.drop_left]
        · rintro ⟨items, parts, hspells, hflat, rfl⟩
          cases hspells with
          | nil => exact absurd (List.drop_eq_nil_iff.mp hflat.symm) (not_le.mpr hlt)
          | @cons item part items parts hitem hspells =>
              rw [List.flatten_cons] at hflat
              have hpart : part <+: data.drop start := ⟨parts.flatten, hflat⟩
              obtain ⟨hstop, hleft⟩ := hlater item part hitem hpart
              refine ⟨item, part, hitem, hpart,
                (ih hstop hleft).mpr ⟨items, parts, hspells, ?_, rfl⟩⟩
              rw [← List.drop_drop, ← hflat, List.drop_left]
      · exact whileLeft_end hne

end Items

end Reader
