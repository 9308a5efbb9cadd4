import RulesElide.Library.Effects
import RulesElide.Platform.Strings

/-!
# Running the planned commands

`ElideCompile.run` runs the commands one after the other; `Main.compileCmds` forwards the
first one to the resident worker and runs the others.  `compileCmds_refines_run_iff` says when
the second does what the first would do: unless the resident worker throws an error of the JVM,
which `catch (e: Exception)` lets through.
-/

namespace RulesElide.KotlinBuilder

open Effects

abbrev Command := List String

/-- What a process does when it is started for one command: it exits with a code and an
output, or it cannot be started. -/
abbrev OneShot := Command → Except Throwable (JavaInt × String)

/-- `resident.compile`. -/
abbrev Resident := List String → List (String × Bytes) → Except Throwable (JavaInt × String)

/-- A command that was started as a process, or forwarded to the resident worker. -/
inductive Started
  | oneShot (command : Command)
  | forwarded (command : Command)
  deriving DecidableEq

def Started.command : Started → Command
  | oneShot command | forwarded command => command

/-- Code of the builder; the state is what was started so far. -/
abbrev Builder := ExceptT Throwable (StateM (List Started))

/-! ## The code -/

/-- The body of the loop of `run`. -/
def execute (oneShot : OneShot) (command : Command) : Builder (JavaInt × String) := do
  modify (· ++ [.oneShot command])
  MonadExcept.ofExcept (oneShot command)

/-- The loop of `run`, with the output so far. -/
def runFrom (oneShot : OneShot) (output : String) : List Command → Builder (JavaInt × String)
  | [] => return (0, output)
  | command :: commands => do
      let (code, text) ← execute oneShot command
      if code ≠ 0 then return (code, output ++ text)
      else runFrom oneShot (output ++ text) commands

/-- `ElideCompile.run`. -/
def runCommands (oneShot : OneShot) (commands : List Command) : Builder (JavaInt × String) :=
  runFrom oneShot "" commands

/-- `kotlincWorkerArgs`. -/
def kotlincWorkerArgs (kotlincCmd : Command) : List String :=
  kotlincCmd.drop 2

/-- The body of the `try` of `compileCmds`. -/
def forward (oneShot : OneShot) (resident : Resident) (inputs : List (String × Bytes))
    (first : Command) (rest : List Command) : Builder (JavaInt × String) := do
  modify (· ++ [.forwarded first])
  let (code, out) ← MonadExcept.ofExcept (resident (kotlincWorkerArgs first) inputs)
  if code ≠ 0 ∨ rest = [] then return (code, out)
  else do
    let (jc, jo) ← runCommands oneShot rest
    return (if jc ≠ 0 then jc else code, out ++ jo)

/-- `compileCmds`. -/
def compileCmds (oneShot : OneShot) (resident : Option Resident) (inputs : List (String × Bytes)) :
    List Command → Builder (JavaInt × String)
  | [] => runCommands oneShot []
  | first :: rest =>
      match resident with
      | none => runCommands oneShot (first :: rest)
      | some resident =>
          tryCatch (forward oneShot resident inputs first rest) fun failure =>
            if failure.isException then runCommands oneShot (first :: rest) else throw failure

/-! ## What running commands should do -/

/-- The exit code and the output of a list of commands: the first failure ends it. -/
def result (oneShot : OneShot) : List Command → Except Throwable (JavaInt × String)
  | [] => .ok (0, "")
  | command :: commands =>
      match oneShot command with
      | .error failure => .error failure
      | .ok (code, text) =>
          if code ≠ 0 then .ok (code, text)
          else (result oneShot commands).map fun (code, later) => (code, text ++ later)

/-- The commands that are started. -/
def reached (oneShot : OneShot) : List Command → List Command
  | [] => []
  | command :: commands =>
      match oneShot command with
      | .error _ => [command]
      | .ok (code, _) => if code ≠ 0 then [command] else command :: reached oneShot commands

/-- The command exits with code 0. -/
def Succeeds (oneShot : OneShot) (command : Command) : Prop :=
  ∃ text, oneShot command = .ok (0, text)

/-- Every command was started after all commands in front of it had been started and had exited
with code 0. -/
inductive StartsInOrder (oneShot : OneShot) (commands : List Command) : List Started → Prop
  | nil : StartsInOrder oneShot commands []
  | concat {trace : List Started} {started : Started} {earlier later : List Command}
      (h : StartsInOrder oneShot commands trace)
      (hcommands : commands = earlier ++ started.command :: later)
      (hearlier : ∀ command ∈ earlier, command ∈ trace.map Started.command ∧
        Succeeds oneShot command) :
      StartsInOrder oneShot commands (trace ++ [started])

/-! ## One-shot runs -/

variable {oneShot : OneShot} {resident : Resident} {inputs : List (String × Bytes)}
  {commands rest : List Command} {command first : Command} {trace : List Started}

theorem run_execute (oneShot : OneShot) (command : Command) (trace : List Started) :
    run (execute oneShot command) trace = (oneShot command, trace ++ [.oneShot command]) := by
  rw [execute, run_bind_of_ok (run_modify _ trace), run_ofExcept]

/-- The loop of `run`, from any output. -/
theorem run_runFrom (oneShot : OneShot) (commands : List Command) :
    ∀ (output : String) (trace : List Started),
      run (runFrom oneShot output commands) trace =
        ((result oneShot commands).map fun (code, text) => (code, output ++ text),
          trace ++ (reached oneShot commands).map .oneShot) := by
  induction commands with
  | nil =>
      intro output trace
      simp [runFrom, result, reached, Except.map]
  | cons command commands ih =>
      intro output trace
      have hrun := run_execute oneShot command trace
      cases hcommand : oneShot command with
      | error failure =>
          rw [hcommand] at hrun
          rw [runFrom, run_bind_of_error hrun, result, reached, hcommand]
          rfl
      | ok answer =>
          obtain ⟨code, text⟩ := answer
          rw [hcommand] at hrun
          rw [runFrom, run_bind_of_ok hrun, result, reached, hcommand]
          simp only
          -- the first code that is not 0 ends the loop
          by_cases hcode : code ≠ 0
          · rw [if_pos hcode, if_pos hcode, if_pos hcode]
            rfl
          · rw [if_neg hcode, if_neg hcode, if_neg hcode, ih]
            cases result oneShot commands with
            | error failure => simp [Except.map]
            | ok later => simp [Except.map, String.append_assoc]

theorem run_runCommands (oneShot : OneShot) (commands : List Command) (trace : List Started) :
    run (runCommands oneShot commands) trace =
      (result oneShot commands, trace ++ (reached oneShot commands).map .oneShot) := by
  rw [runCommands, run_runFrom]
  cases result oneShot commands with
  | error failure => rfl
  | ok answer => simp [Except.map]

/-- Commands that are run after all commands in front of them have succeeded. -/
theorem StartsInOrder.run (completed : List Command)
    (h : StartsInOrder oneShot (completed ++ commands) trace)
    (hdone : ∀ command ∈ completed, command ∈ trace.map Started.command ∧
      Succeeds oneShot command) :
    StartsInOrder oneShot (completed ++ commands)
      (trace ++ (reached oneShot commands).map .oneShot) := by
  induction commands generalizing completed trace with
  | nil => exact (List.append_nil trace).symm ▸ h
  | cons command commands ih =>
      have hstarted : StartsInOrder oneShot (completed ++ command :: commands)
          (trace ++ [Started.oneShot command]) :=
        h.concat rfl hdone
      cases hcommand : oneShot command with
      | error failure =>
          rw [reached, hcommand]
          exact hstarted
      | ok answer =>
          obtain ⟨code, text⟩ := answer
          rw [reached, hcommand]
          simp only
          by_cases hcode : code ≠ 0
          · rw [if_pos hcode]
            exact hstarted
          · obtain rfl := not_not.mp hcode
            -- what was completed grows by this command
            have hnext : ∀ other ∈ completed ++ [command],
                other ∈ (trace ++ [Started.oneShot command]).map Started.command ∧
                  Succeeds oneShot other := by
              intro other hother
              rw [List.map_append]
              rcases List.mem_append.mp hother with hearlier | hlast
              · exact ⟨List.mem_append_left _ (hdone other hearlier).1, (hdone other hearlier).2⟩
              · obtain rfl := List.mem_singleton.mp hlast
                exact ⟨List.mem_append_right _ List.mem_cons_self, text, hcommand⟩
            rw [List.append_cons] at hstarted ⊢
            rw [if_neg hcode, List.map_cons, List.append_cons trace]
            exact ih _ hstarted hnext

/-! ## The resident worker -/

/-- The forwarded command and the others, when the resident worker answers as the process of
the command would. -/
theorem run_forward_of_ok (rest : List Command) {code : JavaInt} {out : String}
    (hanswer : resident (kotlincWorkerArgs first) inputs = .ok (code, out))
    (hfirst : oneShot first = .ok (code, out)) (trace : List Started) :
    run (forward oneShot resident inputs first rest) trace =
      (result oneShot (first :: rest),
        trace ++ [.forwarded first] ++
          if code ≠ 0 then [] else (reached oneShot rest).map .oneShot) := by
  have hresident : run (MonadExcept.ofExcept (resident (kotlincWorkerArgs first) inputs) :
      Builder (JavaInt × String)) (trace ++ [.forwarded first]) =
        (.ok (code, out), trace ++ [.forwarded first]) := by
    rw [run_ofExcept, hanswer]
  rw [forward, run_bind_of_ok (run_modify _ trace), run_bind_of_ok hresident, result, hfirst]
  simp only
  by_cases hcode : code ≠ 0
  · rw [if_pos (Or.inl hcode), if_pos hcode, if_pos hcode, run_pure, List.append_nil]
  · rw [if_neg hcode, if_neg hcode]
    obtain rfl := not_not.mp hcode
    -- without other commands the answer of the resident worker is the result
    by_cases hrest : rest = []
    · rw [if_pos (Or.inr hrest), hrest]
      simp [result, reached, Except.map]
    · rw [if_neg (by simp [hrest])]
      have hrun := run_runCommands oneShot rest (trace ++ [.forwarded first])
      cases hresult : result oneShot rest with
      | error failure =>
          rw [hresult] at hrun
          rw [run_bind_of_error hrun]
          rfl
      | ok answer =>
          obtain ⟨jc, jo⟩ := answer
          rw [hresult] at hrun
          rw [run_bind_of_ok hrun, run_pure]
          by_cases hjc : jc ≠ 0
          · rw [if_pos hjc]
            rfl
          · rw [if_neg hjc, not_not.mp hjc]
            rfl

theorem run_forward_of_error (oneShot : OneShot) (rest : List Command) {failure : Throwable}
    (hanswer : resident (kotlincWorkerArgs first) inputs = .error failure) (trace : List Started) :
    run (forward oneShot resident inputs first rest) trace =
      (.error failure, trace ++ [.forwarded first]) := by
  have hresident : run (MonadExcept.ofExcept (resident (kotlincWorkerArgs first) inputs) :
      Builder (JavaInt × String)) (trace ++ [.forwarded first]) =
        (.error failure, trace ++ [.forwarded first]) := by
    rw [run_ofExcept, hanswer]
  rw [forward, run_bind_of_ok (run_modify _ trace), run_bind_of_error hresident]

/-- What is started while the first command is forwarded. -/
theorem StartsInOrder.forward (rest : List Command) {code : JavaInt} {out : String}
    (hfirst : oneShot first = .ok (code, out)) :
    StartsInOrder oneShot (first :: rest)
      ([.forwarded first] ++ if code ≠ 0 then [] else (reached oneShot rest).map .oneShot) := by
  have hforwarded : StartsInOrder oneShot ([] ++ first :: rest) ([] ++ [.forwarded first]) :=
    StartsInOrder.nil.concat rfl nofun
  by_cases hcode : code ≠ 0
  · rw [if_pos hcode]
    exact hforwarded
  · rw [if_neg hcode]
    obtain rfl := not_not.mp hcode
    -- the forwarded command counts as started and completed
    refine StartsInOrder.run [first] hforwarded ?_
    intro command hcommand
    obtain rfl := List.mem_singleton.mp hcommand
    exact ⟨List.mem_cons_self, out, hfirst⟩

/-- The answers of the resident worker are those of the processes. -/
def AnswersLike (oneShot : OneShot) (resident : Option Resident) (inputs : List (String × Bytes))
    (commands : List Command) : Prop :=
  ∀ compile first rest answer, resident = some compile → commands = first :: rest →
    compile (kotlincWorkerArgs first) inputs = .ok answer → oneShot first = .ok answer

/-- The commands, after some of them may have been started before. -/
theorem run_again (h : StartsInOrder oneShot commands trace) :
    (run (runCommands oneShot commands) trace).1 = result oneShot commands ∧
      StartsInOrder oneShot commands (run (runCommands oneShot commands) trace).2 := by
  rw [run_runCommands]
  exact ⟨rfl, StartsInOrder.run [] h nofun⟩

/-- With an answer of the resident worker the outcome is that of running all commands.  If a
later command cannot be started, all are run again, up to the same one. -/
theorem compileCmds_of_ok (rest : List Command) {code : JavaInt} {out : String}
    (hanswer : resident (kotlincWorkerArgs first) inputs = .ok (code, out))
    (hfirst : oneShot first = .ok (code, out)) :
    (run (compileCmds oneShot (some resident) inputs (first :: rest)) []).1 =
        result oneShot (first :: rest) ∧
      StartsInOrder oneShot (first :: rest)
        (run (compileCmds oneShot (some resident) inputs (first :: rest)) []).2 := by
  have hrun := run_forward_of_ok rest hanswer hfirst []
  have hstarts := StartsInOrder.forward rest hfirst
  rw [compileCmds]
  cases hresult : result oneShot (first :: rest) with
  | ok answer =>
      rw [hresult] at hrun
      rw [run_tryCatch_of_ok hrun]
      exact ⟨rfl, hstarts⟩
  | error failure =>
      rw [hresult] at hrun
      -- a later process failed to start: the handler runs all commands again
      rw [run_tryCatch_of_error hrun, ← hresult]
      split
      · exact run_again hstarts
      · rw [run_throw]
        exact ⟨hresult.symm, hstarts⟩

/-- An exception of the resident worker is caught and all commands are run; an error is thrown
on. -/
theorem compileCmds_of_error (oneShot : OneShot) (rest : List Command) {failure : Throwable}
    (hanswer : resident (kotlincWorkerArgs first) inputs = .error failure) :
    (run (compileCmds oneShot (some resident) inputs (first :: rest)) []).1 =
        (if failure.isException then result oneShot (first :: rest) else .error failure) ∧
      StartsInOrder oneShot (first :: rest)
        (run (compileCmds oneShot (some resident) inputs (first :: rest)) []).2 := by
  have hrun := run_forward_of_error oneShot rest hanswer []
  have hstarts : StartsInOrder oneShot ([] ++ first :: rest) ([] ++ [.forwarded first]) :=
    StartsInOrder.nil.concat rfl nofun
  rw [compileCmds, run_tryCatch_of_error hrun]
  split
  · exact run_again hstarts
  · rw [run_throw]
    exact ⟨rfl, hstarts⟩

/-! ## The resident path -/

/-- The resident path has the outcome of the one-shot path, and starts no command before all
commands in front of it exited with code 0. -/
structure Refines (oneShot : OneShot) (resident : Option Resident)
    (inputs : List (String × Bytes)) (commands : List Command) : Prop where
  outcome : (run (compileCmds oneShot resident inputs commands) []).1 =
    (run (runCommands oneShot commands) []).1
  order : StartsInOrder oneShot commands (run (compileCmds oneShot resident inputs commands) []).2

/-- The resident worker throws what `compileCmds` does not catch. -/
def Escapes (resident : Option Resident) (inputs : List (String × Bytes)) (commands : List Command)
    (failure : Throwable) : Prop :=
  failure.isException = false ∧
    ∃ compile first rest, resident = some compile ∧ commands = first :: rest ∧
      compile (kotlincWorkerArgs first) inputs = .error failure

/-- A process that cannot be started is an exception. -/
def FailsWithException (oneShot : OneShot) : Prop :=
  ∀ command failure, oneShot command = .error failure → failure.isException = true

/-- Running commands throws what starting one of them throws. -/
theorem FailsWithException.result (h : FailsWithException oneShot) {failure : Throwable}
    (hresult : KotlinBuilder.result oneShot commands = .error failure) :
    failure.isException = true := by
  induction commands with
  | nil => cases hresult
  | cons command commands ih =>
      rw [KotlinBuilder.result] at hresult
      -- the failure comes from this command, or from one behind it
      cases hcommand : oneShot command with
      | error thrown =>
          rw [hcommand] at hresult
          obtain rfl : thrown = failure := Except.error.inj hresult
          exact h command thrown hcommand
      | ok answer =>
          obtain ⟨code, text⟩ := answer
          rw [hcommand] at hresult
          dsimp only at hresult
          split at hresult
          · cases hresult
          · cases hlater : KotlinBuilder.result oneShot commands with
            | error thrown =>
                rw [hlater] at hresult
                obtain rfl : thrown = failure := Except.error.inj hresult
                exact ih hlater
            | ok later =>
                rw [hlater] at hresult
                cases hresult

/-- **The resident path.**  With a resident worker that answers as the processes would, and as
without one, the outcome is that of running all commands one after the other, exactly when the
resident worker throws no error of the JVM. -/
theorem compileCmds_refines_run_iff (oneShot : OneShot) (resident : Option Resident)
    (inputs : List (String × Bytes)) (commands : List Command)
    (hfails : FailsWithException oneShot)
    (hanswers : AnswersLike oneShot resident inputs commands) :
    Refines oneShot resident inputs commands ↔
      ∀ failure, ¬ Escapes resident inputs commands failure := by
  have hplain := run_again (StartsInOrder.nil : StartsInOrder oneShot commands [])
  cases commands with
  | nil =>
      refine iff_of_true ⟨rfl, hplain.2⟩ ?_
      rintro failure ⟨-, _, _, _, -, hcommands, -⟩
      cases hcommands
  | cons first rest =>
      cases resident with
      | none =>
          refine iff_of_true ⟨rfl, hplain.2⟩ ?_
          rintro failure ⟨-, _, _, _, hnone, -⟩
          cases hnone
      | some resident =>
          cases hanswer : resident (kotlincWorkerArgs first) inputs with
          | ok answer =>
              -- the answer of the resident worker is that of the process
              have hfirst := hanswers resident first rest answer rfl rfl hanswer
              obtain ⟨hresult, hstarts⟩ := compileCmds_of_ok rest hanswer hfirst
              refine iff_of_true ⟨hresult.trans hplain.1.symm, hstarts⟩ ?_
              rintro failure ⟨-, _, _, _, hsome, hcommands, hthrown⟩
              obtain rfl := Option.some.inj hsome
              obtain ⟨rfl, rfl⟩ := List.cons.inj hcommands
              cases hanswer.symm.trans hthrown
          | error failure =>
              obtain ⟨hresult, hstarts⟩ := compileCmds_of_error oneShot rest hanswer
              constructor
              · -- the one-shot path throws exceptions only, so its outcome is not this error
                rintro hrefines thrown ⟨herror, _, _, _, hsome, hcommands, hthrown⟩
                obtain rfl := Option.some.inj hsome
                obtain ⟨rfl, rfl⟩ := List.cons.inj hcommands
                obtain rfl := Except.error.inj (hanswer.symm.trans hthrown)
                have houtcome := hrefines.outcome
                rw [hresult, herror, hplain.1] at houtcome
                have hexception := hfails.result houtcome.symm
                rw [herror] at hexception
                cases hexception
              · intro hcaught
                -- what is thrown is caught, and all commands run as processes
                have hexception : failure.isException = true := by
                  by_contra herror
                  exact hcaught failure ⟨Bool.eq_false_of_not_eq_true herror, resident, first, rest,
                    rfl, rfl, hanswer⟩
                rw [hexception, if_pos rfl] at hresult
                exact ⟨hresult.trans hplain.1.symm, hstarts⟩

/-- The compiler warns and exits with code 0; nothing else can be started. -/
def sampleOneShot : OneShot := fun command =>
  if command = ["elide", "kotlinc", "--", "-d", "a.jar"] then .ok (0, "warning\n")
  else .error (.ioException "elide")

theorem sample_fails : FailsWithException sampleOneShot := by
  intro command failure hfailure
  unfold sampleOneShot at hfailure
  split at hfailure
  · cases hfailure
  · cases hfailure
    rfl

/-- The second command cannot be started, so both are run again. -/
theorem compileCmds_refines_run_iff_sample :
    Refines sampleOneShot (some fun _ _ => .ok (0, "warning\n")) []
      [["elide", "kotlinc", "--", "-d", "a.jar"], ["elide", "jar", "--"]] := by
  refine (compileCmds_refines_run_iff _ _ _ _ sample_fails ?_).mpr ?_
  · intro compile first rest answer hresident hcommands hanswer
    obtain rfl := Option.some.inj hresident
    obtain ⟨rfl, rfl⟩ := List.cons.inj hcommands
    rw [sampleOneShot, if_pos rfl]
    exact hanswer
  · rintro failure ⟨-, compile, first, rest, hresident, -, hthrown⟩
    obtain rfl := Option.some.inj hresident
    cases hthrown

/-- The resident worker runs out of memory, and the command is not run. -/
theorem error_of_resident_is_thrown_on :
    ¬ ∀ (oneShot : OneShot) (resident : Option Resident) (inputs : List (String × Bytes))
      (commands : List Command), FailsWithException oneShot →
        AnswersLike oneShot resident inputs commands →
          Refines oneShot resident inputs commands := by
  intro h
  let resident : Resident := fun _ _ => .error .outOfMemory
  have hrefines := h sampleOneShot (some resident) [] [["elide", "kotlinc", "--", "-d", "a.jar"]]
    sample_fails ?_
  · have hanswer : resident (kotlincWorkerArgs ["elide", "kotlinc", "--", "-d", "a.jar"]) [] =
        .error .outOfMemory := rfl
    have houtcome := (compileCmds_of_error sampleOneShot [] hanswer).1.symm.trans hrefines.outcome
    rw [(run_again StartsInOrder.nil).1] at houtcome
    have hexception : Throwable.outOfMemory.isException = true := sample_fails.result houtcome.symm
    cases hexception
  · intro compile first rest answer hresident hcommands hanswer
    obtain rfl := Option.some.inj hresident
    cases hanswer

end RulesElide.KotlinBuilder
