import Mathlib

/-!
# Graphs of actions

An action reads some files and writes others.  A graph is a list of actions in which every file
has one producer and every action stands behind the producers of what it reads; whoever runs the
graph may take any other order in which the inputs of an action are there when it starts.  Such
a run is never stuck, and all complete runs leave the same files.
-/

namespace ActionGraph

variable {File Content : Type*}

/-- What an action writes depends on the contents of its inputs only. -/
structure Action (File Content : Type*) where
  inputs : List File
  outputs : List File
  write : (File → Option Content) → File → Content

/-! ## Graphs -/

/-- The files the actions write. -/
def outputs (actions : List (Action File Content)) : List File :=
  actions.flatMap Action.outputs

/-- Every action stands behind the producers of its inputs. -/
def Ordered (available : List File) : List (Action File Content) → Prop
  | [] => True
  | action :: actions =>
      action.inputs ⊆ available ∧ Ordered (available ++ action.outputs) actions

/-- Actions in an order they can run in: every file has one producer, and no source has one. -/
structure Graph (sources : List File) (actions : List (Action File Content)) : Prop where
  ordered : Ordered sources actions
  nodup : (outputs actions).Nodup
  disjoint : sources.Disjoint (outputs actions)

variable {actions before after : List (Action File Content)} {action : Action File Content}
  {sources available : List File} {file : File}

@[simp] theorem outputs_cons :
    outputs (action :: actions) = action.outputs ++ outputs actions := rfl

@[simp] theorem outputs_append : outputs (before ++ after) = outputs before ++ outputs after :=
  List.flatMap_append

theorem mem_outputs : file ∈ outputs actions ↔ ∃ action ∈ actions, file ∈ action.outputs :=
  List.mem_flatMap

theorem ordered_append :
    Ordered available (before ++ after) ↔
      Ordered available before ∧ Ordered (available ++ outputs before) after := by
  induction before generalizing available with
  | nil => simp [Ordered, outputs]
  | cons action before ih => simp [Ordered, ih, and_assoc]

theorem Ordered.mono {more : List File} (h : Ordered available actions) (hmore : available ⊆ more) :
    Ordered more actions := by
  induction actions generalizing available more with
  | nil => trivial
  | cons action actions ih =>
      refine ⟨fun file hfile => hmore (h.1 hfile), ih h.2 ?_⟩
      exact List.append_subset.mpr ⟨fun file hfile => List.mem_append_left _ (hmore hfile),
        List.subset_append_right _ _⟩

/-- Two graphs, the second of which may read what the first one writes, are one graph. -/
theorem Graph.append {other : List File} (hfirst : Graph sources before)
    (hsecond : Graph other after) (hreads : other ⊆ sources ++ outputs before)
    (hsources : sources.Disjoint (outputs after))
    (houtputs : (outputs before).Disjoint (outputs after)) :
    Graph sources (before ++ after) where
  ordered := ordered_append.mpr ⟨hfirst.ordered, hsecond.ordered.mono hreads⟩
  nodup := by
    rw [outputs_append]
    exact hfirst.nodup.append hsecond.nodup houtputs
  disjoint := by
    rw [outputs_append]
    exact List.disjoint_append_right.mpr ⟨hfirst.disjoint, hsources⟩

/-- Actions that write something are different when their outputs are. -/
theorem Graph.nodup_actions (h : Graph sources actions)
    (hne : ∀ action ∈ actions, action.outputs ≠ []) :
    actions.Nodup := by
  have hnodup := h.nodup
  clear h
  induction actions with
  | nil => exact List.nodup_nil
  | cons action actions ih =>
      rw [outputs_cons] at hnodup
      refine List.nodup_cons.mpr ⟨fun hagain => ?_, ?_⟩
      · obtain ⟨file, hfile⟩ := List.exists_mem_of_ne_nil _ (hne action List.mem_cons_self)
        exact List.disjoint_of_nodup_append hnodup hfile (mem_outputs.mpr ⟨action, hagain, hfile⟩)
      · exact ih (fun other hother => hne other (List.mem_cons_of_mem _ hother))
          hnodup.of_append_right

/-- In the order of the graph, an action reads sources and what was written before. -/
theorem Graph.inputs_subset (h : Graph sources (before ++ action :: after)) :
    action.inputs ⊆ sources ++ outputs before :=
  (ordered_append.mp h.ordered).2.1

/-! ## Runs -/

variable [DecidableEq File]

/-- The files that exist, and what they contain. -/
abbrev Store (File Content : Type*) := File → Option Content

namespace Action

/-- The files an action sees. -/
def visible (action : Action File Content) (store : Store File Content) : Store File Content :=
  fun file => if file ∈ action.inputs then store file else none

def exec (action : Action File Content) (store : Store File Content) : Store File Content :=
  fun file =>
    if file ∈ action.outputs then some (action.write (action.visible store) file) else store file

/-- All inputs are there. -/
def Ready (action : Action File Content) (store : Store File Content) : Prop :=
  ∀ file ∈ action.inputs, (store file).isSome

variable {store store' : Store File Content}

theorem exec_of_mem (h : file ∈ action.outputs) :
    action.exec store file = some (action.write (action.visible store) file) :=
  if_pos h

theorem exec_of_notMem (h : file ∉ action.outputs) : action.exec store file = store file :=
  if_neg h

theorem visible_congr (h : ∀ file ∈ action.inputs, store file = store' file) :
    action.visible store = action.visible store' := by
  funext file
  unfold visible
  split
  · rename_i hinput
    exact h file hinput
  · rfl

theorem isSome_exec (h : (store file).isSome) : (action.exec store file).isSome := by
  unfold exec
  split
  · rfl
  · exact h

end Action

/-- The store at the end of a run. -/
def execAll (store : Store File Content) (actions : List (Action File Content)) :
    Store File Content :=
  actions.foldl (fun store action => action.exec store) store

/-- Every action of a run is ready when its turn comes. -/
def Valid (store : Store File Content) : List (Action File Content) → Prop
  | [] => True
  | action :: actions => action.Ready store ∧ Valid (action.exec store) actions

variable {store : Store File Content}

@[simp] theorem execAll_nil : execAll store [] = store := rfl

@[simp] theorem execAll_cons :
    execAll store (action :: actions) = execAll (action.exec store) actions := rfl

theorem execAll_append : execAll store (before ++ after) = execAll (execAll store before) after :=
  List.foldl_append

/-- A file that no action writes stays as it is. -/
theorem execAll_of_notMem (h : file ∉ outputs actions) :
    execAll store actions file = store file := by
  induction actions generalizing store with
  | nil => rfl
  | cons action actions ih =>
      simp only [outputs_cons, List.mem_append, not_or] at h
      rw [execAll_cons, ih h.2, Action.exec_of_notMem h.1]

theorem isSome_execAll (h : (store file).isSome) : (execAll store actions file).isSome := by
  induction actions generalizing store with
  | nil => exact h
  | cons action actions ih => exact ih (Action.isSome_exec h)

/-- What the actions of a run write is there at its end. -/
theorem isSome_of_mem_outputs (h : file ∈ outputs actions) :
    (execAll store actions file).isSome := by
  induction actions generalizing store with
  | nil => exact absurd h List.not_mem_nil
  | cons action actions ih =>
      rcases List.mem_append.mp h with hfirst | hlater
      · rw [execAll_cons]
        apply isSome_execAll
        rw [Action.exec_of_mem hfirst]
        rfl
      · exact ih hlater

theorem valid_append :
    Valid store (before ++ after) ↔ Valid store before ∧ Valid (execAll store before) after := by
  induction before generalizing store with
  | nil => simp [Valid]
  | cons action before ih => simp [Valid, ih, and_assoc]

/-- The store at the end has in every output what its producer writes there. -/
theorem Graph.execAll_output (h : Graph sources (before ++ action :: after))
    (hfile : file ∈ action.outputs) :
    execAll store (before ++ action :: after) file =
      some (action.write (action.visible (execAll store (before ++ action :: after))) file) := by
  have hnodup := h.nodup
  simp only [outputs_append, outputs_cons] at hnodup
  have hlater : ∀ other ∈ action.outputs ++ outputs after, other ∉ sources ++ outputs before := by
    intro other hother hearlier
    rcases List.mem_append.mp hearlier with hsource | hbefore
    · apply h.disjoint hsource
      simp only [outputs_append, outputs_cons]
      exact List.mem_append_right _ hother
    · exact List.disjoint_of_nodup_append hnodup hbefore hother
  -- nothing that the action reads is written from its turn on
  have hvisible : action.visible (execAll store before) =
      action.visible (execAll store (before ++ action :: after)) := by
    apply Action.visible_congr
    intro input hinput
    have hnew : input ∉ action.outputs ++ outputs after :=
      fun hwritten => hlater input hwritten (h.inputs_subset hinput)
    have hkept : input ∉ outputs (action :: after) := by simpa using hnew
    rw [execAll_append, execAll_of_notMem hkept]
  have hafter : file ∉ outputs after :=
    List.disjoint_of_nodup_append (List.Nodup.of_append_right hnodup) hfile
  calc execAll store (before ++ action :: after) file
      = action.exec (execAll store before) file := by
        rw [execAll_append, execAll_cons, execAll_of_notMem hafter]
    _ = some (action.write (action.visible (execAll store before)) file) :=
        Action.exec_of_mem hfile
    _ = _ := by rw [hvisible]

/-! ## Any order -/

variable {run : List (Action File Content)}

/-- Whatever was run, in whatever order, what is there is what will be there at the end. -/
theorem Graph.execAll_le (h : Graph sources actions) (hrun : run ⊆ actions)
    (hvalid : Valid store run) (hfresh : ∀ file ∈ outputs actions, store file = none)
    {content : Content}
    (hcontent : execAll store run file = some content) :
    execAll store actions file = some content := by
  -- on the last action of the run: what it read is what it reads when all have run
  induction run using List.reverseRecOn generalizing file content with
  | nil =>
      rw [execAll_of_notMem, ← hcontent, execAll_nil]
      intro hwritten
      -- no output is there before the run
      rw [execAll_nil, hfresh file hwritten] at hcontent
      cases hcontent
  | append_singleton run action ih =>
      obtain ⟨hbefore, hready, -⟩ := valid_append.mp hvalid
      have hsub : run ⊆ actions := fun other hother => hrun (List.mem_append_left _ hother)
      rw [execAll_append] at hcontent
      by_cases hfile : file ∈ action.outputs
      · obtain ⟨front, back, rfl⟩ :=
          List.append_of_mem (hrun (List.mem_append_right _ (List.mem_singleton_self action)))
        have hvisible : action.visible (execAll store run) =
            action.visible (execAll store (front ++ action :: back)) := by
          apply Action.visible_congr
          intro input hinput
          obtain ⟨found, hfound⟩ := Option.isSome_iff_exists.mp (hready input hinput)
          rw [hfound, ih hsub hbefore hfound]
        rw [h.execAll_output hfile, ← hvisible, ← hcontent]
        exact (Action.exec_of_mem hfile).symm
      · apply ih hsub hbefore
        rw [← hcontent]
        exact (Action.exec_of_notMem hfile).symm

/-- **All complete runs leave the same files.** -/
theorem Graph.execAll_eq (h : Graph sources actions) (hperm : run.Perm actions)
    (hvalid : Valid store run) (hfresh : ∀ file ∈ outputs actions, store file = none) :
    execAll store run = execAll store actions := by
  funext file
  by_cases hfile : file ∈ outputs actions
  · have hmem : file ∈ outputs run := (hperm.flatMap_right _).mem_iff.mpr hfile
    have hthere : (execAll store run file).isSome := isSome_of_mem_outputs hmem
    obtain ⟨content, hcontent⟩ := Option.isSome_iff_exists.mp hthere
    rw [hcontent, h.execAll_le hperm.subset hvalid hfresh hcontent]
  · have hmem : file ∉ outputs run := fun hmem => hfile ((hperm.flatMap_right _).mem_iff.mp hmem)
    rw [execAll_of_notMem hfile, execAll_of_notMem hmem]

omit [DecidableEq File] in
/-- Where some actions were not run, the first of them in the order of the graph is ready. -/
theorem Ordered.exists_ready (h : Ordered available actions)
    (havailable : ∀ file ∈ available, (store file).isSome)
    (hdone : ∀ action ∈ actions, action ∈ run → ∀ file ∈ action.outputs, (store file).isSome)
    (hmissing : ∃ action ∈ actions, action ∉ run) :
    ∃ action ∈ actions, action ∉ run ∧ action.Ready store := by
  induction actions generalizing available with
  | nil => simp at hmissing
  | cons first actions ih =>
      -- the first action that has not run reads what is there
      by_cases hrun : first ∈ run
      · have hmissing' : ∃ action ∈ actions, action ∉ run := by
          obtain ⟨action, hmem, hnot⟩ := hmissing
          rcases List.mem_cons.mp hmem with rfl | hlater
          · exact absurd hrun hnot
          · exact ⟨action, hlater, hnot⟩
        obtain ⟨action, hmem, hnot, hready⟩ := ih h.2
          (fun file hfile => by
            rcases List.mem_append.mp hfile with hold | hnew
            · exact havailable file hold
            · exact hdone first List.mem_cons_self hrun file hnew)
          (fun action hmem => hdone action (List.mem_cons_of_mem _ hmem)) hmissing'
        exact ⟨action, List.mem_cons_of_mem _ hmem, hnot, hready⟩
      · exact ⟨first, List.mem_cons_self, hrun, fun file hfile => havailable file (h.1 hfile)⟩

/-- **A run is never stuck**: what was run so far can be completed. -/
theorem Graph.exists_completion (h : Graph sources actions)
    (hsources : ∀ file ∈ sources, (store file).isSome) (hnodup : actions.Nodup)
    (hrun : run.Subperm actions) (hvalid : Valid store run) :
    ∃ rest, Valid store (run ++ rest) ∧ (run ++ rest).Perm actions := by
  classical
  -- on the number of actions that are left; one of them is always ready
  induction hleft : actions.length - run.length generalizing run with
  | zero =>
      refine ⟨[], ?_, ?_⟩
      · rwa [List.append_nil]
      · rw [List.append_nil]
        exact hrun.perm_of_length_le (by omega)
  | succ left ih =>
      have hmissing : ∃ action ∈ actions, action ∉ run := by
        by_contra hall
        push Not at hall
        have hlength := (hnodup.subperm hall).length_le
        omega
      have hthere : ∀ file ∈ sources, (execAll store run file).isSome :=
        fun file hfile => isSome_execAll (hsources file hfile)
      have hdone : ∀ action ∈ actions, action ∈ run →
          ∀ file ∈ action.outputs, (execAll store run file).isSome :=
        fun action _ hran file hfile =>
          isSome_of_mem_outputs (mem_outputs.mpr ⟨action, hran, hfile⟩)
      obtain ⟨action, hmem, hnot, hready⟩ := h.ordered.exists_ready hthere hdone hmissing
      have hdistinct : run.Nodup := by
        obtain ⟨part, hpart, hsub⟩ := hrun
        exact hpart.nodup_iff.mp (hnodup.sublist hsub)
      have hnext : (run ++ [action]).Subperm actions := by
        apply List.Nodup.subperm
        · exact hdistinct.append (List.nodup_singleton _) (by simpa using hnot)
        · exact List.append_subset.mpr ⟨hrun.subset, by simpa using hmem⟩
      obtain ⟨rest, hrest, hperm⟩ := ih hnext
        (valid_append.mpr ⟨hvalid, hready, trivial⟩) (by simp; omega)
      rw [List.append_assoc] at hrest hperm
      exact ⟨_, hrest, hperm⟩

/-- Whoever runs the actions can run them to the end, and all who do leave the same files. -/
structure Reproducible (store : Store File Content)
    (actions : List (Action File Content)) : Prop where
  completes : ∀ run : List (Action File Content), run.Subperm actions → Valid store run →
    ∃ rest, Valid store (run ++ rest) ∧ (run ++ rest).Perm actions
  agrees : ∀ run : List (Action File Content), run.Perm actions → Valid store run →
    execAll store run = execAll store actions

theorem Graph.reproducible (h : Graph sources actions)
    (hne : ∀ action ∈ actions, action.outputs ≠ [])
    (hsources : ∀ file ∈ sources, (store file).isSome)
    (hfresh : ∀ file ∈ outputs actions, store file = none) : Reproducible store actions where
  completes _ hrun hvalid := h.exists_completion hsources (h.nodup_actions hne) hrun hvalid
  agrees _ hperm hvalid := h.execAll_eq hperm hvalid hfresh

end ActionGraph
