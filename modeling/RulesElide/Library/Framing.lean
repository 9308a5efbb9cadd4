import Mathlib

/-!
# Frames on a stream

A stream is a list, and a call takes an outcome off its front.  `Calls` is a sequence of
such calls that also records what each of them consumed.  The frames of a list of items can
be cut anywhere: the cut leaves some complete frames and a proper part of the next one.
-/

namespace Framing

variable {Item Element Outcome : Type*}

/-- Consecutive calls on a stream: their outcomes, what each of them consumed, and what the
last one left. -/
inductive Calls (call : List Element → Outcome × List Element) :
    List Element → List (Outcome × List Element) → List Element → Prop
  | done (stream : List Element) : Calls call stream [] stream
  | next {consumed left final : List Element} {outcome : Outcome}
      {outcomes : List (Outcome × List Element)}
      (hcall : call (consumed ++ left) = (outcome, left)) (h : Calls call left outcomes final) :
      Calls call (consumed ++ left) ((outcome, consumed) :: outcomes) final

variable {call : List Element → Outcome × List Element} {frame : Item → List Element}
  {outcome : Item → Outcome}

/-- Calls that read one frame each read a sequence of frames and leave what follows it. -/
theorem Calls.frames {items : List Item}
    (hread : ∀ item ∈ items, ∀ left, call (frame item ++ left) = (outcome item, left))
    (left : List Element) :
    Calls call (items.flatMap frame ++ left)
      (items.map fun item => (outcome item, frame item)) left := by
  induction items with
  | nil => exact Calls.done left
  | cons item items ih =>
      obtain ⟨hitem, hitems⟩ := List.forall_mem_cons.mp hread
      rw [List.flatMap_cons, List.append_assoc]
      exact Calls.next (hitem _) (ih hitems)

/-- Frames that show where they end, and are not empty, show which items they are of. -/
theorem flatMap_injOn (valid : Item → Prop) (hne : ∀ item, frame item ≠ [])
    (hsplit : ∀ first second, valid first → valid second → ∀ rest rest',
      frame first ++ rest = frame second ++ rest' → first = second ∧ rest = rest') :
    ∀ {first second : List Item}, (∀ item ∈ first, valid item) → (∀ item ∈ second, valid item) →
      first.flatMap frame = second.flatMap frame → first = second := by
  intro first
  induction first with
  | nil =>
      intro second _ _ h
      cases second with
      | nil => rfl
      | cons item second =>
          rw [List.flatMap_nil, List.flatMap_cons] at h
          exact absurd (List.append_eq_nil_iff.mp h.symm).1 (hne item)
  | cons item first ih =>
      intro second hfirst hsecond h
      cases second with
      | nil =>
          rw [List.flatMap_nil, List.flatMap_cons] at h
          exact absurd (List.append_eq_nil_iff.mp h).1 (hne item)
      | cons item' second =>
          obtain ⟨hitem, hitems⟩ := List.forall_mem_cons.mp hfirst
          obtain ⟨hitem', hitems'⟩ := List.forall_mem_cons.mp hsecond
          rw [List.flatMap_cons, List.flatMap_cons] at h
          obtain ⟨rfl, hrest⟩ := hsplit item item' hitem hitem' _ _ h
          rw [ih hitems hitems' hrest]

/-- Where the frames of a list of items can be cut. -/
theorem exists_cut {items : List Item} :
    ∀ {stream : List Element}, stream <+: items.flatMap frame →
      ∃ complete rest cut, items = complete ++ rest ∧ stream = complete.flatMap frame ++ cut ∧
        (cut = [] ∨ ∃ item ∈ rest.head?, cut <+: frame item ∧ cut ≠ frame item) := by
  induction items with
  | nil =>
      intro stream hstream
      obtain rfl := List.prefix_nil.mp hstream
      exact ⟨[], [], [], rfl, rfl, Or.inl rfl⟩
  | cons item items ih =>
      intro stream hstream
      rw [List.flatMap_cons] at hstream
      -- the stream holds the first frame, or ends inside it
      by_cases hcomplete : frame item <+: stream
      · obtain ⟨stream, rfl⟩ := hcomplete
        obtain ⟨complete, rest, cut, rfl, rfl, hcut⟩ :=
          ih ((List.prefix_append_right_inj (frame item)).mp hstream)
        exact ⟨item :: complete, rest, cut, rfl, by simp, hcut⟩
      · have hshort : stream <+: frame item :=
          (List.prefix_or_prefix_of_prefix hstream (List.prefix_append _ _)).resolve_right hcomplete
        refine ⟨[], item :: items, stream, rfl, rfl, Or.inr ⟨item, rfl, hshort, ?_⟩⟩
        rintro rfl
        exact hcomplete (List.prefix_refl _)

/-- Frames that show where they end are as many as those of a longer stream only if the stream is
not longer. -/
theorem flatten_front_unique (valid : List Element → Prop)
    (hunique : ∀ first second stream, valid first → valid second → first <+: stream →
      second <+: stream → first = second) :
    ∀ {first second : List (List Element)}, (∀ frame ∈ first, valid frame) →
      (∀ frame ∈ second, valid frame) → first.length = second.length →
      first.flatten <+: second.flatten → first = second := by
  intro first
  induction first with
  | nil =>
      intro second _ _ hlength _
      exact (List.length_eq_zero_iff.mp hlength.symm).symm
  | cons frame first ih =>
      intro second hfirst hsecond hlength hlead
      obtain ⟨frame', second, rfl⟩ := List.exists_cons_of_length_eq_add_one hlength.symm
      obtain ⟨hframe, hframes⟩ := List.forall_mem_cons.mp hfirst
      obtain ⟨hframe', hframes'⟩ := List.forall_mem_cons.mp hsecond
      rw [List.flatten_cons, List.flatten_cons] at hlead
      obtain rfl := hunique frame frame' _ hframe hframe'
        ((List.prefix_append _ _).trans hlead) (List.prefix_append _ _)
      rw [ih hframes hframes' (Nat.succ.inj hlength)
        ((List.prefix_append_right_inj frame).mp hlead)]

end Framing
