import Mathlib.Init

namespace Runs

/-!
# Runs of labelled steps

A step relation says for each label which states it connects.  A run is a
finite sequence of steps; `Within` forgets its labels and only keeps what is
known of all of them.  Each rule below reduces a fact about runs to one about
single steps.
-/

variable
  {Label State : Type*}
  {step : Label → State → State → Prop}
  {allowed wider : Label → Prop}
  {first second third : State}

/-- A finite run, with its labels in order. -/
inductive Run (step : Label → State → State → Prop) :
    List Label → State → State → Prop where
  | nil (state : State) :
      Run step [] state state
  | cons
      {label : Label}
      {labels : List Label}
      {initial middle final : State}
      (head : step label initial middle)
      (tail : Run step labels middle final) :
      Run step (label :: labels) initial final

/-- What every allowed step preserves, every run of allowed steps does. -/
theorem Run.invariant
    {labels : List Label}
    (invariant : State → Prop)
    (preserved :
      ∀ label state next,
        allowed label →
        step label state next →
        invariant state →
        invariant next)
    (run : Run step labels first second)
    (allAllowed : ∀ label ∈ labels, allowed label)
    (start : invariant first) :
    invariant second := by
  induction run with
  | nil state =>
      exact start
  | cons head tail inductionHypothesis =>
      apply inductionHypothesis
      · intro label member
        exact allAllowed label (List.mem_cons_of_mem _ member)
      · exact preserved _ _ _ (allAllowed _ List.mem_cons_self) head start

/-- A preorder that relates the two ends of each step relates those of a run. -/
theorem Run.relates
    {labels : List Label}
    (invariant : State → Prop)
    (kept : State → State → Prop)
    (keptRefl : ∀ state, kept state state)
    (keptTrans :
      ∀ first second third,
        kept first second → kept second third → kept first third)
    (preserved :
      ∀ label state next,
        step label state next → invariant state → invariant next)
    (keeps :
      ∀ label state next,
        step label state next → invariant state → kept state next)
    (run : Run step labels first second)
    (start : invariant first) :
    kept first second := by
  induction run with
  | nil state =>
      exact keptRefl state
  | @cons label _ initial middle final head _ inductionHypothesis =>
      exact keptTrans initial middle final (keeps label initial middle head start)
        (inductionHypothesis (preserved label initial middle head start))

/-- Two runs that meet make one run. -/
theorem Run.append
    {leading trailing : List Label}
    (head : Run step leading first second)
    (tail : Run step trailing second third) :
    Run step (leading ++ trailing) first third := by
  induction head with
  | nil state =>
      exact tail
  | cons head _ inductionHypothesis =>
      exact .cons head (inductionHypothesis tail)

/-- The run passes a step of some kind, with all its steps in order. -/
structure Passes
    (step : Label → State → State → Prop)
    (kind : Label → State → State → Prop)
    (labels : List Label)
    (first last : State)
    (before : List Label)
    (label : Label)
    (after : List Label)
    (source target : State) :
    Prop where
  shape : labels = before ++ label :: after
  leading : Run step before first source
  head : step label source target
  isKind : kind label source target
  trailing : Run step after target last

/-- A run that passes such a step later does so with one step more in front. -/
theorem Passes.cons
    {kind : Label → State → State → Prop}
    {label passed : Label}
    {labels before after : List Label}
    {middle source target : State}
    (head : step label first middle)
    (passes :
      Passes step kind labels middle second before passed after source
        target) :
    Passes step kind (label :: labels) first second (label :: before) passed
      after source target where
  shape := by rw [passes.shape, List.cons_append]
  leading := .cons head passes.leading
  head := passes.head
  isKind := passes.isKind
  trailing := passes.trailing

/--
A run of one system is one of another system, if its steps are, up to the
first step of a kind that the other one has not.
-/
theorem Run.follows
    {labels : List Label}
    {other kind : Label → State → State → Prop}
    (either :
      ∀ label state next,
        step label state next → other label state next ∨ kind label state next)
    (run : Run step labels first second) :
    Run other labels first second ∨
      ∃ before label after source target,
        Passes step kind labels first second before label after source
            target ∧
          Run other before first source := by
  induction run with
  | nil state =>
      exact Or.inl (.nil state)
  | @cons label labels initial middle final head tail inductionHypothesis =>
      rcases either label initial middle head with isOther | isKind
      · rcases inductionHypothesis with
          follows | ⟨before, passed, after, source, target, passes, leading⟩
        · exact Or.inl (.cons isOther follows)
        · exact Or.inr
            ⟨label :: before, passed, after, source, target,
              passes.cons head, .cons isOther leading⟩
      · exact Or.inr
          ⟨[], label, labels, initial, middle,
            ⟨rfl, .nil initial, head, isKind, tail⟩, .nil initial⟩

/-- The run passes a step of some kind, and from there on keeps something. -/
structure PassesAndKeeps
    (step : Label → State → State → Prop)
    (kind : Label → State → State → Prop)
    (kept : State → State → Prop)
    (labels : List Label)
    (first last : State)
    (before : List Label)
    (label : Label)
    (after : List Label)
    (source target : State) :
    Prop extends
      Passes step kind labels first last before label after source target where
  keeps : kept target last

section Origin

variable
  {invariant present : State → Prop}
  {kept : State → State → Prop}
  {kind : Label → State → State → Prop}

/--
What is there at the end of a run was there all the time and was kept, or a
step of the run has made it and it was kept from there on.
-/
theorem Run.origin
    {labels : List Label}
    (keptRefl : ∀ state, kept state state)
    (keptTrans :
      ∀ first second third,
        kept first second → kept second third → kept first third)
    (preserved :
      ∀ label state next,
        step label state next → invariant state → invariant next)
    (origin :
      ∀ label state next,
        step label state next → invariant state → present next →
          present state ∧ kept state next ∨ kind label state next)
    (run : Run step labels first second)
    (start : invariant first)
    (isPresent : present second) :
    present first ∧ kept first second ∨
      ∃ before label after source target,
        PassesAndKeeps step kind kept labels first second before label after
          source target := by
  induction run with
  | nil state =>
      exact Or.inl ⟨isPresent, keptRefl state⟩
  | @cons label labels initial middle final head tail inductionHypothesis =>
      have holds : invariant middle :=
        preserved label initial middle head start
      rcases inductionHypothesis holds isPresent with
        ⟨wasPresent, keeps⟩ |
        ⟨before, made, after, source, target, passes⟩
      · rcases origin label initial middle head start wasPresent with
          ⟨atFirst, keptOnce⟩ | isKind
        · exact Or.inl
            ⟨atFirst, keptTrans initial middle final keptOnce keeps⟩
        · exact Or.inr
            ⟨[], label, labels, initial, middle,
              ⟨rfl, .nil initial, head, isKind, tail⟩, keeps⟩
      · exact Or.inr
          ⟨label :: before, made, after, source, target,
            passes.toPasses.cons head, passes.keeps⟩

end Origin

section Simulation

variable
  {OtherLabel OtherState : Type*}
  {other : OtherLabel → OtherState → OtherState → Prop}
  {related : State → List OtherLabel → OtherState → Prop}

/--
Another system can do the first of the labels that are due and then stands for
the state, with the rest of them still to be done.
-/
def CatchesUp
    (other : OtherLabel → OtherState → OtherState → Prop)
    (related : State → List OtherLabel → OtherState → Prop)
    (due : List OtherLabel)
    (state : State)
    (image : OtherState) :
    Prop :=
  ∃ done later reached,
    due = done ++ later ∧ Run other done image reached ∧
      related state later reached

namespace CatchesUp

variable
  {due : List OtherLabel}
  {state : State}
  {image reached : OtherState}

/-- Everything stays to be done. -/
theorem wait
    (same : related state due image) :
    CatchesUp other related due state image :=
  ⟨[], due, image, rfl, .nil image, same⟩

/-- One label is due and is done. -/
theorem one
    {label : OtherLabel}
    (head : other label image reached)
    (nothingLeft : related state [] reached) :
    CatchesUp other related [label] state image :=
  ⟨[label], [], reached, rfl, .cons head (.nil reached), nothingLeft⟩

end CatchesUp

/--
If the other system catches up with every step, it catches up with a run: it
does what the labels of the run mean, in their order, up to some that are
still to be done.
-/
theorem Run.catchesUp
    {labels : List Label}
    {pending : List OtherLabel}
    {image : OtherState}
    (means : Label → List OtherLabel)
    (simulates :
      ∀ label state next pending image,
        step label state next →
        related state pending image →
        CatchesUp other related (pending ++ means label) next image)
    (run : Run step labels first second)
    (start : related first pending image) :
    CatchesUp other related (pending ++ labels.flatMap means) second image := by
  induction run generalizing pending image with
  | nil state =>
      simpa using CatchesUp.wait start
  | @cons label labels initial middle final head _ inductionHypothesis =>
      obtain ⟨done, later, reached, due, leading, matched⟩ :=
        simulates label initial middle pending image head start
      obtain ⟨done', later', reached', due', trailing, matched'⟩ :=
        inductionHypothesis matched
      refine ⟨done ++ done', later', reached', ?_, leading.append trailing,
        matched'⟩
      calc
        pending ++ (label :: labels).flatMap means
            = done ++ (later ++ labels.flatMap means) := by
          rw [List.flatMap_cons, ← List.append_assoc, due, List.append_assoc]
        _ = done ++ done' ++ later' := by
          rw [due', List.append_assoc]

end Simulation

/-- Some run of allowed steps leads from one state to the other. -/
def Within
    (step : Label → State → State → Prop)
    (allowed : Label → Prop)
    (first second : State) :
    Prop :=
  ∃ labels, (∀ label ∈ labels, allowed label) ∧ Run step labels first second

namespace Within

/-- No step at all. -/
theorem refl (state : State) :
    Within step allowed state state :=
  ⟨[], by simp, .nil state⟩

/-- One step. -/
theorem single
    (label : Label)
    (isAllowed : allowed label)
    (head : step label first second) :
    Within step allowed first second :=
  ⟨[label], by simpa using isAllowed, .cons head (.nil _)⟩

/-- One after the other. -/
theorem trans
    (head : Within step allowed first second)
    (tail : Within step allowed second third) :
    Within step allowed first third := by
  obtain ⟨leading, leadingAllowed, leadingRun⟩ := head
  obtain ⟨trailing, trailingAllowed, trailingRun⟩ := tail
  refine ⟨leading ++ trailing, ?_, leadingRun.append trailingRun⟩
  intro label member
  rcases List.mem_append.mp member with inLeading | inTrailing
  · exact leadingAllowed label inLeading
  · exact trailingAllowed label inTrailing

/-- A wider choice of labels allows at least as much. -/
theorem mono
    (weaker : ∀ label, allowed label → wider label)
    (within : Within step allowed first second) :
    Within step wider first second := by
  obtain ⟨labels, allAllowed, run⟩ := within
  exact ⟨labels, fun label member => weaker _ (allAllowed _ member), run⟩

/-- What the allowed steps keep holds at the end. -/
theorem invariant
    (invariant : State → Prop)
    (preserved :
      ∀ label state next,
        allowed label →
        step label state next →
        invariant state →
        invariant next)
    (within : Within step allowed first second)
    (start : invariant first) :
    invariant second := by
  obtain ⟨labels, allAllowed, run⟩ := within
  exact run.invariant invariant preserved allAllowed start

end Within

end Runs
