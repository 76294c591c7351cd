import Mathlib.Logic.Function.Basic

namespace Relay

/-!
# Items relayed through boxes

An item is put into a box and later sent on to a slot, which empties the box
and replaces what the slot had.  The history lists both kinds of step, the
latest first.  What a slot has in the end is the item that was put last into
the box from which the slot was filled last.
-/

variable {Box Slot Item : Type*}

/-- What happens to the boxes: one is filled or emptied, or sent to a slot. -/
inductive Step (Box Slot Item : Type*) where
  | put (box : Box) (item : Option Item)
  | send (box : Box) (slot : Slot)

/-- What lies in the boxes, and what the slots have got. -/
structure State (Box Slot Item : Type*) where
  box : Box → Option Item
  slot : Slot → Option Item

/-- The step changes what lies in the box. -/
def Step.Touches (box : Box) : Step Box Slot Item → Prop
  | .put other _ => other = box
  | .send other _ => other = box

/-- The step changes what the slot holds. -/
def Step.Fills (slot : Slot) : Step Box Slot Item → Prop
  | .put _ _ => False
  | .send _ other => other = slot

/-- The item was put into the box, which has not been touched since. -/
def Waiting
    (history : List (Step Box Slot Item))
    (box : Box)
    (item : Item) :
    Prop :=
  ∃ later earlier,
    history = later ++ .put box (some item) :: earlier ∧
      ∀ step ∈ later, ¬ step.Touches box

/-- The item was sent from a box, and the slot was not filled again. -/
def Arrived
    (history : List (Step Box Slot Item))
    (slot : Slot)
    (item : Item) :
    Prop :=
  ∃ later box earlier,
    history = later ++ .send box slot :: earlier ∧
      Waiting earlier box item ∧
      ∀ step ∈ later, ¬ step.Fills slot

variable
  {history : List (Step Box Slot Item)}
  {step : Step Box Slot Item}
  {box other : Box}
  {slot : Slot}
  {item : Item}
  {content : Option Item}

/-- In the beginning nothing waits. -/
@[simp]
theorem not_waiting_nil :
    ¬ Waiting ([] : List (Step Box Slot Item)) box item := by
  rintro ⟨later, earlier, shape, -⟩
  cases later <;> cases shape

/-- What waits has just been put, or has waited before an unrelated step. -/
theorem Waiting.cons_iff :
    Waiting (step :: history) box item ↔
      step = .put box (some item) ∨
        ¬ step.Touches box ∧ Waiting history box item := by
  constructor
  · rintro ⟨later, earlier, shape, untouched⟩
    cases later with
    | nil =>
        cases shape
        exact Or.inl rfl
    | cons head later =>
        cases shape
        obtain ⟨headUntouched, untouched⟩ :=
          List.forall_mem_cons.mp untouched
        exact Or.inr ⟨headUntouched, later, earlier, rfl, untouched⟩
  · rintro (rfl | ⟨headUntouched, later, earlier, rfl, untouched⟩)
    · exact ⟨[], history, rfl, by simp⟩
    · exact ⟨step :: later, earlier, rfl,
        List.forall_mem_cons.mpr ⟨headUntouched, untouched⟩⟩

/-- In the beginning nothing has arrived. -/
@[simp]
theorem not_arrived_nil :
    ¬ Arrived ([] : List (Step Box Slot Item)) slot item := by
  rintro ⟨later, box, earlier, shape, -⟩
  cases later <;> cases shape

/-- What has arrived has just been sent, or was not written over since. -/
theorem Arrived.cons_iff :
    Arrived (step :: history) slot item ↔
      (∃ box, step = .send box slot ∧ Waiting history box item) ∨
        ¬ step.Fills slot ∧ Arrived history slot item := by
  constructor
  · rintro ⟨later, box, earlier, shape, waiting, unfilled⟩
    cases later with
    | nil =>
        cases shape
        exact Or.inl ⟨box, rfl, waiting⟩
    | cons head later =>
        cases shape
        obtain ⟨headUnfilled, unfilled⟩ := List.forall_mem_cons.mp unfilled
        exact Or.inr ⟨headUnfilled, later, box, earlier, rfl, waiting, unfilled⟩
  · rintro
      (⟨box, rfl, waiting⟩ |
        ⟨headUnfilled, later, box, earlier, rfl, waiting, unfilled⟩)
    · exact ⟨[], box, history, rfl, waiting, by simp⟩
    · exact ⟨step :: later, box, earlier, rfl, waiting,
        List.forall_mem_cons.mpr ⟨headUnfilled, unfilled⟩⟩

/-- What has arrived stays if nothing later fills the slot. -/
theorem Arrived.append
    (arrived : Arrived history slot item)
    {later : List (Step Box Slot Item)}
    (unfilled : ∀ step ∈ later, ¬ step.Fills slot) :
    Arrived (later ++ history) slot item := by
  induction later with
  | nil =>
      exact arrived
  | cons step later inductionHypothesis =>
      obtain ⟨headUnfilled, unfilled⟩ := List.forall_mem_cons.mp unfilled
      exact Arrived.cons_iff.mpr
        (Or.inr ⟨headUnfilled, inductionHypothesis unfilled⟩)

section Replay

variable
  [DecidableEq Box]
  [DecidableEq Slot]

/-- A sent box is empty, and its slot holds what the box held, or nothing. -/
def State.after
    (state : State Box Slot Item) :
    Step Box Slot Item → State Box Slot Item
  | .put box item => { state with box := Function.update state.box box item }
  | .send box slot =>
      { box := Function.update state.box box none
        slot := Function.update state.slot slot (state.box box) }

/-- The boxes and the slots after a history that began with them empty. -/
def replay : List (Step Box Slot Item) → State Box Slot Item
  | [] => { box := fun _ => none, slot := fun _ => none }
  | step :: earlier => (replay earlier).after step

/-- Putting something changes one box only. -/
theorem replay_put_box :
    (replay (.put other content :: history)).box box =
      if box = other then content else (replay history).box box := by
  rw [replay, State.after]
  exact Function.update_apply _ _ _ _

/-- Sending empties one box only. -/
theorem replay_send_box :
    (replay (.send other slot :: history)).box box =
      if box = other then none else (replay history).box box := by
  rw [replay, State.after]
  exact Function.update_apply _ _ _ _

/-- Putting something changes no slot. -/
theorem replay_put_slot :
    (replay (.put other content :: history)).slot slot =
      (replay history).slot slot :=
  rfl

/-- Sending changes one slot only. -/
theorem replay_send_slot
    {target : Slot} :
    (replay (.send box target :: history)).slot slot =
      if slot = target then (replay history).box box
      else (replay history).slot slot := by
  rw [replay, State.after]
  exact Function.update_apply _ _ _ _

/-- A box holds what waits in it. -/
theorem replay_box_iff :
    (replay history).box box = some item ↔ Waiting history box item := by
  induction history with
  | nil =>
      simp [replay]
  | cons step history inductionHypothesis =>
      rw [Waiting.cons_iff]
      cases step with
      | put other content =>
          rw [replay_put_box]
          by_cases same : box = other
          · subst same
            simp [Step.Touches]
          · simp [Step.Touches, same, Ne.symm same, inductionHypothesis]
      | send other slot =>
          rw [replay_send_box]
          by_cases same : box = other
          · subst same
            simp [Step.Touches]
          · simp [Step.Touches, same, Ne.symm same, inductionHypothesis]

/-- A slot has exactly what has arrived there. -/
theorem replay_slot_iff :
    (replay history).slot slot = some item ↔ Arrived history slot item := by
  induction history with
  | nil =>
      simp [replay]
  | cons step history inductionHypothesis =>
      rw [Arrived.cons_iff]
      cases step with
      | put box content =>
          simp [replay_put_slot, Step.Fills, inductionHypothesis]
      | send box other =>
          rw [replay_send_slot]
          by_cases same : slot = other
          · subst same
            simp [Step.Fills, replay_box_iff]
          · simp [Step.Fills, same, Ne.symm same, inductionHypothesis]

end Replay

end Relay
