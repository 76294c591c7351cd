import Mathlib.Init

namespace Pool

/-!
# Handles that are taken and released

A pool hands out handles and gets them back.  Its history lists both kinds of
event, the latest first.  A handle is out if it was taken and not released
since; a history is exclusive if no handle was taken while it was out.
-/

/-- A handle is taken from the pool or given back to it. -/
inductive Event (Handle : Type*) where
  | taken (handle : Handle)
  | released (handle : Handle)

variable
  {Handle : Type*}
  {history : List (Event Handle)}
  {handle other : Handle}

/-- Taken, and not released since. -/
def Out (history : List (Event Handle)) (handle : Handle) : Prop :=
  ∃ later earlier,
    history = later ++ .taken handle :: earlier ∧ .released handle ∉ later

/-- Nothing was taken while it was out. -/
def Exclusive (history : List (Event Handle)) : Prop :=
  ∀ later handle earlier,
    history = later ++ .taken handle :: earlier → ¬ Out earlier handle

/-- In the beginning nothing is out. -/
@[simp]
theorem not_out_nil : ¬ Out [] handle := by
  rintro ⟨later, earlier, shape, -⟩
  cases later <;> cases shape

/-- Besides the handle just taken, the same handles are out as before. -/
@[simp]
theorem out_taken_iff :
    Out (.taken other :: history) handle ↔
      other = handle ∨ Out history handle := by
  constructor
  · rintro ⟨later, earlier, shape, unreleased⟩
    cases later with
    | nil =>
        cases shape
        exact Or.inl rfl
    | cons head later =>
        cases shape
        exact Or.inr
          ⟨later, earlier, rfl,
            fun member => unreleased (List.mem_cons_of_mem _ member)⟩
  · rintro (rfl | ⟨later, earlier, rfl, unreleased⟩)
    · exact ⟨[], history, rfl, by simp⟩
    · exact ⟨.taken other :: later, earlier, rfl, by simpa using unreleased⟩

/-- The handle just released is not out, and no other one has changed. -/
@[simp]
theorem out_released_iff :
    Out (.released other :: history) handle ↔
      other ≠ handle ∧ Out history handle := by
  constructor
  · rintro ⟨later, earlier, shape, unreleased⟩
    cases later with
    | nil =>
        cases shape
    | cons head later =>
        cases shape
        refine ⟨?_, later, earlier, rfl,
          fun member => unreleased (List.mem_cons_of_mem _ member)⟩
        rintro rfl
        exact unreleased List.mem_cons_self
  · rintro ⟨apart, later, earlier, rfl, unreleased⟩
    refine ⟨.released other :: later, earlier, rfl, ?_⟩
    simpa [Ne.symm apart] using unreleased

/-- What is out has been taken. -/
theorem Out.mem
    (out : Out history handle) :
    .taken handle ∈ history := by
  obtain ⟨later, earlier, rfl, -⟩ := out
  simp

/-- The empty history is exclusive. -/
@[simp]
theorem exclusive_nil : Exclusive ([] : List (Event Handle)) := by
  intro later handle earlier shape
  cases later <;> cases shape

/-- A handle may be taken only if it is not out. -/
@[simp]
theorem exclusive_taken_iff :
    Exclusive (.taken handle :: history) ↔
      ¬ Out history handle ∧ Exclusive history := by
  constructor
  · intro exclusive
    refine ⟨exclusive [] handle history rfl, ?_⟩
    rintro later taken earlier rfl
    exact exclusive (_ :: later) taken earlier rfl
  · rintro ⟨fresh, exclusive⟩ later taken earlier shape
    cases later with
    | nil =>
        cases shape
        exact fresh
    | cons head later =>
        cases shape
        exact exclusive later taken earlier rfl

/-- A handle may be released at any time. -/
@[simp]
theorem exclusive_released_iff :
    Exclusive (.released handle :: history) ↔ Exclusive history := by
  constructor
  · rintro exclusive later taken earlier rfl
    exact exclusive (_ :: later) taken earlier rfl
  · intro exclusive later taken earlier shape
    cases later with
    | nil =>
        cases shape
    | cons head later =>
        cases shape
        exact exclusive later taken earlier rfl

/-- A handle taken while another one is still out is a different one. -/
theorem Exclusive.ne_of_kept
    {later middle earlier : List (Event Handle)}
    {first second : Handle}
    (exclusive :
      Exclusive
        (later ++ .taken second :: (middle ++ .taken first :: earlier)))
    (kept : .released first ∉ middle) :
    first ≠ second := by
  rintro rfl
  exact exclusive later first _ rfl ⟨middle, earlier, rfl, kept⟩

end Pool
