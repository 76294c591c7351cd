import Mathlib.Data.Set.BooleanAlgebra
import Mathlib.Order.CompletePartialOrder
import Mathlib.Logic.Function.Basic

namespace Holdings

/-!
# Exclusive holdings

Holders hold grants, each with rights over an area.  Holdings are sound if
the areas of different holders are disjoint and every grant follows a policy
for rights.  Handing a grant over and replacing one by a grant over the same
area keep holdings sound, so at each resource all rights come from one grant.
-/

variable {Holder Resource Right : Type*}

/-- Rights over an area of resources. -/
structure Grant (Resource Right : Type*) where
  area : Set Resource
  rights : Set Right

/-- Grants are apart from each other, and each has rights that are allowed. -/
structure Sound
    (policy : Set Right → Prop)
    (held : Holder → Option (Grant Resource Right)) :
    Prop where
  disjoint :
    ∀ first second grant other,
      first ≠ second →
      held first = some grant →
      held second = some other →
      Disjoint grant.area other.area
  allowed :
    ∀ holder grant, held holder = some grant → policy grant.rights

/-- Some holder has the right at the resource. -/
def Permits
    (held : Holder → Option (Grant Resource Right))
    (right : Right)
    (resource : Resource) :
    Prop :=
  ∃ holder grant,
    held holder = some grant ∧ resource ∈ grant.area ∧ right ∈ grant.rights

variable
  {policy : Set Right → Prop}
  {held after : Holder → Option (Grant Resource Right)}

/-- Two rights at one resource belong to one grant. -/
theorem Sound.permits_together
    (sound : Sound policy held)
    {right other : Right}
    {resource : Resource}
    (first : Permits held right resource)
    (second : Permits held other resource) :
    ∃ rights, policy rights ∧ right ∈ rights ∧ other ∈ rights := by
  obtain ⟨holder, grant, holds, inArea, hasRight⟩ := first
  obtain ⟨otherHolder, otherGrant, otherHolds, inOther, hasOther⟩ := second
  by_cases same : holder = otherHolder
  · subst same
    cases holds.symm.trans otherHolds
    exact ⟨grant.rights, sound.allowed _ _ holds, hasRight, hasOther⟩
  · have apart := sound.disjoint _ _ _ _ same holds otherHolds
    exact absurd inOther (Set.disjoint_left.mp apart inArea)

/--
Holdings stay sound if each grant comes from one held before, over no larger
area and with the same or other allowed rights, and no two from the same one.
-/
theorem Sound.of_origin
    (sound : Sound policy held)
    (origin : Holder → Holder)
    (comesFrom :
      ∀ holder grant,
        after holder = some grant →
        ∃ old,
          held (origin holder) = some old ∧
            grant.area ⊆ old.area ∧
            (grant.rights = old.rights ∨ policy grant.rights))
    (unique :
      ∀ first second grant other,
        after first = some grant →
        after second = some other →
        origin first = origin second →
        first = second) :
    Sound policy after where
  disjoint first second grant other apart holds otherHolds := by
    obtain ⟨old, oldHolds, within, -⟩ := comesFrom _ _ holds
    obtain ⟨otherOld, otherOldHolds, otherWithin, -⟩ :=
      comesFrom _ _ otherHolds
    have originsApart : origin first ≠ origin second :=
      fun same => apart (unique _ _ _ _ holds otherHolds same)
    exact (sound.disjoint _ _ _ _ originsApart oldHolds otherOldHolds).mono
      within otherWithin
  allowed holder grant holds := by
    obtain ⟨old, oldHolds, -, sameRights | isAllowed⟩ := comesFrom _ _ holds
    · rw [sameRights]
      exact sound.allowed _ _ oldHolds
    · exact isAllowed

/-- Holdings that are part of sound ones are sound. -/
theorem Sound.comap
    {Place : Type*}
    {atPlace : Place → Option (Grant Resource Right)}
    (sound : Sound policy held)
    (holder : Place → Holder)
    (comesFrom :
      ∀ place grant, atPlace place = some grant →
        held (holder place) = some grant)
    (unique :
      ∀ first second grant other,
        atPlace first = some grant →
        atPlace second = some other →
        holder first = holder second →
        first = second) :
    Sound policy atPlace where
  disjoint _ _ _ _ apart holds otherHolds :=
    sound.disjoint _ _ _ _
      (fun same => apart (unique _ _ _ _ holds otherHolds same))
      (comesFrom _ _ holds) (comesFrom _ _ otherHolds)
  allowed _ _ holds := sound.allowed _ _ (comesFrom _ _ holds)

section Changes

variable [DecidableEq Holder]

/-- The grant of `src` goes to `dst`, which loses the one it had. -/
def handOver
    (held : Holder → Option (Grant Resource Right))
    (src dst : Holder) :
    Holder → Option (Grant Resource Right) :=
  Function.update (Function.update held src none) dst (held src)

/-- A grant that is handed over stays as good. -/
theorem Sound.handOver
    (sound : Sound policy held)
    {src dst : Holder}
    (apart : src ≠ dst) :
    Sound policy (Holdings.handOver held src dst) := by
  have atSrc : Holdings.handOver held src dst src = none := by
    simp [Holdings.handOver, apart]
  have atDst : Holdings.handOver held src dst dst = held src := by
    simp [Holdings.handOver]
  have elsewhere
      {holder : Holder}
      (notSrc : holder ≠ src)
      (notDst : holder ≠ dst) :
      Holdings.handOver held src dst holder = held holder := by
    simp [Holdings.handOver, notSrc, notDst]
  refine sound.of_origin (fun holder => if holder = dst then src else holder)
    ?_ ?_
  · intro holder grant holds
    refine ⟨grant, ?_, subset_rfl, Or.inl rfl⟩
    by_cases isDst : holder = dst
    · subst isDst
      rw [if_pos rfl, ← atDst]
      exact holds
    · by_cases isSrc : holder = src
      · subst isSrc
        rw [atSrc] at holds
        cases holds
      · rw [if_neg isDst, ← elsewhere isSrc isDst]
        exact holds
  · intro first second grant other holds otherHolds same
    have notSrc
        {holder : Holder}
        {grant : Grant Resource Right}
        (holds : Holdings.handOver held src dst holder = some grant) :
        holder ≠ src := by
      rintro rfl
      rw [atSrc] at holds
      cases holds
    by_cases firstIsDst : first = dst
    · by_cases secondIsDst : second = dst
      · rw [firstIsDst, secondIsDst]
      · simp only [if_pos firstIsDst, if_neg secondIsDst] at same
        exact absurd same.symm (notSrc otherHolds)
    · by_cases secondIsDst : second = dst
      · simp only [if_neg firstIsDst, if_pos secondIsDst] at same
        exact absurd same (notSrc holds)
      · simpa only [if_neg firstIsDst, if_neg secondIsDst] using same

/-- A holder gets a new grant, apart from everything that others hold. -/
theorem Sound.install
    (sound : Sound policy held)
    {holder : Holder}
    {new : Grant Resource Right}
    (isAllowed : policy new.rights)
    (apart :
      ∀ other grant, other ≠ holder → held other = some grant →
        Disjoint new.area grant.area) :
    Sound policy (Function.update held holder (some new)) where
  disjoint first second grant other firstNotSecond holds otherHolds := by
    by_cases firstIsHolder : first = holder
    · subst firstIsHolder
      rw [Function.update_self] at holds
      rw [Function.update_of_ne firstNotSecond.symm] at otherHolds
      cases holds
      exact apart second other firstNotSecond.symm otherHolds
    · rw [Function.update_of_ne firstIsHolder] at holds
      by_cases secondIsHolder : second = holder
      · subst secondIsHolder
        rw [Function.update_self] at otherHolds
        cases otherHolds
        exact (apart first grant firstIsHolder holds).symm
      · rw [Function.update_of_ne secondIsHolder] at otherHolds
        exact sound.disjoint _ _ _ _ firstNotSecond holds otherHolds
  allowed other grant holds := by
    by_cases isHolder : other = holder
    · subst isHolder
      rw [Function.update_self] at holds
      cases holds
      exact isAllowed
    · rw [Function.update_of_ne isHolder] at holds
      exact sound.allowed other grant holds

/-- A holder gets another grant over no larger area, or none. -/
theorem Sound.replace
    (sound : Sound policy held)
    {holder : Holder}
    {new : Option (Grant Resource Right)}
    (comesFrom :
      ∀ grant,
        new = some grant →
        ∃ old,
          held holder = some old ∧
            grant.area ⊆ old.area ∧
            (grant.rights = old.rights ∨ policy grant.rights)) :
    Sound policy (Function.update held holder new) := by
  refine sound.of_origin id ?_ fun _ _ _ _ _ _ same => same
  intro other grant holds
  by_cases isHolder : other = holder
  · subst isHolder
    rw [Function.update_self] at holds
    exact comesFrom grant holds
  · rw [Function.update_of_ne isHolder] at holds
    exact ⟨grant, holds, subset_rfl, Or.inl rfl⟩

end Changes

/--
Every grant comes from one held before, no two from the same one; it is the
same grant, or one that it was changed to.
-/
def Descends
    (changed : Grant Resource Right → Grant Resource Right → Prop)
    (held after : Holder → Option (Grant Resource Right)) :
    Prop :=
  ∃ origin : Holder → Holder,
    (∀ holder grant,
      after holder = some grant →
      ∃ old,
        held (origin holder) = some old ∧ (grant = old ∨ changed old grant)) ∧
    ∀ first second grant other,
      after first = some grant →
      after second = some other →
      origin first = origin second →
      first = second

section Descent

variable {changed : Grant Resource Right → Grant Resource Right → Prop}

/-- Nothing has happened. -/
theorem Descends.refl : Descends changed held held :=
  ⟨id, fun _ grant holds => ⟨grant, holds, Or.inl rfl⟩,
    fun _ _ _ _ _ _ same => same⟩

/-- What is a change of a kind is a change of every wider kind. -/
theorem Descends.mono
    {wider : Grant Resource Right → Grant Resource Right → Prop}
    (descends : Descends changed held after)
    (weaker : ∀ old grant, changed old grant → wider old grant) :
    Descends wider held after := by
  obtain ⟨origin, comesFrom, unique⟩ := descends
  refine ⟨origin, fun holder grant holds => ?_, unique⟩
  obtain ⟨old, oldHolds, same | isChanged⟩ := comesFrom holder grant holds
  · exact ⟨old, oldHolds, Or.inl same⟩
  · exact ⟨old, oldHolds, Or.inr (weaker old grant isChanged)⟩

/-- Every holder has kept its grant or lost it. -/
theorem Descends.of_fewer
    (fewer : ∀ holder grant, after holder = some grant →
      held holder = some grant) :
    Descends changed held after :=
  ⟨id, fun holder grant holds => ⟨grant, fewer holder grant holds, Or.inl rfl⟩,
    fun _ _ _ _ _ _ same => same⟩

/-- Changes that stay in the area and follow the policy keep holdings sound. -/
theorem Descends.sound
    (descends : Descends changed held after)
    (within : ∀ old grant, changed old grant → grant.area ⊆ old.area)
    (follows : ∀ old grant, changed old grant → policy grant.rights)
    (sound : Sound policy held) :
    Sound policy after := by
  obtain ⟨origin, comesFrom, unique⟩ := descends
  refine sound.of_origin origin (fun holder grant holds => ?_) unique
  obtain ⟨old, oldHolds, rfl | isChanged⟩ := comesFrom holder grant holds
  · exact ⟨grant, oldHolds, subset_rfl, Or.inl rfl⟩
  · exact ⟨old, oldHolds, within old grant isChanged,
      Or.inr (follows old grant isChanged)⟩

variable [DecidableEq Holder]

/-- What is handed over comes from where it was. -/
theorem descends_handOver
    {src dst : Holder}
    (apart : src ≠ dst) :
    Descends changed held (handOver held src dst) := by
  have fromWhere
      {holder : Holder}
      {grant : Grant Resource Right}
      (holds : handOver held src dst holder = some grant) :
      holder ≠ src ∧
        held (if holder = dst then src else holder) = some grant := by
    by_cases isDst : holder = dst
    · subst isDst
      rw [handOver, Function.update_self] at holds
      exact ⟨apart.symm, by rwa [if_pos rfl]⟩
    · rw [handOver, Function.update_of_ne isDst] at holds
      by_cases isSrc : holder = src
      · rw [isSrc, Function.update_self] at holds
        cases holds
      · rw [Function.update_of_ne isSrc] at holds
        exact ⟨isSrc, by rwa [if_neg isDst]⟩
  refine ⟨fun holder => if holder = dst then src else holder,
    fun holder grant holds => ⟨grant, (fromWhere holds).2, Or.inl rfl⟩,
    fun first second _ _ holds otherHolds same => ?_⟩
  have notSrc := (fromWhere holds).1
  have otherNotSrc := (fromWhere otherHolds).1
  dsimp only at same
  split at same
  · next isDst =>
    split at same
    · next otherIsDst =>
      rw [isDst, otherIsDst]
    · exact absurd same.symm otherNotSrc
  · split at same
    · exact absurd same notSrc
    · exact same

/-- One holder's grant stays, is changed, or is dropped. -/
theorem descends_update
    {holder : Holder}
    {new : Option (Grant Resource Right)}
    (comesFrom :
      ∀ grant,
        new = some grant →
        ∃ old, held holder = some old ∧ (grant = old ∨ changed old grant)) :
    Descends changed held (Function.update held holder new) := by
  refine ⟨id, fun other grant holds => ?_, fun _ _ _ _ _ _ same => same⟩
  by_cases isHolder : other = holder
  · subst isHolder
    rw [Function.update_self] at holds
    exact comesFrom grant holds
  · rw [Function.update_of_ne isHolder] at holds
    exact ⟨grant, holds, Or.inl rfl⟩

end Descent

end Holdings
