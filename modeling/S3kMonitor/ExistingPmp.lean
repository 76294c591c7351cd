import S3kMonitor.TrapRequests

namespace S3kMonitor

/-!
# The search for the capability of a region

`capman_find_existing_pmp` passes over a slot only if both ends of its region
differ from those asked for.  So it stops at the first slot that shares one
end, which hides the right slot behind it.
-/

/-- A PMP capability for exactly this region. -/
def Cap.IsPmpOf (start stop : Word) : Cap → Prop
  | .pmp addr _ =>
      s3kPmpNapotBegin addr = start ∧ s3kPmpNapotEnd addr = stop
  | _ => False

/-- A PMP capability for a region with the same first or last address. -/
def Cap.SharesEnd (start stop : Word) : Cap → Prop
  | .pmp addr _ =>
      s3kPmpNapotBegin addr = start ∨ s3kPmpNapotEnd addr = stop
  | _ => False

theorem Cap.IsPmpOf.sharesEnd
    {start stop : Word}
    {cap : Cap}
    (isPmpOf : cap.IsPmpOf start stop) :
    cap.SharesEnd start stop := by
  cases cap with
  | pmp addr cfg =>
      exact Or.inl isPmpOf.1
  | _ =>
      exact isPmpOf

/-- Two regions that share an end with one capability share one. -/
theorem Cap.IsPmpOf.shared
    {start stop otherStart otherStop : Word}
    {cap : Cap}
    (isPmpOf : cap.IsPmpOf start stop)
    (shares : cap.SharesEnd otherStart otherStop) :
    start = otherStart ∨ stop = otherStop := by
  cases cap with
  | pmp addr cfg =>
      obtain ⟨rfl, rfl⟩ := isPmpOf
      exact shares
  | _ =>
      exact isPmpOf.elim

section Search

variable
  (caps : Nat → Cap)
  (start stop : Word)

/--
The search returns a slot with exactly the region, or -1 if there is none, and
no request of the trap handler for this region attaches another capability.
-/
structure FindsExactly : Prop where
  found :
    ∀ slot : Nat,
      capmanFindExistingPmp caps start stop = slot →
      slot < ncap ∧ (caps slot).IsPmpOf start stop
  missing :
    capmanFindExistingPmp caps start stop = -1 ↔
      ∀ slot < ncap, ¬ (caps slot).IsPmpOf start stop
  requests :
    ∀ link reply (app : App) call i,
      app.caps = caps →
      app.altmem.ChunkAt (app.faultAddr link) i →
      (app.altmem.chunks i).start = start →
      (app.altmem.chunks i).stop = stop →
      app.Asks (trapHandler link reply app) call →
      call.idx < ncap →
      (caps call.idx).IsPmpOf start stop

/-- A slot that shares an end has the region, or a slot with it in front. -/
def NoneHides : Prop :=
  ∀ slot < ncap,
    (caps slot).SharesEnd start stop →
    ∃ earlier ≤ slot, (caps earlier).IsPmpOf start stop

/-- The search stops at the first slot that shares an end. -/
theorem capmanFindExistingPmp_cases :
    (∃ slot < ncap,
      (caps slot).SharesEnd start stop ∧
        (∀ earlier < slot, ¬ (caps earlier).SharesEnd start stop) ∧
        capmanFindExistingPmp caps start stop = slot) ∨
    capmanFindExistingPmp caps start stop = -1 ∧
      ∀ slot < ncap, ¬ (caps slot).SharesEnd start stop := by
  let passes (slot : Nat) : Bool :=
    match caps slot with
    | .pmp addr _ =>
        decide
          (¬ (s3kPmpNapotBegin addr ≠ start ∧ s3kPmpNapotEnd addr ≠ stop))
    | _ => false
  have test (slot : Nat) :
      passes slot = true ↔ (caps slot).SharesEnd start stop := by
    simp only [passes]
    cases caps slot with
    | pmp addr cfg =>
        simp only [decide_eq_true_eq, Cap.SharesEnd]
        tauto
    | _ =>
        simp [Cap.SharesEnd]
  rcases firstSlot_range_cases passes ncap with
    ⟨slot, inRange, shares, first, found⟩ | ⟨notFound, nonePasses⟩
  · refine Or.inl ⟨slot, inRange, (test slot).mp shares, ?_, found⟩
    intro earlier before sharesEarlier
    exact Bool.false_ne_true
      ((first earlier before).symm.trans
        ((test earlier).mpr sharesEarlier))
  · refine Or.inr ⟨notFound, fun slot inRange shares => ?_⟩
    exact Bool.false_ne_true
      ((nonePasses slot inRange).symm.trans ((test slot).mpr shares))

/-- The search sees nothing of a capability but the ends of its region. -/
theorem capmanFindExistingPmp_congr
    {other : Nat → Cap}
    (same :
      ∀ slot < ncap,
        (other slot).SharesEnd start stop ↔ (caps slot).SharesEnd start stop) :
    capmanFindExistingPmp other start stop =
      capmanFindExistingPmp caps start stop := by
  rcases capmanFindExistingPmp_cases caps start stop with
    ⟨slot, inRange, shares, first, found⟩ | ⟨notFound, noneShares⟩
  · rcases capmanFindExistingPmp_cases other start stop with
      ⟨otherSlot, otherInRange, otherShares, otherFirst, otherFound⟩ |
      ⟨-, noneShares⟩
    · have notBefore : ¬ slot < otherSlot := fun before =>
        otherFirst slot before ((same slot inRange).mpr shares)
      have notBehind : ¬ otherSlot < slot := fun before =>
        first otherSlot before ((same otherSlot otherInRange).mp otherShares)
      omega
    · exact absurd ((same slot inRange).mpr shares) (noneShares slot inRange)
  · rcases capmanFindExistingPmp_cases other start stop with
      ⟨otherSlot, otherInRange, otherShares, -, -⟩ | ⟨otherNotFound, -⟩
    · exact absurd ((same otherSlot otherInRange).mp otherShares)
        (noneShares otherSlot otherInRange)
    · rw [otherNotFound, notFound]

variable {caps start stop}

/-- If nothing hides the region, the search finds its slot or there is none. -/
theorem NoneHides.search
    (noneHides : NoneHides caps start stop) :
    (∃ slot < ncap,
      (caps slot).IsPmpOf start stop ∧
        capmanFindExistingPmp caps start stop = slot) ∨
    capmanFindExistingPmp caps start stop = -1 ∧
      ∀ slot < ncap, ¬ (caps slot).IsPmpOf start stop := by
  rcases capmanFindExistingPmp_cases caps start stop with
    ⟨slot, inRange, shares, first, found⟩ | ⟨notFound, noneShares⟩
  · obtain ⟨earlier, before, isPmpOf⟩ := noneHides slot inRange shares
    have same : earlier = slot := by
      by_contra apart
      exact first earlier (by omega) isPmpOf.sharesEnd
    exact Or.inl ⟨slot, inRange, same ▸ isPmpOf, found⟩
  · exact Or.inr
      ⟨notFound, fun slot inRange isPmpOf =>
        noneShares slot inRange isPmpOf.sharesEnd⟩

/-- A search whose result is right has met nothing that hides the region. -/
theorem noneHides_of_found
    (right :
      ∀ slot : Nat,
        capmanFindExistingPmp caps start stop = slot →
        slot < ncap →
        (caps slot).IsPmpOf start stop) :
    NoneHides caps start stop := by
  intro slot inRange shares
  rcases capmanFindExistingPmp_cases caps start stop with
    ⟨foundSlot, foundInRange, -, first, found⟩ | ⟨-, noneShares⟩
  · refine ⟨foundSlot, ?_, right foundSlot found foundInRange⟩
    by_contra later
    exact first slot (by omega) shares
  · exact absurd shares (noneShares slot inRange)

end Search

namespace App

variable
  {app : App}
  {i : Nat}

/-- The slot for a chunk is right, or names no capability. -/
theorem chunkSlot_isPmpOf
    (noneHides :
      NoneHides app.caps (app.altmem.chunks i).start
        (app.altmem.chunks i).stop)
    (inRange : app.chunkSlot i < ncap) :
    (app.caps (app.chunkSlot i)).IsPmpOf (app.altmem.chunks i).start
      (app.altmem.chunks i).stop := by
  rcases noneHides.search with
    ⟨slot, slotInRange, isPmpOf, found⟩ | ⟨notFound, -⟩
  · rw [chunkSlot, found, toIndex_slot slotInRange]
    exact isPmpOf
  · rw [chunkSlot, notFound] at inRange
    exact absurd inRange (by decide)

/-- Whatever slot the search returns for a chunk, it shares an end with it. -/
theorem chunkSlot_sharesEnd
    (inRange : app.chunkSlot i < ncap) :
    (app.caps (app.chunkSlot i)).SharesEnd (app.altmem.chunks i).start
      (app.altmem.chunks i).stop := by
  rcases capmanFindExistingPmp_cases app.caps (app.altmem.chunks i).start
      (app.altmem.chunks i).stop with
    ⟨slot, slotInRange, shares, -, found⟩ | ⟨notFound, -⟩
  · rw [chunkSlot, found, toIndex_slot slotInRange]
    exact shares
  · rw [chunkSlot, notFound] at inRange
    exact absurd inRange (by decide)

/-- And if it is right, nothing has hidden the capability. -/
theorem noneHides_of_chunkSlot
    (right :
      app.chunkSlot i < ncap →
      (app.caps (app.chunkSlot i)).IsPmpOf (app.altmem.chunks i).start
        (app.altmem.chunks i).stop) :
    NoneHides app.caps (app.altmem.chunks i).start
      (app.altmem.chunks i).stop := by
  apply noneHides_of_found
  intro slot found inRange
  have slotEq : app.chunkSlot i = slot := by
    rw [chunkSlot, found, toIndex_slot inRange]
  rw [slotEq] at right
  exact right inRange

end App

/--
The search is exact if and only if the first slot that shares an end with the
region, when there is one, has the region.
-/
theorem capmanFindExistingPmp_exact_iff
    (caps : Nat → Cap)
    (start stop : Word) :
    FindsExactly caps start stop ↔ NoneHides caps start stop := by
  constructor
  · intro exactly
    exact noneHides_of_found fun slot found _ => (exactly.found slot found).2
  · intro noneHides
    constructor
    case found =>
      intro slot found
      rcases noneHides.search with
        ⟨other, inRange, isPmpOf, foundOther⟩ | ⟨notFound, -⟩
      · have same : slot = other := by
          omega
        exact same ▸ ⟨inRange, isPmpOf⟩
      · omega
    case missing =>
      rcases noneHides.search with
        ⟨slot, inRange, isPmpOf, found⟩ | ⟨notFound, none⟩
      · constructor
        · intro notFound
          omega
        · intro none
          exact absurd isPmpOf (none slot inRange)
      · exact ⟨fun _ => none, fun _ => notFound⟩
    case requests =>
      rintro link reply app call i rfl chunkAt rfl rfl asks inRange
      obtain ⟨j, sameChunk, slotEq⟩ := trapHandler_asks asks
      obtain rfl := sameChunk.unique chunkAt
      rw [slotEq] at inRange ⊢
      exact App.chunkSlot_isPmpOf noneHides inRange

/-- The first chunk of a heap behind a region that begins at the same address. -/
def hiddenCaps : Nat → Cap
  | 0 => .pmp (s3kPmpNapotAddr 0x80028000 0x8002A000) 0x1
  | 1 => .pmp (s3kPmpNapotAddr 0x80028000 0x80029000) 0x1
  | _ => .none

theorem hiddenCaps_found_wrongly :
    ¬ ∀ caps start stop, FindsExactly caps start stop := by
  intro always
  have found :=
    (always hiddenCaps 0x80028000 0x80029000).found 0 (by decide +kernel)
  have other : s3kPmpNapotEnd (s3kPmpNapotAddr 0x80028000 0x8002A000) ≠
      (0x80029000 : Word) := by
    decide
  exact other found.2.2

end S3kMonitor
