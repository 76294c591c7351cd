import S3kMonitor.Delivery
import S3kMonitor.HeaderGrants

namespace S3kMonitor

/-!
# The memory of the app

`setup_app` computes regions from the words of the header and does not compare
them with the memory of the app.  The app stays inside exactly when each
section does.
-/

/-- The memory of the app. -/
def appRegion : Set Word :=
  region appBase (appBase + appSize)

/-- The registers of the UART. -/
def uartRegion : Set Word :=
  region uartBase (uartBase + 0x100)

/--
For its sections the app gets regions in its memory only, and by the end of
`setup` the page of the UART besides.
-/
structure ConfinesApp (stack : Process) (image : AppBin) : Prop where
  sections :
    ∀ s3k fuel kernel mem, Booted kernel →
      ∀ slot addr cfg,
        (afterSections s3k fuel stack image kernel mem).kernel.table appPid
            slot = .pmp addr cfg →
        region (s3kPmpNapotBegin addr) (s3kPmpNapotEnd addr) ⊆ appRegion
  final :
    ∀ s3k fuel hello kernel mem, Booted kernel →
      ∀ slot addr cfg,
        (setup s3k fuel stack image hello kernel mem).2.world.kernel.table
            appPid slot = .pmp addr cfg →
        region (s3kPmpNapotBegin addr) (s3kPmpNapotEnd addr) ⊆ appRegion ∨
          region (s3kPmpNapotBegin addr) (s3kPmpNapotEnd addr) = uartRegion

/-- Counted from `APP_BASE`, the region ends within the memory of the app. -/
def PmpGrant.FitsApp (grant : PmpGrant) : Prop :=
  (grant.start - appBase).toNat + (grant.stop - grant.start).toNat ≤
    appSize.toNat

instance (grant : PmpGrant) : Decidable grant.FitsApp :=
  inferInstanceAs (Decidable (_ ≤ _))

section Regions

variable
  {grant : PmpGrant}
  {addr cfg : Word}

/-- A capability for a grant is over its region. -/
theorem Replaces.region_eq
    (replaces : Replaces grant.start grant.stop grant.rwx addr cfg) :
    region (s3kPmpNapotBegin addr) (s3kPmpNapotEnd addr) =
      region grant.start grant.stop := by
  obtain ⟨napot, rfl, -⟩ := replaces
  rw [← napot.1, ← napot.2]

/-- The region of a grant lies in the app if its ends do. -/
theorem PmpGrant.region_subset_iff
    (napot : Napot grant.start grant.stop) :
    region grant.start grant.stop ⊆ appRegion ↔ grant.FitsApp := by
  have nonempty := napot.start_le
  rw [appRegion, S3kMonitor.region_subset_iff nonempty, PmpGrant.FitsApp,
    appBase, appSize]
  constructor
  · rintro ⟨startLe, stopLe⟩
    bv_omega
  · intro fits
    constructor
    · bv_omega
    · bv_omega

end Regions

section Confines

variable
  {stack : Process}
  {image : AppBin}

/-- What the delivering kernel hands out has to fit. -/
theorem ConfinesApp.fits
    (confines : ConfinesApp stack image)
    {grant : PmpGrant}
    (member : grant ∈ reachedGrants (imageSections stack image))
    (napot : Napot grant.start grant.stop) :
    grant.FitsApp := by
  obtain ⟨slot, delivered⟩ := afterSections_delivers (fun _ => 0) member
  rw [PmpGrant.delivered, if_pos napot] at delivered
  have inside :=
    confines.sections delivering 3 deliveryKernel (fun _ => 0)
      deliveryKernel_booted slot _ _ delivered
  rw [← napot.1, ← napot.2] at inside
  exact (PmpGrant.region_subset_iff napot).mp inside

/--
The app is confined to its memory exactly when every section, and every heap
chunk that is handed out, ends within it.
-/
theorem confinesApp_iff
    (accepts : Accepts image) :
    ConfinesApp stack image ↔
      ∀ grant ∈ reachedGrants (imageSections stack image),
        Napot grant.start grant.stop → grant.FitsApp := by
  constructor
  · intro confines grant member napot
    exact confines.fits member napot
  · intro allFit
    have inside
        {grant : PmpGrant}
        {addr cfg : Word}
        (member : grant ∈ reachedGrants (imageSections stack image))
        (replaces : Replaces grant.start grant.stop grant.rwx addr cfg) :
        region (s3kPmpNapotBegin addr) (s3kPmpNapotEnd addr) ⊆ appRegion := by
      rw [replaces.region_eq]
      exact (PmpGrant.region_subset_iff replaces.1).mpr
        (allFit grant member replaces.1)
    constructor
    · intro s3k fuel kernel mem booted slot addr cfg holds
      obtain ⟨grant, member, replaces⟩ :=
        (afterSections_handedOut s3k fuel stack image mem booted).app slot
          addr cfg holds
      exact inside member replaces
    · intro s3k fuel hello kernel mem booted slot addr cfg holds
      obtain ⟨grant, isGrant, replaces⟩ :=
        (setup_handedOut s3k fuel stack image hello mem booted accepts).app
          slot addr cfg holds
      rcases isGrant with member | ⟨rfl, -⟩
      · exact Or.inl (inside member replaces)
      · exact Or.inr replaces.region_eq

/-- The first section of the demo app stays in the memory of the app. -/
theorem textInfo_confined :
    ConfinesApp blankStack (writtenImage [textInfo]) := by
  refine (confinesApp_iff (writtenImage_accepts _)).mpr ?_
  rw [reachedGrants_congr
    (imageSections_written (by decide) (writtenImage_bytes _) blankStack)]
  decide

/-- A writable section of a page, right behind the memory of the app. -/
def outsideInfo : SectionInfo where
  name := [0x2e, 0x64, 0x61, 0x74, 0x61]
  addr := 0x10000
  size := 0x1000
  permissions := 3
  name_ne_nil := by decide
  name_length_le := by decide
  name_ascii := by decide
  addr_lt := by decide
  size_lt := by decide
  permissions_lt := by decide

/-- An image whose section lies outside is accepted and not confined. -/
theorem outsideInfo_not_confined :
    ¬ ∀ (stack : Process) (image : AppBin),
        Accepts image → ConfinesApp stack image := by
  intro always
  have confines :=
    always blankStack (writtenImage [outsideInfo]) (writtenImage_accepts _)
  have member :
      outsideInfo.toSection.grant ∈
        reachedGrants
          (imageSections blankStack (writtenImage [outsideInfo])) := by
    rw [reachedGrants_congr
      (imageSections_written (by decide) (writtenImage_bytes _) blankStack)]
    decide
  have fits := confines.fits member (by decide)
  exact absurd fits (by decide)

end Confines

end S3kMonitor
