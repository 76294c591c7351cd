import S3kMonitor.Confinement

namespace S3kMonitor

/-!
# The rights that the app starts with

`setup_app` takes the rights of a section from the header as they are.  So
write xor execute holds after `setup` exactly when the header asks for
nothing else.
-/

/--
No capability of the app has both `W` and `X`, and of two that overlap not one
has `W` and the other one `X`.
-/
structure AppWriteXorExecute (kernel : Kernel) : Prop where
  notBoth :
    ∀ slot addr cfg, kernel.table appPid slot = .pmp addr cfg →
      ¬ (cfg &&& 0x2 ≠ 0 ∧ cfg &&& 0x4 ≠ 0)
  apart :
    ∀ slot other addr cfg otherAddr otherCfg,
      slot ≠ other →
      kernel.table appPid slot = .pmp addr cfg →
      kernel.table appPid other = .pmp otherAddr otherCfg →
      ¬ Disjoint (region (s3kPmpNapotBegin addr) (s3kPmpNapotEnd addr))
        (region (s3kPmpNapotBegin otherAddr) (s3kPmpNapotEnd otherAddr)) →
      ¬ (cfg &&& 0x2 ≠ 0 ∧ otherCfg &&& 0x4 ≠ 0)

/-- So it is when `setup_app` is done, and still at the end of `setup`. -/
structure SetupWriteXorExecute (stack : Process) (image : AppBin) :
    Prop where
  setupApp :
    ∀ s3k fuel kernel mem, Booted kernel →
      AppWriteXorExecute
        (afterSetupApp s3k fuel stack image kernel mem).kernel
  final :
    ∀ s3k fuel hello kernel mem, Booted kernel →
      AppWriteXorExecute
        (setup s3k fuel stack image hello kernel mem).2.world.kernel

/-- Both regions can be derived, they overlap, and one has `W`, the other `X`. -/
structure PmpGrant.Conflicts (writable executable : PmpGrant) : Prop where
  napot : Napot writable.start writable.stop
  otherNapot : Napot executable.start executable.stop
  overlap :
    writable.start ≤ executable.stop - 1 ∧
      executable.start ≤ writable.stop - 1
  hasW : writable.rwx &&& 0x2 ≠ 0
  hasX : executable.rwx &&& 0x4 ≠ 0

theorem PmpGrant.conflicts_iff (writable executable : PmpGrant) :
    writable.Conflicts executable ↔
      Napot writable.start writable.stop ∧
      Napot executable.start executable.stop ∧
      (writable.start ≤ executable.stop - 1 ∧
        executable.start ≤ writable.stop - 1) ∧
      writable.rwx &&& 0x2 ≠ 0 ∧ executable.rwx &&& 0x4 ≠ 0 :=
  ⟨fun ⟨napot, otherNapot, overlap, hasW, hasX⟩ =>
      ⟨napot, otherNapot, overlap, hasW, hasX⟩,
    fun ⟨napot, otherNapot, overlap, hasW, hasX⟩ =>
      ⟨napot, otherNapot, overlap, hasW, hasX⟩⟩

instance (writable executable : PmpGrant) :
    Decidable (writable.Conflicts executable) :=
  decidable_of_iff _ (writable.conflicts_iff executable).symm

section Rights

variable {grants : PmpGrant → Prop}

/-- Grants without a conflict lead to capabilities without one. -/
theorem HandedOut.writeXorExecute
    {kernel : Kernel}
    (handedOut : HandedOut grants kernel)
    (noConflict :
      ∀ writable executable,
        grants writable → grants executable →
        ¬ writable.Conflicts executable) :
    AppWriteXorExecute kernel := by
  constructor
  · intro slot addr cfg holds both
    obtain ⟨grant, isGrant, napot, -, rights⟩ :=
      handedOut.app slot addr cfg holds
    rw [rights_of_low_bits rights (by decide),
      rights_of_low_bits rights (by decide)] at both
    exact noConflict grant grant isGrant isGrant
      ⟨napot, napot, ⟨napot.start_le, napot.start_le⟩, both.1, both.2⟩
  · intro slot other addr cfg otherAddr otherCfg _ holds otherHolds meets both
    obtain ⟨grant, isGrant, replaces⟩ := handedOut.app slot addr cfg holds
    obtain ⟨otherGrant, otherIsGrant, otherReplaces⟩ :=
      handedOut.app other otherAddr otherCfg otherHolds
    rw [replaces.region_eq, otherReplaces.region_eq,
      not_disjoint_region_iff replaces.1.start_le otherReplaces.1.start_le]
      at meets
    rw [rights_of_low_bits replaces.2.2 (by decide),
      rights_of_low_bits otherReplaces.2.2 (by decide)] at both
    exact noConflict grant otherGrant isGrant otherIsGrant
      ⟨replaces.1, otherReplaces.1, meets, both.1, both.2⟩

variable
  {stack : Process}
  {image : AppBin}

/-- A conflict of two grants shows on the delivering kernel. -/
theorem SetupWriteXorExecute.noConflict
    (secure : SetupWriteXorExecute stack image)
    {writable executable : PmpGrant}
    (isGrant : AppGrant (imageSections stack image) writable)
    (otherIsGrant : AppGrant (imageSections stack image) executable) :
    ¬ writable.Conflicts executable := by
  rintro ⟨napot, otherNapot, overlap, hasW, hasX⟩
  obtain ⟨slot, delivered⟩ := afterSetupApp_delivers (fun _ => 0) isGrant
  obtain ⟨other, otherDelivered⟩ :=
    afterSetupApp_delivers (fun _ => 0) otherIsGrant
  rw [PmpGrant.delivered, if_pos napot] at delivered
  rw [PmpGrant.delivered, if_pos otherNapot] at otherDelivered
  obtain ⟨notBoth, apart⟩ :=
    secure.setupApp delivering 3 deliveryKernel (fun _ => 0)
      deliveryKernel_booted
  have keepsW : (writable.rwx &&& 7) &&& 0x2 ≠ 0 := by
    rw [BitVec.and_assoc]
    exact hasW
  have keepsX : (executable.rwx &&& 7) &&& 0x4 ≠ 0 := by
    rw [BitVec.and_assoc]
    exact hasX
  by_cases sameSlot : slot = other
  · subst sameSlot
    rw [delivered] at otherDelivered
    have sameRights := (Cap.pmp.inj otherDelivered).2
    rw [← sameRights] at keepsX
    exact notBoth slot _ _ delivered ⟨keepsW, keepsX⟩
  · refine apart slot other _ _ _ _ sameSlot delivered otherDelivered ?_
      ⟨keepsW, keepsX⟩
    rw [← napot.1, ← napot.2, ← otherNapot.1, ← otherNapot.2]
    exact (not_disjoint_region_iff napot.start_le otherNapot.start_le).mpr
      overlap

/--
`setup` establishes write xor execute exactly when no two of the capabilities
that it derives, one taken twice included, are in conflict.
-/
theorem setupWriteXorExecute_iff
    (accepts : Accepts image) :
    SetupWriteXorExecute stack image ↔
      ∀ writable executable,
        AppGrant (imageSections stack image) writable →
        AppGrant (imageSections stack image) executable →
        ¬ writable.Conflicts executable := by
  constructor
  · intro secure writable executable isGrant otherIsGrant
    exact secure.noConflict isGrant otherIsGrant
  · intro noConflict
    constructor
    · intro s3k fuel kernel mem booted
      exact (afterSetupApp_handedOut s3k fuel stack image mem
        booted).writeXorExecute noConflict
    · intro s3k fuel hello kernel mem booted
      exact (setup_handedOut s3k fuel stack image hello mem booted
        accepts).writeXorExecute noConflict

/-- Code and the page of the UART do not get in each other's way. -/
theorem textInfo_writeXorExecute :
    SetupWriteXorExecute blankStack (writtenImage [textInfo]) := by
  refine (setupWriteXorExecute_iff (writtenImage_accepts _)).mpr ?_
  intro writable executable isGrant otherIsGrant
  rw [appGrant_written (by decide) (writtenImage_bytes _)] at isGrant
  rw [appGrant_written (by decide) (writtenImage_bytes _)] at otherIsGrant
  have reached :
      reachedGrants ([textInfo].map SectionInfo.toSection) =
        [textInfo.toSection.grant] := by
    decide
  have grants
      {grant : PmpGrant}
      (isGrant : AppGrant ([textInfo].map SectionInfo.toSection) grant) :
      grant ∈ [textInfo.toSection.grant, uartGrant] := by
    rcases isGrant with member | ⟨rfl, -⟩
    · rw [reached] at member
      exact List.mem_append_left [uartGrant] member
    · exact List.mem_cons_of_mem _ List.mem_cons_self
  have all :
      ∀ writable ∈ [textInfo.toSection.grant, uartGrant],
        ∀ executable ∈ [textInfo.toSection.grant, uartGrant],
          ¬ writable.Conflicts executable := by
    decide
  exact all writable (grants isGrant) executable (grants otherIsGrant)

/-- A section of a page that asks for everything. -/
def rwxInfo : SectionInfo :=
  { outsideInfo with
    addr := 0
    permissions := 7
    addr_lt := textInfo.addr_lt
    permissions_lt := by decide }

theorem rwxInfo_not_writeXorExecute :
    ¬ ∀ (stack : Process) (image : AppBin),
        Accepts image → SetupWriteXorExecute stack image := by
  intro always
  have secure :=
    always blankStack (writtenImage [rwxInfo]) (writtenImage_accepts _)
  have isGrant :
      AppGrant (imageSections blankStack (writtenImage [rwxInfo]))
        rwxInfo.toSection.grant := by
    rw [appGrant_written (by decide) (writtenImage_bytes _)]
    exact Or.inl (by decide)
  exact secure.noConflict isGrant isGrant (by decide)

end Rights

end S3kMonitor
