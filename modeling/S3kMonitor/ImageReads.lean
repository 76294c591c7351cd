import S3kMonitor.CodeReads

namespace S3kMonitor

open ByteAreas Reading

/-!
# What `setup` reads of the image

`parse_executable`, `calc_sig` and `comp_sig` walk over the image, each with
its own idea of where it ends, and `load_app` copies what the length of the
image says.  None of them is told how long the image has to be.
-/

section Programs

/-- The loop over `j` that copies the name at `q`. -/
def readName (i q : Nat) :
    (remaining j : Nat) → (Nat → Byte) → Program Nat Byte (Nat → Byte)
  | 0, _, name => pure name
  | remaining + 1, j, name =>
      if i = 7 then
        pure (setAt name j 0)
      else
        .load (q + j) fun byte =>
          if byte = 0 then
            pure (setAt name j byte)
          else
            readName i q remaining (j + 1) (setAt name j byte)

/-- The section at word `p`. -/
def readEntry
    (i p : Nat)
    (name : Nat → Byte) :
    Program Nat Byte MemorySection := do
  let sectionName ← readName i (8 * p) 8 0 name
  let offset ← readWord (8 * (p + 1))
  let size ← readWord (8 * (p + 2))
  let rwx ← readWord (8 * (p + 3))
  pure { sectionName, offset, size, rwx := rwx.setWidth 8 }

/-- The loop over `i`. -/
def readSections :
    (remaining i p : Nat) → Process → Program Nat Byte Process
  | 0, _, _, proc => pure proc
  | remaining + 1, i, p, proc => do
      let word ← readWord (8 * p)
      if word = 0 then
        pure proc
      else do
        let entry ← readEntry i p (proc.header i).sectionName
        readSections remaining (i + 1) (p + 4)
          { proc with
            header := setAt proc.header i entry
            headerLen := proc.headerLen + 1 }

/-- `parse_executable`. -/
def readExecutable
    (stack : Process)
    (pid : Byte) :
    Program Nat Byte Process :=
  readSections 8 0 (signatureSize / 8)
    { stack with pid := pid, headerLen := 0 }

/--
`setup` up to the comparison of the signatures; the answer is missing where
C gives `calc_sig` no meaning.
-/
def readImage
    (stack : Process)
    (len : Word) :
    Program Nat Byte (Process × Option Int) := do
  let app ← readExecutable stack (BitVec.ofNat 8 appPid)
  let signature ←
    (readSig (toInt (len - BitVec.ofNat 64 signatureSize))).relocate
      fun offset => signatureSize + offset
  match signature with
  | none => pure (app, none)
  | some signature => do
      let given ← readBlock 0
      pure (app, some (compSig given signature))

/-- The places in the image that `load_app` reads, and where each byte goes. -/
def loadAppCopies (image : AppBin) : List (Nat × Word) :=
  (List.range (image.len - BitVec.ofNat 64 headerSize).toNat).map
    fun offset => (headerSize + offset, appBase + BitVec.ofNat 64 offset)

end Programs

section Results

variable (base : Nat → Byte)

/-- The loop with loads copies the name as the loop does. -/
theorem run_readName
    (i q remaining j : Nat)
    (name : Nat → Byte) :
    (readName i q remaining j name).run base =
      copyName i (fun index => base (q + index)) remaining j name := by
  induction remaining generalizing j name with
  | zero =>
      rfl
  | succ remaining inductionHypothesis =>
      have copied : setAt name j (base (q + j)) j = base (q + j) := by
        simp
      rw [readName, copyName]
      by_cases isLast : i = 7
      · rw [if_pos isLast, if_pos isLast, Program.run_pure]
      · rw [if_neg isLast, if_neg isLast, Program.run_load]
        simp only [copied]
        by_cases isEnd : base (q + j) = 0
        · rw [if_pos isEnd, if_pos isEnd, Program.run_pure]
        · rw [if_neg isEnd, if_neg isEnd, inductionHypothesis]

/-- An entry is read as the code reads it. -/
theorem run_readEntry (i p : Nat) (name : Nat → Byte) :
    (readEntry i p name).run base = readSection base i p name := by
  simp [readEntry, readSection, run_readName]

/-- The loop with loads reads the header as the loop does. -/
theorem run_readSections (remaining i p : Nat) (proc : Process) :
    (readSections remaining i p proc).run base =
      parseSections base remaining i p proc := by
  induction remaining generalizing i p proc with
  | zero =>
      rfl
  | succ remaining inductionHypothesis =>
      rw [readSections, parseSections, Program.run_bind, run_readWord]
      by_cases isEnd : loadWord base (8 * p) = 0
      · rw [if_pos isEnd, if_pos isEnd, Program.run_pure]
      · rw [if_neg isEnd, if_neg isEnd, Program.run_bind, run_readEntry,
          inductionHypothesis]

/-- The program computes what `setup` computes. -/
theorem run_readImage (stack : Process) (image : AppBin) :
    (readImage stack image.len).run image.get =
      (parseExecutable stack (BitVec.ofNat 8 appPid) image.get,
        (imageSignature image).map fun signature =>
          compSig (blockAt image.get 0) signature) := by
  have signature :
      calcSig (fun offset => image.get (signatureSize + offset))
          (toInt (image.len - BitVec.ofNat 64 signatureSize)) =
        imageSignature image :=
    rfl
  rw [readImage, Program.run_bind, Program.run_bind, Program.run_relocate,
    run_readSig, signature, readExecutable, run_readSections]
  cases imageSignature image with
  | none =>
      rfl
  | some signature =>
      simp [parseExecutable]

end Results

section Bounds

variable
  (base : Nat → Byte)
  {length : Nat}

/-- A word lies inside if its last byte does. -/
theorem readWord_inside_iff (offset : Nat) :
    (∀ address ∈ (readWord offset).loads base, address < length) ↔
      offset + 8 ≤ length := by
  simp only [loads_readWord, List.forall_mem_map, List.mem_range]
  constructor
  · intro inside
    have last := inside 7 (by decide)
    omega
  · intro fits index inRange
    omega

/-- A block lies inside if its last byte does. -/
theorem readBlock_inside_iff (offset : Nat) :
    (∀ address ∈ (readBlock offset).loads base, address < length) ↔
      offset + 16 ≤ length := by
  simp only [mem_loads_readBlock]
  constructor
  · intro inside
    have last := inside (offset + 15) (by omega)
    omega
  · rintro fits address ⟨_, below⟩
    omega

/-- A name is read within its word. -/
theorem mem_loads_readName
    {i q remaining j : Nat}
    {name : Nat → Byte}
    {address : Nat}
    (member : address ∈ (readName i q remaining j name).loads base) :
    address < q + j + remaining := by
  induction remaining generalizing j name with
  | zero =>
      cases member
  | succ remaining inductionHypothesis =>
      rw [readName] at member
      split at member
      · cases member
      · rw [Program.loads_load] at member
        rcases List.mem_cons.mp member with isFirst | later
        · omega
        · split at later
          · cases later
          · have below := inductionHypothesis later
            omega

/-- An entry whose first word is present lies inside if its last byte does. -/
theorem readEntry_inside_iff
    (i : Nat)
    {p : Nat}
    (name : Nat → Byte)
    (present : 8 * p + 8 ≤ length) :
    (∀ address ∈ (readEntry i p name).loads base, address < length) ↔
      8 * p + 32 ≤ length := by
  have nameInside :
      ∀ address ∈ (readName i (8 * p) 8 0 name).loads base,
        address < length := by
    intro address member
    have below := mem_loads_readName base member
    omega
  simp only [readEntry, Program.loads_bind, Program.loads_pure,
    List.append_nil, List.forall_mem_append, readWord_inside_iff]
  constructor
  · rintro ⟨-, -, -, last⟩
    omega
  · intro fits
    exact ⟨nameInside, by omega, by omega, by omega⟩

/--
The walk over the header stays inside if there is room for all sections, or a
zero word inside ends it.
-/
theorem readSections_inside_iff
    (remaining i : Nat)
    {p : Nat}
    (proc : Process)
    (room : 8 * p ≤ length) :
    (∀ address ∈ (readSections remaining i p proc).loads base,
        address < length) ↔
      8 * p + 32 * remaining ≤ length ∨
        ∃ k, k < remaining ∧ 8 * p + 32 * k + 8 ≤ length ∧
          loadWord base (8 * p + 32 * k) = 0 := by
  induction remaining generalizing i p proc with
  | zero =>
      exact iff_of_true (by simp [readSections]) (Or.inl room)
  | succ remaining inductionHypothesis =>
      simp only [readSections, Program.loads_bind, run_readWord,
        List.forall_mem_append, readWord_inside_iff]
      by_cases isEnd : loadWord base (8 * p) = 0
      · rw [if_pos isEnd]
        constructor
        · rintro ⟨present, -⟩
          exact Or.inr ⟨0, by omega, by omega, isEnd⟩
        · rintro (all | ⟨k, _, fits, _⟩)
          · exact ⟨by omega, by simp⟩
          · exact ⟨by omega, by simp⟩
      · rw [if_neg isEnd]
        simp only [Program.loads_bind, List.forall_mem_append]
        constructor
        · rintro ⟨present, entry, rest⟩
          rw [readEntry_inside_iff _ _ _ present] at entry
          rcases (inductionHypothesis (i + 1) _ (by omega)).mp rest with
            all | ⟨k, inRange, fits, isZero⟩
          · exact Or.inl (by omega)
          · refine Or.inr ⟨k + 1, by omega, by omega, ?_⟩
            rw [← isZero]
            congr 1
            omega
        · intro fits
          have later :
              8 * (p + 4) + 32 * remaining ≤ length ∨
                ∃ k, k < remaining ∧ 8 * (p + 4) + 32 * k + 8 ≤ length ∧
                  loadWord base (8 * (p + 4) + 32 * k) = 0 := by
            rcases fits with all | ⟨k, inRange, fits, isZero⟩
            · exact Or.inl (by omega)
            · cases k with
              | zero =>
                  exact absurd isZero isEnd
              | succ k =>
                  refine Or.inr ⟨k, by omega, by omega, ?_⟩
                  rw [← isZero]
                  congr 1
                  omega
          have next : 8 * (p + 4) ≤ length := by
            rcases later with all | ⟨k, _, fits, _⟩
            · omega
            · omega
          refine ⟨by omega, ?_, (inductionHypothesis (i + 1) _ next).mpr later⟩
          exact (readEntry_inside_iff _ _ _ (by omega)).mpr (by omega)

end Bounds

section Setup

/--
`setup` reads the signature, the header and the binary inside the image, copies
it inside the memory of the app, and computes no length that wraps around.
-/
structure SetupStaysInside (stack : Process) (image : AppBin) : Prop where
  /-- `app_bin_len - SIGNATURE_SIZE` does not wrap. -/
  signedLength : signatureSize ≤ image.len.toNat
  /-- The loop of `aes128_cbc_mac` has a meaning in C. -/
  defined : imageSignature image ≠ none
  reads :
    ∀ offset ∈ (readImage stack image.len).loads image.get,
      offset < image.bytes.length
  /-- `app_bin_len - HEADER_SIZE` does not wrap. -/
  binaryLength : Accepts image → headerSize ≤ image.len.toNat
  copies :
    Accepts image →
      ∀ copy ∈ loadAppCopies image,
        copy.1 < image.bytes.length ∧ copy.2 ∈ appRegion

/-- The image ends after eight sections or after the end of its header. -/
def HeaderInside (image : AppBin) : Prop :=
  16 + 32 * 8 ≤ image.bytes.length ∨
    ∃ k, k < 8 ∧ 16 + 32 * k + 8 ≤ image.bytes.length ∧
      loadWord image.get (16 + 32 * k) = 0

/-- The length of an image is a number of 64 bits. -/
theorem AppBin.toNat_len (image : AppBin) :
    image.len.toNat = image.bytes.length := by
  rw [AppBin.len, BitVec.toNat_ofNat, Nat.mod_eq_of_lt image.length_lt]

/-- With the image in memory, `load_app` does these copies in their order. -/
theorem loadApp_eq_copies
    {image : AppBin}
    {world : World}
    (holds :
      ∀ i < (image.len - BitVec.ofNat 64 headerSize).toNat,
        world.mem (image.address + BitVec.ofNat 64 (headerSize + i)) =
          image.get (headerSize + i)) :
    (loadApp image world).mem =
      (loadAppCopies image).foldl
        (fun mem copy =>
          Function.update mem copy.2
            (mem (image.address + BitVec.ofNat 64 copy.1)))
        world.mem := by
  have place (i : Nat) :
      image.address + BitVec.ofNat 64 (headerSize + i) =
        image.address + BitVec.ofNat 64 headerSize + BitVec.ofNat 64 i := by
    rw [BitVec.ofNat_add, BitVec.add_assoc]
  simp only [place] at holds
  simp only [loadApp, loadAppCopies, copyDistance, List.foldl_map, place]
  rw [forwardCopy_eq_copied world.mem appBase _ holds,
    copied_eq_foldl _ _ _ _ (BitVec.isLt _).le]

/-- `calc_sig` never reads more than it is told, except in the first block. -/
theorem sigReads_signedLen_le
    {image : AppBin}
    (long : signatureSize ≤ image.bytes.length) :
    sigReads (signedLen image) ≤ max 16 (image.bytes.length - 16) := by
  have bound := image.length_lt
  have narrowed := toInt_le_toNat (image.len - BitVec.ofNat 64 signatureSize)
  have signed :
      (image.len - BitVec.ofNat 64 signatureSize).toNat =
        image.bytes.length - 16 := by
    simp only [AppBin.len, signatureSize] at long ⊢
    bv_omega
  rw [signed] at narrowed
  simp only [sigReads, cbcMacRounds, signedLen] at narrowed ⊢
  omega

/-- The reads of `setup` stay inside if the header and one block do. -/
theorem readImage_inside_iff
    (stack : Process)
    {image : AppBin}
    (long : signatureSize ≤ image.bytes.length)
    (defined : imageSignature image ≠ none) :
    (∀ offset ∈ (readImage stack image.len).loads image.get,
        offset < image.bytes.length) ↔
      HeaderInside image ∧ 32 ≤ image.bytes.length := by
  have atMost := sigReads_signedLen_le long
  have atLeast : 16 ≤ sigReads (signedLen image) :=
    Nat.le_max_left _ _
  have isSigned :
      toInt (image.len - BitVec.ofNat 64 signatureSize) = signedLen image :=
    rfl
  have computed :
      calcSig (fun offset => image.get (signatureSize + offset))
          (signedLen image) =
        imageSignature image :=
    rfl
  have header :
      (∀ offset ∈ (readExecutable stack (BitVec.ofNat 8 appPid)).loads
          image.get, offset < image.bytes.length) ↔
        HeaderInside image :=
    readSections_inside_iff image.get 8 0 _ long
  have signature :
      (∀ offset ∈
          ((readSig (signedLen image)).loads
            fun offset => image.get (signatureSize + offset)).map
            (fun offset => signatureSize + offset),
          offset < image.bytes.length) ↔
        32 ≤ image.bytes.length := by
    have isInt : signedLen image ≤ intMax :=
      toInt_le_intMax _
    simp only [List.forall_mem_map, mem_loads_readSig _ isInt]
    simp only [signatureSize] at long ⊢
    constructor
    · intro inside
      have last := inside 15 (by omega)
      omega
    · intro fits offset isRead
      omega
  obtain ⟨code, isCode⟩ := Option.ne_none_iff_exists'.mp defined
  rw [isCode] at computed
  simp only [readImage, isSigned, Program.loads_bind, Program.loads_relocate,
    Program.run_relocate, run_readSig, computed, List.forall_mem_append,
    header, signature, readBlock_inside_iff, Program.loads_pure]
  constructor
  · rintro ⟨inside, fits, -⟩
    exact ⟨inside, fits⟩
  · rintro ⟨inside, fits⟩
    exact ⟨inside, fits, by omega, by simp⟩

/-- The copy stays inside exactly when the app has room for the binary. -/
theorem loadAppCopies_inside_iff
    {image : AppBin}
    (long : headerSize ≤ image.bytes.length) :
    (∀ copy ∈ loadAppCopies image,
        copy.1 < image.bytes.length ∧ copy.2 ∈ appRegion) ↔
      image.bytes.length ≤ headerSize + appSize.toNat := by
  have bound := image.length_lt
  have count :
      (image.len - BitVec.ofNat 64 headerSize).toNat =
        image.bytes.length - 512 := by
    simp only [AppBin.len, headerSize] at long ⊢
    bv_omega
  have room : appSize.toNat = 0x10000 := by
    decide
  have place
      {offset : Nat}
      (small : offset < 2 ^ 64) :
      (appBase + BitVec.ofNat 64 offset).toNat =
        (0x80020000 + offset) % 2 ^ 64 :=
    toNat_place appBase small
  rw [loadAppCopies, count]
  simp only [List.forall_mem_map, List.mem_range, mem_appRegion_iff,
    headerSize, room] at long ⊢
  constructor
  · intro inside
    by_contra tooLong
    have behind := (inside 0x10000 (by omega)).2
    rw [place (by decide)] at behind
    omega
  · intro fits offset isCopied
    rw [place (by omega)]
    omega

/--
Setup stays inside the image and the memory of the app exactly for images of
32 bytes or more whose header ends inside, whose length `calc_sig` can count,
and whose binary has room if it is accepted.
-/
theorem setup_staysInside_iff (stack : Process) (image : AppBin) :
    SetupStaysInside stack image ↔
      32 ≤ image.bytes.length ∧
        HeaderInside image ∧
        signedLen image + 15 ≤ intMax ∧
        (Accepts image →
          headerSize ≤ image.bytes.length ∧
            image.bytes.length ≤ headerSize + appSize.toNat) := by
  have isDefined :
      imageSignature image ≠ none ↔ signedLen image + 15 ≤ intMax := by
    rw [imageSignature_eq]
    split
    · next defined => simp [defined]
    · next overflow => simp [overflow]
  constructor
  · rintro ⟨signedLength, defined, reads, binaryLength, copies⟩
    rw [image.toNat_len] at signedLength binaryLength
    obtain ⟨inside, fits⟩ :=
      (readImage_inside_iff stack signedLength defined).mp reads
    refine ⟨fits, inside, isDefined.mp defined, fun accepts => ?_⟩
    have long := binaryLength accepts
    exact ⟨long, (loadAppCopies_inside_iff long).mp (copies accepts)⟩
  · rintro ⟨fits, inside, defined, accepted⟩
    have long : signatureSize ≤ image.bytes.length := by
      simp only [signatureSize]
      omega
    have isSome := isDefined.mpr defined
    refine ⟨?_, isSome,
      (readImage_inside_iff stack long isSome).mpr ⟨inside, fits⟩,
      fun accepts => ?_, fun accepts => ?_⟩
    · rw [image.toNat_len]
      exact long
    · rw [image.toNat_len]
      exact (accepted accepts).1
    · exact (loadAppCopies_inside_iff (accepted accepts).1).mpr
        (accepted accepts).2

/-- A signed image whose binary is one byte larger than the app. -/
def oversizedImage : AppBin :=
  signedImage (List.replicate (496 + 0x10001) 0)
    (by rw [List.length_replicate]; decide)

/-- It is accepted, and its last byte is written behind the app. -/
theorem oversizedImage_leaves_app :
    ¬ ∀ (stack : Process) (image : AppBin), SetupStaysInside stack image := by
  intro always
  have accepts : Accepts oversizedImage :=
    signedImage_accepts _ (by rw [List.length_replicate]; decide)
  have length : oversizedImage.bytes.length = 512 + 0x10001 := by
    rw [oversizedImage, signedImage, imageOf, List.length_append,
      Vector.length_toList, List.length_replicate]
  have fits :=
    (loadAppCopies_inside_iff
      (by rw [length]; decide : headerSize ≤ oversizedImage.bytes.length)).mp
      ((always blankStack oversizedImage).copies accepts)
  rw [length] at fits
  exact absurd fits (by decide)

end Setup

end S3kMonitor
