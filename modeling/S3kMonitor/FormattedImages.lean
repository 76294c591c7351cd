import S3kMonitor.AppFormat
import S3kMonitor.Authentication
import S3kMonitor.ImageReads

namespace S3kMonitor

open ByteAreas HexText

/-!
# Images written by the tools

The file that `app_format.c` writes is the image that is linked into the
monitor.  Tool and monitor sign the same bytes, and the monitor loads the
binary that the tool was given, as far as there is room for it and the copy
does not run into the image.
-/

section Loading

variable
  (s3k : S3k)
  (fuel : Nat)
  (stack : Process)
  (hello : Words)

/-- The preparation of `setup` does not write. -/
theorem prepare_mem (kernel : Kernel) (mem : Memory) :
    (prepare s3k kernel mem).mem = mem := by
  have made : Makes s3k (SetupCall s3k fun _ => False) (bootWorld kernel mem)
      (prepare s3k kernel mem) :=
    prepare_makes kernel mem
  exact made.mem_eq

/-- Nor does the start of the app. -/
theorem startApp_mem (world : World) :
    (startApp s3k hello world).2.world.mem = world.mem := by
  obtain ⟨middle, ipc, resume⟩ :=
    @startApp_makes s3k (fun _ => False) world hello
  exact resume.mem_eq.trans ipc.mem_eq

/-- After `load_app` the memory is not written any more. -/
theorem afterAuthentication_mem (image : AppBin) (world : World) :
    (afterAuthentication s3k fuel stack image hello world).2.world.mem =
      (loadApp image world).mem := by
  have appSetup (app : Process) (loaded : World) :
      (setupApp s3k fuel app loaded).1.mem = loaded.mem :=
    (setupApp_makes loaded fuel app).mem_eq
  unfold afterAuthentication
  dsimp only
  split
  · rw [startApp_mem, appSetup]
  · rw [atStart, appSetup]

/-- `binary` stands at `APP_BASE`, and everything else is as before. -/
def LoadedAtBase (binary : List Byte) (before after : Memory) : Prop :=
  ∀ address,
    after address =
      if inBinary : (address - appBase).toNat < binary.length then
        binary[(address - appBase).toNat]
      else
        before address

/-- Behind the first `distance` bytes, each byte is the one so far before it. -/
def Repeats (bytes : List Byte) (distance : Nat) : Prop :=
  ∀ i < bytes.length, bytes[i]? = bytes[i % distance]?

instance (bytes : List Byte) (distance : Nat) :
    Decidable (Repeats bytes distance) :=
  inferInstanceAs
    (Decidable (∀ i < bytes.length, bytes[i]? = bytes[i % distance]?))

/-- If they are not more bytes than that, there is nothing to repeat. -/
theorem repeats_of_apart
    {bytes : List Byte}
    {distance : Nat}
    (apart : ¬ (0 < distance ∧ distance < bytes.length)) :
    Repeats bytes distance := by
  intro i inRange
  rcases Nat.eq_zero_or_pos distance with rfl | positive
  · rw [Nat.mod_zero]
  · rw [Nat.mod_eq_of_lt (by omega)]

variable
  {image : AppBin}
  {prelude binary : List Byte}
  (isImage : image.bytes = prelude ++ binary)
  (isPrelude : prelude.length = headerSize)
include isImage isPrelude

/-- What is copied is the binary behind the header. -/
theorem loadApp_mem_eq (world : World) :
    (loadApp image world).mem =
      forwardCopy world.mem appBase (listBuffer binary image.beyond)
        (copyDistance image.address) binary.length := by
  have total : image.bytes.length = 512 + binary.length := by
    rw [isImage, List.length_append, isPrelude, headerSize]
  have count :
      (image.len - BitVec.ofNat 64 headerSize).toNat = binary.length := by
    have bound := image.length_lt
    rw [AppBin.len, total, headerSize]
    bv_omega
  have source :
      (fun offset => image.get (headerSize + offset)) =
        listBuffer binary image.beyond := by
    funext offset
    rw [AppBin.get, isImage, listBuffer_append,
      listBuffer_beyond _ _ isPrelude]
  rw [loadApp, count, source]

/--
The copy is exact unless `APP_BASE` lies inside the part of the image that is
copied, and then only if the binary repeats what lies in front.
-/
theorem loadApp_loadedAtBase_iff (world : World) :
    LoadedAtBase binary world.mem (loadApp image world).mem ↔
      Repeats binary (copyDistance image.address) := by
  have bound : binary.length ≤ 2 ^ 64 := by
    have small := image.length_lt
    rw [isImage, List.length_append] at small
    omega
  rw [loadApp_mem_eq isImage isPrelude]
  -- Byte `i` of the target is byte `i % distance` of the binary.
  have copiedByte {i : Nat} (inRange : i < binary.length) :
      some
          (forwardCopy world.mem appBase (listBuffer binary image.beyond)
            (copyDistance image.address) binary.length
            (appBase + BitVec.ofNat 64 i)) =
        binary[i % copyDistance image.address]? := by
    have inBinary := (Nat.mod_le i (copyDistance image.address)).trans_lt inRange
    rw [forwardCopy_offset _ _ inRange bound, listBuffer, dif_pos inBinary,
      List.getElem?_eq_getElem inBinary]
  constructor
  · intro loaded i inRange
    have offset : (appBase + BitVec.ofNat 64 i - appBase).toNat = i :=
      (offset_toNat appBase _ (inRange.trans_le bound)).mpr rfl
    have byte := loaded (appBase + BitVec.ofNat 64 i)
    simp only [offset, dif_pos inRange] at byte
    rw [← copiedByte inRange, byte, List.getElem?_eq_getElem inRange]
  · intro repeats address
    by_cases inBinary : (address - appBase).toNat < binary.length
    · have place :
          address = appBase + BitVec.ofNat 64 (address - appBase).toNat :=
        (offset_toNat appBase address (address - appBase).isLt).mp rfl
      have byte := copiedByte inBinary
      rw [← place, ← repeats _ inBinary,
        List.getElem?_eq_getElem inBinary] at byte
      rw [dif_pos inBinary, Option.some.inj byte]
    · rw [dif_neg inBinary,
        forwardCopy_outside _ _ (Nat.le_of_not_lt inBinary)]

end Loading

section Formatting

/--
What the monitor makes of an image with the given binary.  It may write to the
memory of the app because `setup_monitor` has derived this region for it, and
to nothing behind it.  In whatever state `load_app` is called, it leaves the
binary there.
-/
structure AcceptedAndLoaded
    (sectioninfo : Text)
    (binary : List Byte)
    (image : AppBin) :
    Prop where
  sameLen : signedLen image = (binary.length + sectionsSize : Nat)
  sameRange :
    ∀ position, position < binary.length + sectionsSize →
      signedPart image position =
        listBuffer (headerBuffer sectioninfo ++ binary) (fun _ => 0) position
  accepted :
    ∀ s3k fuel stack hello kernel mem,
      (setup s3k fuel stack image hello kernel mem).1 ≠ .rejected ∧
        (setup s3k fuel stack image hello kernel mem).1 ≠ .undefined
  writable : ∀ copy ∈ loadAppCopies image, copy.2 ∈ appRegion
  loaded :
    ∀ world : World, LoadedAtBase binary world.mem (loadApp image world).mem

/--
The tool writes a file, and the monitor takes every image made of it, wherever
the linker puts `app_bin`: here at `address`.
-/
def FormattedAndLoaded
    (sectioninfo : Text)
    (binary : List Byte)
    (address : Word) :
    Prop :=
  ∃ file,
    appFormat sectioninfo binary = some file ∧
      ∀ image : AppBin,
        image.bytes = file →
        image.address = address →
        AcceptedAndLoaded sectioninfo binary image

variable
  {sectioninfo : Text}
  {binary : List Byte}

/-- What the tool signs. -/
theorem length_formatted :
    (headerBuffer sectioninfo ++ binary).length =
      binary.length + sectionsSize := by
  rw [List.length_append, length_headerBuffer, Nat.add_comm]

/-- The tool signs header and binary, unless its loop counter overflows. -/
theorem appFormat_eq
    (fits : binary.length + sectionsSize < 2 ^ 31) :
    appFormat sectioninfo binary =
      if binary.length + sectionsSize ≤ 2 ^ 31 - 16 then
        some
          ((signatureOf (headerBuffer sectioninfo ++ binary)).toList ++
            (headerBuffer sectioninfo ++ binary))
      else
        none := by
  have isInt : binary.length + sectionsSize ≤ intMax := by
    simp only [intMax]
    omega
  have sameBound :
      ((binary.length + sectionsSize : Nat) : Int) + 15 ≤ intMax ↔
        binary.length + sectionsSize ≤ 2 ^ 31 - 16 := by
    simp only [intMax]
    omega
  rw [appFormat, if_pos isInt, calcSig_eq _ (by exact_mod_cast isInt)]
  simp only [sameBound]
  by_cases defined : binary.length + sectionsSize ≤ 2 ^ 31 - 16
  · simp only [if_pos defined, signatureOf, length_formatted]
  · simp only [if_neg defined]

section Image

variable
  {image : AppBin}
  (defined : binary.length + sectionsSize ≤ 2 ^ 31 - 16)
  (isImage :
    image.bytes =
      (signatureOf (headerBuffer sectioninfo ++ binary)).toList ++
        (headerBuffer sectioninfo ++ binary))
include defined isImage

/-- The monitor signs as many bytes as the tool. -/
theorem signedLen_formatted :
    signedLen image = (binary.length + sectionsSize : Nat) := by
  have length := @length_formatted sectioninfo binary
  rw [signedLen_append isImage (by omega), length]

omit defined in
/-- What the monitor signs is what the tool has signed. -/
theorem signedPart_formatted
    {position : Nat}
    (inRange : position < binary.length + sectionsSize) :
    signedPart image position =
      listBuffer (headerBuffer sectioninfo ++ binary) (fun _ => 0)
        position := by
  have inBody :
      position < (headerBuffer sectioninfo ++ binary).length := by
    rw [length_formatted]
    exact inRange
  rw [signedPart_append isImage, listBuffer, listBuffer, dif_pos inBody,
    dif_pos inBody]

/-- The signature of the tool is the one that the monitor computes. -/
theorem formatted_accepts : Accepts image := by
  have len := signedLen_formatted defined isImage
  have sameCode :
      calcSig (signedPart image) (signedLen image) =
        calcSig
          (listBuffer (headerBuffer sectioninfo ++ binary) fun _ => 0)
          (signedLen image) := by
    have isInt : signedLen image ≤ intMax :=
      toInt_le_intMax _
    apply aes128CbcMac_congr macRk isInt
    · rw [len, sectionsSize]
      omega
    · intro position inRange
      rw [len] at inRange
      exact signedPart_formatted isImage (by exact_mod_cast inRange)
  have isInt :
      ((binary.length + sectionsSize : Nat) : Int) + 15 ≤ intMax := by
    simp only [intMax]
    omega
  have computed :
      imageSignature image = calcSig (signedPart image) (signedLen image) :=
    rfl
  rw [Accepts, computed, sameCode, len, calcSig_eq _ (by omega),
    if_pos isInt, signature_append isImage, signatureOf, length_formatted]

omit defined in
/-- What `load_app` copies is the binary that the tool was given. -/
theorem loadApp_formatted (world : World) :
    LoadedAtBase binary world.mem (loadApp image world).mem ↔
      Repeats binary (copyDistance image.address) := by
  have prelude :
      ((signatureOf (headerBuffer sectioninfo ++ binary)).toList ++
        headerBuffer sectioninfo).length = headerSize := by
    rw [List.length_append, length_headerBuffer, Vector.length_toList]
    rfl
  exact loadApp_loadedAtBase_iff
    (isImage.trans (List.append_assoc _ _ _).symm) prelude world

/-- Behind `load_app`, `setup` writes to memory of its own only. -/
theorem setup_mem_formatted
    (s3k : S3k)
    (fuel : Nat)
    (stack : Process)
    (hello : Words)
    (kernel : Kernel)
    (mem : Memory) :
    LoadedAtBase binary mem
        (setup s3k fuel stack image hello kernel mem).2.world.mem ↔
      Repeats binary (copyDistance image.address) := by
  have accepts := formatted_accepts defined isImage
  rw [setup_of_accepts s3k fuel stack hello kernel mem accepts,
    afterAuthentication_mem]
  have loaded := loadApp_formatted isImage (prepare s3k kernel mem)
  rwa [prepare_mem s3k kernel mem] at loaded

omit defined in
/-- The image of the tool has the binary behind its header. -/
theorem length_image_formatted :
    image.bytes.length = headerSize + binary.length := by
  rw [isImage, List.length_append, Vector.length_toList, List.length_append,
    length_headerBuffer, sectionsSize, headerSize]
  omega

omit defined in
/-- `load_app` may write what it copies if the binary fits into the app. -/
theorem formatted_writable_iff :
    (∀ copy ∈ loadAppCopies image, copy.2 ∈ appRegion) ↔
      binary.length ≤ appSize.toNat := by
  have length := length_image_formatted isImage
  have long : headerSize ≤ image.bytes.length := by
    omega
  have inside := loadAppCopies_inside_iff long
  have inImage (copy : Nat × Word) (member : copy ∈ loadAppCopies image) :
      copy.1 < image.bytes.length := by
    have bound := image.length_lt
    obtain ⟨offset, inRange, rfl⟩ := List.mem_map.mp member
    rw [List.mem_range, AppBin.len] at inRange
    simp only [headerSize] at inRange length ⊢
    bv_omega
  constructor
  · intro writable
    have fits := inside.mp fun copy member =>
      ⟨inImage copy member, writable copy member⟩
    omega
  · intro fits copy member
    exact (inside.mpr (by omega) copy member).2

/-- All together for an image of the tool. -/
theorem formatted_acceptedAndLoaded_iff :
    AcceptedAndLoaded sectioninfo binary image ↔
      binary.length ≤ appSize.toNat ∧
        Repeats binary (copyDistance image.address) := by
  constructor
  · intro outcome
    refine ⟨(formatted_writable_iff isImage).mp outcome.writable, ?_⟩
    exact (loadApp_formatted isImage (bootWorld blankKernel fun _ => 0)).mp
      (outcome.loaded _)
  · rintro ⟨fits, repeats⟩
    constructor
    case sameLen =>
      exact signedLen_formatted defined isImage
    case sameRange =>
      exact fun _ inRange => signedPart_formatted isImage inRange
    case accepted =>
      intro s3k fuel stack hello kernel mem
      exact (setup_accepted_iff s3k fuel stack hello kernel mem).mpr
        (formatted_accepts defined isImage)
    case writable =>
      exact (formatted_writable_iff isImage).mpr fits
    case loaded =>
      exact fun world => (loadApp_formatted isImage world).mpr repeats

end Image

/-- The first binary whose copy reaches the part that it has written over. -/
def overwrittenBinary : List Byte :=
  List.replicate 56832 0 ++ [1]

theorem overwrittenBinary_length : overwrittenBinary.length = 56833 := by
  rw [overwrittenBinary, List.length_append, List.length_replicate,
    List.length_singleton]

end Formatting

end S3kMonitor
