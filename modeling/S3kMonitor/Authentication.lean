import S3kMonitor.SetupCalls

namespace S3kMonitor

/-!
# Authentication of an image

`setup` goes on exactly if the image carries the signature that is computed
over the rest of it.  This module says which changes of an image make the
monitor stop.
-/

/-- The image carries the signature that `setup` computes for it. -/
def Accepts (image : AppBin) : Prop :=
  imageSignature image = some (blockAt image.get 0)

section Outcome

variable
  (s3k : S3k)
  (fuel : Nat)
  (stack : Process)
  {image : AppBin}
  (hello : Words)
  (kernel : Kernel)
  (mem : Memory)

/-- On an accepted image setup goes on behind its authentication. -/
theorem setup_of_accepts
    (accepts : Accepts image) :
    setup s3k fuel stack image hello kernel mem =
      afterAuthentication s3k fuel stack image hello
        (prepare s3k kernel mem) := by
  rw [setup, accepts]
  simp [compSig_self]

/-- `startApp` ends in the failed state or with the app started. -/
theorem startApp_end (world : World) :
    (startApp s3k hello world).1 = .failed ∨
      (startApp s3k hello world).1 = .started := by
  unfold startApp
  dsimp only
  split
  · split
    · exact Or.inl rfl
    · exact Or.inr rfl
  · split
    · exact Or.inl rfl
    · exact Or.inr rfl

/-- Behind the comparison of the signatures `setup` no longer rejects. -/
theorem afterAuthentication_end (world : World) :
    (afterAuthentication s3k fuel stack image hello world).1 ≠ .rejected ∧
      (afterAuthentication s3k fuel stack image hello world).1 ≠
        .undefined := by
  unfold afterAuthentication
  dsimp only
  split
  · rcases startApp_end s3k hello
        (setupApp s3k fuel
          (parseExecutable stack (BitVec.ofNat 8 appPid) image.get)
          (loadApp image world)).1 with ended | ended
    · rw [ended]
      exact ⟨by decide, by decide⟩
    · rw [ended]
      exact ⟨by decide, by decide⟩
  · exact ⟨by simp, by simp⟩

/-- Only an accepted image gets past the authentication. -/
theorem setup_accepted_iff :
    (setup s3k fuel stack image hello kernel mem).1 ≠ .rejected ∧
        (setup s3k fuel stack image hello kernel mem).1 ≠ .undefined ↔
      Accepts image := by
  constructor
  · rintro ⟨notRejected, isDefined⟩
    cases computed : imageSignature image with
    | none =>
        rw [setup, computed] at isDefined
        exact absurd rfl isDefined
    | some signature =>
        rw [setup, computed] at notRejected
        by_cases same : blockAt image.get 0 = signature
        · rw [Accepts, computed, same]
        · have differs : compSig (blockAt image.get 0) signature ≠ 1 :=
            fun equal => same ((compSig_eq_one_iff _ _).mp equal)
          simp only [if_pos differs] at notRejected
          exact absurd rfl notRejected
  · intro accepts
    rw [setup_of_accepts s3k fuel stack hello kernel mem accepts]
    exact afterAuthentication_end s3k fuel stack hello _

/-- The binary is not loaded and the app is neither set up nor resumed. -/
def NothingStarted (world : World) : Prop :=
  ∀ event ∈ world.trace,
    event ≠ .loadApp ∧ event ≠ .setupApp ∧
      ∀ moncap pid excpt, event ≠ .called (.mresume moncap pid) excpt

/-- The computed signature differs, and `setup` stops there. -/
structure StopsAtSignature
    (s3k : S3k)
    (fuel : Nat)
    (stack : Process)
    (image : AppBin)
    (hello : Words)
    (kernel : Kernel)
    (mem : Memory) :
    Prop where
  comparison :
    ∃ signature,
      imageSignature image = some signature ∧
        compSig (blockAt image.get 0) signature = 0
  rejected : (setup s3k fuel stack image hello kernel mem).1 = .rejected
  nothingStarted :
    NothingStarted (setup s3k fuel stack image hello kernel mem).2.world

/-- Before the authentication no step of setup starts the app. -/
theorem prepare_nothingStarted :
    NothingStarted (prepare s3k kernel mem) := by
  intro event member
  have made : Makes s3k (SetupCall s3k fun _ => False) (bootWorld kernel mem)
      (prepare s3k kernel mem) :=
    prepare_makes kernel mem
  rcases made.event_cases member with isOld | ⟨kernelCall, excpt, isSetup, rfl⟩
  · cases isOld
  · refine ⟨by simp, by simp, fun moncap pid _ same => ?_⟩
    cases same
    cases isSetup

/-- `setup` stops at every signature that is not the computed one. -/
theorem stopsAtSignature_iff :
    StopsAtSignature s3k fuel stack image hello kernel mem ↔
      ∃ signature,
        imageSignature image = some signature ∧
          blockAt image.get 0 ≠ signature := by
  constructor
  · rintro ⟨⟨signature, computed, unequal⟩, -, -⟩
    refine ⟨signature, computed, fun same => ?_⟩
    rw [same, compSig_self] at unequal
    exact absurd unequal (by decide)
  · rintro ⟨signature, computed, differs⟩
    have unequal : compSig (blockAt image.get 0) signature = 0 := by
      rw [compSig_eq, if_neg differs]
    have outcome :
        setup s3k fuel stack image hello kernel mem =
          (.rejected, atStart (prepare s3k kernel mem)) := by
      rw [setup, computed]
      simp [unequal]
    refine ⟨⟨signature, computed, unequal⟩, ?_, ?_⟩
    · rw [outcome]
    · rw [outcome]
      exact prepare_nothingStarted s3k kernel mem

end Outcome

section Change

/-- The part of an image that is signed. -/
def signedPart (image : AppBin) : Nat → Byte :=
  fun offset => image.get (signatureSize + offset)

/-- The number of blocks of the signed part. -/
def signedBlocks (image : AppBin) : Nat :=
  (image.bytes.length - signatureSize) / 16

/-- Two images that differ in block `changed` of the signed part only. -/
structure OneBlockChanged (first second : AppBin) (changed : Nat) :
    Prop where
  sameLength : first.bytes.length = second.bytes.length
  long : headerSize ≤ first.bytes.length
  aligned : (first.bytes.length - signatureSize) % 16 = 0
  sameSignature : blockAt first.get 0 = blockAt second.get 0
  inside : changed < signedBlocks first
  differ :
    blockAt (signedPart first) (16 * changed) ≠
      blockAt (signedPart second) (16 * changed)
  elsewhere :
    ∀ index, index < signedBlocks first → index ≠ changed →
      blockAt (signedPart first) (16 * index) =
        blockAt (signedPart second) (16 * index)

/-- The length that `setup` passes to `calc_sig`. -/
def signedLen (image : AppBin) : Int :=
  toInt (image.len - BitVec.ofNat 64 signatureSize)

/--
The signature of an image: the chain over its rounds, where the length is
defined.
-/
theorem imageSignature_eq (image : AppBin) :
    imageSignature image =
      if signedLen image + 15 ≤ intMax then
        some
          (cbcMacChain macRk (signedPart image)
            (cbcMacRounds (signedLen image)))
      else
        none :=
  calcSig_eq _ (toInt_le_intMax _)

variable
  {first second : AppBin}
  {changed : Nat}

/-- Only blocks of the signed part are absorbed. -/
theorem OneBlockChanged.absorbed_le
    (change : OneBlockChanged first second changed) :
    cbcMacRounds (signedLen first) ≤ signedBlocks first := by
  have long := change.long
  have length := first.length_lt
  have narrowed := toInt_le_toNat (first.len - BitVec.ofNat 64 signatureSize)
  have signed :
      (first.len - BitVec.ofNat 64 signatureSize).toNat =
        first.bytes.length - 16 := by
    simp only [AppBin.len, signatureSize, headerSize] at long ⊢
    bv_omega
  rw [signed] at narrowed
  simp only [cbcMacRounds, signedLen, signedBlocks, signatureSize,
    headerSize] at narrowed long ⊢
  omega

/-- A changed block lies in an image of one block at least. -/
theorem OneBlockChanged.signedBlocks_pos
    (change : OneBlockChanged first second changed) :
    0 < signedBlocks first :=
  Nat.zero_lt_of_lt change.inside

/--
After a change of one block of an accepted image the monitor stops exactly
when the change is one that the code notices.
-/
theorem stopsAtSignature_iff_changeNoticed
    (change : OneBlockChanged first second changed)
    (accepts : Accepts first)
    (s3k : S3k)
    (fuel : Nat)
    (stack : Process)
    (hello : Words)
    (kernel : Kernel)
    (mem : Memory) :
    StopsAtSignature s3k fuel stack second hello kernel mem ↔
      ChangeNoticed macRk (signedPart first) (signedPart second)
        (cbcMacRounds (signedLen first)) changed := by
  have sameLen : signedLen second = signedLen first := by
    simp only [signedLen, AppBin.len, change.sameLength]
  have defined : signedLen first + 15 ≤ intMax := by
    by_contra overflow
    rw [Accepts, imageSignature_eq, if_neg overflow] at accepts
    cases accepts
  have given :
      blockAt second.get 0 =
        cbcMacChain macRk (signedPart first)
          (cbcMacRounds (signedLen first)) := by
    rw [Accepts, imageSignature_eq, if_pos defined] at accepts
    rw [← change.sameSignature]
    exact (Option.some.inj accepts).symm
  have computed :
      imageSignature second =
        some
          (cbcMacChain macRk (signedPart second)
            (cbcMacRounds (signedLen first))) := by
    rw [imageSignature_eq, sameLen, if_pos defined]
  rw [stopsAtSignature_iff, computed, given,
    ← cbcMacChain_ne_iff change.absorbed_le change.differ change.elsewhere
      change.signedBlocks_pos]
  constructor
  · rintro ⟨signature, same, differs⟩
    cases same
    exact differs
  · intro differs
    exact ⟨_, rfl, differs⟩

/-- The same, for an image that `setup` has been seen to accept. -/
theorem setup_notices_change_iff
    (s3k : S3k)
    (fuel : Nat)
    (stack : Process)
    (hello : Words)
    (kernel : Kernel)
    (mem : Memory)
    (change : OneBlockChanged first second changed)
    (notRejected :
      (setup s3k fuel stack first hello kernel mem).1 ≠ .rejected)
    (isDefined :
      (setup s3k fuel stack first hello kernel mem).1 ≠ .undefined) :
    StopsAtSignature s3k fuel stack second hello kernel mem ↔
      ChangeNoticed macRk (signedPart first) (signedPart second)
        (cbcMacRounds (signedLen first)) changed :=
  stopsAtSignature_iff_changeNoticed change
    ((setup_accepted_iff s3k fuel stack hello kernel mem).mp
      ⟨notRejected, isDefined⟩)
    s3k fuel stack hello kernel mem

end Change

section Signing

/-- The signature of a header and binary. -/
def signatureOf (body : List Byte) : Block :=
  cbcMacChain macRk (listBuffer body fun _ => 0) (cbcMacRounds body.length)

/-- An image with a signature in front of a header and binary. -/
def imageOf
    (signature : Block)
    (body : List Byte)
    (small : body.length < 2 ^ 31) :
    AppBin where
  address := 0x80012000
  bytes := signature.toList ++ body
  beyond := fun _ => 0
  length_lt := by
    rw [List.length_append, Vector.length_toList]
    omega

/-- A body with its signature in front. -/
def signedImage
    (body : List Byte)
    (small : body.length < 2 ^ 31) :
    AppBin :=
  imageOf (signatureOf body) body small

/-- Reads behind a signature go to what is signed. -/
theorem signedPart_append
    {image : AppBin}
    {signature : Block}
    {body : List Byte}
    (isImage : image.bytes = signature.toList ++ body) :
    signedPart image = listBuffer body image.beyond := by
  have length : signature.toList.length = signatureSize :=
    Vector.length_toList
  funext offset
  rw [signedPart, AppBin.get, isImage, listBuffer_append,
    listBuffer_beyond _ _ length]

/-- The signature of an image is its first block. -/
theorem signature_append
    {image : AppBin}
    {signature : Block}
    {body : List Byte}
    (isImage : image.bytes = signature.toList ++ body) :
    blockAt image.get 0 = signature := by
  apply Vector.ext
  intro index inRange
  have inSignature : index < signature.toList.length := by
    simpa using inRange
  simp only [blockAt, Vector.getElem_ofFn, AppBin.get, isImage,
    listBuffer_append, Nat.zero_add]
  rw [listBuffer, dif_pos inSignature, Vector.getElem_toList]

/-- The signed length is the length of the body. -/
theorem signedLen_append
    {image : AppBin}
    {signature : Block}
    {body : List Byte}
    (isImage : image.bytes = signature.toList ++ body)
    (small : body.length < 2 ^ 31) :
    signedLen image = body.length := by
  have length : image.len - BitVec.ofNat 64 signatureSize =
      BitVec.ofNat 64 body.length := by
    have total : image.bytes.length = 16 + body.length := by
      rw [isImage, List.length_append, Vector.length_toList]
    rw [AppBin.len, total, signatureSize]
    bv_omega
  have fits : (BitVec.ofNat 64 body.length).toNat = body.length := by
    rw [BitVec.toNat_ofNat]
    omega
  rw [signedLen, length, toInt_of_lt (by omega), fits]

/-- An image that carries its own signature is accepted. -/
theorem signedImage_accepts
    {body : List Byte}
    (small : body.length < 2 ^ 31)
    (defined : (body.length : Int) + 15 ≤ intMax) :
    Accepts (signedImage body small) := by
  have isImage :
      (signedImage body small).bytes = (signatureOf body).toList ++ body :=
    rfl
  rw [Accepts, imageSignature_eq, signedLen_append isImage small,
    if_pos defined, signature_append isImage, signedPart_append isImage]
  rfl

/-- Images with one signature whose bodies differ in one block. -/
theorem imageOf_oneBlockChanged
    {signature : Block}
    {first second : List Byte}
    {changed : Nat}
    (firstSmall : first.length < 2 ^ 31)
    (secondSmall : second.length < 2 ^ 31)
    (sameLength : first.length = second.length)
    (long : 496 ≤ first.length)
    (aligned : first.length % 16 = 0)
    (inside : changed < first.length / 16)
    (differ :
      blockAt (listBuffer first fun _ => 0) (16 * changed) ≠
        blockAt (listBuffer second fun _ => 0) (16 * changed))
    (elsewhere :
      ∀ index, index < first.length / 16 → index ≠ changed →
        blockAt (listBuffer first fun _ => 0) (16 * index) =
          blockAt (listBuffer second fun _ => 0) (16 * index)) :
    OneBlockChanged (imageOf signature first firstSmall)
      (imageOf signature second secondSmall) changed := by
  have total (body : List Byte) (small : body.length < 2 ^ 31) :
      (imageOf signature body small).bytes.length = 16 + body.length := by
    rw [imageOf, List.length_append, Vector.length_toList]
  have part (body : List Byte) (small : body.length < 2 ^ 31) :
      signedPart (imageOf signature body small) =
        listBuffer body fun _ => 0 :=
    signedPart_append rfl
  have blocks :
      signedBlocks (imageOf signature first firstSmall) =
        first.length / 16 := by
    rw [signedBlocks, total, signatureSize, Nat.add_sub_cancel_left]
  constructor
  · rw [total, total, sameLength]
  · rw [total, headerSize]
    omega
  · rw [total, signatureSize, Nat.add_sub_cancel_left]
    exact aligned
  · rw [signature_append rfl, signature_append rfl]
  · rw [blocks]
    exact inside
  · rw [part, part]
    exact differ
  · intro index
    rw [blocks, part, part]
    exact elsewhere index

end Signing

section ZeroImage

/-- A header without a section and no binary. -/
def zeroBody : List Byte :=
  List.replicate 496 0

/-- The body has 496 bytes. -/
theorem length_zeroBody : zeroBody.length = 496 :=
  List.length_replicate

/-- The image of 496 zero bytes behind its own signature. -/
def zeroImage : AppBin :=
  signedImage zeroBody (by rw [length_zeroBody]; decide)

/-- `zeroImage` with one byte changed after it was signed. -/
def touchedImage (position : Nat) : AppBin :=
  imageOf (signatureOf zeroBody) (zeroBody.set position 1)
    (by rw [List.length_set, length_zeroBody]; decide)

/-- The image of zeros is accepted. -/
theorem zeroImage_accepts : Accepts zeroImage :=
  signedImage_accepts _ (by rw [length_zeroBody]; decide)

/-- Its signed part has 496 bytes. -/
theorem signedLen_zeroImage : signedLen zeroImage = 496 := by
  rw [zeroImage, signedImage, signedLen_append rfl, length_zeroBody]
  · rfl
  · rw [length_zeroBody]
    decide

private theorem listBuffer_zeros (count : Nat) :
    (listBuffer (List.replicate count 0) fun _ => 0) = fun _ => 0 := by
  funext offset
  simp [listBuffer]

private theorem listBuffer_touched
    {count position : Nat}
    (inBody : position < count) :
    listBuffer ((List.replicate count 0).set position 1) (fun _ => 0) =
      fun offset => if offset = position then 1 else 0 := by
  funext offset
  by_cases same : offset = position
  · subst same
    simp [listBuffer, inBody]
  · simp [listBuffer, same, Ne.symm same]

/-- The touched image differs from it in the block of the touched byte. -/
theorem touchedImage_oneBlockChanged
    {position : Nat}
    (inBody : position < 496) :
    OneBlockChanged zeroImage (touchedImage position) (position / 16) := by
  have entry (buf : Nat → Byte) :
      (blockAt buf (16 * (position / 16)))[position % 16] =
        buf (16 * (position / 16) + position % 16) := by
    rw [blockAt, Vector.getElem_ofFn]
  have zeros : (listBuffer zeroBody fun _ => 0) = fun _ => 0 :=
    listBuffer_zeros 496
  have touched :
      listBuffer (zeroBody.set position 1) (fun _ => 0) =
        fun offset => if offset = position then 1 else 0 :=
    listBuffer_touched inBody
  rw [zeroImage, signedImage, touchedImage]
  refine imageOf_oneBlockChanged _ _ ?_ ?_ ?_ ?_ ?_ ?_
  · rw [List.length_set]
  · rw [length_zeroBody]
  · rw [length_zeroBody]
  · rw [length_zeroBody]
    omega
  · intro same
    rw [zeros, touched] at same
    have sameByte :
        (if 16 * (position / 16) + position % 16 = position then 1 else 0) =
          (0 : Byte) :=
      (entry _).symm.trans (same ▸ entry _)
    rw [Nat.div_add_mod, if_pos rfl] at sameByte
    exact absurd sameByte (by decide)
  · intro index _ isOther
    rw [zeros, touched]
    apply blockAt_congr
    intro offset above below
    rw [if_neg]
    omega

/-- What the stack holds when `setup` is called. -/
def blankStack : Process where
  pid := 0
  headerLen := 0
  header _ := ⟨fun _ => 0, 0, 0, 0⟩

/-- A kernel without capabilities. -/
def blankKernel : Kernel where
  table _ _ := .none
  reg _ _ := 0

private theorem zeroImage_accepted :
    let outcome :=
      setup (S3k.generous fun _ _ => false) 3 blankStack zeroImage
        (Vector.replicate 4 0) blankKernel fun _ => 0
    outcome.1 ≠ .rejected ∧ outcome.1 ≠ .undefined :=
  (setup_accepted_iff _ _ _ _ _ _).mpr zeroImage_accepts

private theorem cbcMacRounds_zeroImage :
    cbcMacRounds (signedLen zeroImage) = 30 := by
  rw [signedLen_zeroImage]
  decide

/-- A change in the middle of the header stops the monitor. -/
theorem setup_notices_middle_block :
    StopsAtSignature (S3k.generous fun _ _ => false) 3 blankStack
      (touchedImage 240) (Vector.replicate 4 0) blankKernel fun _ => 0 := by
  have change : OneBlockChanged zeroImage (touchedImage 240) 15 :=
    touchedImage_oneBlockChanged (by decide)
  refine (setup_notices_change_iff _ _ _ _ _ _ change zeroImage_accepted.1
    zeroImage_accepted.2).mpr ?_
  rw [cbcMacRounds_zeroImage, ChangeNoticed, if_neg (by decide)]
  decide

/-- The last block of an image can be changed without a trace. -/
theorem last_block_change_unnoticed :
    ¬ ∀ (s3k : S3k) (fuel : Nat) (stack : Process) (first second : AppBin)
        (hello : Words) (kernel : Kernel) (mem : Memory) (changed : Nat),
        OneBlockChanged first second changed →
        (setup s3k fuel stack first hello kernel mem).1 ≠ .rejected →
        (setup s3k fuel stack first hello kernel mem).1 ≠ .undefined →
        StopsAtSignature s3k fuel stack second hello kernel mem := by
  intro always
  have change : OneBlockChanged zeroImage (touchedImage 495) 30 :=
    touchedImage_oneBlockChanged (by decide)
  have stops :=
    always _ _ _ _ _ _ _ _ _ change zeroImage_accepted.1
      zeroImage_accepted.2
  rw [stopsAtSignature_iff_changeNoticed change zeroImage_accepts,
    cbcMacRounds_zeroImage, ChangeNoticed, if_neg (by decide)] at stops
  exact absurd stops (by decide)

end ZeroImage

end S3kMonitor
