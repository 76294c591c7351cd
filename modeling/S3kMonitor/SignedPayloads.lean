import S3kMonitor.AppFormat
import S3kMonitor.Authentication
import S3kMonitor.CodeIntegrity
import S3kMonitor.FaultService
import S3kMonitor.TextbookMac

namespace S3kMonitor

open Chaining Holdings Runs

/-!
# Code that is loaded at run time

`tools/app_format_sig.c` signs a binary, and the arrays of `app/test.c` put
its signature and size in front of it.  Written to the start of a chunk and
jumped to, such an array becomes executable if the signature is right.  The
signature binds neither the length of the code nor its beginning, so two
signed codes can be spliced into a third one.
-/

/-- The test setting `SIG_BROKEN` of `config.h`. -/
def breakSignature (signature : Block) : Block :=
  (signature.setIfInBounds 0 0xFF).setIfInBounds 1 0xFF

/--
The file that `app_format_sig.c` writes.  There is none where the size of the
binary is no `int`, or the signature is not defined.
-/
def appFormatSig
    (sigBroken : Bool)
    (beyond : Nat → Byte)
    (binary : List Byte) :
    Option (List Byte) :=
  if binary.length ≤ intMax then
    match calcSig (listBuffer binary beyond) binary.length with
    | none => none
    | some signature =>
        let signature :=
          if sigBroken then breakSignature signature else signature
        some (signature.toList ++ binary)
  else
    none

/-- The arrays `code_new_code` and `code_broken_sig`. -/
def codeArray (signature : Block) (code : List Byte) : List Byte :=
  signature.toList ++
    (LittleEndian.encode 8 code.length ++ (List.replicate 8 0 ++ code))

/-- The bytes stand in memory from the pointer on. -/
def PlacedAt (mem : Memory) (ptr : Word) (bytes : List Byte) : Prop :=
  ∀ i, (inRange : i < bytes.length) → bytesAt mem ptr i = bytes[i]

section Placing

variable
  {mem : Memory}
  {ptr : Word}
  {bytes : List Byte}

/-- The bytes that a pointer sees, as a buffer. -/
theorem PlacedAt.bytesAt_eq
    (placed : PlacedAt mem ptr bytes) :
    bytesAt mem ptr =
      listBuffer bytes fun offset =>
        bytesAt mem ptr (bytes.length + offset) := by
  funext offset
  by_cases inRange : offset < bytes.length
  · rw [listBuffer, dif_pos inRange, placed offset inRange]
  · rw [listBuffer, dif_neg inRange, Nat.add_sub_cancel' (by omega)]

/-- A memory that holds the bytes at the pointer. -/
def memoryWith (ptr : Word) (bytes : List Byte) : Memory :=
  fun addr => listBuffer bytes (fun _ => 0) (addr - ptr).toNat

/-- The bytes of a list in otherwise empty memory. -/
theorem placedAt_memoryWith
    (small : bytes.length < 2 ^ 64) :
    PlacedAt (memoryWith ptr bytes) ptr bytes := by
  intro i inRange
  have offset : (ptr + BitVec.ofNat 64 i - ptr).toNat = i := by
    rw [BitVec.add_comm, BitVec.add_sub_cancel, BitVec.toNat_ofNat]
    omega
  rw [bytesAt, memoryWith, offset, listBuffer, dif_pos inRange]

/-- The code starts 32 bytes behind the signature. -/
theorem bytesAt_ptrCode
    (words : Words)
    (offset : Nat) :
    bytesAt mem (ptrCode words) offset =
      bytesAt mem (ptrSig words) (0x20 + offset) := by
  rw [bytesAt, bytesAt, ptrCode, BitVec.add_assoc, BitVec.ofNat_add]
  rfl

variable
  {words : Words}
  {signature : Block}
  {code : List Byte}
  (placed : PlacedAt mem (ptrSig words) (codeArray signature code))
include placed

/-- The monitor finds the signature, the size and the code of the array. -/
theorem givenSignature_codeArray :
    givenSignature words mem = signature := by
  apply Vector.ext
  intro index inRange
  have inSignature : index < signature.toList.length := by
    simpa using inRange
  rw [givenSignature, placed.bytesAt_eq, codeArray, listBuffer_append]
  simp only [blockAt, Vector.getElem_ofFn, Nat.zero_add]
  rw [listBuffer, dif_pos inSignature, Vector.getElem_toList]

/-- The size word of the array is the length of its code. -/
theorem codeSize_codeArray
    (small : code.length < 2 ^ 64) :
    codeSize words mem = BitVec.ofNat 64 code.length := by
  rw [codeSize, placed.bytesAt_eq, codeArray, listBuffer_append,
    listBuffer_append]
  generalize listBuffer (List.replicate 8 0 ++ code) _ = rest
  rw [← loadWord_encode small rest]
  apply loadWord_congr
  intro index _
  rw [Nat.zero_add]
  exact listBuffer_beyond _ _ Vector.length_toList index

/-- The code of the array, byte by byte. -/
theorem code_codeArray
    {offset : Nat}
    (inRange : offset < code.length) :
    bytesAt mem (ptrCode words) offset = code[offset] := by
  have front :
      0x20 + offset =
        signature.toList.length +
          ((LittleEndian.encode 8 code.length).length +
            ((List.replicate 8 (0 : Byte)).length + offset)) := by
    simp
    omega
  rw [bytesAt_ptrCode, placed.bytesAt_eq, codeArray, listBuffer_append,
    listBuffer_append, listBuffer_append, front, listBuffer_beyond _ _ rfl,
    listBuffer_beyond _ _ rfl, listBuffer_beyond _ _ rfl, listBuffer,
    dif_pos inRange]

end Placing

section Signing

/-- A code that is long enough and whose loop counter does not overflow. -/
structure Signable (code : List Byte) : Prop where
  block : 16 ≤ code.length
  bounded : code.length ≤ 2 ^ 31 - 16

/-- `calc_sig` of a code gives its signature. -/
theorem calcSig_listBuffer
    {code : List Byte}
    (signable : Signable code)
    (beyond : Nat → Byte) :
    calcSig (listBuffer code beyond) code.length =
      some (signatureOf code) := by
  obtain ⟨block, bounded⟩ := signable
  have isInt : (code.length : Int) + 15 ≤ intMax := by
    simp only [intMax]
    omega
  have same :
      calcSig (listBuffer code beyond) code.length =
        calcSig (listBuffer code fun _ => 0) code.length := by
    apply aes128CbcMac_congr macRk (by omega) (by exact_mod_cast block)
    intro position before
    have inRange : position < code.length := by
      exact_mod_cast before
    rw [listBuffer, listBuffer, dif_pos inRange, dif_pos inRange]
  rw [same, calcSig_eq _ (by omega), if_pos isInt, signatureOf]

/-- The monitor computes over the array what the tool computes over the code. -/
theorem codeSignature_codeArray
    {mem : Memory}
    {words : Words}
    {signature : Block}
    {code : List Byte}
    (placed : PlacedAt mem (ptrSig words) (codeArray signature code))
    (signable : Signable code) :
    codeSignature words mem = some (signatureOf code) := by
  have bounded := signable.bounded
  have len : codeLen words mem = code.length := by
    have fits : (BitVec.ofNat 64 code.length).toNat = code.length := by
      rw [BitVec.toNat_ofNat]
      omega
    rw [codeLen, codeSize_codeArray placed (by omega),
      toInt_of_lt (by omega), fits]
  have isInt : (code.length : Int) ≤ intMax := by
    simp only [intMax]
    omega
  rw [codeSignature, len, ← calcSig_listBuffer signable fun _ => 0]
  apply aes128CbcMac_congr macRk isInt (by exact_mod_cast signable.block)
  intro position before
  have inRange : position < code.length := by
    exact_mod_cast before
  rw [code_codeArray placed inRange, listBuffer, dif_pos inRange]

/-- `appformat sig` puts the signature in front, or a broken one. -/
theorem appFormatSig_eq
    {binary : List Byte}
    (signable : Signable binary)
    (sigBroken : Bool)
    (beyond : Nat → Byte) :
    appFormatSig sigBroken beyond binary =
      some
        ((if sigBroken then breakSignature (signatureOf binary)
          else signatureOf binary).toList ++ binary) := by
  have isInt : binary.length ≤ intMax := by
    have bounded := signable.bounded
    simp only [intMax]
    omega
  rw [appFormatSig, if_pos isInt, calcSig_listBuffer signable]

/-- The signature of the tool, when the setting is off. -/
theorem appFormatSig_signature_iff
    {signature : Block}
    {code : List Byte}
    (signable : Signable code)
    (beyond : Nat → Byte) :
    appFormatSig false beyond code = some (signature.toList ++ code) ↔
      signature = signatureOf code := by
  rw [appFormatSig_eq signable, Option.some.injEq]
  constructor
  · intro same
    have sameBytes :=
      (List.append_inj same (by simp)).1
    exact (Vector.toList_inj.mp sameBytes).symm
  · rintro rfl
    rfl

/-- The request of the trap handler is for code with the right signature. -/
theorem codeArray_signedForX_iff
    {mem : Memory}
    {ptr : Word}
    {signature : Block}
    {code : List Byte}
    (placed : PlacedAt mem ptr (codeArray signature code))
    (signable : Signable code) :
    SignedForX (thUpdatepmpRx ptr 0x5) mem ↔ signature = signatureOf code := by
  have atPtr : ptrSig (thUpdatepmpRx ptr 0x5) = ptr := rfl
  rw [← atPtr] at placed
  rw [SignedForX, codeSignature_codeArray placed signable,
    givenSignature_codeArray placed]
  constructor
  · rintro ⟨-, -, same⟩
    exact (Option.some.inj same).symm
  · rintro rfl
    refine ⟨?_, ?_, rfl⟩
    · exact show (0x5 : Word) &&& 0x04 ≠ 0 by decide
    · exact show (0x5 : Word) &&& 0x02 = 0 by decide

end Signing

section Splicing

/-- A code of whole blocks. -/
def codeOf (blocks : List Block) : List Byte :=
  blocks.flatMap Vector.toList

/-- A code of blocks has 16 bytes for each block. -/
theorem length_codeOf (blocks : List Block) :
    (codeOf blocks).length = 16 * blocks.length := by
  induction blocks with
  | nil =>
      rfl
  | cons block rest inductionHypothesis =>
      rw [codeOf, List.flatMap_cons, List.length_append, ← codeOf,
        inductionHypothesis, Vector.length_toList, List.length_cons]
      omega

/-- Its blocks are read back in order. -/
theorem blockAt_codeOf
    (blocks : List Block)
    (beyond : Nat → Byte)
    {i : Nat}
    (inRange : i < blocks.length) :
    blockAt (listBuffer (codeOf blocks) beyond) (16 * i) = blocks[i] := by
  induction blocks generalizing i with
  | nil =>
      exact absurd inRange (Nat.not_lt_zero i)
  | cons block rest inductionHypothesis =>
      rw [codeOf, List.flatMap_cons, listBuffer_append, ← codeOf]
      cases i with
      | zero =>
          apply Vector.ext
          intro index inBlock
          have inBytes : index < block.toList.length := by
            simpa using inBlock
          simp only [blockAt, Vector.getElem_ofFn, Nat.mul_zero, Nat.zero_add]
          rw [listBuffer, dif_pos inBytes, Vector.getElem_toList]
          rfl
      | succ i =>
          have later : i < rest.length := by
            simpa using inRange
          rw [List.getElem_cons_succ, ← inductionHypothesis later]
          apply Vector.ext
          intro index inBlock
          have offset : 16 * (i + 1) + index = 16 + (16 * i + index) := by
            omega
          simp only [blockAt, Vector.getElem_ofFn, offset]
          exact listBuffer_beyond _ _ Vector.length_toList _

/-- The signature absorbs the first block twice and not the last one. -/
theorem signatureOf_codeOf
    (first : Block)
    (rest : List Block) :
    signatureOf (codeOf (first :: rest)) =
      chain (aes128Enc macRk) xorblock (aes128Enc macRk first)
        (first :: rest).dropLast := by
  have rounds :
      cbcMacRounds (codeOf (first :: rest)).length = rest.length := by
    rw [length_codeOf, cbcMacRounds, List.length_cons]
    omega
  have start :
      blockAt (listBuffer (codeOf (first :: rest)) fun _ => 0) 0 = first :=
    @blockAt_codeOf (first :: rest) (fun _ => 0) 0 (Nat.succ_pos _)
  have absorbed :
      ((List.range rest.length).map fun index =>
          blockAt (listBuffer (codeOf (first :: rest)) fun _ => 0)
            (16 * index)) =
        (first :: rest).dropLast := by
    apply List.ext_getElem
    · simp
    · intro index inMap inBlocks
      rw [List.getElem_map, List.getElem_range, List.getElem_dropLast]
      exact blockAt_codeOf _ _ _
  rw [signatureOf, rounds, cbcMacChain, start, absorbed]

/--
Two codes without their last blocks, with a block in between that leads from
the signature of the first one into the second one, and any last block.
-/
def spliced
    (first : List Block)
    (glue : Block)
    (second : List Block)
    (tail : Block) :
    List Block :=
  first.dropLast ++ glue :: (second.dropLast ++ [tail])

variable
  (first other : Block)
  (others : List Block)
  (start : Block)
  (rest : List Block)
  (tail : Block)

/-- The glue is known to everyone who has the signature of the first code. -/
def splicedCode : List Byte :=
  codeOf
    (spliced (first :: other :: others)
      (xorblock (signatureOf (codeOf (first :: other :: others))) start)
      (start :: rest) tail)

/-- The spliced code has the signature of the second one. -/
theorem signatureOf_splicedCode :
    signatureOf (splicedCode first other others start rest tail) =
      signatureOf (codeOf (start :: rest)) := by
  let glue := xorblock (signatureOf (codeOf (first :: other :: others))) start
  have joins :
      xorblock
          (chain (aes128Enc macRk) xorblock (aes128Enc macRk first)
            (first :: other :: others).dropLast) glue =
        start := by
    rw [← signatureOf_codeOf]
    exact xorblock_xorblock_left _ start
  have absorbed :
      (spliced (first :: other :: others) glue (start :: rest) tail).dropLast =
        (first :: other :: others).dropLast ++
          glue :: (start :: rest).dropLast := by
    rw [spliced, ← List.cons_append, ← List.append_assoc, List.dropLast_concat]
  calc
    signatureOf (splicedCode first other others start rest tail) =
        chain (aes128Enc macRk) xorblock (aes128Enc macRk first)
          (spliced (first :: other :: others) glue (start :: rest)
            tail).dropLast :=
      signatureOf_codeOf _ _
    _ = chain (aes128Enc macRk) xorblock (aes128Enc macRk start)
          (start :: rest).dropLast := by
      rw [absorbed, chain_splice _ _ joins]
    _ = signatureOf (codeOf (start :: rest)) :=
      (signatureOf_codeOf start rest).symm

/-- It is as long as both together. -/
theorem length_splicedCode :
    (splicedCode first other others start rest tail).length =
      (codeOf (first :: other :: others)).length +
        (codeOf (start :: rest)).length := by
  rw [splicedCode, length_codeOf, length_codeOf, length_codeOf, spliced]
  simp
  omega

/--
From two signed codes, the first of more than one block, a third one can be
spliced without the key.  It is longer than both, and the monitor accepts it
with the signature of the second.
-/
theorem splicedCode_accepted
    {mem : Memory}
    {ptr : Word}
    (placed :
      PlacedAt mem ptr
        (codeArray (signatureOf (codeOf (start :: rest)))
          (splicedCode first other others start rest tail)))
    (bounded :
      (splicedCode first other others start rest tail).length ≤
        2 ^ 31 - 16) :
    SignedForX (thUpdatepmpRx ptr 0x5) mem ∧
      (codeOf (first :: other :: others)).length <
        (splicedCode first other others start rest tail).length ∧
      (codeOf (start :: rest)).length <
        (splicedCode first other others start rest tail).length := by
  have total := length_splicedCode first other others start rest tail
  have firstLength := length_codeOf (first :: other :: others)
  have secondLength := length_codeOf (start :: rest)
  simp only [List.length_cons] at firstLength secondLength
  have signable :
      Signable (splicedCode first other others start rest tail) :=
    ⟨by omega, bounded⟩
  refine ⟨?_, by omega, by omega⟩
  rw [codeArray_signedForX_iff placed signable, signatureOf_splicedCode]

end Splicing

/-- The spliced code of one of two blocks and one of a single block. -/
theorem zeroCodes_spliced :
    ∃ (first start tail : Block) (mem : Memory),
      SignedForX (thUpdatepmpRx 0x80028000 0x5) mem ∧
        (codeOf [first, first]).length <
          (splicedCode first first [] start [] tail).length ∧
        (codeOf [start]).length <
          (splicedCode first first [] start [] tail).length := by
  let zero : Block := Vector.replicate 16 0
  let code := splicedCode zero zero [] zero [] zero
  have length : code.length = 48 := by
    rw [length_splicedCode, length_codeOf, length_codeOf]
    rfl
  have arrayLength :
      (codeArray (signatureOf (codeOf [zero])) code).length = 80 := by
    simp [codeArray, length]
  have placed :=
    @placedAt_memoryWith 0x80028000
      (codeArray (signatureOf (codeOf [zero])) code) (by omega)
  exact ⟨zero, zero, zero, _,
    splicedCode_accepted zero zero [] zero [] zero placed
      (show code.length ≤ 2 ^ 31 - 16 by omega)⟩

section Opening

/-- The capability in the slot grants the right at the address. -/
def Platform.Grants
    (platform : Platform)
    (slot : Fin ncap)
    (right address : Word) :
    Prop :=
  ∃ grant,
    appGrants platform.cap slot = some grant ∧ address ∈ grant.area ∧
      right ∈ grant.rights

variable
  {link : AppLink}
  {platform after : Platform}
  {fault : Fault}
  {i : Nat}
  {rwx right address : Word}

/-- The capability that has been opened grants its new rights. -/
theorem OpensChunk.grants_found
    {addr cfg : Word}
    (opens : OpensChunk link fault platform after i rwx)
    (isPmp : platform.cap (platform.app.chunkSlot i) = .pmp addr cfg)
    (inRegion :
      address ∈ region (s3kPmpNapotBegin addr) (s3kPmpNapotEnd addr))
    (low : 7 &&& right = right)
    (hasRight : rwx &&& right ≠ 0) :
    after.Grants ⟨platform.app.chunkSlot i, opens.found.1⟩ right address := by
  obtain ⟨old, oldCfg, wasPmp, newAddr, newCfg, isNew, replaces⟩ :=
    opens.replaced
  rw [isPmp] at wasPmp
  cases wasPmp
  refine
    ⟨{ area := region (s3kPmpNapotBegin newAddr) (s3kPmpNapotEnd newAddr)
       rights := {right | newCfg &&& right ≠ 0} }, ?_, ?_, ?_⟩
  · rw [appGrants, isNew]
    rfl
  · rw [replaces.2.1, ← replaces.1.1, ← replaces.1.2]
    exact inRegion
  · rw [← rights_of_low_bits replaces.2.2 low] at hasRight
    exact hasRight

/-- If nothing has hidden the capability of the chunk, it is the one. -/
theorem OpensChunk.grants_chunk
    (opens : OpensChunk link fault platform after i rwx)
    (inStep : InStep platform)
    (noneHides :
      NoneHides platform.app.caps (platform.app.altmem.chunks i).start
        (platform.app.altmem.chunks i).stop)
    (inChunk :
      address ∈
        region (platform.app.altmem.chunks i).start
          (platform.app.altmem.chunks i).stop)
    (low : 7 &&& right = right)
    (hasRight : rwx &&& right ≠ 0) :
    after.Grants ⟨platform.app.chunkSlot i, opens.found.1⟩ right address := by
  obtain ⟨addr, cfg, isPmp, -⟩ := opens.replaced
  have isPmpOf := App.chunkSlot_isPmpOf noneHides opens.found.1
  rw [inStep.caps, ← Platform.cap, isPmp] at isPmpOf
  obtain ⟨isStart, isStop⟩ := isPmpOf
  refine opens.grants_found isPmp ?_ low hasRight
  rw [isStart, isStop]
  exact inChunk

end Opening

section Jumps

/-- The app jumps into an allocated chunk that holds such an array. -/
structure JumpsToCode
    (link : AppLink)
    (platform : Platform)
    (fault : Fault)
    (i : Nat)
    (signature : Block)
    (code : List Byte) :
    Prop where
  isInstruction : fault.ecause = 1
  inApp : link.start ≤ fault.epc ∧ fault.epc < link.stack
  chunkAt : platform.app.altmem.ChunkAt fault.epc i
  occupied : (platform.app.altmem.chunks i).occupied = true
  signable : Signable code
  placed :
    PlacedAt fault.mem (platform.app.altmem.chunks i).start
      (codeArray signature code)

/-- The call of the trap handler for such a jump. -/
def Platform.rxCall (platform : Platform) (i : Nat) : UpdateCall :=
  .rx (platform.app.chunkSlot i) (platform.app.altmem.chunks i).start 0x5

/-- The monitor can derive the capability that the jump needs. -/
structure CanServe
    (s3k : S3k)
    (platform : Platform)
    (fault : Fault)
    (i : Nat) :
    Prop where
  inRange : platform.app.chunkSlot i < ncap
  derives :
    ∃ addr cfg,
      platform.cap (platform.app.chunkSlot i) = .pmp addr cfg ∧
        ∃ slot,
          NewDerived s3k (s3kPmpNapotBegin addr) (s3kPmpNapotEnd addr) 0x5
            (capmanUpdate
              (receive s3k ((platform.rxCall i).request fault.mem)
                platform.monitor).world) slot

variable
  {s3k : S3k}
  {link : AppLink}
  {platform after : Platform}
  {fault : Fault}
  {i : Nat}
  {signature : Block}
  {code : List Byte}

/-- A jump into an allocated chunk of the app is served for that chunk. -/
theorem instructionFault_allocated
    (reply : Reply)
    {app : App}
    (inApp : link.start ≤ app.epc ∧ app.epc < link.stack)
    (chunkAt : app.altmem.ChunkAt app.epc i)
    (occupied : (app.altmem.chunks i).occupied = true) :
    instructionFault link reply app =
      concludeUpdate link
        (app.updatepmp reply
          (.rx (app.chunkSlot i) (app.altmem.chunks i).start 0x5)) := by
  have inRange := chunkAt.inRange
  have inside : ¬ (app.epc < link.start ∨ app.epc ≥ link.stack) := by
    rintro (before | behind)
    · exact absurd inApp.1 (BitVec.not_le.mpr before)
    · exact absurd inApp.2 (BitVec.not_lt.mpr behind)
  rw [instructionFault, if_neg inside]
  simp only [chunkAt.found]
  rw [if_neg (toWord_chunk_ne inRange), toInt_toWord_chunk inRange,
    altmemIsoccupied_chunk app.altmem inRange, app.existingPmp_chunk inRange,
    altmemGetStart_chunk _ inRange, if_pos occupied, if_neg (by decide)]

/-- The handler asks the monitor, whatever the reply will be. -/
theorem JumpsToCode.asks
    (jumps : JumpsToCode link platform fault i signature code)
    (reply : Reply) :
    (platform.raised fault).Asks
      (trapHandler link reply (platform.raised fault)) (platform.rxCall i) := by
  have served :
      trapHandler link reply (platform.raised fault) =
        concludeUpdate link
          ((platform.raised fault).updatepmp reply (platform.rxCall i)) :=
    (if_pos jumps.isInstruction).trans
      (instructionFault_allocated reply jumps.inApp jumps.chunkAt
        jumps.occupied)
  rw [served]
  exact asks_concludeUpdate.mpr rfl

/-- The request is signed exactly when the signature is that of the code. -/
theorem JumpsToCode.signedForX_iff
    (jumps : JumpsToCode link platform fault i signature code) :
    SignedForX (platform.rxCall i).buf fault.mem ↔
      signature = signatureOf code :=
  codeArray_signedForX_iff jumps.placed jumps.signable

/-- With the right signature the request passes all checks. -/
theorem JumpsToCode.derivable
    (jumps : JumpsToCode link platform fault i signature code)
    (canServe : CanServe s3k platform fault i)
    (received :
      s3k.excpt platform.monitor.world.trace
          (.recv (platform.monitor.soccaps[0]!).toNat flightSlot
            (platform.rxCall i).buf (platform.rxCall i).idx) =
        s3k.excptNone)
    (isSigned : signature = signatureOf code) :
    Derivable s3k
      (receive s3k ((platform.rxCall i).request fault.mem)
        platform.monitor) := by
  obtain ⟨inRange, addr, cfg, isPmp, slot, derived⟩ := canServe
  have notBoth :
      ¬ ((0x5 : Word) &&& 0x2 ≠ 0 ∧ (0x5 : Word) &&& 0x4 ≠ 0) := by
    decide
  exact UpdateCall.derivable inRange isPmp received notBoth
    (fun _ => (jumps.signedForX_iff.mpr isSigned).2.2) derived

/-- A signed jump is answered, so it has an outcome. -/
theorem JumpsToCode.steps
    (jumps : JumpsToCode link platform fault i signature code)
    (canServe : CanServe s3k platform fault i)
    (running : platform.monitor.appRunning = true)
    (received :
      s3k.excpt platform.monitor.world.trace
          (.recv (platform.monitor.soccaps[0]!).toNat flightSlot
            (platform.rxCall i).buf (platform.rxCall i).idx) =
        s3k.excptNone)
    (dependable :
      Dependable s3k (platform.monitor.soccaps[1]!).toNat
        (receive s3k ((platform.rxCall i).request fault.mem)
          platform.monitor).world)
    (isSigned : signature = signatureOf code) :
    ∃ next, PlatformStep s3k link (.fault fault) platform next := by
  obtain ⟨next, answered⟩ :=
    loop_of_derivable running (jumps.derivable canServe received isSigned)
  exact ⟨_, .served fault platform (jumps.asks _)
    ⟨received, dependable, answered⟩⟩

variable
  (parentKept :
    ∀ parent child, parent ≠ .none → s3k.derived parent child ≠ .none)
include parentKept

/-- What one jump leads to, whoever has made the signature. -/
theorem JumpsToCode.outcome
    (inStep : InStep platform)
    (jumps : JumpsToCode link platform fault i signature code)
    (canServe : CanServe s3k platform fault i)
    (step : PlatformStep s3k link (.fault fault) platform after) :
    (signature = signatureOf code →
      OpensChunk link fault platform after i 0x5) ∧
    (signature ≠ signatureOf code →
      WasReset link after ∧
        ∀ slot, after.cap slot = platform.cap slot) := by
  have faultAddr : (platform.raised fault).faultAddr link = fault.epc :=
    if_pos jumps.isInstruction
  have sameChunk {j : Nat}
      (chunkAt :
        platform.app.altmem.ChunkAt ((platform.raised fault).faultAddr link)
          j) :
      j = i := by
    rw [faultAddr] at chunkAt
    exact chunkAt.unique jumps.chunkAt
  constructor
  · intro isSigned
    cases step with
    | silent _ _ reply quiet =>
        exact absurd (jumps.asks reply) (quiet _)
    | @served _ _ call next asks serves =>
        have isCall : call = platform.rxCall i :=
          (List.cons.inj (asks.symm.trans (jumps.asks _))).1
        subst isCall
        have derivable :=
          jumps.derivable canServe serves.received isSigned
        obtain ⟨j, opens⟩ :=
          serves.opensChunk parentKept inStep asks
            ((serves.granted_iff parentKept).mpr derivable)
        obtain rfl := sameChunk opens.chunkAt
        exact opens
  · intro notSigned
    rcases step.outcome parentKept inStep with ⟨j, rwx, opens⟩ | reset
    · obtain rfl := sameChunk opens.chunkAt
      rcases opens.rights with ⟨isStore, -⟩ | ⟨-, -, signed⟩
      · rw [jumps.isInstruction] at isStore
        cases isStore
      · exact absurd (jumps.signedForX_iff.mp signed) notSigned
    · exact reset

/--
In every run, a jump into an allocated chunk with code at its start opens the
capability that is found for the chunk, and goes on, exactly when the signature
in front of the code is the one that `app_format_sig` writes; the chunk is then
executable unless another capability hides its own.  With any other signature
the app is reset and keeps all its capabilities as they were.
-/
theorem jump_outcome
    {labels : List AppLabel}
    {initial : Platform}
    (beyond : Nat → Byte)
    (start : InStep initial)
    (run : Run (PlatformStep s3k link) labels initial platform)
    (jumps : JumpsToCode link platform fault i signature code)
    (canServe : CanServe s3k platform fault i)
    (step : PlatformStep s3k link (.fault fault) platform after) :
    (appFormatSig false beyond code = some (signature.toList ++ code) →
      OpensChunk link fault platform after i 0x5 ∧
        (NoneHides platform.app.caps (platform.app.altmem.chunks i).start
            (platform.app.altmem.chunks i).stop →
          ∀ address ∈
            region (platform.app.altmem.chunks i).start
              (platform.app.altmem.chunks i).stop,
            ∃ slot, after.Grants slot 0x4 address)) ∧
    (appFormatSig false beyond code ≠ some (signature.toList ++ code) →
      WasReset link after ∧
        ∀ slot, after.cap slot = platform.cap slot) := by
  have inStep := inStep_run parentKept run start
  have outcome := jumps.outcome parentKept inStep canServe step
  have executable : 7 &&& (0x4 : Word) = 0x4 ∧ (0x5 : Word) &&& 0x4 ≠ 0 := by
    decide
  rw [ne_eq, appFormatSig_signature_iff jumps.signable beyond]
  refine ⟨fun isSigned => ?_, outcome.2⟩
  have opens := outcome.1 isSigned
  exact ⟨opens, fun noneHides address inChunk =>
    ⟨_, opens.grants_chunk inStep noneHides inChunk executable.1 executable.2⟩⟩

end Jumps

section Page

/-- One block of code, with its signature, at the start of the page. -/
def pageCode : List Byte :=
  codeOf [Vector.replicate 16 0x13]

/-- A jump to the code of the page. -/
def pageJump : Fault where
  mem := memoryWith 0x80023000 (codeArray (signatureOf pageCode) pageCode)
  epc := 0x80023020
  ecause := 1
  eval := 0
  esp := 0x8002FF00

/-- It is a jump to code of the heap. -/
theorem pageJump_jumps :
    JumpsToCode linkedApp pagePlatform pageJump 0 (signatureOf pageCode)
      pageCode where
  isInstruction := rfl
  inApp := by decide
  chunkAt :=
    ⟨by decide, by decide, fun _ before => absurd before (Nat.not_lt_zero _)⟩
  occupied := rfl
  signable := ⟨by decide, by decide⟩
  placed := placedAt_memoryWith (by simp [codeArray, pageCode, length_codeOf])

/-- The kernel can serve it. -/
theorem pageJump_canServe :
    CanServe obliging pagePlatform pageJump 0 where
  inRange := by decide +kernel
  derives :=
    ⟨s3kPmpNapotAddr 0x80023000 0x80024000, 0x1, by decide +kernel, 63,
      by decide, by decide +kernel, by decide, by decide +kernel⟩

/-- The platform has a step for it. -/
theorem pageJump_step :
    ∃ next,
      PlatformStep obliging linkedApp (.fault pageJump) pagePlatform next :=
  pageJump_jumps.steps pageJump_canServe rfl rfl
    (obliging_dependable (by decide) _) rfl

/-- The page has the only capability that the search can find. -/
theorem pagePlatform_noneHides :
    NoneHides pagePlatform.app.caps (pagePlatform.app.altmem.chunks 0).start
      (pagePlatform.app.altmem.chunks 0).stop := by
  have slot : pagePlatform.app.chunkSlot 0 = 0 := by
    decide +kernel
  apply App.noneHides_of_chunkSlot
  intro inRange
  rw [slot]
  exact
    show s3kPmpNapotBegin (s3kPmpNapotAddr 0x80023000 0x80024000) =
          (0x80023000 : Word) ∧
        s3kPmpNapotEnd (s3kPmpNapotAddr 0x80023000 0x80024000) =
          (0x80024000 : Word) by
      decide

/-- The jump is served, as the signature is the one of the tool. -/
theorem pageJump_outcome :
    ∃ next,
      PlatformStep obliging linkedApp (.fault pageJump) pagePlatform next ∧
        OpensChunk linkedApp pageJump pagePlatform next 0 0x5 ∧
        ∃ slot, next.Grants slot 0x4 0x80023020 := by
  obtain ⟨next, step⟩ := pageJump_step
  have isWritten :
      appFormatSig false (fun _ => 0) pageCode =
        some ((signatureOf pageCode).toList ++ pageCode) :=
    (appFormatSig_signature_iff pageJump_jumps.signable _).mpr rfl
  obtain ⟨opens, executable⟩ :=
    (jump_outcome (fun _ _ present => present) (fun _ => 0) pagePlatform_inStep
      (.nil pagePlatform) pageJump_jumps pageJump_canServe step).1 isWritten
  refine ⟨next, step, opens,
    executable pagePlatform_noneHides 0x80023020 ?_⟩
  exact
    show (0x80023020 : Word) ∈ region 0x80023000 0x80024000 by
      rw [mem_region]
      decide

end Page

end S3kMonitor
