import S3kMonitor.WriteXorExecute
import S3kMonitor.Confinement
import S3kMonitor.Lib.Reading

namespace S3kMonitor

open Reading

/-!
# What the verification of code reads

The checks of a request and the functions they call, once more as programs
that load their bytes one after the other.  They compute what the functions
compute, and say from which addresses.
-/

section Programs

/-- A block at `offset`, byte by byte. -/
def readBlock (offset : Nat) : Program Nat Byte Block := do
  let bytes ← Program.loadAll ((List.range 16).map fun index => offset + index)
  pure (Vector.ofFn fun index => bytes.getD index.val 0)

/-- A `uint64_t` at `offset`. -/
def readWord (offset : Nat) : Program Nat Byte Word := do
  let bytes ← Program.loadAll ((List.range 8).map fun index => offset + index)
  pure (BitVec.ofNat 64 (LittleEndian.decode bytes))

/-- The loop of `aes128_cbc_mac`. -/
def readMacLoop
    (rk : RoundKeys)
    (len : Int)
    (i : Nat)
    (mac : Block) :
    Program Nat Byte (Option Block) :=
  if (i : Int) < len then do
    let block ← readBlock (i - 16)
    let mac := aes128Enc rk (xorblock mac block)
    if i + 16 ≤ intMax then
      readMacLoop rk len (i + 16) mac
    else
      pure none
  else
    pure (some mac)
termination_by (len - i).toNat

/-- `aes128_cbc_mac`: the first block, then the loop. -/
def readMac (rk : RoundKeys) (len : Int) : Program Nat Byte (Option Block) := do
  let mac ← readBlock 0
  readMacLoop rk len 16 (aes128Enc rk mac)

/-- `calc_sig`. -/
def readSig (len : Int) : Program Nat Byte (Option Block) :=
  readMac macRk len

/-- The address of byte `offset` of the object that `ptr` points to. -/
def place (ptr : Word) (offset : Nat) : Word :=
  ptr + BitVec.ofNat 64 offset

/-- The checks of case `0x02`. -/
def readUpdate (pmp : Cap) (words : Words) : Program Word Byte Verdict :=
  match pmp with
  | .pmp addr _ =>
      let start := s3kPmpNapotBegin addr
      let stop := s3kPmpNapotEnd addr
      let rwx := words[3]!
      if rwx &&& 0x02 ≠ 0 ∧ rwx &&& 0x04 ≠ 0 then
        pure (.refuse 0x03)
      else if rwx &&& 0x04 ≠ 0 then do
        let size ← (readWord 0x10).relocate (place (ptrSig words))
        let signature ← (readSig (toInt size)).relocate (place (ptrCode words))
        match signature with
        | none => pure .undefined
        | some signature => do
            let given ← (readBlock 0).relocate (place (ptrSig words))
            if compSig given signature ≠ 1 then
              pure (.refuse 0x01)
            else
              pure (.update start stop rwx)
      else
        pure (.update start stop rwx)
  | _ => pure (.refuse 0x02)

end Programs

section Results

variable (buf : Nat → Byte)

/-- Sixteen loads give a block. -/
@[simp]
theorem run_readBlock (offset : Nat) :
    (readBlock offset).run buf = blockAt buf offset := by
  apply Vector.ext
  intro index inRange
  simp [readBlock, blockAt]

/-- They load the sixteen bytes from the offset on. -/
@[simp]
theorem loads_readBlock (offset : Nat) :
    (readBlock offset).loads buf =
      (List.range 16).map fun index => offset + index := by
  simp [readBlock]

/-- Eight loads give a word. -/
@[simp]
theorem run_readWord (offset : Nat) :
    (readWord offset).run buf = loadWord buf offset := by
  simp [readWord, loadWord, Function.comp_def]

/-- They load the eight bytes from the offset on. -/
@[simp]
theorem loads_readWord (offset : Nat) :
    (readWord offset).loads buf =
      (List.range 8).map fun index => offset + index := by
  simp [readWord]

/-- The loop with loads computes what the loop computes. -/
theorem run_readMacLoop
    (rk : RoundKeys)
    (len : Int)
    (i : Nat)
    (mac : Block) :
    (readMacLoop rk len i mac).run buf = cbcMacLoop rk buf len i mac := by
  induction i, mac using cbcMacLoop.induct rk buf len with
  | case1 i mac running absorbed enciphered fits inductionHypothesis =>
      rw [readMacLoop, cbcMacLoop, if_pos running, if_pos running]
      simpa [fits] using inductionHypothesis
  | case2 i mac running overflow =>
      rw [readMacLoop, cbcMacLoop, if_pos running, if_pos running]
      simp [overflow]
  | case3 i mac finished =>
      rw [readMacLoop, cbcMacLoop, if_neg finished, if_neg finished]
      rfl

/-- The program computes what `calc_sig` computes. -/
@[simp]
theorem run_readSig (len : Int) :
    (readSig len).run buf = calcSig buf len := by
  simp [readSig, readMac, calcSig, aes128CbcMac, run_readMacLoop]

/-- The addresses that a block is loaded from. -/
theorem mem_loads_readBlock (offset address : Nat) :
    address ∈ (readBlock offset).loads buf ↔
      offset ≤ address ∧ address < offset + 16 := by
  simp only [loads_readBlock, List.mem_map, List.mem_range]
  constructor
  · rintro ⟨index, inRange, rfl⟩
    omega
  · rintro ⟨above, below⟩
    exact ⟨address - offset, by omega, by omega⟩

/-- Each remaining round of the loop reads one block. -/
theorem mem_loads_readMacLoop
    (rk : RoundKeys)
    {len : Int}
    (isInt : len ≤ intMax)
    {index count : Nat}
    (rounds : cbcMacRounds len = index + count)
    (mac : Block)
    (address : Nat) :
    address ∈ (readMacLoop rk len (16 * index + 16) mac).loads buf ↔
      16 * index ≤ address ∧ address < 16 * (index + count) := by
  simp only [cbcMacRounds, intMax] at rounds isInt
  induction count generalizing index mac with
  | zero =>
      have finished : ¬ ((16 * index + 16 : Nat) : Int) < len := by
        omega
      rw [readMacLoop, if_neg finished]
      simp only [Program.loads_pure, List.not_mem_nil, false_iff]
      omega
  | succ count inductionHypothesis =>
      have running : ((16 * index + 16 : Nat) : Int) < len := by
        omega
      rw [readMacLoop, if_pos running]
      simp only [Program.loads_bind, List.mem_append, mem_loads_readBlock,
        run_readBlock, Nat.add_sub_cancel]
      by_cases fits : 16 * index + 16 + 16 ≤ intMax
      · rw [if_pos fits,
          show 16 * index + 16 + 16 = 16 * (index + 1) + 16 by omega,
          @inductionHypothesis (index + 1) (by omega)]
        omega
      · rw [if_neg fits]
        simp only [intMax] at fits
        simp only [Program.loads_pure, List.not_mem_nil, or_false]
        omega

/-- How many bytes `calc_sig` reads: never less than one block. -/
def sigReads (len : Int) : Nat :=
  max 16 (16 * cbcMacRounds len)

/-- `calc_sig` loads exactly its first `sigReads` bytes. -/
theorem mem_loads_readSig
    {len : Int}
    (isInt : len ≤ intMax)
    (address : Nat) :
    address ∈ (readSig len).loads buf ↔ address < sigReads len := by
  have entry (mac : Block) :
      address ∈ (readMacLoop macRk len 16 mac).loads buf ↔
        16 * 0 ≤ address ∧ address < 16 * (0 + cbcMacRounds len) :=
    mem_loads_readMacLoop buf macRk isInt (Nat.zero_add _).symm mac address
  rw [readSig, readMac, Program.loads_bind, List.mem_append,
    mem_loads_readBlock, run_readBlock, entry, sigReads, lt_max_iff]
  omega

end Results

section Verification

/-- The request reaches the comparison of the signatures. -/
def Verifies (pmp : Cap) (words : Words) : Prop :=
  pmp.type = .pmp ∧ words[3]! &&& 0x02 = 0 ∧ words[3]! &&& 0x04 ≠ 0

/-- It can be decided from the capability and the words. -/
instance (pmp : Cap) (words : Words) : Decidable (Verifies pmp words) :=
  inferInstanceAs (Decidable (_ ∧ _))

/-- The program computes what the checks compute. -/
theorem run_readUpdate (pmp : Cap) (words : Words) (mem : Memory) :
    (readUpdate pmp words).run mem = checkUpdate pmp words mem := by
  have bytes (ptr : Word) :
      (fun offset => mem (place ptr offset)) = bytesAt mem ptr :=
    rfl
  cases pmp with
  | pmp addr cfg =>
      unfold readUpdate checkUpdate
      dsimp only
      split
      · rfl
      · split
        · simp only [Program.run_bind, Program.run_relocate, run_readWord,
            run_readSig, bytes]
          rw [codeSignature, codeLen, codeSize]
          generalize calcSig (bytesAt mem (ptrCode words))
            (toInt (loadWord (bytesAt mem (ptrSig words)) 0x10)) = computed
          cases computed with
          | none =>
              rfl
          | some signature =>
              have given :
                  blockAt (bytesAt mem (ptrSig words)) 0 =
                    givenSignature words mem :=
                rfl
              simp only [Program.run_bind, Program.run_relocate,
                run_readBlock, bytes, given]
              by_cases differ :
                  compSig (givenSignature words mem) signature ≠ 1
              · rw [if_pos differ, if_pos differ, Program.run_pure]
              · rw [if_neg differ, if_neg differ, Program.run_pure]
        · rfl
  | _ =>
      rfl

variable
  {pmp : Cap}
  {words : Words}
  (mem : Memory)

/-- Without a comparison nothing is read. -/
theorem loads_readUpdate_of_not_verifies
    (notVerifies : ¬ Verifies pmp words) :
    (readUpdate pmp words).loads mem = [] := by
  cases pmp with
  | pmp addr cfg =>
      unfold readUpdate
      dsimp only
      split
      · rfl
      · next notBoth =>
        split
        · next asksX =>
          have noW : words[3]! &&& 0x02 = 0 := by
            by_contra asksW
            exact notBoth ⟨asksW, asksX⟩
          exact absurd ⟨rfl, noW, asksX⟩ notVerifies
        · rfl
  | _ =>
      rfl

/-- The size word lies in bytes `0x10` to `0x17`. -/
theorem mem_loads_sizeWord (bytes : Nat → Byte) (ptr address : Word) :
    address ∈ ((readWord 0x10).loads bytes).map (place ptr) ↔
      ∃ offset, 0x10 ≤ offset ∧ offset < 0x18 ∧
        place ptr offset = address := by
  simp only [loads_readWord, List.mem_map, List.mem_range]
  constructor
  · rintro ⟨offset, ⟨index, inRange, rfl⟩, rfl⟩
    exact ⟨_, by omega, by omega, rfl⟩
  · rintro ⟨offset, above, below, rfl⟩
    exact ⟨offset, ⟨offset - 0x10, by omega, by omega⟩, rfl⟩

/--
The size word is read, then what `calc_sig` reads, and then, if `calc_sig`
returns, the signature.
-/
theorem mem_loads_readUpdate
    (verifies : Verifies pmp words)
    (address : Word) :
    address ∈ (readUpdate pmp words).loads mem ↔
      (∃ offset, 0x10 ≤ offset ∧ offset < 0x18 ∧
          place (ptrSig words) offset = address) ∨
      (∃ offset, offset < sigReads (codeLen words mem) ∧
          place (ptrCode words) offset = address) ∨
      codeSignature words mem ≠ none ∧
        ∃ offset, offset < 0x10 ∧ place (ptrSig words) offset = address := by
  obtain ⟨isPmp, noW, asksX⟩ := verifies
  obtain ⟨addr, cfg, rfl⟩ := (Cap.type_eq_pmp_iff pmp).mp isPmp
  have notBoth : ¬ (words[3]! &&& 0x02 ≠ 0 ∧ words[3]! &&& 0x04 ≠ 0) :=
    fun both => both.1 noW
  have bytes (ptr : Word) :
      (fun offset => mem (place ptr offset)) = bytesAt mem ptr :=
    rfl
  have code :
      address ∈
          ((readSig (codeLen words mem)).loads
            (bytesAt mem (ptrCode words))).map (place (ptrCode words)) ↔
        ∃ offset, offset < sigReads (codeLen words mem) ∧
          place (ptrCode words) offset = address := by
    simp only [List.mem_map, mem_loads_readSig _ (toInt_le_intMax _), codeLen]
  have given :
      address ∈
          ((readBlock 0).loads (bytesAt mem (ptrSig words))).map
            (place (ptrSig words)) ↔
        ∃ offset, offset < 0x10 ∧ place (ptrSig words) offset = address := by
    simp only [List.mem_map, mem_loads_readBlock, Nat.zero_le, true_and,
      Nat.zero_add]
  have size :
      toInt (loadWord (bytesAt mem (ptrSig words)) 0x10) =
        codeLen words mem :=
    rfl
  unfold readUpdate
  dsimp only
  rw [if_neg notBoth, if_pos asksX]
  simp only [Program.loads_bind, Program.loads_relocate, Program.run_relocate,
    run_readWord, run_readSig, bytes, size, List.mem_append,
    mem_loads_sizeWord, code]
  have computed :
      calcSig (bytesAt mem (ptrCode words)) (codeLen words mem) =
        codeSignature words mem :=
    rfl
  rw [computed]
  cases codeSignature words mem with
  | none =>
      simp
  | some signature =>
      simp only [Program.loads_bind, Program.loads_relocate, bytes,
        List.mem_append, given]
      have rest (differ : Prop) [Decidable differ] (first second : Verdict) :
          (if differ then pure first
            else pure second : Program Word Byte Verdict).loads mem = [] := by
        split <;> rfl
      rw [rest]
      simp

end Verification

section Loop

/-- What a pass of `loop` reads when it verifies code. -/
def loopReads
    (s3k : S3k)
    (request : Request)
    (monitor : Monitor) :
    List Word :=
  let received := receive s3k request monitor
  if received.recvBuf[0]! = 0x02 then
    (readUpdate (capmanGet (capmanUpdate received.world) flightSlot)
      received.recvBuf).loads received.world.mem
  else
    []

/--
Header and code lie in the memory of the app, with as many bytes as `calc_sig`
reads for the size, and neither begins before it nor wraps around.
-/
def ReadsFit (words : Words) (mem : Memory) : Prop :=
  appBase ≤ ptrSig words ∧
    (ptrSig words).toNat + 0x20 + sigReads (codeLen words mem) ≤
      (appBase + appSize).toNat

/-- The region of the app as numbers. -/
theorem mem_appRegion_iff (address : Word) :
    address ∈ appRegion ↔
      0x80020000 ≤ address.toNat ∧ address.toNat < 0x80030000 := by
  simp only [appRegion, mem_region, appBase, appSize]
  bv_omega

/-- An address behind a pointer, with its wrap-around. -/
theorem toNat_place
    (ptr : Word)
    {offset : Nat}
    (small : offset < 2 ^ 64) :
    (place ptr offset).toNat = (ptr.toNat + offset) % 2 ^ 64 := by
  rw [place, BitVec.toNat_add, BitVec.toNat_ofNat, Nat.mod_eq_of_lt small]

/-- `calc_sig` reads less than 4 GiB. -/
theorem sigReads_lt (words : Words) (mem : Memory) :
    sigReads (codeLen words mem) < 2 ^ 32 := by
  have isInt := toInt_le_intMax (codeSize words mem)
  simp only [sigReads, cbcMacRounds, codeLen, intMax] at isInt ⊢
  omega

/-- `calc_sig` returns if it reads no more than the app has. -/
theorem codeSignature_ne_none
    {words : Words}
    {mem : Memory}
    (fits : sigReads (codeLen words mem) ≤ 0x10000) :
    codeSignature words mem ≠ none := by
  have defined : codeLen words mem + 15 ≤ intMax := by
    simp only [sigReads, cbcMacRounds, intMax] at fits ⊢
    omega
  have isInt : codeLen words mem ≤ intMax :=
    toInt_le_intMax _
  rw [codeSignature, calcSig_eq _ isInt, if_pos defined]
  exact Option.some_ne_none _

/-- A verification stays in the memory of the app exactly when it fits. -/
theorem readUpdate_inside_iff
    {pmp : Cap}
    {words : Words}
    (verifies : Verifies pmp words)
    (mem : Memory) :
    (∀ address ∈ (readUpdate pmp words).loads mem, address ∈ appRegion) ↔
      ReadsFit words mem := by
  have bound := sigReads_lt words mem
  have atLeast : 16 ≤ sigReads (codeLen words mem) :=
    Nat.le_max_left _ _
  have isCode :
      (ptrCode words).toNat = ((ptrSig words).toNat + 0x20) % 2 ^ 64 :=
    BitVec.toNat_add _ _
  have appEnd : (appBase + appSize).toNat = 0x80030000 := by
    decide
  have appStart : appBase.toNat = 0x80020000 := by
    decide
  rw [ReadsFit, BitVec.le_def, appEnd, appStart]
  constructor
  · intro inside
    have code
        {offset : Nat}
        (isRead : offset < sigReads (codeLen words mem)) :
        0x80020000 ≤ ((ptrCode words).toNat + offset) % 2 ^ 64 ∧
          ((ptrCode words).toNat + offset) % 2 ^ 64 < 0x80030000 := by
      rw [← toNat_place _ (by omega), ← mem_appRegion_iff]
      exact inside _
        ((mem_loads_readUpdate mem verifies _).mpr
          (Or.inr (Or.inl ⟨offset, isRead, rfl⟩)))
    have first := @code 0 (by omega)
    -- the first byte behind the app would be read, too
    have codeFits :
        (ptrCode words).toNat + sigReads (codeLen words mem) ≤
          0x80030000 := by
      by_contra tooLong
      have behind := @code (0x80030000 - (ptrCode words).toNat) (by omega)
      omega
    have returns : codeSignature words mem ≠ none :=
      codeSignature_ne_none (by omega)
    have given :
        0x80020000 ≤ ((ptrSig words).toNat + 0) % 2 ^ 64 ∧
          ((ptrSig words).toNat + 0) % 2 ^ 64 < 0x80030000 := by
      rw [← toNat_place _ (by omega), ← mem_appRegion_iff]
      exact inside _
        ((mem_loads_readUpdate mem verifies _).mpr
          (Or.inr (Or.inr ⟨returns, 0, by omega, rfl⟩)))
    omega
  · rintro ⟨above, fits⟩ address member
    rw [mem_appRegion_iff]
    rcases (mem_loads_readUpdate mem verifies address).mp member with
      ⟨offset, _, _, rfl⟩ | ⟨offset, _, rfl⟩ | ⟨-, offset, _, rfl⟩
    · rw [toNat_place _ (by omega)]
      omega
    · rw [toNat_place _ (by omega)]
      omega
    · rw [toNat_place _ (by omega)]
      omega

/--
While `loop` verifies code for a request with opcode `0x02`, it reads inside
the memory of the app exactly when header and code fit there, for every
pointer, every size and every content of the memory.
-/
theorem loopReads_inside_iff
    (s3k : S3k)
    (request : Request)
    (monitor : Monitor) :
    (∀ address ∈ loopReads s3k request monitor, address ∈ appRegion) ↔
      ((receive s3k request monitor).recvBuf[0]! = 0x02 →
        Verifies
          (capmanGet (capmanUpdate (receive s3k request monitor).world)
            flightSlot)
          (receive s3k request monitor).recvBuf →
        ReadsFit (receive s3k request monitor).recvBuf request.mem) := by
  have memory : (receive s3k request monitor).world.mem = request.mem :=
    rfl
  rw [loopReads]
  by_cases isUpdate : (receive s3k request monitor).recvBuf[0]! = 0x02
  · rw [if_pos isUpdate]
    by_cases verifies :
        Verifies
          (capmanGet (capmanUpdate (receive s3k request monitor).world)
            flightSlot)
          (receive s3k request monitor).recvBuf
    · rw [readUpdate_inside_iff verifies, memory]
      exact ⟨fun fits _ _ => fits, fun fits => fits isUpdate verifies⟩
    · rw [loads_readUpdate_of_not_verifies _ verifies]
      exact iff_of_true (by simp) fun _ isVerified =>
        absurd isVerified verifies
  · rw [if_neg isUpdate]
    exact iff_of_true (by simp) fun same => absurd same isUpdate

/-- The request for executable rights whose code is said to lie at address 0. -/
def nullRequest : Request :=
  { writeRequest with words := writeRequest.words.setIfInBounds 3 0x5 }

/-- The monitor then reads its size word from address `0x10`. -/
theorem nullRequest_reads_outside :
    ¬ ∀ (s3k : S3k) (request : Request) (monitor : Monitor),
        (receive s3k request monitor).recvBuf[0]! = 0x02 →
        (receive s3k request monitor).recvBuf[3]! &&& 0x04 ≠ 0 →
        ∀ address ∈ loopReads s3k request monitor, address ∈ appRegion := by
  intro always
  have words :
      (receive (S3k.generous fun _ _ => false) nullRequest
        heapMonitor).recvBuf = nullRequest.words := by
    decide
  have arrived :
      capmanGet
          (capmanUpdate
            (receive (S3k.generous fun _ _ => false) nullRequest
              heapMonitor).world)
          flightSlot =
        .pmp (s3kPmpNapotAddr 0x80023000 0x80024000) 0x1 := by
    rw [capmanGet, capmanUpdate_caps _ (by decide)]
    decide
  have inside :=
    always (S3k.generous fun _ _ => false) nullRequest heapMonitor
      (by rw [words]; decide) (by rw [words]; decide) (place 0 0x10)
  rw [loopReads, arrived, words, if_pos (by decide),
    mem_loads_readUpdate _ (by decide), mem_appRegion_iff] at inside
  have read := inside (Or.inl ⟨0x10, by decide, by decide, rfl⟩)
  exact absurd read (by decide)

end Loop

end S3kMonitor
