import S3kMonitor.Loop

namespace S3kMonitor

/-!
# Executable rights and authenticated code

A request for executable rights names a capability and, independently of it,
the address of a signature with its size and code.  This module relates the
bytes that are authenticated to the region that becomes executable.
-/

/-- The signature, the size word and the code that a request points to. -/
def checkedSpan (words : Words) (mem : Memory) : Set Word :=
  span (ptrSig words) (0x20 + (codeSize words mem).toNat)

/--
If the request makes the region of the capability executable, then what was
checked lies in that region, and all of the code was read for it.
-/
def GrantsOnlyChecked (pmp : Cap) (words : Words) (mem : Memory) : Prop :=
  ∀ start stop rwx,
    checkUpdate pmp words mem = .update start stop rwx →
    rwx &&& 0x04 ≠ 0 →
    checkedSpan words mem ⊆ region start stop ∧
      codeLen words mem = (codeSize words mem).toNat

/--
The request asks for executable rights only and comes with the signature that
`calc_sig` computes for its code.
-/
def SignedForX (words : Words) (mem : Memory) : Prop :=
  words[3]! &&& 0x04 ≠ 0 ∧ words[3]! &&& 0x02 = 0 ∧
    codeSignature words mem = some (givenSignature words mem)

/--
The checks let `X` pass exactly for signed code, for the region that came.
-/
theorem checkUpdate_grants_x_iff
    (addr cfg : Word)
    (words : Words)
    (mem : Memory)
    (start stop rwx : Word) :
    checkUpdate (.pmp addr cfg) words mem = .update start stop rwx ∧
        rwx &&& 0x04 ≠ 0 ↔
      start = s3kPmpNapotBegin addr ∧ stop = s3kPmpNapotEnd addr ∧
        rwx = words[3]! ∧ SignedForX words mem := by
  rw [checkUpdate_eq_update_iff]
  constructor
  · rintro ⟨⟨⟨_, _, same, startEq, stopEq⟩, rfl, notBoth, signed⟩, asksX⟩
    cases same
    refine ⟨startEq, stopEq, rfl, asksX, ?_, signed asksX⟩
    by_contra asksW
    exact notBoth ⟨asksW, asksX⟩
  · rintro ⟨rfl, rfl, rfl, asksX, noW, signed⟩
    exact ⟨⟨⟨addr, cfg, rfl, rfl, rfl⟩, rfl, fun both => both.1 noW,
      fun _ => signed⟩, asksX⟩

/--
Executable rights go to authenticated bytes exactly when the request is not
granted, or its code lies in the region of the capability and its size is not
changed by the narrowing to `int`.
-/
theorem grantsOnlyChecked_iff
    (addr cfg : Word)
    (words : Words)
    (mem : Memory) :
    GrantsOnlyChecked (.pmp addr cfg) words mem ↔
      (SignedForX words mem →
        SpanFits (s3kPmpNapotBegin addr) (s3kPmpNapotEnd addr)
            (ptrSig words) (0x20 + (codeSize words mem).toNat) ∧
          (codeSize words mem).toNat < 2 ^ 31) := by
  have granted :=
    checkUpdate_grants_x_iff addr cfg words mem (s3kPmpNapotBegin addr)
      (s3kPmpNapotEnd addr) words[3]!
  constructor
  · intro onlyChecked signed
    obtain ⟨updated, asksX⟩ := granted.mpr ⟨rfl, rfl, rfl, signed⟩
    obtain ⟨inside, allRead⟩ := onlyChecked _ _ _ updated asksX
    exact ⟨(span_subset_region_iff (by omega)).mp inside,
      (toInt_eq_toNat_iff _).mp allRead⟩
  · intro fits start stop rwx updated asksX
    obtain ⟨rfl, rfl, rfl, signed⟩ :=
      (checkUpdate_grants_x_iff addr cfg words mem start stop rwx).mp
        ⟨updated, asksX⟩
    obtain ⟨inside, small⟩ := fits signed
    exact ⟨(span_subset_region_iff (by omega)).mpr inside,
      (toInt_eq_toNat_iff _).mpr small⟩

section SignedElsewhere

/-- Sixteen zero bytes of code at `ptr + 0x20`, signed and with their size. -/
def signedZeros (ptr : Word) : Memory := fun address =>
  let offset := (address - ptr).toNat
  if inRange : offset < 16 then
    (cbcMacChain macRk (fun _ => 0) 0)[offset]
  else if offset = 16 then
    0x10
  else
    0

/-- A request for RX that points to code at the start of the app's memory. -/
def signedRequest : Words :=
  #v[0x02, 0x80020000, 0, 0x5]

/-- What stands in front of the zeros. -/
theorem givenSignature_signedZeros :
    givenSignature signedRequest (signedZeros 0x80020000) =
      cbcMacChain macRk (fun _ => 0) 0 := by
  apply Vector.ext
  intro index inRange
  have offset :
      ((0x80020000 : Word) + BitVec.ofNat 64 (0 + index) - 0x80020000).toNat =
        index := by
    bv_omega
  have pointer : ptrSig signedRequest = 0x80020000 := rfl
  simp only [givenSignature, blockAt, bytesAt, pointer, signedZeros,
    Vector.getElem_ofFn, offset, inRange, dif_pos]

/-- Their size is one block. -/
theorem codeSize_signedZeros :
    codeSize signedRequest (signedZeros 0x80020000) = 16 := by
  decide +kernel

/-- What the monitor computes over them. -/
theorem codeSignature_signedZeros :
    codeSignature signedRequest (signedZeros 0x80020000) =
      some (cbcMacChain macRk (fun _ => 0) 0) := by
  have sixteen : codeLen signedRequest (signedZeros 0x80020000) = 16 := by
    rw [codeLen, codeSize_signedZeros]
    rfl
  have zeros :
      blockAt (bytesAt (signedZeros 0x80020000) (ptrCode signedRequest)) 0 =
        blockAt (fun _ => 0) 0 := by
    decide +kernel
  have noRounds : cbcMacRounds 16 = 0 := by
    decide
  rw [codeSignature, sixteen, calcSig_eq _ (by decide), if_pos (by decide),
    noRounds]
  simp only [cbcMacChain, zeros, List.range_zero, List.map_nil]

/--
The signed code is in the first page of the app and the capability covers its
fourth one, which becomes executable with whatever it holds.
-/
theorem signed_elsewhere_grants_x :
    ¬ ∀ (addr cfg : Word) (words : Words) (mem : Memory),
        GrantsOnlyChecked (.pmp addr cfg) words mem := by
  intro always
  have onlyChecked :=
    always (s3kPmpNapotAddr 0x80023000 0x80024000) 0x3 signedRequest
      (signedZeros 0x80020000)
  have signed : SignedForX signedRequest (signedZeros 0x80020000) := by
    refine ⟨by decide, by decide, ?_⟩
    rw [codeSignature_signedZeros, givenSignature_signedZeros]
  obtain ⟨updated, asksX⟩ :=
    (checkUpdate_grants_x_iff _ 0x3 _ _ _ _ _).mpr ⟨rfl, rfl, rfl, signed⟩
  obtain ⟨inside, -⟩ := onlyChecked _ _ _ updated asksX
  have member : (0x80020000 : Word) ∈ region
      (s3kPmpNapotBegin (s3kPmpNapotAddr 0x80023000 0x80024000))
      (s3kPmpNapotEnd (s3kPmpNapotAddr 0x80023000 0x80024000)) :=
    inside ⟨0, by omega, rfl⟩
  exact absurd member.1 (by decide)

end SignedElsewhere

end S3kMonitor
