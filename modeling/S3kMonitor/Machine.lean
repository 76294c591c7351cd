import Mathlib.Data.BitVec

namespace S3kMonitor

/-!
# Machine words and memory

The C types the sources compute with.  `uint8_t` and `uint64_t` are bit
vectors; an `int` is an integer kept in the range of 32-bit two's complement.
The constants are those of `inc/base.h`, `misc/config.h` and
`monitor/monitor.c`.
-/

/-- `uint8_t`. -/
abbrev Byte := BitVec 8

/-- `uint64_t`, which is also the type of an address. -/
abbrev Word := BitVec 64

/-- What a load of one byte from each address gives. -/
abbrev Memory := Word → Byte

/-- `INT_MAX`. -/
def intMax : Nat := 2 ^ 31 - 1

/-- A 64-bit value passed where an `int` is expected. -/
def toInt (value : Word) : Int :=
  (value.setWidth 32).toInt

/-- `APP_BASE`. -/
def appBase : Word := 0x80020000

/-- `APP_SIZE`. -/
def appSize : Word := 0x10000

/-- `CHUNK_SIZE`. -/
def chunkSize : Word := 0x1000

/-- The base of the UART. -/
def uartBase : Word := 0x10000000

/-- Number of capability slots of a process. -/
def ncap : Nat := 64

/-- The process of the monitor. -/
def monitorPid : Nat := 0

/-- The process of the app. -/
def appPid : Nat := 1

/-- The bytes of a signature. -/
def signatureSize : Nat := 16

/-- The bytes of the header, its signature included. -/
def headerSize : Nat := 512

/-- Narrowing to `int` keeps the low 32 bits. -/
theorem toInt_eq_bmod (value : Word) :
    toInt value = (value.toNat : Int).bmod (2 ^ 32) := by
  rw [toInt, BitVec.toInt_eq_toNat_bmod, BitVec.toNat_setWidth, Int.natCast_emod]
  exact Int.emod_bmod _ _

/-- A length below `2^31` survives the narrowing to `int`. -/
theorem toInt_of_lt
    {value : Word}
    (small : value.toNat < 2 ^ 31) :
    toInt value = value.toNat := by
  rw [toInt_eq_bmod, Int.bmod_eq_of_le] <;> omega

/-- An `int` never exceeds `INT_MAX`. -/
theorem toInt_le_intMax (value : Word) :
    toInt value ≤ intMax := by
  have bound := @BitVec.toInt_lt 32 (value.setWidth 32)
  simp only [toInt, intMax]
  omega

/-- Narrowing to `int` never makes a value larger. -/
theorem toInt_le_toNat (value : Word) :
    toInt value ≤ value.toNat := by
  rw [toInt_eq_bmod]
  rw [Int.bmod_def]
  split <;> omega

/-- Only lengths below `2^31` pass the narrowing unchanged. -/
theorem toInt_eq_toNat_iff (value : Word) :
    toInt value = value.toNat ↔ value.toNat < 2 ^ 31 := by
  constructor
  · intro same
    have bound := toInt_le_intMax value
    simp only [intMax] at bound
    omega
  · exact toInt_of_lt

end S3kMonitor
