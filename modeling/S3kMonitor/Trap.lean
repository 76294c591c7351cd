import S3kMonitor.Altmem
import S3kMonitor.Ipc
import S3kMonitor.Setup

namespace S3kMonitor

/-!
# The trap handler of `app/trap.c`

An exception of the app ends in `trap_handler`, which reads the virtual
registers and either serves the fault or resets the app.  What the monitor
contributes to a request, its reply and the capabilities that it leaves, is a
parameter.  The log lines and the yields to the monitor are left out.
-/

/-- The addresses that the linker gives to the symbols of the app. -/
structure AppLink where
  start : Word
  stack : Word
  stackTop : Word
  loop : Word
  setup : Word

/-- What the app sends on its socket. -/
inductive AppSend where
  | request (call : UpdateCall)
  | notice (notice : Notice)

/-- The app at an exception, with what it has sent, the latest first. -/
structure App where
  altmem : Altmem
  caps : Nat → Cap
  buf : Words
  epc : Word
  ecause : Word
  eval : Word
  esp : Word
  sends : List AppSend

/-- The message of the monitor and the capabilities of the app at that time. -/
structure Reply where
  words : Words
  caps : Nat → Cap

/-- `int` to `uint64_t`. -/
def toWord (value : Int) : Word :=
  BitVec.ofInt 64 value

namespace App

variable (app : App)

/-- The virtual registers as the kernel sets them at an exception. -/
def raise (epc ecause eval esp : Word) : App :=
  { app with epc := epc, ecause := ecause, eval := eval, esp := esp }

/-- `buf[0] = code; s3k_send(soccaps[0], buf, -1ull, false)`. -/
def notify (notice : Notice) : App :=
  { app with
    buf := app.buf.setIfInBounds 0 notice.code
    sends := .notice notice :: app.sends }

/-- `th_updatepmp_rw` and `th_updatepmp_rx`, which return `buf[0]`. -/
def updatepmp (reply : Reply) (call : UpdateCall) : Int × App :=
  (toInt reply.words[0]!,
    { app with
      caps := reply.caps
      buf := reply.words
      sends := .request call :: app.sends })

/-- The capability that the app has for a chunk. -/
def existingPmp (i : Word) : Nat :=
  let v := altmemGetStart app.altmem (toInt i)
  toIndex
    (capmanFindExistingPmp app.caps v
      (v + altmemGetSize app.altmem (toInt i)))

end App

section Handler

variable
  (link : AppLink)
  (reply : Reply)
  (app : App)

/-- `th_softreset` of trap.c: back to the main loop with a fresh stack. -/
def thSoftreset : App :=
  { app with epc := link.loop, esp := link.stackTop }.notify .failedException

/--
`th_hardreset` of trap.c: back to the start of the app with a fresh stack.
-/
def thHardreset : App :=
  { app with epc := link.setup, esp := link.stackTop }.notify .failedException

/-- The table is changed before the monitor is asked. -/
def thStackexpansion (esp : Word) : Int × App :=
  let expansion := altmemStackexpansion app.altmem esp
  let app := { app with altmem := expansion.2 }
  if expansion.1 then
    let i := toWord (altmemFindchunk app.altmem esp)
    app.updatepmp reply (.rw (app.existingPmp i) s3kRw)
  else
    (1, app)

/-- `etemp` decides between a soft reset and the end of the handler. -/
def concludeUpdate (update : Int × App) : App :=
  let etemp := toWord update.1
  if etemp ≠ 0 then
    thSoftreset link update.2
  else
    update.2.notify .handledException

/-- Case 1 of the switch. -/
def instructionFault : App :=
  if app.epc < link.start ∨ app.epc ≥ link.stack then
    thSoftreset link app
  else
    let itemp := toWord (altmemFindchunk app.altmem app.epc)
    if itemp = -1 then
      thSoftreset link app
    else if altmemIsoccupied app.altmem (toInt itemp) ≤ 0 then
      thSoftreset link app
    else
      let vtemp := altmemGetStart app.altmem (toInt itemp)
      concludeUpdate link
        (app.updatepmp reply (.rx (app.existingPmp itemp) vtemp 0x5))

/-- Case 7 of the switch, which serves the stack before the heap. -/
def storeFault : App :=
  if app.esp ≤ link.stack then
    concludeUpdate link (thStackexpansion reply app app.esp)
  else
    let itemp := toWord (altmemFindchunk app.altmem app.eval)
    if itemp = -1 then
      thSoftreset link app
    else if altmemIsoccupied app.altmem (toInt itemp) = -1 then
      thSoftreset link app
    else
      concludeUpdate link
        (app.updatepmp reply (.rw (app.existingPmp itemp) s3kRw))

/-- The default case breaks out of the switch, so two messages are sent. -/
def trapHandler : App :=
  if app.ecause = 1 then
    instructionFault link reply app
  else if app.ecause = 5 then
    thSoftreset link app
  else if app.ecause = 7 then
    storeFault link reply app
  else
    (thHardreset link app).notify .handledException

end Handler

section Table

variable
  (link : AppLink)
  (reply : Reply)
  (app : App)

/-- An exception leaves the table as it is. -/
@[simp]
theorem raise_altmem (epc ecause eval esp : Word) :
    (app.raise epc ecause eval esp).altmem = app.altmem :=
  rfl

/-- A notice leaves the table as it is. -/
@[simp]
theorem notify_altmem (notice : Notice) :
    (app.notify notice).altmem = app.altmem :=
  rfl

/-- An update call leaves the table as it is. -/
@[simp]
theorem updatepmp_altmem (call : UpdateCall) :
    (app.updatepmp reply call).2.altmem = app.altmem :=
  rfl

/-- A soft reset leaves the table as it is. -/
@[simp]
theorem thSoftreset_altmem :
    (thSoftreset link app).altmem = app.altmem :=
  rfl

/-- A hard reset leaves the table as it is. -/
@[simp]
theorem thHardreset_altmem :
    (thHardreset link app).altmem = app.altmem :=
  rfl

/-- The reply to an update leaves the table as it is. -/
@[simp]
theorem concludeUpdate_altmem (update : Int × App) :
    (concludeUpdate link update).altmem = update.2.altmem := by
  simp only [concludeUpdate]
  split <;> simp

/-- A stack expansion writes the table as `altmem_stackexpansion` does. -/
@[simp]
theorem thStackexpansion_altmem (esp : Word) :
    (thStackexpansion reply app esp).2.altmem =
      (altmemStackexpansion app.altmem esp).2 := by
  simp only [thStackexpansion]
  split <;> simp

/-- An instruction fault leaves the table as it is. -/
@[simp]
theorem instructionFault_altmem :
    (instructionFault link reply app).altmem = app.altmem := by
  simp only [instructionFault]
  split_ifs <;> simp

/-- A store fault writes the table only below the stack. -/
theorem storeFault_altmem :
    (storeFault link reply app).altmem =
      if app.esp ≤ link.stack then
        (altmemStackexpansion app.altmem app.esp).2
      else
        app.altmem := by
  simp only [storeFault]
  split_ifs <;> simp

/-- Only a store fault with the stack below its area changes the table. -/
theorem trapHandler_altmem :
    (trapHandler link reply app).altmem =
      if app.ecause = 7 ∧ app.esp ≤ link.stack then
        (altmemStackexpansion app.altmem app.esp).2
      else
        app.altmem := by
  simp only [trapHandler]
  by_cases isInstruction : app.ecause = 1
  · rw [if_pos isInstruction, if_neg (by simp [isInstruction])]
    exact instructionFault_altmem link reply app
  · rw [if_neg isInstruction]
    by_cases isLoad : app.ecause = 5
    · rw [if_pos isLoad, if_neg (by simp [isLoad])]
      rfl
    · rw [if_neg isLoad]
      by_cases isStore : app.ecause = 7
      · rw [if_pos isStore, storeFault_altmem]
        simp [isStore]
      · rw [if_neg isStore, if_neg (fun both => isStore both.1)]
        rfl

/--
The handler writes the table only at a store fault with the stack at its end.
-/
theorem trapHandler_raise_altmem (epc ecause eval esp : Word) :
    (trapHandler link reply (app.raise epc ecause eval esp)).altmem =
      if ecause = 7 ∧ esp ≤ link.stack then
        (altmemStackexpansion app.altmem esp).2
      else
        app.altmem :=
  trapHandler_altmem link reply (app.raise epc ecause eval esp)

/-- The expansion succeeds if the chunk was free and the monitor agreed. -/
theorem thStackexpansion_succeeds_iff (esp : Word) :
    (thStackexpansion reply app esp).1 = 0 ↔
      (altmemStackexpansion app.altmem esp).1 = true ∧
        toInt reply.words[0]! = 0 := by
  simp only [thStackexpansion]
  by_cases expanded : (altmemStackexpansion app.altmem esp).1 = true
  · rw [if_pos expanded]
    simp only [expanded, true_and]
    exact Iff.rfl
  · rw [if_neg expanded]
    simp [expanded]

end Table

end S3kMonitor
