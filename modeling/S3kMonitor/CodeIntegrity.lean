import S3kMonitor.Ipc
import S3kMonitor.CodeReads
import S3kMonitor.ExecutableRights
import S3kMonitor.StaticRights

namespace S3kMonitor

open Runs Holdings

/-!
# Integrity of executable memory

Here the app is any program that its capabilities hold: it writes where one of
them has `W`, moves and deletes them, and sends what it likes.  Whatever the
interleaving with the monitor, memory becomes executable only in a pass in
which a signature verifies, and as long as it is executable the app cannot
change it.
-/

/-- What the capabilities of the app grant, slot by slot. -/
def appGrants (slots : Nat → Cap) (slot : Fin ncap) :
    Option (Grant Word Word) :=
  (slots slot).grant

/-- The app writes where it may, and makes no capability of its own. -/
structure Works (world : World) (mem : Memory) (slots : Nat → Cap) :
    Prop where
  writes :
    ∀ address, mem address ≠ world.mem address →
      Permits (appGrants (world.kernel.table appPid)) 0x2 address
  keeps :
    Descends (fun _ _ => False) (appGrants (world.kernel.table appPid))
      (appGrants slots)

namespace System

variable (system : System)

/-- The state with other contents of memory. -/
def withMem (mem : Memory) : System :=
  { system with
    monitor :=
      { system.monitor with world := { system.monitor.world with mem := mem } } }

/--
`s3k_send` of the app, with any words and with the capability in a slot: they
arrive if the monitor is blocked in its `s3k_recv`.
-/
def sent (words : Words) (idx : Nat) : System :=
  match system.monitorAt with
  | .receiving =>
      system.received words
        (system.monitor.world.kernel.transfer appPid idx monitorPid
          flightSlot)
  | _ => system

end System

/--
What happens next.  In `store` something else than the app writes: the monitor
its variables and its stack, or a device its registers.  In `handle` the loads
of the monitor have given the bytes of `seen`.
-/
inductive ConfinedLabel where
  | work (mem : Memory) (slots : Nat → Cap)
  | send (words : Words) (idx : Nat)
  | recv (idx : Nat)
  | store (mem : Memory)
  | monitorRecv
  | handle (seen : Memory)
  | monitorSend

/--
While the monitor handles a request, only bytes change that others write, or
that the app may write.
-/
def Sees (foreign : Set Word) (world : World) (seen : Memory) : Prop :=
  ∀ address ∉ foreign,
    ¬ Permits (appGrants (world.kernel.table appPid)) 0x2 address →
    seen address = world.mem address

/--
A step of either party in which the app is held to its capabilities.  Others
than the app write to the addresses in `foreign` only.  The app runs unless it
is blocked in its `s3k_recv`.
-/
inductive ConfinedStep (s3k : S3k) (foreign : Set Word) :
    ConfinedLabel → System → System → Prop where
  | work
      {system : System}
      (mem : Memory)
      (slots : Nat → Cap)
      (runs : ∀ idx, system.appAt ≠ .waiting idx)
      (works : Works system.monitor.world mem slots) :
      ConfinedStep s3k foreign (.work mem slots) system
        (system.work mem slots)
  | send
      {system : System}
      (words : Words)
      (idx : Nat)
      (runs : ∀ idx, system.appAt ≠ .waiting idx) :
      ConfinedStep s3k foreign (.send words idx) system
        (system.sent words idx)
  | recv
      {system : System}
      (idx : Nat)
      (runs : ∀ idx, system.appAt ≠ .waiting idx) :
      ConfinedStep s3k foreign (.recv idx) system
        { system with appAt := .waiting idx }
  | store
      {system : System}
      (mem : Memory)
      (elsewhere :
        ∀ address ∉ foreign, mem address = system.monitor.world.mem address) :
      ConfinedStep s3k foreign (.store mem) system (system.withMem mem)
  | monitorRecv
      {system : System}
      (enters : system.monitorAt = .entering)
      (isRunning : system.monitor.appRunning = true) :
      ConfinedStep s3k foreign .monitorRecv system
        { system with monitorAt := .receiving }
  | handle
      {system next : System}
      (seen : Memory)
      (hasReceived : system.monitorAt = .handling)
      (sees : Sees foreign system.monitor.world seen)
      (handled : (system.withMem seen).handle s3k = some next) :
      ConfinedStep s3k foreign (.handle seen) system
        (next.withMem system.monitor.world.mem)
  | monitorSend
      {system : System}
      (answer : Answer)
      (replies : system.monitorAt = .answering answer) :
      ConfinedStep s3k foreign .monitorSend system
        (system.monitorSend answer)

/-- The monitor has handled a request and changed the rights of its grant. -/
structure Regranted (system : System) (old new : Grant Word Word) :
    Prop where
  isRequest : system.monitor.recvBuf[0]! = 0x02
  attached : granted system.monitor.world.kernel .inFlight = some old
  sameArea : new.area = old.area
  notBoth : NotBoth new.rights
  signed :
    0x4 ∈ new.rights →
      SignedForX system.monitor.recvBuf system.monitor.world.mem

/-- So it does in one kind of steps, for what it has seen. -/
def Regrants
    (system : System)
    (label : ConfinedLabel)
    (old new : Grant Word Word) :
    Prop :=
  ∃ seen, label = .handle seen ∧ Regranted (system.withMem seen) old new

/-- Some capability of the app, or the one in flight, makes it executable. -/
def Executable (area : Set Word) (system : System) : Prop :=
  ∃ holder grant,
    granted system.monitor.world.kernel holder = some grant ∧
      grant.area = area ∧ 0x4 ∈ grant.rights

/-- The two states have the same bytes in the area. -/
def SameIn (area : Set Word) (first second : System) : Prop :=
  ∀ address ∈ area,
    second.monitor.world.mem address = first.monitor.world.mem address

/--
The monitor has made the area executable in a pass in which it has verified a
signature.  It has seen the area as it was, but nothing says that the verified
bytes lie there.
-/
structure GrantsX
    (foreign area : Set Word)
    (seen : Memory)
    (label : ConfinedLabel)
    (source target : System) :
    Prop where
  handles : label = .handle seen
  isRequest : source.monitor.recvBuf[0]! = 0x02
  attached :
    ∃ grant,
      granted source.monitor.world.kernel .inFlight = some grant ∧
        grant.area = area
  signed : SignedForX source.monitor.recvBuf seen
  sawArea :
    ∀ address ∈ area \ foreign, seen address = source.monitor.world.mem address
  sameMem : target.monitor.world.mem = source.monitor.world.mem

/-- The bytes on which the outcome of a verification depends. -/
def verifiedSpan (words : Words) (mem : Memory) : Set Word :=
  span (ptrSig words) (0x20 + sigReads (codeLen words mem))

/--
The run passes a step in which the monitor has made the area executable, and
from there on the bytes of the area stay, apart from what others write.  If the
verified bytes are among them, the signature still verifies at the end.
-/
def GrantedXAndKept
    (s3k : S3k)
    (foreign : Set Word)
    (labels : List ConfinedLabel)
    (start final : System)
    (area : Set Word) :
    Prop :=
  ∃ before label after source target,
    PassesAndKeeps (ConfinedStep s3k foreign)
        (fun label source target =>
          ∃ seen, GrantsX foreign area seen label source target)
        (SameIn (area \ foreign)) labels start final before label after source
        target ∧
      ∃ seen,
        GrantsX foreign area seen label source target ∧
          (verifiedSpan source.monitor.recvBuf seen ⊆ area \ foreign →
            SignedForX source.monitor.recvBuf final.monitor.world.mem)

section Transfers

variable
  {changed : Grant Word Word → Grant Word Word → Prop}
  (kernel : Kernel)

/-- A capability that moves from one place to another hands its grant over. -/
theorem granted_move (src dst : Holder) :
    granted (kernel.move src.pid src.slot dst.pid dst.slot) =
      handOver (granted kernel) src dst := by
  funext holder
  simp only [granted, holding, Kernel.move_table, Holder.same_place_iff,
    handOver]
  by_cases isDst : holder = dst
  · subst isDst
    simp
  · by_cases isSrc : holder = src
    · subst isSrc
      simp [isDst, Cap.grant]
    · simp [isDst, isSrc, granted, holding]

/-- A capability that moves takes its grant along. -/
theorem descends_move
    {src dst : Holder}
    (apart : src ≠ dst) :
    Descends changed (granted kernel)
      (granted (kernel.move src.pid src.slot dst.pid dst.slot)) := by
  rw [granted_move]
  exact descends_handOver apart

/-- A message of the app takes the grant of a slot along. -/
theorem descends_appSend (idx : Nat) :
    Descends changed (granted kernel)
      (granted (kernel.transfer appPid idx monitorPid flightSlot)) := by
  unfold Kernel.transfer
  split
  · next guard =>
    exact @descends_move changed kernel (.app ⟨idx, guard.1⟩) .inFlight
      (by simp)
  · exact Descends.refl

/-- A reply takes the grant in flight along. -/
theorem descends_monitorSend (idx : Nat) :
    Descends changed (granted kernel)
      (granted (kernel.transfer monitorPid flightSlot appPid idx)) := by
  unfold Kernel.transfer
  split
  · next guard =>
    exact @descends_move changed kernel .inFlight (.app ⟨idx, guard.2.1⟩)
      (by simp)
  · exact Descends.refl

end Transfers

section Work

variable
  {changed : Grant Word Word → Grant Word Word → Prop}
  {system : System}
  {mem : Memory}
  {slots : Nat → Cap}

/-- What the app does with its slots leaves the one in flight alone. -/
theorem Works.descends
    (works : Works system.monitor.world mem slots) :
    Descends changed (granted system.monitor.world.kernel)
      (granted (system.work mem slots).monitor.world.kernel) := by
  obtain ⟨origin, comesFrom, unique⟩ := works.keeps
  let place (holder : Holder) : Holder :=
    holder.casesOn .inFlight fun slot => .app (origin slot)
  have flight :
      granted (system.work mem slots).monitor.world.kernel .inFlight =
        granted system.monitor.world.kernel .inFlight :=
    rfl
  have own (slot : Fin ncap) :
      granted (system.work mem slots).monitor.world.kernel (.app slot) =
        appGrants slots slot :=
    rfl
  refine ⟨place, fun holder grant holds => ?_,
    fun first second grant other holds otherHolds same => ?_⟩
  · cases holder with
    | inFlight =>
        exact ⟨grant, flight ▸ holds, Or.inl rfl⟩
    | app slot =>
        obtain ⟨old, oldHolds, sameGrant | impossible⟩ :=
          comesFrom slot grant (own slot ▸ holds)
        · exact ⟨old, oldHolds, Or.inl sameGrant⟩
        · exact impossible.elim
  · cases first with
    | inFlight =>
        cases second with
        | inFlight => rfl
        | app second => cases same
    | app first =>
        cases second with
        | inFlight => cases same
        | app second =>
            exact congrArg Holder.app
              (unique first second grant other holds otherHolds
                (Holder.app.inj same))

/-- What a slot of the app grants is granted. -/
theorem permits_of_appGrants
    {kernel : Kernel}
    {right address : Word}
    (permits : Permits (appGrants (kernel.table appPid)) right address) :
    Permits (granted kernel) right address := by
  obtain ⟨slot, grant, holds, inArea, hasRight⟩ := permits
  exact ⟨.app slot, grant, holds, inArea, hasRight⟩

end Work

section Handling

variable
  {s3k : S3k}
  {monitor : Monitor}
  {world : World}
  {start stop rwx : Word}

/-- What leaves the app alone can only change the grant in flight. -/
theorem granted_of_app_kept
    {first second : Kernel}
    (kept : second.table appPid = first.table appPid) :
    granted second =
      Function.update (granted first) .inFlight (granted second .inFlight) := by
  funext holder
  cases holder with
  | inFlight =>
      simp
  | app slot =>
      simp [granted, holding, Holder.pid, kept]

/-- The update of a request that has passed the checks of the monitor. -/
theorem capmanUpdatePmp_regrants
    (passed :
      checkUpdate (capmanGet (capmanUpdate monitor.world) flightSlot)
          monitor.recvBuf (capmanUpdate monitor.world).mem =
        .update start stop rwx) :
    ∃ new,
      granted
          (capmanUpdatePmp s3k flightSlot start stop rwx
            (capmanUpdate monitor.world)).2.kernel =
        Function.update (granted monitor.world.kernel) .inFlight new ∧
      ∀ grant, new = some grant →
        ∃ old,
          granted monitor.world.kernel .inFlight = some old ∧
            (grant = old ∨
              grant.area = old.area ∧ NotBoth grant.rights ∧
                (0x4 ∈ grant.rights →
                  SignedForX monitor.recvBuf monitor.world.mem)) := by
  have mirrored := mirrored_capmanUpdate monitor.world
  have inFlight :
      capmanGet (capmanUpdate monitor.world) flightSlot =
        holding monitor.world.kernel .inFlight :=
    capmanUpdate_caps monitor.world (by decide)
  have sameMem := capmanUpdate_mem monitor.world
  obtain ⟨⟨addr, cfg, isPmp, rfl, rfl⟩, -, notBoth, -⟩ :=
    checkUpdate_eq_update_iff.mp passed
  rw [isPmp, sameMem] at passed
  rw [inFlight] at isPmp
  have taken :
      (capmanUpdate monitor.world).getcap flightSlot ≠ .none := by
    rw [World.getcap, capmanUpdate_kernel]
    intro free
    cases isPmp.symm.trans free
  obtain ⟨others, atSlot⟩ :=
    @capmanUpdatePmp_slot s3k _ (s3kPmpNapotBegin addr)
      (s3kPmpNapotEnd addr) rwx mirrored _ taken
  generalize
    (capmanUpdatePmp s3k flightSlot (s3kPmpNapotBegin addr)
      (s3kPmpNapotEnd addr) rwx (capmanUpdate monitor.world)).2 = after
    at others atSlot ⊢
  refine ⟨granted after.kernel .inFlight, ?_, fun grant holds => ?_⟩
  · have kept := others appPid appPid_ne_monitorPid
    rw [capmanUpdate_kernel] at kept
    exact granted_of_app_kept kept
  · obtain ⟨newAddr, newCfg, isNew, areaEq, rightsEq⟩ :=
      (Cap.grant_eq_some_iff _ _).mp holds
    refine ⟨_, congrArg Cap.grant isPmp, ?_⟩
    rcases atSlot newAddr newCfg isNew with isOld | replaces
    · rw [World.getcap, capmanUpdate_kernel] at isOld
      cases isPmp.symm.trans isOld
      have sameGrant := (congrArg Cap.grant isNew).symm.trans holds
      exact Or.inl (Option.some.inj sameGrant).symm
    · obtain ⟨sameRegion, isAllowed⟩ := replaces.grant notBoth
      rw [areaEq, rightsEq]
      refine Or.inr ⟨sameRegion, isAllowed, fun hasX => ?_⟩
      have asksX : rwx &&& 0x04 ≠ 0 := by
        rw [← rights_of_low_bits replaces.2.2 (by decide)]
        exact hasX
      exact
        ((checkUpdate_grants_x_iff _ _ _ _ _ _ _).mp ⟨passed, asksX⟩).2.2.2

/-- Whatever a request comes to, only the grant in flight may change. -/
theorem answerUpdate_regrants
    {answer : Answer}
    (answered : answerUpdate s3k monitor = some (answer, world)) :
    world.mem = monitor.world.mem ∧
      ∃ new,
        granted world.kernel =
          Function.update (granted monitor.world.kernel) .inFlight new ∧
        ∀ grant, new = some grant →
          ∃ old,
            granted monitor.world.kernel .inFlight = some old ∧
              (grant = old ∨
                grant.area = old.area ∧ NotBoth grant.rights ∧
                  (0x4 ∈ grant.rights →
                    SignedForX monitor.recvBuf monitor.world.mem)) := by
  have sameMem := capmanUpdate_mem monitor.world
  have updateMem (start stop rwx : Word) :
      (capmanUpdatePmp s3k flightSlot start stop rwx
          (capmanUpdate monitor.world)).2.mem =
        monitor.world.mem := by
    rcases capmanUpdatePmp_makes (capmanUpdate monitor.world) flightSlot start
        stop rwx with nothing | ⟨_, _, _, makes⟩
    · rw [nothing]
      exact sameMem
    · exact makes.mem_eq.trans sameMem
  cases answerCase_of_answerUpdate answered with
  | refused isRefused =>
      refine ⟨sameMem, granted monitor.world.kernel .inFlight, ?_,
        fun grant holds => ⟨grant, holds, Or.inl rfl⟩⟩
      rw [Function.update_eq_self, capmanUpdate_kernel]
  | failed passed isError =>
      exact ⟨updateMem _ _ _, capmanUpdatePmp_regrants passed⟩
  | updated passed isZero =>
      exact ⟨updateMem _ _ _, capmanUpdatePmp_regrants passed⟩

end Handling

section Steps

variable
  {s3k : S3k}
  {foreign area : Set Word}
  {label : ConfinedLabel}
  {system next : System}

/-- Handling a request changes the grant in flight only, and writes nothing. -/
theorem System.handle_regrants
    (handled : system.handle s3k = some next) :
    next.monitor.world.mem = system.monitor.world.mem ∧
      Descends (Regranted system) (granted system.monitor.world.kernel)
        (granted next.monitor.world.kernel) := by
  unfold System.handle at handled
  split at handled
  · cases handled
    exact ⟨rfl, Descends.refl⟩
  · split at handled
    · next isRequest =>
      split at handled
      · cases handled
      · next answer world answered =>
        cases handled
        obtain ⟨sameMem, new, updated, comesFrom⟩ :=
          answerUpdate_regrants answered
        refine ⟨sameMem, ?_⟩
        dsimp only
        rw [updated]
        refine descends_update fun grant holds => ?_
        obtain ⟨old, attached, same | ⟨area, notBoth, signed⟩⟩ :=
          comesFrom grant holds
        · exact ⟨old, attached, Or.inl same⟩
        · exact ⟨old, attached,
            Or.inr ⟨isRequest, attached, area, notBoth, signed⟩⟩
    · cases handled
      exact ⟨rfl, Descends.refl⟩

/-- A reply writes nothing, and leaves the kernel as the send has. -/
theorem System.answered_world
    (answer : Answer)
    (kernel : Kernel) :
    (system.answered answer kernel).monitor.world.kernel = kernel ∧
      (system.answered answer kernel).monitor.world.mem =
        system.monitor.world.mem := by
  unfold System.answered
  dsimp only
  split
  · exact ⟨capmanUpdate_kernel _, capmanUpdate_mem _⟩
  · exact ⟨rfl, rfl⟩

/-- A message of the app writes nothing. -/
theorem System.sent_mem
    (words : Words)
    (idx : Nat) :
    (system.sent words idx).monitor.world.mem = system.monitor.world.mem := by
  unfold System.sent
  split
  · rfl
  · rfl

/-- It takes at most the grant of a slot along. -/
theorem System.sent_descends
    {changed : Grant Word Word → Grant Word Word → Prop}
    (words : Words)
    (idx : Nat) :
    Descends changed (granted system.monitor.world.kernel)
      (granted (system.sent words idx).monitor.world.kernel) := by
  unfold System.sent
  split
  · exact descends_appSend _ idx
  · exact Descends.refl

/-- The reply writes nothing. -/
theorem System.monitorSend_mem (answer : Answer) :
    (system.monitorSend answer).monitor.world.mem =
      system.monitor.world.mem := by
  unfold System.monitorSend
  split
  · exact (system.answered_world answer _).2
  · exact (system.answered_world answer _).2

/-- It hands at most the grant in flight back. -/
theorem System.monitorSend_descends
    {changed : Grant Word Word → Grant Word Word → Prop}
    (answer : Answer) :
    Descends changed (granted system.monitor.world.kernel)
      (granted (system.monitorSend answer).monitor.world.kernel) := by
  unfold System.monitorSend
  split
  · next idx waits =>
    dsimp only
    rw [(system.answered_world answer _).1]
    exact descends_monitorSend _ idx
  · rw [(system.answered_world answer _).1]
    exact Descends.refl

/--
In a step of either party a capability stays, moves or disappears, or the
monitor gives it other rights over the same region.
-/
theorem ConfinedStep.descends
    (step : ConfinedStep s3k foreign label system next) :
    Descends (Regrants system label) (granted system.monitor.world.kernel)
      (granted next.monitor.world.kernel) := by
  cases step with
  | work mem slots runs works =>
      exact works.descends
  | send words idx runs =>
      exact system.sent_descends words idx
  | recv idx runs =>
      exact Descends.refl
  | store mem elsewhere =>
      exact Descends.refl
  | monitorRecv enters isRunning =>
      exact Descends.refl
  | handle seen hasReceived sees handled =>
      exact (System.handle_regrants handled).2.mono fun _ _ regranted =>
        ⟨seen, rfl, regranted⟩
  | monitorSend answer replies =>
      exact system.monitorSend_descends answer

/-- The app writes only where a capability of it has `W`. -/
theorem ConfinedStep.unwritten
    (step : ConfinedStep s3k foreign label system next)
    {address : Word}
    (notForeign : address ∉ foreign)
    (notWritable :
      ¬ Permits (granted system.monitor.world.kernel) 0x2 address) :
    next.monitor.world.mem address = system.monitor.world.mem address := by
  cases step with
  | work mem slots runs works =>
      by_contra isWritten
      exact notWritable (permits_of_appGrants (works.writes address isWritten))
  | send words idx runs =>
      rw [system.sent_mem]
  | recv idx runs =>
      rfl
  | store mem elsewhere =>
      exact elsewhere address notForeign
  | monitorRecv enters isRunning =>
      rfl
  | handle seen hasReceived sees handled =>
      rfl
  | monitorSend answer replies =>
      rw [system.monitorSend_mem]

/-- No step breaks the policy. -/
theorem ConfinedStep.writeXorExecute
    (step : ConfinedStep s3k foreign label system next)
    (secure : WriteXorExecute system.monitor.world.kernel) :
    WriteXorExecute next.monitor.world.kernel := by
  refine step.descends.sound (fun _ _ regrants => ?_) (fun _ _ regrants => ?_)
    secure
  · obtain ⟨seen, -, regranted⟩ := regrants
    exact regranted.sameArea.subset
  · obtain ⟨seen, -, regranted⟩ := regrants
    exact regranted.notBoth

/-- What is in flight the app cannot write to, so the monitor sees it as it is. -/
theorem Sees.inFlight
    {seen : Memory}
    (sees : Sees foreign system.monitor.world seen)
    (secure : WriteXorExecute system.monitor.world.kernel)
    {grant : Grant Word Word}
    (attached : granted system.monitor.world.kernel .inFlight = some grant) :
    ∀ address ∈ grant.area \ foreign,
      seen address = system.monitor.world.mem address := by
  rintro address ⟨inArea, notForeign⟩
  refine sees address notForeign ?_
  rintro ⟨slot, other, holds, inOther, -⟩
  have apart : Disjoint grant.area other.area :=
    secure.disjoint .inFlight (.app slot) grant other nofun attached holds
  exact Set.disjoint_left.mp apart inArea inOther

/-- An area gets `X` from the monitor in a pass that verifies a signature. -/
theorem ConfinedStep.grantsX
    (step : ConfinedStep s3k foreign label system next)
    (secure : WriteXorExecute system.monitor.world.kernel)
    {old new : Grant Word Word}
    (regrants : Regrants system label old new)
    (hasX : 0x4 ∈ new.rights) :
    ∃ seen, GrantsX foreign new.area seen label system next := by
  obtain ⟨seen, rfl, regranted⟩ := regrants
  obtain ⟨isRequest, attached, sameArea, -, signed⟩ := regranted
  cases step with
  | handle _ hasReceived sees handled =>
      refine ⟨seen, rfl, isRequest, ⟨old, attached, sameArea.symm⟩,
        signed hasX, ?_, rfl⟩
      rw [sameArea]
      exact sees.inFlight secure attached

/--
What is executable after a step was so before it and only others have written
to it, or the monitor has verified a signature and made it executable.
-/
theorem ConfinedStep.executable_origin
    (step : ConfinedStep s3k foreign label system next)
    (secure : WriteXorExecute system.monitor.world.kernel)
    (executable : Executable area next) :
    Executable area system ∧ SameIn (area \ foreign) system next ∨
      ∃ seen, GrantsX foreign area seen label system next := by
  obtain ⟨holder, grant, holds, rfl, hasX⟩ := executable
  obtain ⟨origin, comesFrom, -⟩ := step.descends
  obtain ⟨old, oldHolds, rfl | regrants⟩ := comesFrom holder grant holds
  · refine Or.inl ⟨⟨_, grant, oldHolds, rfl, hasX⟩, fun address inArea => ?_⟩
    apply step.unwritten inArea.2
    intro writable
    exact secure.no_address address
      ⟨writable, _, grant, oldHolds, inArea.1, hasX⟩
  · exact Or.inr (step.grantsX secure regrants hasX)

end Steps

section Verified

open Reading

variable
  {words : Words}
  {mem other : Memory}

/-- The bytes from the signature on are among those verified. -/
theorem place_mem_verifiedSpan
    {offset : Nat}
    (inRange : offset < 0x20 + sigReads (codeLen words mem)) :
    place (ptrSig words) offset ∈ verifiedSpan words mem :=
  ⟨offset, inRange, rfl⟩

/-- The checks of a request read nothing else. -/
theorem loads_readUpdate_subset
    (pmp : Cap)
    {address : Word}
    (isRead : address ∈ (readUpdate pmp words).loads mem) :
    address ∈ verifiedSpan words mem := by
  by_cases verifies : Verifies pmp words
  · rcases (mem_loads_readUpdate mem verifies address).mp isRead with
      ⟨offset, _, below, rfl⟩ | ⟨offset, below, rfl⟩ |
      ⟨-, offset, below, rfl⟩
    · exact place_mem_verifiedSpan (by omega)
    · have fromSig :
          place (ptrCode words) offset = place (ptrSig words) (0x20 + offset) :=
        by
        rw [place, place, ptrCode, BitVec.ofNat_add, ← BitVec.add_assoc]
        rfl
      rw [fromSig]
      exact place_mem_verifiedSpan (by omega)
    · exact place_mem_verifiedSpan (by omega)
  · rw [loads_readUpdate_of_not_verifies mem verifies] at isRead
    cases isRead

/-- As long as these bytes stay, the signature verifies again. -/
theorem SignedForX.of_same
    (signed : SignedForX words mem)
    (same : ∀ address ∈ verifiedSpan words mem, other address = mem address) :
    SignedForX words other := by
  obtain ⟨updated, asksX⟩ :=
    (checkUpdate_grants_x_iff 0 0 words mem _ _ _).mpr ⟨rfl, rfl, rfl, signed⟩
  have again :=
    (readUpdate (.pmp 0 0) words).run_congr mem
      fun address isRead =>
        (same address (loads_readUpdate_subset (.pmp 0 0) isRead)).symm
  rw [run_readUpdate, run_readUpdate] at again
  rw [← again] at updated
  exact
    ((checkUpdate_grants_x_iff 0 0 words other _ _ _).mp
      ⟨updated, asksX⟩).2.2.2

end Verified

section Runs

variable
  {s3k : S3k}
  {foreign : Set Word}
  {labels : List ConfinedLabel}
  {start final : System}

/-- The requests and the work of the app add no right against the policy. -/
theorem confined_run_secure
    (run : Run (ConfinedStep s3k foreign) labels start final)
    (secure : WriteXorExecute start.monitor.world.kernel) :
    WriteXorExecute final.monitor.world.kernel :=
  run.invariant (fun system => WriteXorExecute system.monitor.world.kernel)
    (fun _ _ _ _ step holds => step.writeXorExecute holds)
    (fun _ _ => trivial) secure

/-- An address to which no capability of the app extends. -/
def OutOfReach (system : System) (address : Word) : Prop :=
  ∀ holder grant,
    granted system.monitor.world.kernel holder = some grant →
    address ∉ grant.area

/-- What is out of reach stays so, and is not written unless by others. -/
theorem ConfinedStep.outOfReach
    {label : ConfinedLabel}
    {system next : System}
    (step : ConfinedStep s3k foreign label system next)
    {address : Word}
    (notForeign : address ∉ foreign)
    (outside : OutOfReach system address) :
    OutOfReach next address ∧
      next.monitor.world.mem address = system.monitor.world.mem address := by
  constructor
  · intro holder grant holds inArea
    obtain ⟨origin, comesFrom, -⟩ := step.descends
    obtain ⟨old, oldHolds, rfl | regrants⟩ := comesFrom holder grant holds
    · exact outside _ grant oldHolds inArea
    · obtain ⟨seen, -, regranted⟩ := regrants
      rw [regranted.sameArea] at inArea
      exact outside _ old oldHolds inArea
  · apply step.unwritten notForeign
    rintro ⟨holder, grant, holds, inArea, -⟩
    exact outside holder grant holds inArea

/-- What is out of reach at the start stays so, and the app never writes it. -/
theorem confined_run_outOfReach
    (run : Run (ConfinedStep s3k foreign) labels start final)
    {address : Word}
    (notForeign : address ∉ foreign)
    (outside : OutOfReach start address) :
    OutOfReach final address ∧
      final.monitor.world.mem address = start.monitor.world.mem address :=
  run.invariant
    (fun system =>
      OutOfReach system address ∧
        system.monitor.world.mem address = start.monitor.world.mem address)
    (fun _ _ _ _ step kept =>
      ⟨(step.outOfReach notForeign kept.1).1,
        (step.outOfReach notForeign kept.1).2.trans kept.2⟩)
    (fun _ _ => trivial) ⟨outside, rfl⟩

/-- As long as the verified bytes stay, the signature verifies again. -/
theorem GrantsX.signed_at
    {area : Set Word}
    {seen : Memory}
    {label : ConfinedLabel}
    {source target : System}
    (grantsX : GrantsX foreign area seen label source target)
    (keeps : SameIn (area \ foreign) target final)
    (inside :
      verifiedSpan source.monitor.recvBuf seen ⊆ area \ foreign) :
    SignedForX source.monitor.recvBuf final.monitor.world.mem := by
  refine grantsX.signed.of_same fun address isVerified => ?_
  calc
    final.monitor.world.mem address
        = target.monitor.world.mem address :=
      keeps address (inside isVerified)
    _ = source.monitor.world.mem address := by
      rw [grantsX.sameMem]
    _ = seen address :=
      (grantsX.sawArea address (inside isVerified)).symm

/-- A run that makes an area executable has verified a signature with it. -/
theorem GrantedXAndKept.of_passes
    {area : Set Word}
    {before after : List ConfinedLabel}
    {label : ConfinedLabel}
    {source target : System}
    (passes :
      PassesAndKeeps (ConfinedStep s3k foreign)
        (fun label source target =>
          ∃ seen, GrantsX foreign area seen label source target)
        (SameIn (area \ foreign)) labels start final before label after source
        target) :
    GrantedXAndKept s3k foreign labels start final area := by
  obtain ⟨seen, grantsX⟩ := passes.isKind
  exact ⟨before, label, after, source, target, passes, seen, grantsX,
    grantsX.signed_at passes.keeps⟩

/-- A run leads to executable memory from the start or from a verification. -/
theorem confined_run_origin
    (run : Run (ConfinedStep s3k foreign) labels start final)
    (secure : WriteXorExecute start.monitor.world.kernel)
    {area : Set Word}
    (executable : Executable area final) :
    Executable area start ∧ SameIn (area \ foreign) start final ∨
      ∃ before label after source target,
        PassesAndKeeps (ConfinedStep s3k foreign)
          (fun label source target =>
            ∃ seen, GrantsX foreign area seen label source target)
          (SameIn (area \ foreign)) labels start final before label after
          source target :=
  @Run.origin _ _ (ConfinedStep s3k foreign) start final
    (fun system => WriteXorExecute system.monitor.world.kernel)
    (Executable area) (SameIn (area \ foreign))
    (fun label source target =>
      ∃ seen, GrantsX foreign area seen label source target)
    labels
    (fun _ _ _ => rfl)
    (fun _ _ _ first second address inArea =>
      (second address inArea).trans (first address inArea))
    (fun _ _ _ step holds => step.writeXorExecute holds)
    (fun _ _ _ step holds isExecutable =>
      step.executable_origin holds isExecutable)
    run secure executable

/-- A request that is granted leads to the reply with code 0. -/
theorem System.handle_of_update
    {system : System}
    {rwx napotStart napotStop : Word}
    (isRequest : system.monitor.recvBuf[0]! = 0x02)
    (passed :
      checkUpdate (capmanGet (capmanUpdate system.monitor.world) flightSlot)
          system.monitor.recvBuf (capmanUpdate system.monitor.world).mem =
        .update napotStart napotStop rwx)
    (updated :
      (capmanUpdatePmp s3k flightSlot napotStart napotStop rwx
        (capmanUpdate system.monitor.world)).1 = 0) :
    system.handle s3k =
      some
        { system with
          monitorAt :=
            .answering
              { cap := capmanGet (capmanUpdate system.monitor.world) flightSlot
                code := 0
                resync := true }
          monitor :=
            { system.monitor with
              world :=
                (capmanUpdatePmp s3k flightSlot napotStart napotStop rwx
                  (capmanUpdate system.monitor.world)).2 } } := by
  have notFinished : ¬ system.monitor.recvBuf[0]! = -1 := by
    rw [isRequest]
    decide
  have answered :
      answerUpdate s3k system.monitor =
        some
          ({ cap := capmanGet (capmanUpdate system.monitor.world) flightSlot
             code := 0
             resync := true },
            (capmanUpdatePmp s3k flightSlot napotStart napotStop rwx
              (capmanUpdate system.monitor.world)).2) := by
    unfold answerUpdate
    dsimp only
    rw [passed]
    dsimp only
    rw [updated]
    rfl
  unfold System.handle
  rw [if_neg notFinished, if_pos isRequest, answered]

/-- The request names the signed zeros at the start of the app's memory. -/
theorem signedRequest_signed :
    SignedForX signedRequest (signedZeros 0x80020000) := by
  refine ⟨by decide, by decide, ?_⟩
  rw [codeSignature_signedZeros, givenSignature_signedZeros]

end Runs

section Page

/-- The memory of the monitor, below that of the app. -/
def monitorMemory : Set Word :=
  {address | 0x80010000 ≤ address ∧ address < 0x80020000}

/-- An app that can write its first page, which holds signed code. -/
def codeSystem : System where
  appAt := .running
  buf := Vector.replicate 4 0
  monitorAt := .entering
  monitor :=
    { heapMonitor with
      world :=
        { kernel :=
            (onlyCap 1 (.memory 0x20 0x30 0x20 0x10 0 7)).set appPid 0
              (.pmp (s3kPmpNapotAddr 0x80020000 0x80021000) 0x3)
          caps := fun _ => .none
          mem := signedZeros 0x80020000
          trace := [] } }

/-- A capability in flight with `X` makes its region executable. -/
theorem executable_of_flight
    {system : System}
    {addr cfg : Word}
    (inFlight :
      system.monitor.world.kernel.table monitorPid flightSlot =
        .pmp addr cfg)
    (hasX : cfg &&& 0x4 ≠ 0) :
    Executable (region (s3kPmpNapotBegin addr) (s3kPmpNapotEnd addr))
      system := by
  exact ⟨.inFlight, _, congrArg Cap.grant inFlight, rfl, hasX⟩

/-- The app may write its page and execute nothing. -/
theorem codeSystem_secure :
    WriteXorExecute codeSystem.monitor.world.kernel := by
  have onlyCode
      {holder : Holder}
      {given : Grant Word Word}
      (holds :
        granted codeSystem.monitor.world.kernel holder = some given) :
      holder = .app ⟨0, by decide⟩ ∧
        given.rights = {right | (0x3 : Word) &&& right ≠ 0} := by
    obtain ⟨addr, cfg, isPmp, -, rightsEq⟩ :=
      (Cap.grant_eq_some_iff _ _).mp holds
    cases holder with
    | inFlight =>
        cases isPmp
    | app slot =>
        by_cases isZero : slot.val = 0
        · simp only [holding, codeSystem, Holder.pid, Holder.slot,
            Kernel.set_table, isZero, true_and, if_true] at isPmp
          cases isPmp
          exact ⟨congrArg Holder.app (Fin.ext isZero), rightsEq⟩
        · simp [holding, codeSystem, Holder.pid, Holder.slot, onlyCap,
            isZero, appPid, monitorPid] at isPmp
  constructor
  · intro first second _ _ apart holds otherHolds
    exact absurd
      ((onlyCode holds).1.trans (onlyCode otherHolds).1.symm) apart
  · intro holder given holds
    rw [(onlyCode holds).2]
    rintro ⟨-, hasX⟩
    exact absurd hasX (by decide)

/-- A store of the app where a capability in one of its slots has `W`. -/
theorem works_store
    {world : World}
    {slot : Fin ncap}
    {addr cfg : Word}
    (isPmp : world.kernel.table appPid slot = .pmp addr cfg)
    (hasW : cfg &&& 0x2 ≠ 0)
    (address : Word)
    (inArea :
      address ∈ region (s3kPmpNapotBegin addr) (s3kPmpNapotEnd addr))
    (value : Byte) :
    Works world (Function.update world.mem address value)
      (world.kernel.table appPid) where
  writes other isWritten := by
    have same : other = address := by
      by_contra differs
      exact isWritten (Function.update_of_ne differs _ _)
    subst same
    exact ⟨slot, _, congrArg Cap.grant isPmp, inArea, hasW⟩
  keeps := Descends.refl

/-- The app has written to its page, behind the signed code. -/
def codeMem : Memory :=
  Function.update (signedZeros 0x80020000) 0x80020800 0x13

/-- The monitor has written to its stack. -/
def codeMemAfter : Memory :=
  Function.update codeMem 0x8001F000 0xFF

/-- What the app does up to its request for `X` on the page, and the handling. -/
def codeLabels : List ConfinedLabel :=
  [.monitorRecv,
    .work codeMem (codeSystem.monitor.world.kernel.table appPid),
    .send signedRequest 0,
    .store codeMemAfter,
    .recv 0,
    .handle codeMemAfter]

/-- The monitor is blocked, and the app has written. -/
def codeWritten : System :=
  ({ codeSystem with monitorAt := .receiving } : System).work codeMem
    (codeSystem.monitor.world.kernel.table appPid)

/-- The monitor has received the request, and the app waits for the reply. -/
def codeRequested : System :=
  { (codeWritten.sent signedRequest 0).withMem codeMemAfter with
    appAt := .waiting 0 }

/-- Neither store has touched the signed bytes. -/
theorem codeMemAfter_signed :
    SignedForX signedRequest codeMemAfter := by
  refine signedRequest_signed.of_same fun address isVerified => ?_
  obtain ⟨offset, inSpan, rfl⟩ := isVerified
  have len : codeLen signedRequest (signedZeros 0x80020000) = 16 := by
    decide
  have few : offset < 0x30 := by
    rw [len] at inSpan
    exact inSpan
  have isPlace : ptrSig signedRequest = 0x80020000 := rfl
  rw [codeMemAfter, codeMem, isPlace, Function.update_of_ne,
    Function.update_of_ne]
  · bv_omega
  · bv_omega

/-- The request of the app passes the checks. -/
theorem codeRequested_passes :
    checkUpdate
        (capmanGet (capmanUpdate codeRequested.monitor.world) flightSlot)
        codeRequested.monitor.recvBuf
        (capmanUpdate codeRequested.monitor.world).mem =
      .update 0x80020000 0x80021000 0x5 := by
  have inFlight :
      capmanGet (capmanUpdate codeRequested.monitor.world) flightSlot =
        .pmp (s3kPmpNapotAddr 0x80020000 0x80021000) 0x3 := by
    rw [capmanGet, capmanUpdate_caps _ (by decide)]
    decide
  have sameMem :
      (capmanUpdate codeRequested.monitor.world).mem = codeMemAfter :=
    capmanUpdate_mem _
  have words : codeRequested.monitor.recvBuf = signedRequest := by
    decide
  rw [inFlight, sameMem, words]
  exact
    ((checkUpdate_grants_x_iff _ 0x3 _ _ _ _ _).mpr
      ⟨by decide, by decide, rfl, codeMemAfter_signed⟩).1

/-- It is granted. -/
theorem codeRequested_handled :
    ∃ next,
      codeRequested.handle obliging = some next ∧
        next.monitor.world.kernel.table monitorPid flightSlot =
          .pmp (s3kPmpNapotAddr 0x80020000 0x80021000) 0x5 := by
  have updated :
      (capmanUpdatePmp obliging flightSlot 0x80020000 0x80021000 0x5
          (capmanUpdate codeRequested.monitor.world)).1 = 0 ∧
        (capmanUpdatePmp obliging flightSlot 0x80020000 0x80021000 0x5
            (capmanUpdate codeRequested.monitor.world)).2.kernel.table
            monitorPid flightSlot =
          .pmp (s3kPmpNapotAddr 0x80020000 0x80021000) 0x5 := by
    decide +kernel
  exact ⟨_, System.handle_of_update (by decide) codeRequested_passes updated.1,
    updated.2⟩

end Page

end S3kMonitor
