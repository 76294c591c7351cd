import S3kMonitor.SetupGrants

namespace S3kMonitor

/-!
# Which kernel calls the start of the monitor makes

Every call of `setup` is of one of a few kinds.  Two slots matter for what
the app gets: `0x20`, into which its capabilities are derived, and `0x18`
with its time slice.
-/

/-- The kinds of calls; `grants` are the capabilities that may be derived. -/
inductive SetupCall (s3k : S3k) (grants : PmpGrant → Prop) :
    KernelCall → Prop where
  | delcap (idx : Nat) :
      SetupCall s3k grants (.delcap idx)
  | setreg (reg : Reg) (val : Word) :
      SetupCall s3k grants (.setreg reg val)
  | msetreg (moncap pid : Nat) (reg : Reg) (val : Word) :
      SetupCall s3k grants (.msetreg moncap pid reg val)
  | deriveOwn
      (orig idx : Nat)
      (cap : Cap)
      (apart : idx ≠ 0x18 ∧ idx ≠ 0x20 ∧ idx ≠ flightSlot) :
      SetupCall s3k grants (.drvcap orig idx cap)
  | deriveOther
      (orig idx : Nat)
      (cap : Cap)
      (notPmp : cap.type ≠ .pmp) :
      SetupCall s3k grants (.drvcap orig idx cap)
  | deriveGrant
      (orig : Nat)
      (grant : PmpGrant)
      (isGrant : grants grant)
      (isNapot : Napot grant.start grant.stop) :
      SetupCall s3k grants
        (.drvcap orig 0x20
          (s3k.pmp (s3kPmpNapotAddr grant.start grant.stop) grant.rwx))
  | give
      (moncap src dst : Nat)
      (handedOut : src = 0x18 ∨ src = 0x20) :
      SetupCall s3k grants (.mgivecap moncap appPid src dst)

/-- The calls that start the app and wait for it. -/
def ResumeCall (kernelCall : KernelCall) : Prop :=
  (∃ moncap, kernelCall = .mresume moncap appPid) ∨
    ∃ sock words, kernelCall = .recv sock (2 ^ 64 - 1) words 0

variable
  {s3k : S3k}
  {grants wider : PmpGrant → Prop}

/-- A call for some grants is one for more grants. -/
theorem SetupCall.mono
    (weaker : ∀ grant, grants grant → wider grant)
    {kernelCall : KernelCall}
    (isSetup : SetupCall s3k grants kernelCall) :
    SetupCall s3k wider kernelCall := by
  cases isSetup with
  | delcap idx =>
      exact .delcap idx
  | setreg reg val =>
      exact .setreg reg val
  | msetreg moncap pid reg val =>
      exact .msetreg moncap pid reg val
  | deriveOwn orig idx cap apart =>
      exact .deriveOwn orig idx cap apart
  | deriveOther orig idx cap notPmp =>
      exact .deriveOther orig idx cap notPmp
  | deriveGrant orig grant isGrant isNapot =>
      exact .deriveGrant orig grant (weaker grant isGrant) isNapot
  | give moncap src dst handedOut =>
      exact .give moncap src dst handedOut

/-- So are sequences of calls. -/
theorem Makes.mono_grants
    {first second : World}
    (weaker : ∀ grant, grants grant → wider grant)
    (makes : Makes s3k (SetupCall s3k grants) first second) :
    Makes s3k (SetupCall s3k wider) first second :=
  makes.mono fun _ isSetup => isSetup.mono weaker

section Phases

variable (world : World)

/-- `setup_time_slices` derives nothing that is a region. -/
theorem setupTimeSlices_makes :
    Makes s3k (SetupCall s3k grants) world (setupTimeSlices s3k world) := by
  apply (capmanDeriveTime_makes world 0x18 0 0 32).mono
  rintro _ ⟨orig, rfl⟩
  exact .deriveOther _ _ _ (by simp [s3k.time_type])

/-- `setup_monitor` derives for the monitor only. -/
theorem setupMonitor_makes :
    Makes s3k (SetupCall s3k grants) world (setupMonitor s3k world) := by
  have own
      {idx : Nat}
      (apart : idx ≠ 0x18 ∧ idx ≠ 0x20 ∧ idx ≠ flightSlot)
      (start stop : Word)
      (next : World) :
      Makes s3k (SetupCall s3k grants) next
        (capmanDerivePmp s3k idx start stop s3kRw next).2 := by
    apply (capmanDerivePmp_makes next idx start stop s3kRw).mono
    rintro _ ⟨-, orig, rfl⟩
    exact .deriveOwn _ _ _ apart
  have register (pmp : Vector Byte 8) (next : World) :
      Makes s3k (SetupCall s3k grants) next (capmanSetpmp s3k pmp next) :=
    Makes.call (.setreg _ _) next
  exact (((own (by decide) _ _ _).trans (own (by decide) _ _ _)).trans
    (register _ _)).trans (register _ _)

/-- `setup_ipc` derives sockets and gives two slots to the app. -/
theorem setupIpc_makes_of
    {allowed : KernelCall → Prop}
    (derives :
      ∀ orig idx port tag,
        allowed (.drvcap orig idx (s3k.socket port tag)))
    (gives :
      ∀ moncap dst,
        dst = socketPort1 ∨ dst = socketPort2 →
        allowed (.mgivecap moncap appPid 0x20 dst)) :
    Makes s3k allowed world (setupIpc s3k world) := by
  have socket (idx : Nat) (port tag : Word) (next : World) :
      Makes s3k allowed next
        (capmanDeriveSocket s3k idx port tag next).2 := by
    apply (capmanDeriveSocket_makes next idx port tag).mono
    rintro _ ⟨orig, rfl⟩
    exact derives _ _ _ _
  have give
      {dst : Nat}
      (isPort : dst = socketPort1 ∨ dst = socketPort2)
      (next : World) :
      Makes s3k allowed next
        (capmanMgivecap s3k appPid 0x20 dst next).2 := by
    apply (capmanMgivecap_makes next appPid 0x20 dst).mono
    rintro _ ⟨moncap, rfl⟩
    exact gives _ _ isPort
  exact (((((socket _ _ _ _).trans (socket _ _ _ _)).trans
    (give (Or.inr rfl) _)).trans (socket _ _ _ _)).trans
    (socket _ _ _ _)).trans (give (Or.inl rfl) _)

/-- `setup_ipc` derives sockets, and gives them away. -/
theorem setupIpc_makes :
    Makes s3k (SetupCall s3k grants) world (setupIpc s3k world) :=
  setupIpc_makes_of world
    (fun _ _ _ _ => .deriveOther _ _ _ (by simp [s3k.socket_type]))
    (fun _ _ _ => .give _ _ _ (Or.inr rfl))

/-- A turn derives the grant, if it is NAPOT, and gives slot `0x20` away. -/
theorem handOut_makes_of
    {allowed : KernelCall → Prop}
    {state : AppSetup}
    {grant : PmpGrant}
    (derives :
      Napot grant.start grant.stop →
      ∀ orig,
        allowed
          (.drvcap orig 0x20
            (s3k.pmp (s3kPmpNapotAddr grant.start grant.stop) grant.rwx)))
    (gives :
      ∀ moncap,
        allowed (.mgivecap moncap appPid 0x20 state.npmp.toNat)) :
    Makes s3k allowed state.world (handOut s3k state grant).world := by
  have derivation :
      Makes s3k allowed state.world
        (capmanDerivePmp s3k 0x20 grant.start grant.stop grant.rwx
          state.world).2 := by
    apply (capmanDerivePmp_makes state.world 0x20 grant.start grant.stop
      grant.rwx).mono
    rintro _ ⟨isNapot, orig, rfl⟩
    exact derives isNapot orig
  have gift (next : World) :
      Makes s3k allowed next
        (capmanMgivecap s3k appPid 0x20 state.npmp.toNat next).2 := by
    apply (capmanMgivecap_makes next appPid 0x20 state.npmp.toNat).mono
    rintro _ ⟨moncap, rfl⟩
    exact gives moncap
  exact derivation.trans (gift _)

/-- A turn of the loops of `setup_app` derives its grant and nothing else. -/
theorem handOut_makes (state : AppSetup) (grant : PmpGrant) :
    Makes s3k (SetupCall s3k (· = grant)) state.world
      (handOut s3k state grant).world :=
  handOut_makes_of (fun isNapot orig => .deriveGrant orig grant rfl isNapot)
    (fun _ => .give _ _ _ (Or.inr rfl))

/-- The loops derive the grants of their list. -/
theorem foldl_handOut_makes (list : List PmpGrant) (state : AppSetup) :
    Makes s3k (SetupCall s3k (· ∈ list)) state.world
      (list.foldl (handOut s3k) state).world := by
  induction list generalizing state with
  | nil =>
      exact Makes.refl state.world
  | cons grant list inductionHypothesis =>
      have first :
          Makes s3k (SetupCall s3k (· ∈ grant :: list)) state.world
            (handOut s3k state grant).world := by
        apply Makes.mono_grants _ (handOut_makes state grant)
        rintro _ rfl
        exact List.mem_cons_self
      have rest :
          Makes s3k (SetupCall s3k (· ∈ grant :: list))
            (handOut s3k state grant).world
            (list.foldl (handOut s3k) (handOut s3k state grant)).world :=
        (inductionHypothesis _).mono_grants
          fun _ member => List.mem_cons_of_mem _ member
      exact first.trans rest

/-- After the turn for the UART come the time slice and two registers. -/
theorem finishApp_makes_of
    {allowed : KernelCall → Prop}
    {state : AppSetup}
    (turn :
      Makes s3k allowed state.world (handOut s3k state uartGrant).world)
    (gives : ∀ moncap, allowed (.mgivecap moncap appPid 0x18 0xF))
    (registers : ∀ moncap reg val, allowed (.msetreg moncap appPid reg val)) :
    Makes s3k allowed state.world (finishApp s3k state) := by
  have time (next : World) :
      Makes s3k allowed next
        (capmanMgivecap s3k appPid 0x18 0xF next).2 := by
    apply (capmanMgivecap_makes next appPid 0x18 0xF).mono
    rintro _ ⟨moncap, rfl⟩
    exact gives moncap
  have register (reg : Reg) (val : Word) (next : World) :
      Makes s3k allowed next (capmanMsetreg s3k appPid reg val next).2 := by
    apply (capmanMsetreg_makes next appPid reg val).mono
    rintro _ ⟨moncap, rfl⟩
    exact registers _ _ _
  exact ((turn.trans (time _)).trans (register _ _ _)).trans
    (register _ _ _)

/-- Behind the loops the grant for the UART is derived. -/
theorem finishApp_makes (state : AppSetup) :
    Makes s3k (SetupCall s3k (· = uartGrant)) state.world
      (finishApp s3k state) :=
  finishApp_makes_of (handOut_makes state uartGrant)
    (fun _ => .give _ _ _ (Or.inl rfl)) (fun _ _ _ => .msetreg _ _ _ _)

/-- The grants of the whole of `setup_app`. -/
def AppGrant (sections : List MemorySection) (grant : PmpGrant) : Prop :=
  grant ∈ reachedGrants sections ∨
    grant = uartGrant ∧
      ∀ memorySection ∈ sections, ¬ memorySection.Endless

/-- What `setup_app` calls after it has noted that it was entered. -/
theorem setupApp_makes (fuel : Nat) (app : Process) :
    Makes s3k (SetupCall s3k (AppGrant app.sections))
      (enterSetupApp world).world (setupApp s3k fuel app world).1 := by
  obtain ⟨reached, allEnd⟩ :=
    @sectionsGrants_reached fuel app.sections
  have loop :
      Makes s3k (SetupCall s3k (AppGrant app.sections))
        (enterSetupApp world).world
        ((sectionsGrants fuel app.sections).1.foldl (handOut s3k)
          (enterSetupApp world)).world := by
    apply Makes.mono_grants _ (foldl_handOut_makes _ (enterSetupApp world))
    intro grant member
    exact Or.inl (reached grant member)
  unfold setupApp
  dsimp only
  rw [setupSections_eq]
  by_cases ends : (sectionsGrants fuel app.sections).2
  · rw [if_pos ends]
    apply loop.trans
    apply Makes.mono_grants _ (finishApp_makes _)
    rintro _ rfl
    exact Or.inr ⟨rfl, allEnd ends⟩
  · rw [if_neg ends]
    exact loop

/--
The start of the app exchanges messages and resumes it, after the last setup.
-/
theorem startApp_makes (hello : Words) :
    ∃ middle,
      Makes s3k (SetupCall s3k grants) world middle ∧
        Makes s3k ResumeCall middle (startApp s3k hello world).2.world := by
  refine ⟨setupIpc s3k world, setupIpc_makes world, ?_⟩
  have resume :
      Makes s3k ResumeCall (setupIpc s3k world)
        (capmanMresume s3k appPid (setupIpc s3k world)).2 :=
    (capmanMresume_makes _ appPid).mono fun _ isResume => Or.inl isResume
  have wait (sock : Nat) (next : World) :
      Makes s3k ResumeCall next
        (next.call s3k (.recv sock (2 ^ 64 - 1) hello 0)).2 :=
    Makes.call (Or.inr ⟨sock, hello, rfl⟩) next
  unfold startApp
  dsimp only
  split
  · split
    · exact resume.trans (wait _ _)
    · exact resume.trans (wait _ _)
  · split
    · exact resume.trans (wait _ _)
    · exact resume.trans (wait _ _)

/-- Up to the copy nothing is derived for the app. -/
theorem prepare_makes (kernel : Kernel) (mem : Memory) :
    Makes s3k (SetupCall s3k grants) (bootWorld kernel mem)
      (prepare s3k kernel mem) := by
  have deletion (idx : Nat) (next : World) :
      Makes s3k (SetupCall s3k grants) next
        (next.call s3k (.delcap idx)).2 :=
    Makes.call (.delcap idx) next
  exact (((((deletion 4 _).trans (deletion 5 _)).trans
    (deletion 6 _)).trans (capmanUpdate_makes _)).trans
    (setupMonitor_makes _)).trans (setupTimeSlices_makes _)

end Phases

end S3kMonitor
