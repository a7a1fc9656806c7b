import VelaProtocol.Collection
import VelaProtocol.Reachability

/-! A small deployment to run scripts on: one merchant, one subscriber, two registered mints and
a platform whose derived addresses are read off their seeds. -/
namespace VelaProtocol.Deployment

def derived (tag : Nat) (parts : List Nat) : Pubkey × UInt8 :=
  (BitVec.ofNat _ (parts.foldl (fun acc part => acc * 1048576 + part % 1048576) tag), 255)

def flowTag : ArciumRequestFlow → Nat
  | .validation => 0
  | .usageComputation => 1
  | .billingRecord => 2

def domainTag : OffsetDomain → Nat
  | .validateMandate => 0
  | .usage => 1
  | .recordBillingEvent => 2

def circuitTag : Circuit → Nat
  | .validateMandate => 0
  | .usageCharge => 1
  | .tieredPricing => 2
  | .recordBillingEvent => 3

def findProgramAddress : Seeds → Pubkey × UInt8
  | .mandate s m i => derived 101 [s.toNat, m.toNat, i.toNat]
  | .legacyMandate s p => derived 102 [s.toNat, p.toNat]
  | .plan m i => derived 103 [m.toNat, i.toNat]
  | .usagePlan m i => derived 104 [m.toNat, i.toNat]
  | .merchant m => derived 105 [m.toNat]
  | .approval k => derived 106 [k.toNat]
  | .usageReport k t => derived 107 [k.toNat, t.toBitVec.toNat]
  | .arciumRequest f k x => derived 108 [flowTag f, k.toNat, x.toNat]
  | .billingEvent k n => derived 109 [k.toNat, n.toNat]
  | .merchantCredential m => derived 110 [m.toNat]
  | .credential m i => derived 111 [m.toNat, i.toNat]
  | .usageCredential m i => derived 112 [m.toNat, i.toNat]
  | .associatedToken o m => derived 113 [o.toNat, m.toNat]
  | .requestOffset d k x n => derived 114 [domainTag d, k.toNat, x.toNat, n.toNat]
  | .cluster c => derived 115 [c.toNat]
  | .mempool c => derived 116 [c.toNat]
  | .execpool c => derived 117 [c.toNat]
  | .computation c o => derived 118 [c.toNat, o.toNat]
  | .compDef c m => derived 119 [circuitTag c, m.toNat]
  | .mxe m => derived 120 [m.toNat]
  | .stream s m i => derived 121 [s.toNat, m.toNat, i.toNat]
  | .agentMandate a g => derived 122 [a.toNat, g.toNat]
  | .mintAuthority => derived 123 []

def platform : Platform where
  findProgramAddress := findProgramAddress
  createProgramAddress seeds bump :=
    if bump = (findProgramAddress seeds).2 then some (findProgramAddress seeds).1 else none
  create_find _ := if_pos rfl
  hash terms := BitVec.ofNat _ (terms.maxChargePerPeriod.toNat + terms.settlementFrequency.toNat)
  precise := Precise.rounding
  arciumFeePool := 31
  arciumClock := 32
  foreignHook _ := false

def admin : Pubkey := 1
def keeper : Pubkey := 2
def merchant : Pubkey := 3
def subscriber : Pubkey := 4
def mintA : Pubkey := 5
def mintB : Pubkey := 6
def vault : Pubkey := 7

def flatPlan (n : UInt64) : Pubkey := (findProgramAddress (.plan merchant n)).1

def usagePlan (n : UInt64) : Pubkey := (findProgramAddress (.usagePlan merchant n)).1

def credentialMint : Pubkey := (findProgramAddress (.merchantCredential merchant)).1

def mandate : Pubkey := (findProgramAddress (.mandate subscriber merchant 0)).1

def payer (mint : Pubkey) : Pubkey := (findProgramAddress (.associatedToken mandate mint)).1

def receiver (mint : Pubkey) : Pubkey := (findProgramAddress (.associatedToken merchant mint)).1

def config : ProtocolConfig where
  admin := admin
  clusterPubkey := (findProgramAddress (.cluster 0)).1
  clusterType := .cerberus
  clusterOffset := 0
  wrappedUsdcMint := mintA
  wrappingVault := vault
  paused := false
  pausedAt := 0
  transferHookProgramId := transferHookProgramId
  bump := 255
  version := currentAccountVersion
  mxeProgramId := programId

def keeperConfig : KeeperConfig where
  admin := admin
  mode := .centralized
  keeperEndpoint := 0
  endpointLen := 0
  keeperAuthority := keeper
  bump := 255
  version := currentAccountVersion
  reserved := 0

def tokenConfig (mint : Pubkey) : TokenConfig where
  mint := mint
  tokenProgram := 33
  billingRail := .transferHook
  decimals := 6
  enabled := true
  oracleReference := Pubkey.default
  admin := admin
  createdAt := 0
  bump := 255
  version := currentAccountVersion
  reserved := 0

def billingMint : Mint where
  decimals := 6
  supply := 2000000000
  mintAuthority := some admin
  permanentDelegate := none
  nonTransferable := false
  transferHookProgramId := some transferHookProgramId

def merchantCredential : Mint where
  decimals := 0
  supply := 0
  mintAuthority := some (findProgramAddress (.merchant merchant)).1
  permanentDelegate := some (findProgramAddress (.merchant merchant)).1
  nonTransferable := true
  transferHookProgramId := none

/-- A merchant with a credential and no plans, and a mandate address funded in both mints. -/
def world (now : Int64) : World where
  clock := ⟨now, 0⟩
  protocolConfig := some (.current config)
  keeperConfig := some (.current keeperConfig)
  merchantState key := if key = merchant then
    some (.current { MerchantState.new merchant 255 0 with credentialMint := credentialMint })
    else none
  tokenConfig mint := if mint = mintA ∨ mint = mintB then some (tokenConfig mint) else none
  mint key := if key = mintA ∨ key = mintB then some billingMint
    else if key = credentialMint then some merchantCredential else none
  tokenAccount key :=
    if key = payer mintA then some ⟨mintA, mandate, 1000000000⟩
    else if key = payer mintB then some ⟨mintB, mandate, 1000000000⟩
    else if key = receiver mintA then some ⟨mintA, merchant, 0⟩
    else if key = receiver mintB then some ⟨mintB, merchant, 0⟩
    else none
  splMint _ := none
  splTokenAccount _ := none
  plan _ := none
  mandate _ := none
  stream _ := none
  agentMandate _ := none
  pullApproval _ := none
  requestState _ := none
  usageReport _ := none
  billingEvent _ := none
  log := []

def tick (now : Int64) : Action := .tick ⟨now, 0⟩

def offerFlat (n amount frequency trialPeriod maxPulls : UInt64) (mint : Pubkey) : Action :=
  .instruction (.createPlan {
    merchant := merchant
    plan := flatPlan n
    credentialMint := (findProgramAddress (.credential merchant n)).1
    billingMint := mint
    amount := amount
    frequency := frequency
    trialPeriod := trialPeriod
    maxPulls := maxPulls })

def offerUsage (n cap settlementFrequency : UInt64) (mint : Pubkey) : Action :=
  .instruction (.createUsagePlan {
    merchant := merchant
    billingMint := mint
    planId := n
    unitName := 0
    tiers := [⟨0, 1, 0⟩]
    maxChargePerPeriod := cap
    settlementFrequency := settlementFrequency })

def subscription (plan mint : Pubkey) : Subscribe where
  subscriber := subscriber
  merchant := merchant
  plan := plan
  mandate := mandate
  credentialMint := credentialMint
  billingMint := mint
  subscriberCredentialAccount := (findProgramAddress (.associatedToken subscriber credentialMint)).1

def schedule (authority plan : Pubkey) : Action :=
  .instruction (.schedulePlanChange { authority := authority, newPlan := plan, mandate := mandate })

def switchContext (authority plan mint : Pubkey) : UpdateMandatePlan where
  authority := authority
  newPlan := plan
  mandate := mandate
  subscriberWrappedAccount := payer mint
  merchantWrappedAccount := receiver mint
  wrappedUsdcMint := mint
  pullApproval := (findProgramAddress (.approval mandate)).1
  wrappingVault := vault
  hookProgram := transferHookProgramId

def switch (authority plan mint : Pubkey) : Action :=
  .instruction (.updateMandatePlan (switchContext authority plan mint))

def queueAccounts (circuit : Circuit) (offset : UInt64) : QueueAccounts where
  mxeAccount := (findProgramAddress (.mxe programId)).1
  mempoolAccount := (findProgramAddress (.mempool 0)).1
  executingPool := (findProgramAddress (.execpool 0)).1
  computationAccount := (findProgramAddress (.computation 0 offset)).1
  compDefAccount := (findProgramAddress (.compDef circuit programId)).1
  clusterAccount := (findProgramAddress (.cluster 0)).1
  poolAccount := 31
  clockAccount := 32

def callbackAccounts (circuit : Circuit) (offset : UInt64) : CallbackAccounts where
  compDefAccount := (findProgramAddress (.compDef circuit programId)).1
  mxeAccount := (findProgramAddress (.mxe programId)).1
  computationAccount := (findProgramAddress (.computation 0 offset)).1
  clusterAccount := (findProgramAddress (.cluster 0)).1

def requestContext (plan : Pubkey) (due : Int64) (nonce : UInt64) : RequestValidation :=
  let offset := deriveValidationComputationOffset platform mandate due nonce
  { payer := keeper
    plan := plan
    mandate := mandate
    accounts := queueAccounts .validateMandate offset
    requestedComputationOffset := offset
    nextPaymentDueSeed := due
    ciphertext := List.replicate 8 0
    pubKey := 0
    nonce := 0 }

def requestFlat (plan : Pubkey) (due : Int64) (nonce : UInt64) : Action :=
  .instruction (.requestValidation (requestContext plan due nonce))

def answerContext (due : Int64) (nonce : UInt64) (approved : Bool) : ValidateMandateCallback where
  mandate := mandate
  accounts := callbackAccounts .validateMandate
    (deriveValidationComputationOffset platform mandate due nonce)
  output := some approved

def answerFlat (due : Int64) (nonce : UInt64) (approved : Bool) : Action :=
  .instruction (.validateMandateCallback (answerContext due nonce approved))

def report (plan : Pubkey) (periodStart periodEnd : Int64) : Action :=
  .instruction (.submitUsageReport {
    merchant := merchant
    mandate := mandate
    usagePlan := plan
    periodStart := periodStart
    periodEnd := periodEnd
    computationCiphertext := [0]
    nonce := 0
    pubKey := 0 })

def requestUsage (plan : Pubkey) (periodStart : Int64) (nonce : UInt64) : Action :=
  let offset := deriveUsageComputationOffset platform mandate periodStart nonce
  .instruction (.requestUsageComputation {
    payer := keeper
    usagePlan := plan
    mandate := mandate
    reportPeriodStart := periodStart
    accounts := queueAccounts .usageCharge offset
    requestedComputationOffset := offset })

def answerUsage (periodStart : Int64) (nonce charge : UInt64) : Action :=
  .instruction (.usageChargeCallback {
    mandate := mandate
    reportPeriodStart := periodStart
    accounts := callbackAccounts .usageCharge
      (deriveUsageComputationOffset platform mandate periodStart nonce)
    output := some charge })

def pullContext (plan mint : Pubkey) (remainingAccounts : List Pubkey) : ExecutePull where
  payer := keeper
  subscriber := subscriber
  merchant := merchant
  plan := plan
  mandate := mandate
  subscriberWrappedAccount := payer mint
  merchantWrappedAccount := receiver mint
  wrappedUsdcMint := mint
  pullApproval := (findProgramAddress (.approval mandate)).1
  wrappingVault := vault
  hookProgram := transferHookProgramId
  remainingAccounts := remainingAccounts

def pull (plan mint : Pubkey) (remainingAccounts : List Pubkey) : Action :=
  .instruction (.executePull (pullContext plan mint remainingAccounts))

def threeOffers : List Action :=
  [offerFlat 0 100 3600 0 10 mintA, offerFlat 1 50 3600 0 10 mintA, offerFlat 2 200 3600 0 10 mintA,
    .instruction (.subscribe (subscription (flatPlan 0) mintA))]

def reportAccount (periodStart : Int64) : Pubkey :=
  (findProgramAddress (.usageReport mandate periodStart)).1

/-- A metered period from its report to its pull, the `nonce`-th one asked for. -/
def payUsage (plan : Pubkey) (periodStart periodEnd : Int64) (nonce charge : UInt64) :
    List Action :=
  [report plan periodStart periodEnd, requestUsage plan periodStart nonce,
    answerUsage periodStart nonce charge, pull plan mintA [reportAccount periodStart]]

/-- The payment that is due now is asked for, answered truthfully and pulled at the mandate's own
amount. -/
def billsDue (w : World) : Bool :=
  (w.currentMandate mandate).any fun m =>
    let nonce := m.validationRequestNonce + 1
    ((loadPlanAccount platform w m.plan).toOption.any fun plan =>
      validateMandate (truthfulInput w m plan (payer mintA))) &&
    (requestValidation platform w (requestContext m.plan m.nextPaymentDue nonce)).toOption.any
      fun w₁ => (validateMandateCallback platform w₁
          (answerContext m.nextPaymentDue nonce true)).toOption.any fun w₂ =>
        ((w₂.currentMandate mandate).all fun m => ¬m.changeDue w₂.clock.unixTimestamp) &&
        ((prepareSettlement platform w₂ (pullContext m.plan mintA [])).toOption.any
          fun s => s.base = m.amount) &&
        (executePull platform w₂ (pullContext m.plan mintA [])).toOption.isSome

theorem billsDue_collectable {w : World} (bills : billsDue w = true) :
    Collectable platform w mandate := by
  simp only [billsDue, Option.any_eq_true, Bool.and_eq_true, decide_eq_true_eq, toOption_eq_some,
    Option.isSome_iff_exists, Option.all_eq_true] at bills
  obtain ⟨m, found, ⟨plan, offered, truth⟩, w₁, requested, w₂, answered,
    ⟨undue, s, prepared, base⟩, w₃, pulled⟩ := bills
  refine ⟨m, requestContext m.plan m.nextPaymentDue (m.validationRequestNonce + 1),
    answerContext m.nextPaymentDue (m.validationRequestNonce + 1) true, pullContext m.plan mintA [],
    w₁, w₂, w₃, s, found, ⟨⟨rfl, rfl, rfl⟩, requested, ⟨m, plan, found, offered, ?_⟩, answered,
    pulled⟩, undue, prepared, base⟩
  exact congrArg some truth.symm

def runScript (w : World) : List Action → Option World
  | [] => some w
  | a :: rest => (applyAction platform w a).bind fun w' => runScript w' rest

theorem world_fresh (now : Int64) : Fresh (world now) where
  plans _ _ found := absurd found nofun
  mandates _ _ found := absurd found nofun
  tokenConfig := rfl
  approvals _ := rfl
  requests _ := rfl
  reports _ := rfl

theorem runScript_reachable {w w' : World} {script : List Action} (reachable : Reachable platform w)
    (ran : runScript w script = some w') : Reachable platform w' := by
  induction script generalizing w with
  | nil =>
    cases ran
    exact reachable
  | cons a rest ih =>
    simp only [runScript, Option.bind_eq_some_iff] at ran
    obtain ⟨w₁, applied, ran⟩ := ran
    exact ih (reachable.step (applyAction_step applied)) ran

section

variable {γ : Type} (f : γ → World → MandateCall → World → γ)
  (p : γ → World → MandateCall → World → Prop) [∀ g w c w', Decidable (p g w c w')]
  (initial : World → γ)

/-- A fresh deployment with some plans offered, a subscription to one of them, then a script
watched by a monitor. -/
def scenario (offers : List Action) (plan : Pubkey) (script : List Action) : Option (World × γ) :=
  (runScript (world 0) offers).bind fun w =>
    (subscribe platform w (subscription plan mintA)).toOption.bind fun w₀ =>
      Monitored.play (applyAction platform) (onCall mandate f) (whenCall mandate p)
        (w₀, initial w) script

variable {f p initial}

theorem script_check {g : γ} {script : List Action} {good : World × γ → Bool}
    (checked : (Monitored.play (applyAction platform) (onCall mandate f) (whenCall mandate p)
      (world 0, g) script).any good = true) :
    ∃ x, MandateRun platform mandate f p (world 0, g) x ∧ good x = true := by
  rw [Option.any_eq_true] at checked
  obtain ⟨x, played, ok⟩ := checked
  exact ⟨x, Monitored.play_run (fun _ _ _ => applyAction_step) played, ok⟩

theorem program_check {q : World → Pubkey → MandateCall → Prop} [∀ w k c, Decidable (q w k c)]
    {script : List Action} (good : World → Bool)
    (checked : (Monitored.play (applyAction platform) (fun g _ _ _ => g)
      (fun _ w a _ => OnEveryMandate q w a) (world 0, ()) script).any (fun x => good x.1) = true) :
    ∃ w, ProgramRun platform q (world 0) w ∧ good w = true := by
  rw [Option.any_eq_true] at checked
  obtain ⟨⟨w, ⟨⟩⟩, played, ok⟩ := checked
  exact ⟨w, Monitored.play_run (fun _ _ _ => applyAction_step) played, ok⟩

theorem scenario_run {offers : List Action} {plan : Pubkey} {script : List Action}
    {x : World × γ} (played : scenario f p initial offers plan script = some x) :
    ∃ w w₀, Reachable platform w ∧ subscribe platform w (subscription plan mintA) = .ok w₀ ∧
      MandateRun platform mandate f p (w₀, initial w) x := by
  simp only [scenario, Option.bind_eq_some_iff, toOption_eq_some] at played
  obtain ⟨w, ran, w₀, subscribed, played⟩ := played
  exact ⟨w, w₀, runScript_reachable ⟨_, world_fresh 0, .refl⟩ ran, subscribed,
    Monitored.play_run (fun _ _ _ => applyAction_step) played⟩

theorem scenario_check {offers : List Action} {plan : Pubkey} {script : List Action}
    {good : World × γ → Bool}
    (checked : (scenario f p initial offers plan script).any good = true) :
    ∃ w w₀ x, Reachable platform w ∧ subscribe platform w (subscription plan mintA) = .ok w₀ ∧
      MandateRun platform mandate f p (w₀, initial w) x ∧ good x = true := by
  rw [Option.any_eq_true] at checked
  obtain ⟨x, played, ok⟩ := checked
  obtain ⟨w, w₀, reachable, subscribed, run⟩ := scenario_run played
  exact ⟨w, w₀, x, reachable, subscribed, run, ok⟩

theorem scenario_check_from {offers : List Action} {plan : Pubkey} {script : List Action}
    {g : γ} {good : World → World × γ → Bool}
    (checked : ((runScript (world 0) offers).any fun w =>
      (subscribe platform w (subscription plan mintA)).toOption.any fun w₀ =>
        (Monitored.play (applyAction platform) (onCall mandate f) (whenCall mandate p)
          (w₀, g) script).any (good w₀)) = true) :
    ∃ w w₀ x, Reachable platform w ∧ subscribe platform w (subscription plan mintA) = .ok w₀ ∧
      MandateRun platform mandate f p (w₀, g) x ∧ good w₀ x = true := by
  simp only [Option.any_eq_true, toOption_eq_some] at checked
  obtain ⟨w, ran, w₀, subscribed, x, played, ok⟩ := checked
  exact ⟨w, w₀, x, runScript_reachable ⟨_, world_fresh 0, .refl⟩ ran, subscribed,
    Monitored.play_run (fun _ _ _ => applyAction_step) played, ok⟩

end

end VelaProtocol.Deployment
