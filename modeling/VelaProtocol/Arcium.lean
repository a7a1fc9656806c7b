import VelaProtocol.Accounts.Merchant

/-! The confidential-computation side: canonical accounts, request offsets and the request state
that pairs a queued computation with its callback. Signature checks on an output are the
cluster's; a callback carries the output they let through. -/
namespace VelaProtocol

open Guard

def clusterIdFromOffset (clusterOffset : UInt64) : Result UInt32 := do
  check (clusterOffset.toNat < 2 ^ 32) .invalidArciumAccount
  return clusterOffset.toUInt32

def deriveClusterPubkey (P : Platform) (clusterId : UInt32) : Pubkey :=
  (P.findProgramAddress (.cluster clusterId)).1

def deriveComputationPubkey (P : Platform) (clusterId : UInt32) (computationOffset : UInt64) :
    Pubkey :=
  (P.findProgramAddress (.computation clusterId computationOffset)).1

def deriveCompDefPubkeyForMxe (P : Platform) (circuit : Circuit) (mxeProgramId : Pubkey) : Pubkey :=
  (P.findProgramAddress (.compDef circuit mxeProgramId)).1

def deriveMxePubkey (P : Platform) (mxeProgramId : Pubkey) : Pubkey :=
  (P.findProgramAddress (.mxe mxeProgramId)).1

/-- `validate_protocol_config`: the cluster key is the one its offset derives -/
def validateProtocolConfig (P : Platform) (config : ProtocolConfig) : Result Unit := do
  check (config.clusterOffset.toNat < 2 ^ 32) .invalidProtocolConfig
  check (config.clusterPubkey = deriveClusterPubkey P config.clusterOffset.toUInt32)
    .invalidProtocolConfig

def deriveRequestOffset (P : Platform) (domain : OffsetDomain) (mandate : Pubkey)
    (subject nonce : Bytes 8) : UInt64 :=
  ⟨(P.findProgramAddress (.requestOffset domain mandate subject nonce)).1.setWidth 64⟩

def deriveValidationComputationOffset (P : Platform) (mandate : Pubkey) (nextPaymentDue : Int64)
    (requestNonce : UInt64) : UInt64 :=
  deriveRequestOffset P .validateMandate mandate nextPaymentDue.toBitVec requestNonce.toBitVec

def deriveBillingComputationOffset (P : Platform) (mandate : Pubkey)
    (pullsExecuted requestNonce : UInt64) : UInt64 :=
  deriveRequestOffset P .recordBillingEvent mandate pullsExecuted.toBitVec requestNonce.toBitVec

def deriveUsageComputationOffset (P : Platform) (mandate : Pubkey) (periodStart : Int64)
    (requestNonce : UInt64) : UInt64 :=
  deriveRequestOffset P .usage mandate periodStart.toBitVec requestNonce.toBitVec

structure QueueAccounts where
  mxeAccount : Pubkey
  mempoolAccount : Pubkey
  executingPool : Pubkey
  computationAccount : Pubkey
  compDefAccount : Pubkey
  clusterAccount : Pubkey
  poolAccount : Pubkey
  clockAccount : Pubkey
  deriving DecidableEq

def validateQueueAccounts (P : Platform) (accounts : QueueAccounts) (clusterOffset : UInt64)
    (computationOffset : UInt64) (circuit : Circuit) (mxeProgramId : Pubkey) : Result Unit := do
  let clusterId ← clusterIdFromOffset clusterOffset
  check (accounts.mxeAccount = deriveMxePubkey P mxeProgramId) .invalidArciumAccount
  check (accounts.mempoolAccount = (P.findProgramAddress (.mempool clusterId)).1)
    .invalidArciumAccount
  check (accounts.executingPool = (P.findProgramAddress (.execpool clusterId)).1)
    .invalidArciumAccount
  check (accounts.computationAccount = deriveComputationPubkey P clusterId computationOffset)
    .invalidArciumAccount
  check (accounts.compDefAccount = deriveCompDefPubkeyForMxe P circuit mxeProgramId)
    .invalidArciumAccount
  check (accounts.clusterAccount = deriveClusterPubkey P clusterId) .invalidArciumAccount
  check (accounts.poolAccount = P.arciumFeePool) .invalidArciumAccount
  check (accounts.clockAccount = P.arciumClock) .invalidArciumAccount

def canonicalQueueAccounts (P : Platform) (clusterId : UInt32) (computationOffset : UInt64)
    (circuit : Circuit) (mxeProgramId : Pubkey) : QueueAccounts where
  mxeAccount := deriveMxePubkey P mxeProgramId
  mempoolAccount := (P.findProgramAddress (.mempool clusterId)).1
  executingPool := (P.findProgramAddress (.execpool clusterId)).1
  computationAccount := deriveComputationPubkey P clusterId computationOffset
  compDefAccount := deriveCompDefPubkeyForMxe P circuit mxeProgramId
  clusterAccount := deriveClusterPubkey P clusterId
  poolAccount := P.arciumFeePool
  clockAccount := P.arciumClock

structure CallbackAccounts where
  compDefAccount : Pubkey
  mxeAccount : Pubkey
  computationAccount : Pubkey
  clusterAccount : Pubkey
  deriving DecidableEq

def buildCallbackAccounts (P : Platform) (clusterId : UInt32) (computationOffset : UInt64)
    (circuit : Circuit) (mxeProgramId : Pubkey) : CallbackAccounts where
  compDefAccount := deriveCompDefPubkeyForMxe P circuit mxeProgramId
  mxeAccount := deriveMxePubkey P mxeProgramId
  computationAccount := deriveComputationPubkey P clusterId computationOffset
  clusterAccount := deriveClusterPubkey P clusterId

def validateStaticCallbackAccounts (P : Platform) (accounts : CallbackAccounts) (circuit : Circuit)
    (mxeProgramId : Pubkey) : Result Unit := do
  check (accounts.mxeAccount = deriveMxePubkey P mxeProgramId) .invalidArciumAccount
  check (accounts.compDefAccount = deriveCompDefPubkeyForMxe P circuit mxeProgramId)
    .invalidArciumAccount

def validateCallbackBinding (P : Platform) (config : ProtocolConfig) (accounts : CallbackAccounts)
    (computationOffset : UInt64) : Result Unit := do
  validateProtocolConfig P config
  check (config.clusterOffset.toNat < 2 ^ 32) .invalidCallbackBinding
  let clusterId := config.clusterOffset.toUInt32
  check (accounts.clusterAccount = config.clusterPubkey) .invalidCallbackBinding
  check (accounts.clusterAccount = deriveClusterPubkey P clusterId) .invalidCallbackBinding
  check (accounts.computationAccount = deriveComputationPubkey P clusterId computationOffset)
    .invalidCallbackBinding

structure StartArciumRequestArgs where
  mandate : Pubkey
  flow : ArciumRequestFlow
  subject : Bytes 8
  computationOffset : UInt64
  requestNonce : UInt64
  bump : UInt8
  now : Int64

def startArciumRequest (request : ArciumRequestState) (args : StartArciumRequestArgs) :
    Result ArciumRequestState := do
  check (¬(request.createdAt ≠ 0 ∧ request.status = .pending)) .arciumRequestAlreadyPending
  return {
    mandate := args.mandate
    flow := args.flow
    subject := args.subject
    computationOffset := args.computationOffset
    requestNonce := args.requestNonce
    status := .pending
    createdAt := args.now
    completedAt := 0
    bump := args.bump
    version := currentAccountVersion
    reserved := 0 }

def validatePendingArciumRequest (request : ArciumRequestState) (mandate : Pubkey)
    (flow : ArciumRequestFlow) (subject : Bytes 8) : Result UInt64 := do
  check (request.mandate = mandate) .invalidArciumRequestState
  check (request.flow = flow ∧ request.subject = subject ∧ request.status = .pending)
    .invalidArciumRequestState
  return request.computationOffset

def completeArciumRequest (request : ArciumRequestState) (now : Int64) :
    Result ArciumRequestState := do
  check (request.status = .pending) .invalidArciumRequestState
  return { request with status := .completed, completedAt := now }

abbrev RequestKey := ArciumRequestFlow × Pubkey × Bytes 8

def RequestKey.seeds (key : RequestKey) : Seeds := .arciumRequest key.1 key.2.1 key.2.2

/-- `init_if_needed`: a missing request account reads as zeros -/
def World.requestOrZeroed (w : World) (key : RequestKey) : ArciumRequestState :=
  (w.requestState key).getD ArciumRequestState.zeroed

def World.approvalOrZeroed (w : World) (mandate : Pubkey) : PullApproval :=
  (w.pullApproval mandate).getD (PullApproval.reset 0)

def World.startRequest (P : Platform) (w : World) (key : RequestKey)
    (computationOffset requestNonce : UInt64) : Result World := do
  let request ← startArciumRequest (w.requestOrZeroed key) {
    mandate := key.2.1
    flow := key.1
    subject := key.2.2
    computationOffset := computationOffset
    requestNonce := requestNonce
    bump := (P.findProgramAddress key.seeds).2
    now := w.clock.unixTimestamp }
  return { w with requestState := Function.update w.requestState key (some request) }

def anchorRequestState (P : Platform) (w : World) (key : RequestKey) :
    Result ArciumRequestState := do
  let request ← orHost (w.requestState key) .accountNotInitialized
  require (P.createProgramAddress key.seeds request.bump = some (P.findProgramAddress key.seeds).1)
    (.host .constraintSeeds)
  return request

def World.completeRequest (w : World) (key : RequestKey) (request : ArciumRequestState) :
    Result World := do
  let completed ← completeArciumRequest request w.clock.unixTimestamp
  return { w with requestState := Function.update w.requestState key (some completed) }

def loadArciumConfig (P : Platform) (w : World) : Result ProtocolConfig := do
  let loaded ← loadProtocolConfig w
  validateProtocolConfig P loaded.intoCurrent
  return loaded.intoCurrent

/-- `queue_computation`: the cluster's queue is only recorded -/
def World.queueComputation (w : World) (q : QueuedComputation) : World :=
  w.emit (.queueComputation q)

/-- The binding checks of a callback: static accounts, the pending request and its offset. -/
def validateCallback (P : Platform) (w : World) (config : ProtocolConfig)
    (accounts : CallbackAccounts) (key : RequestKey) : Result ArciumRequestState := do
  let request ← anchorRequestState P w key
  let offset ← validatePendingArciumRequest request key.2.1 key.1 key.2.2
  validateCallbackBinding P config accounts offset
  return request

theorem startArciumRequest_eq_ok {request started : ArciumRequestState}
    {args : StartArciumRequestArgs} (h : startArciumRequest request args = .ok started) :
    ¬(request.createdAt ≠ 0 ∧ request.status = .pending) ∧
      started = ⟨args.mandate, args.flow, args.subject, args.computationOffset, args.requestNonce,
        .pending, args.now, 0, args.bump, currentAccountVersion, 0⟩ := by
  simp only [startArciumRequest, check, require_bind_eq_ok, pure_eq_ok] at h
  exact ⟨h.1, h.2.symm⟩

theorem validatePendingArciumRequest_eq_ok {request : ArciumRequestState} {mandate : Pubkey}
    {flow : ArciumRequestFlow} {subject : Bytes 8} {offset : UInt64} :
    validatePendingArciumRequest request mandate flow subject = .ok offset ↔
      request.mandate = mandate ∧ request.flow = flow ∧ request.subject = subject ∧
        request.status = .pending ∧ request.computationOffset = offset := by
  simp only [validatePendingArciumRequest, check, require_bind_eq_ok, pure_eq_ok, and_assoc]

theorem startRequest_eq_ok {P : Platform} {w w' : World} {key : RequestKey}
    {computationOffset requestNonce : UInt64}
    (h : w.startRequest P key computationOffset requestNonce = .ok w') :
    ¬((w.requestOrZeroed key).createdAt ≠ 0 ∧ (w.requestOrZeroed key).status = .pending) ∧
      w' = { w with requestState := Function.update w.requestState key (some
        ⟨key.2.1, key.1, key.2.2, computationOffset, requestNonce, .pending,
          w.clock.unixTimestamp, 0, (P.findProgramAddress key.seeds).2, currentAccountVersion,
          0⟩) } := by
  simp only [World.startRequest, bind_eq_ok, pure_eq_ok] at h
  obtain ⟨request, started, rfl⟩ := h
  obtain ⟨free, rfl⟩ := startArciumRequest_eq_ok started
  exact ⟨free, rfl⟩

theorem validateCallback_eq_ok {P : Platform} {w : World} {config : ProtocolConfig}
    {accounts : CallbackAccounts} {key : RequestKey} {request : ArciumRequestState}
    (h : validateCallback P w config accounts key = .ok request) :
    w.requestState key = some request ∧ request.mandate = key.2.1 ∧ request.flow = key.1 ∧
      request.subject = key.2.2 ∧ request.status = .pending := by
  simp only [validateCallback, anchorRequestState, orHost, bind_eq_ok, orError_eq_ok,
    require_eq_ok, pure_eq_ok, validatePendingArciumRequest_eq_ok] at h
  obtain ⟨_, ⟨_, found, ⟨⟩, _, rfl⟩, _, ⟨mandate, flow, subject, pending, _⟩, ⟨⟩, _, rfl⟩ := h
  exact ⟨found, mandate, flow, subject, pending⟩

theorem validateQueueAccounts_eq_ok {P : Platform} {accounts : QueueAccounts}
    {clusterOffset offset : UInt64} {circuit : Circuit} {mxe : Pubkey} {u : Unit} :
    validateQueueAccounts P accounts clusterOffset offset circuit mxe = .ok u ↔
      clusterOffset.toNat < 2 ^ 32 ∧
        accounts = canonicalQueueAccounts P clusterOffset.toUInt32 offset circuit mxe := by
  obtain ⟨mxeAccount, mempool, execpool, computation, compDef, cluster, pool, clock⟩ := accounts
  simp only [validateQueueAccounts, clusterIdFromOffset, check, bind_eq_ok, require_eq_ok,
    pure_eq_ok, exists_const, canonicalQueueAccounts, QueueAccounts.mk.injEq]
  constructor
  · rintro ⟨_, ⟨small, rfl⟩, accounts⟩
    exact ⟨small, accounts⟩
  · rintro ⟨small, accounts⟩
    exact ⟨_, ⟨small, rfl⟩, accounts⟩

theorem validateProtocolConfig_eq_ok {P : Platform} {config : ProtocolConfig} {u : Unit} :
    validateProtocolConfig P config = .ok u ↔ config.clusterOffset.toNat < 2 ^ 32 ∧
      config.clusterPubkey = deriveClusterPubkey P config.clusterOffset.toUInt32 := by
  simp only [validateProtocolConfig, check, require_bind_eq_ok, require_eq_ok]

theorem loadArciumConfig_eq_ok {P : Platform} {w : World} {config : ProtocolConfig}
    (h : loadArciumConfig P w = .ok config) : config.clusterOffset.toNat < 2 ^ 32 ∧
      config.clusterPubkey = deriveClusterPubkey P config.clusterOffset.toUInt32 := by
  simp only [loadArciumConfig, bind_eq_ok, pure_eq_ok] at h
  obtain ⟨_, _, _, valid, rfl⟩ := h
  exact validateProtocolConfig_eq_ok.mp valid

theorem validateStaticCallbackAccounts_build (P : Platform) (clusterId : UInt32) (offset : UInt64)
    (circuit : Circuit) (mxe : Pubkey) : validateStaticCallbackAccounts P
      (buildCallbackAccounts P clusterId offset circuit mxe) circuit mxe = .ok () := by
  simp only [validateStaticCallbackAccounts, check, require_bind_eq_ok, require_eq_ok,
    buildCallbackAccounts, and_self]

theorem validateQueueAccounts_computation {P : Platform} {accounts : QueueAccounts}
    {clusterOffset offset : UInt64} {circuit : Circuit} {mxe : Pubkey} {u : Unit}
    (h : validateQueueAccounts P accounts clusterOffset offset circuit mxe = .ok u) :
    ∃ clusterId, accounts.computationAccount = deriveComputationPubkey P clusterId offset := by
  simp only [validateQueueAccounts, check, bind_eq_ok, require_eq_ok, exists_const] at h
  obtain ⟨clusterId, _, _, _, _, derived, _⟩ := h
  exact ⟨clusterId, derived⟩

theorem validateCallback_computation {P : Platform} {w : World} {config : ProtocolConfig}
    {accounts : CallbackAccounts} {key : RequestKey} {request : ArciumRequestState}
    (h : validateCallback P w config accounts key = .ok request) :
    ∃ clusterId, accounts.computationAccount =
      deriveComputationPubkey P clusterId request.computationOffset := by
  simp only [validateCallback, validateCallbackBinding, check, bind_eq_ok, require_eq_ok,
    pure_eq_ok, validatePendingArciumRequest_eq_ok, exists_const] at h
  obtain ⟨_, _, _, ⟨_, _, _, _, rfl⟩, ⟨_, _, _, _, _, derived⟩, rfl⟩ := h
  exact ⟨_, derived⟩

theorem validateCallback_build {P : Platform} {w : World} {config : ProtocolConfig}
    {key : RequestKey} {request : ArciumRequestState} (circuit : Circuit) (mxe : Pubkey)
    (valid : loadArciumConfig P w = .ok config) (found : w.requestState key = some request)
    (mandate : request.mandate = key.2.1) (flow : request.flow = key.1)
    (subject : request.subject = key.2.2) (pending : request.status = .pending)
    (bump : request.bump = (P.findProgramAddress key.seeds).2) :
    validateCallback P w config (buildCallbackAccounts P config.clusterOffset.toUInt32
      request.computationOffset circuit mxe) key = .ok request := by
  obtain ⟨small, cluster⟩ := loadArciumConfig_eq_ok valid
  have seeds : P.createProgramAddress key.seeds request.bump =
      some (P.findProgramAddress key.seeds).1 := by
    rw [bump]
    exact P.create_find key.seeds
  simp only [validateCallback, anchorRequestState, validateCallbackBinding, check, orHost,
    bind_eq_ok, orError_eq_ok, require_eq_ok, pure_eq_ok, validatePendingArciumRequest_eq_ok,
    validateProtocolConfig_eq_ok, exists_const]
  exact ⟨request, ⟨request, found, seeds, rfl⟩, request.computationOffset,
    ⟨mandate, flow, subject, pending, rfl⟩, ⟨⟨small, cluster⟩, small, cluster.symm, rfl, rfl⟩, rfl⟩

theorem completeArciumRequest_eq_ok {request completed : ArciumRequestState} {now : Int64} :
    completeArciumRequest request now = .ok completed ↔
      request.status = .pending ∧
        completed = { request with status := .completed, completedAt := now } := by
  simp only [completeArciumRequest, check, require_bind_eq_ok, pure_eq_ok]
  exact and_congr_right fun _ => eq_comm

end VelaProtocol
