import VelaProtocol.Deployment

/-! What an approval says about the ledger. The circuit judges the values its caller encrypted; the
request handler compares all of them with the ledger again but one, the balance. -/
namespace VelaProtocol

open Guard

/-- How the cluster reads the ciphertexts of a request; whoever asks can encrypt what they like. -/
structure Encryption where
  decrypt : Bytes 32 → Bytes 16 → List (Bytes 32) → Option MandateValidationInput
  encrypts : ∀ v, ∃ pubKey nonce ciphertext, ciphertext.length = 8 ∧
    decrypt pubKey nonce ciphertext = some v

structure Evaluates (arcium : Encryption) (request : RequestValidation)
    (answer : ValidateMandateCallback) : Prop where
  mandate : answer.mandate = request.mandate
  computation : answer.accounts.computationAccount = request.accounts.computationAccount
  output : answer.output =
    (arcium.decrypt request.pubKey request.nonce request.ciphertext).map validateMandate

def World.billingAccount (w : World) (k : Pubkey) (plan : LoadedPlanAccount) (address : Pubkey) :
    Prop :=
  ∃ config account, w.protocolConfig = some config ∧ w.tokenAccount address = some account ∧
    account.owner = k ∧ account.mint = effectiveMint config.wrappedUsdcMint plan

/-- The circuit would approve the mandate, its plan and its balance as they are. -/
def CircuitHolds (P : Platform) (w : World) (k : Pubkey) : Prop :=
  ∃ mandate plan address, w.currentMandate k = some mandate ∧
    loadPlanAccount P w mandate.plan = .ok plan ∧ w.billingAccount k plan address ∧
      validateMandate (truthfulInput w mandate plan address) = true

/-- The mandate's billing account holds the amount, and its expiry is not a negative time that has
passed. -/
def Covered (P : Platform) (w : World) (k : Pubkey) : Prop :=
  ∃ mandate plan address account, w.currentMandate k = some mandate ∧
    loadPlanAccount P w mandate.plan = .ok plan ∧ w.billingAccount k plan address ∧
      w.tokenAccount address = some account ∧ mandate.amount ≤ account.amount ∧
        ¬(mandate.expiry < 0 ∧ mandate.expiry ≤ w.clock.unixTimestamp)

/-- Whatever is encrypted in a request for the mandate and whatever happens until its callback, an
approval is recorded only if the circuit's conditions held when the request was made. -/
def ValidationSound (P : Platform) (arcium : Encryption) (w : World) (k : Pubkey) : Prop :=
  ∀ request answer w₁ w₂ w₃ approval, request.mandate = k →
    requestValidation P w request = .ok w₁ →
    Relation.ReflTransGen (fun w w' => ∃ a, Step P w a w') w₁ w₂ →
    Evaluates arcium request answer → validateMandateCallback P w₂ answer = .ok w₃ →
    w₃.pullApproval k = some approval → approval.approved = true → CircuitHolds P w k

/-- A request for the mandate is accepted now, and its callback can decode the mandate and store
an approval. -/
structure Answerable (P : Platform) (w : World) (k : Pubkey) : Prop where
  request : ∃ request w₁, request.mandate = k ∧ requestValidation P w request = .ok w₁
  decodes : ∃ mandate, anchorVelaMandate w k = .ok mandate ∧ mandate.billingType = .flat
  lifetime : ∃ validUntil,
    Checked.addI64 w.clock.unixTimestamp pullApprovalTtlSeconds = some validUntil

variable {P : Platform} {arcium : Encryption} {w w' w₁ : World} {k : Pubkey}

theorem validateMandate_eq_true {v : MandateValidationInput} : validateMandate v = true ↔
    v.mandateAmount = v.planAmount ∧ v.planAmount ≤ v.subscriberBalance ∧
      v.nextPaymentDue ≤ v.currentTimestamp ∧
      (v.expiry ≠ 0 → v.currentTimestamp < v.expiry) ∧ v.pullsExecuted < v.maxPulls := by
  simp only [validateMandate, Bool.and_eq_true, decide_eq_true_eq, and_assoc]
  by_cases never : v.expiry = 0
  · simp only [never, if_true, ne_eq, not_true_eq_false, false_implies]
  · simp only [never, if_false, ne_eq, not_false_eq_true, true_implies]

theorem Covered.holds {request : RequestValidation} (covered : Covered P w k)
    (own : request.mandate = k) (requested : requestValidation P w request = .ok w₁) :
    CircuitHolds P w k := by
  obtain ⟨mandate, plan, address, account, found, loaded, pays, stored, funds, expiry⟩ := covered
  obtain ⟨read, other, config, nonce, period, accepted, _⟩ := requestValidation_iff.mp requested
  have present := loadValidMandate_currentMandate accepted.loads
  rw [own] at present
  obtain rfl := Option.some.inj (present.symm.trans found)
  have offered := accepted.offered
  rw [accepted.planKey] at offered
  obtain rfl := Except.ok.inj (offered.symm.trans loaded)
  refine ⟨_, other, address, found, loaded, pays, validateMandate_eq_true.mpr ?_⟩
  simp only [truthfulInput, stored, Option.map_some, Option.getD_some]
  refine ⟨accepted.amount, accepted.amount ▸ funds, accepted.due, fun nonzero => ?_, accepted.pulls⟩
  by_cases later : 0 < read.intoCurrent.expiry
  · exact accepted.unexpired later
  · have before := Int64.toInt_inj.not.mpr nonzero
    simp only [Checked.lt_iff_int, Checked.le_iff_int, Int64.toInt_zero] at expiry later before ⊢
    omega

theorem CircuitHolds.covered (holds : CircuitHolds P w k) : Covered P w k := by
  obtain ⟨mandate, plan, address, found, loaded, pays, verdict⟩ := holds
  obtain ⟨config, account, configured, stored, owner, mint⟩ := pays
  obtain ⟨amount, funds, _, unexpired, _⟩ := validateMandate_eq_true.mp verdict
  simp only [truthfulInput, stored, Option.map_some, Option.getD_some] at amount funds unexpired
  refine ⟨mandate, plan, address, account, found, loaded, ⟨config, account, configured, stored,
    owner, mint⟩, stored, amount ▸ funds, fun past => ?_⟩
  have nonzero : mandate.expiry ≠ 0 := fun zero => by
    rw [zero] at past
    exact absurd past.1 (by decide)
  have later := unexpired nonzero
  simp only [Checked.lt_iff_int, Checked.le_iff_int] at past later
  omega

def RequestValidation.encrypting (request : RequestValidation) (pubKey : Bytes 32)
    (nonce : Bytes 16) (ciphertext : List (Bytes 32)) : RequestValidation :=
  { request with pubKey := pubKey, nonce := nonce, ciphertext := ciphertext }

theorem RequestAccepted.encrypted {request : RequestValidation} {loaded : LoadedMandateAccount}
    {plan : LoadedPlanAccount} {config : ProtocolConfig} {counter : UInt64}
    {period : Int64 × Int64} (a : RequestAccepted P w request loaded plan config counter period)
    (pubKey : Bytes 32) (nonce : Bytes 16) {ciphertext : List (Bytes 32)}
    (length : ciphertext.length = 8) : RequestAccepted P w
      (request.encrypting pubKey nonce ciphertext) loaded plan config counter period :=
  ⟨a.loads, a.offered, a.planKey, a.flat, a.active, a.amount, a.pulls, a.unexpired, a.due, a.seed,
    a.planActive, length, a.configured, a.next, a.offset, a.cluster, a.accounts, a.window,
    a.uncovered, a.free⟩

theorem anchorVelaMandate_counted {loaded : LoadedMandateAccount} {mandate : VelaMandate}
    (nonce : UInt64) (load : loadValidMandate P w k = .ok loaded)
    (anchored : anchorVelaMandate w k = .ok mandate)
    (written : w'.mandate = (w.writeMandate k
      { loaded.intoCurrent with validationRequestNonce := nonce } loaded.isLegacy).mandate) :
    ∃ version, anchorVelaMandate w' k = .ok { loaded.intoCurrent with
      validationRequestNonce := nonce, version := version } := by
  obtain ⟨account, found, rfl, _⟩ := loadValidMandate_eq_ok load
  have stored : w'.mandate k = some { account with
      contents := mandateLayout { account.contents.intoCurrent with
        validationRequestNonce := nonce } account.contents.isLegacy } := by
    rw [written]
    simp only [World.writeMandate, Function.update_self, found, Option.map_some]
  unfold anchorVelaMandate at anchored ⊢
  rw [found] at anchored
  rw [stored]
  cases contents : account.contents with
  | current m =>
    refine ⟨m.version, ?_⟩
    simp only [LoadedMandateAccount.isLegacy, mandateLayout, LoadedMandateAccount.intoCurrent]
    rfl
  | legacy old =>
    simp only [contents, require_bind_eq_ok] at anchored
    refine ⟨legacyAccountVersion, ?_⟩
    simp only [LoadedMandateAccount.isLegacy, mandateLayout, LoadedMandateAccount.intoCurrent]
    exact require_bind_eq_ok.mpr ⟨anchored.1, rfl⟩

def RequestValidation.asks (request : RequestValidation) (counter : UInt64) : OffsetInput :=
  ⟨(.validation, request.mandate, request.nextPaymentDueSeed.toBitVec), counter⟩

theorem RequestAccepted.answered {request : RequestValidation} {loaded : LoadedMandateAccount}
    {plan : LoadedPlanAccount} {config : ProtocolConfig} {counter : UInt64}
    {period : Int64 × Int64} (a : RequestAccepted P w request loaded plan config counter period)
    (answerable : Answerable P w request.mandate) (verdict : Bool) :
    ∃ answer w₂ approval, answer.mandate = request.mandate ∧
      answer.accounts.computationAccount = request.accounts.computationAccount ∧
      answer.output = some verdict ∧
      validateMandateCallback P (w.withValidationRequest P request loaded counter) answer = .ok w₂ ∧
      w₂.pullApproval request.mandate = some approval ∧ approval.approved = verdict := by
  obtain ⟨mandate, anchored, flat⟩ := answerable.decodes
  obtain ⟨validUntil, lifetime⟩ := answerable.lifetime
  obtain ⟨stored, present, version⟩ := anchorVelaMandate_terms anchored
  obtain rfl := Option.some.inj (present.symm.trans (loadValidMandate_currentMandate a.loads))
  rw [version] at flat
  have written : (w.withValidationRequest P request loaded counter).mandate =
    (w.writeMandate request.mandate { loaded.intoCurrent with validationRequestNonce := counter }
      loaded.isLegacy).mandate := rfl
  obtain ⟨version', decoded⟩ := anchorVelaMandate_counted counter a.loads anchored written
  have key : validationKey request.mandate { loaded.intoCurrent with
      validationRequestNonce := counter, version := version' } = (request.asks counter).key := by
    rw [validationKey, a.seed.symm]
    rfl
  have offset : (request.asks counter).offset P = request.requestedComputationOffset := by
    rw [a.offset, ← a.seed]
    rfl
  have pending : (w.withValidationRequest P request loaded counter).requestState
      (request.asks counter).key =
        some (pendingRequest P w.clock.unixTimestamp (request.asks counter)) :=
    Function.update_self _ _ _
  have configured : loadArciumConfig P (w.withValidationRequest P request loaded counter) =
    .ok config := a.configured
  have bound := validateCallback_build .validateMandate config.effectiveMxeProgramId configured
    pending rfl rfl rfl rfl rfl
  rw [← key] at bound
  refine ⟨⟨request.mandate, _, some verdict⟩, _, _, rfl, ?_, rfl,
    validateMandateCallback_iff.mpr ⟨_, config, _, verdict, period, validUntil,
      ⟨decoded, ⟨_, Function.update_self _ _ _⟩, configured,
        validateStaticCallbackAccounts_build _ _ _ _ _, bound, rfl, a.active, flat, a.window,
        lifetime⟩, rfl⟩, Function.update_self _ _ _, rfl⟩
  rw [a.accounts, ← offset]
  rfl

theorem approval_obtained (arcium : Encryption) (answerable : Answerable P w k)
    {v : MandateValidationInput}
    (approves : validateMandate v = true) : ∃ request answer w₁ w₂ approval,
      request.mandate = k ∧ requestValidation P w request = .ok w₁ ∧
      Evaluates arcium request answer ∧ validateMandateCallback P w₁ answer = .ok w₂ ∧
      w₂.pullApproval k = some approval ∧ approval.approved = true := by
  obtain ⟨request, w₁, rfl, requested⟩ := answerable.request
  obtain ⟨loaded, plan, config, counter, period, accepted, _⟩ := requestValidation_iff.mp requested
  obtain ⟨pubKey, nonce, ciphertext, length, reads⟩ := arcium.encrypts v
  have encrypted := accepted.encrypted pubKey nonce length
  have queued := requestValidation_iff.mpr ⟨loaded, plan, config, counter, period, encrypted, rfl⟩
  obtain ⟨answer, w₂, approval, own, computation, output, done, stored, approved⟩ :=
    encrypted.answered answerable true
  refine ⟨request.encrypting pubKey nonce ciphertext, answer, _, w₂, approval, rfl, queued,
    ⟨own, computation, ?_⟩, done, stored, approved⟩
  rw [output, RequestValidation.encrypting, reads, Option.map_some, approves]

/-- Approvals are sound for a mandate whose billing account covers the amount, and for no other
mandate whose request can be answered. -/
theorem validation_sound_iff (P : Platform) (arcium : Encryption) (w : World) (k : Pubkey) :
    (Covered P w k → ValidationSound P arcium w k) ∧
      (Answerable P w k → ValidationSound P arcium w k → Covered P w k) := by
  constructor
  · intro covered request answer w₁ w₂ w₃ approval own requested _ _ _ _ _
    exact covered.holds own requested
  · intro answerable sound
    have approves : validateMandate ⟨0, 0, 0, 0, 0, 0, 0, 1⟩ = true := by decide
    obtain ⟨request, answer, w₁, w₂, approval, own, requested, evaluates, answered, stored,
      approved⟩ := approval_obtained arcium answerable approves
    exact (sound request answer w₁ w₁ w₂ approval own requested .refl evaluates answered stored
      approved).covered

open Deployment

def plainWord (x : BitVec 64) : Bytes 32 := x.setWidth _

def readWord (b : Bytes 32) : BitVec 64 := b.setWidth _

theorem readWord_plainWord (x : BitVec 64) : readWord (plainWord x) = x := by
  rw [readWord, plainWord, BitVec.setWidth_setWidth_of_le _ (by decide), BitVec.setWidth_eq]

def plaintext (v : MandateValidationInput) : List (Bytes 32) :=
  [plainWord v.mandateAmount.toBitVec, plainWord v.planAmount.toBitVec,
    plainWord v.subscriberBalance.toBitVec, plainWord v.currentTimestamp.toBitVec,
    plainWord v.nextPaymentDue.toBitVec, plainWord v.expiry.toBitVec,
    plainWord v.pullsExecuted.toBitVec, plainWord v.maxPulls.toBitVec]

def plainCipher : Encryption where
  decrypt _ _ ciphertext :=
    match ciphertext with
    | [mandateAmount, planAmount, balance, now, due, expiry, pulls, maxPulls] => some {
        mandateAmount := .ofBitVec (readWord mandateAmount)
        planAmount := .ofBitVec (readWord planAmount)
        subscriberBalance := .ofBitVec (readWord balance)
        currentTimestamp := .ofBitVec (readWord now)
        nextPaymentDue := .ofBitVec (readWord due)
        expiry := .ofBitVec (readWord expiry)
        pullsExecuted := .ofBitVec (readWord pulls)
        maxPulls := .ofBitVec (readWord maxPulls) }
    | _ => none
  encrypts v := by
    refine ⟨0, 0, plaintext v, rfl, ?_⟩
    simp only [plaintext, readWord_plainWord, UInt64.ofBitVec_toBitVec, Int64.ofBitVec_toBitVec]

def unfundedWorld : World :=
  { world 3600 with
    tokenAccount := fun _ => none
    plan := fun key =>
      if key = flatPlan 0 then some {
        contents := .flat {
          merchant := merchant
          planId := 0
          amount := 100
          frequency := 3600
          trialPeriod := 0
          maxPulls := 12
          status := .active
          credentialMint := credentialMint
          billingMint := mintA
          bump := 255
          version := currentAccountVersion
          reserved := 0 }
        dataLen := VelaPlan.size }
      else none
    mandate := fun key =>
      if key = Deployment.mandate then some {
        contents := .current {
          subscriber := subscriber
          plan := flatPlan 0
          merchant := merchant
          amount := 100
          frequency := 3600
          startDate := 0
          expiry := 0
          maxPulls := 12
          pullsExecuted := 0
          nextPaymentDue := 3600
          lastPullAt := 0
          lastBillingRecordedPull := 0
          validationRequestNonce := 0
          billingRequestNonce := 0
          status := .active
          bump := 255
          billingType := .flat
          mandateIndex := 0
          version := currentAccountVersion
          creditBalance := 0
          pendingNewPlan := Pubkey.default
          pendingEffectiveAt := 0
          pendingChangeType := 0
          pendingNonceShort := 0
          reservedV3 := 0 }
        dataLen := VelaMandate.size }
      else none }

def claimedInput : MandateValidationInput := ⟨100, 100, 100, 3600, 3600, 0, 0, 12⟩

def claimingRequest : RequestValidation :=
  (requestContext (flatPlan 0) 3600 1).encrypting 0 0 (plaintext claimedInput)

/-- The request claims a balance, the circuit approves, and there is nothing to pay from. -/
theorem empty_account_approved : ¬∀ (P : Platform) (arcium : Encryption) (w : World) (k : Pubkey),
    ValidationSound P arcium w k := by
  intro sound
  have played : ((requestValidation platform unfundedWorld claimingRequest).toOption.any fun w₁ =>
      (validateMandateCallback platform w₁ (answerContext 3600 1 true)).toOption.any fun w₂ =>
        (w₂.pullApproval Deployment.mandate).any (·.approved)) = true := by
    decide +kernel
  simp only [Option.any_eq_true, toOption_eq_some] at played
  obtain ⟨w₁, requested, w₂, answered, approval, stored, approved⟩ := played
  have evaluates : Evaluates plainCipher claimingRequest (answerContext 3600 1 true) := by
    refine ⟨rfl, rfl, ?_⟩
    decide +kernel
  obtain ⟨_, _, address, _, _, ⟨_, account, _, held, _⟩, _⟩ :=
    sound platform plainCipher unfundedWorld Deployment.mandate claimingRequest _ w₁ w₁ w₂ approval
      rfl requested .refl evaluates answered stored approved
  cases held

end VelaProtocol
