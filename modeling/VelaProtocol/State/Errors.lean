import VelaProtocol.Lib.Guard

/-! Errors of the modelled instructions, by the source's names.
Codes and message texts are not read by any instruction and are left out. -/
namespace VelaProtocol

inductive VelaError where
  | pullTooEarly | mandateNotActive | maxPullsExceeded | unauthorizedCancel | frequencyTooLow
  | overflow | planNotActive | mandateExpired | amountExceedsPlanAmount | maxPullsTooLow
  | approvalNotGranted | approvalExpired | abortedComputation | unauthorizedAdmin
  | approvalAlreadyExists | invalidCiphertextInput | pendingBillingRecord
  | billingEventAlreadyExists | invalidArciumAccount | invalidProtocolConfig
  | invalidCallbackBinding | invalidComputationOffset | transferNotAuthorized | vaultMismatch
  | usdcMintMismatch | unauthorizedKeeper | noUpdateProvided | invalidTierCount
  | billingTypeMismatch | invalidPeriod | periodMismatch | invalidAmount | invalidFrequency
  | invalidTierBoundary | protocolPaused | usageReportAlreadySettled
  | arciumRequestAlreadyPending | invalidArciumRequestState | usagePricingOverflowRisk
  | mandateVersionUnsupported | planVersionUnsupported | migrationPreconditionFailed
  | tokenNotRegistered | tokenDisabled | invalidBillingRail | wrongAccountType
  | streamNotActive | minSettleIntervalViolation | amountExceedsStreamRate | streamCapExceeded
  | clockRegression | tokenChangeNotSupported | noPendingChange | pendingPlanAccountMissing
  | unauthorizedUpgrade | mathDivByZero | mathOverflow | mathUnderflow | invalidElapsed
  | minSettleIntervalTooLow | rateMustBeNonZero | authorizedMaxRateTooLow | invalidStreamAddress
  | unauthorizedStreamSigner | streamAlreadyPaused | streamAlreadyCancelled
  | tooManyServices | duplicateService | agentMandateAlreadyExists | mandatePaused
  | mandateRevoked | unauthorizedService | serviceDailyLimitExceeded | dailyLimitExceeded
  | lifetimeCapExceeded | pullAmountTooSmall | pullCooldownActive | insufficientMandateBalance
  | unauthorizedAgentMandateAuthority | invalidAgentMandateStatusTransition
  | endpointTooLong | endpointEmpty | invalidKeeperAuthority | tokenConfigDecimalsMismatch
  | wrappedMintNotInitialized | wrappedMintAlreadyInitialized
  deriving DecidableEq, Repr

/-- Errors raised by the runtime, by Anchor's account checks or by the token program. -/
inductive HostError where
  | incorrectProgramId | invalidAccountData | invalidSeeds | accountAlreadyInitialized
  | missingRequiredSignature | requireKeysEqViolated | constraintSeeds | accountNotInitialized
  | accountDidNotDeserialize | accountOwnedByWrongProgram | invalidMint | mintMismatch
  | mintDecimalsMismatch | ownerMismatch | insufficientFunds | tokenOverflow | nonTransferable
  | transferHookRejected | programFailedToComplete | constraintMut | constraintAddress
  | constraintRaw | constraintTokenMint | constraintTokenOwner | borshIoError
  | accountDidNotSerialize
  deriving DecidableEq, Repr

inductive Error where
  | vela (e : VelaError)
  | host (e : HostError)
  deriving DecidableEq, Repr

abbrev Result := Except Error

export Guard (require orError)

abbrev check (p : Prop) [Decidable p] (e : VelaError) : Result Unit := require p (.vela e)

abbrev orVela {α : Type} (value : Option α) (e : VelaError) : Result α := orError value (.vela e)

abbrev orHost {α : Type} (value : Option α) (e : HostError) : Result α := orError value (.host e)

end VelaProtocol
