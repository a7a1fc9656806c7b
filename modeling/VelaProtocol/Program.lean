import VelaProtocol.Instructions.BillingRecord
import VelaProtocol.Instructions.ExecutePull
import VelaProtocol.Instructions.Subscriptions
import VelaProtocol.Instructions.Usage
import VelaProtocol.Lib.Monitored

/-! The billing program as one transition system. Its other instructions (configuration, token
registry, wrapping, streams, agent mandates) and other programs are one environment relation
that may change anything but the accounts billing owns. -/
namespace VelaProtocol

inductive Instruction where
  | createPlan (ctx : CreatePlan)
  | createUsagePlan (ctx : CreateUsagePlan)
  | updatePlan (ctx : UpdatePlan)
  | updateUsagePlan (ctx : UpdateUsagePlan)
  | migratePlan (plan : Pubkey)
  | subscribe (ctx : Subscribe)
  | cancel (ctx : Cancel)
  | adminCancel (ctx : Cancel)
  | closeMandate (ctx : CloseMandate)
  | migrateMandate (ctx : MigrateMandate)
  | updateMandate (ctx : UpdateMandate)
  | updateMandatePlan (ctx : UpdateMandatePlan)
  | schedulePlanChange (ctx : SchedulePlanChange)
  | cancelPlanChange (ctx : CancelPlanChange)
  | requestValidation (ctx : RequestValidation)
  | validateMandateCallback (ctx : ValidateMandateCallback)
  | submitUsageReport (ctx : SubmitUsageReport)
  | requestUsageComputation (ctx : RequestUsageComputation)
  | usageChargeCallback (ctx : UsageComputationCallback)
  | executePull (ctx : ExecutePull)
  | requestBillingRecord (ctx : RequestBillingRecord)
  | recordBillingEventCallback (ctx : RecordBillingEventCallback)

def execute (P : Platform) (w : World) : Instruction → Result World
  | .createPlan ctx => createPlan P w ctx
  | .createUsagePlan ctx => createUsagePlan P w ctx
  | .updatePlan ctx => updatePlan P w ctx
  | .updateUsagePlan ctx => updateUsagePlan P w ctx
  | .migratePlan plan => migratePlan P w plan
  | .subscribe ctx => subscribe P w ctx
  | .cancel ctx => cancel P w ctx
  | .adminCancel ctx => adminCancel P w ctx
  | .closeMandate ctx => closeMandate P w ctx
  | .migrateMandate ctx => migrateMandate P w ctx
  | .updateMandate ctx => updateMandate P w ctx
  | .updateMandatePlan ctx => updateMandatePlan P w ctx
  | .schedulePlanChange ctx => schedulePlanChange P w ctx
  | .cancelPlanChange ctx => cancelPlanChange P w ctx
  | .requestValidation ctx => requestValidation P w ctx
  | .validateMandateCallback ctx => validateMandateCallback P w ctx
  | .submitUsageReport ctx => submitUsageReport P w ctx
  | .requestUsageComputation ctx => requestUsageComputation P w ctx
  | .usageChargeCallback ctx => usageChargeCallback P w ctx
  | .executePull ctx => executePull P w ctx
  | .requestBillingRecord ctx => requestBillingRecord P w ctx
  | .recordBillingEventCallback ctx => recordBillingEventCallback P w ctx

def World.wrappedMint (w : World) : Option Pubkey :=
  (w.protocolConfig.map LoadedProtocolConfig.wrappedUsdcMint).filter (· ≠ Pubkey.default)

/-- What everything outside billing may do. The wrapped mint is set once, and the default key is
no mint, so no token is ever registered under it; a merchant's
mandates are counted by billing alone. -/
structure Environment (w w' : World) : Prop where
  clock : w.clock.unixTimestamp ≤ w'.clock.unixTimestamp
  plan : w'.plan = w.plan
  mandate : w'.mandate = w.mandate
  pullApproval : w'.pullApproval = w.pullApproval
  requestState : w'.requestState = w.requestState
  usageReport : w'.usageReport = w.usageReport
  billingEvent : w'.billingEvent = w.billingEvent
  log : w'.log = w.log
  wrappedMint : ∀ mint, w.wrappedMint = some mint → w'.wrappedMint = some mint
  tokenConfig : w.tokenConfig Pubkey.default = none → w'.tokenConfig Pubkey.default = none
  counter : ∀ merchant, w.mandateCounter merchant ≤ w'.mandateCounter merchant

inductive Action where
  | instruction (i : Instruction)
  | tick (clock : Clock)
  | environment

/-- One transaction, one passing of time or one step of the environment. -/
def Step (P : Platform) (w : World) (a : Action) (w' : World) : Prop :=
  match a with
  | .instruction i => execute P w i = .ok w'
  | .tick clock => w.clock.unixTimestamp ≤ clock.unixTimestamp ∧ w' = { w with clock := clock }
  | .environment => Environment w w'

/-- A transaction: an instruction that fails leaves the ledger as it was. -/
def transact (P : Platform) (w : World) (i : Instruction) : World :=
  (execute P w i).toOption.getD w

def applyAction (P : Platform) (w : World) : Action → Option World
  | .instruction i => (execute P w i).toOption
  | .tick clock =>
    if w.clock.unixTimestamp ≤ clock.unixTimestamp then some { w with clock := clock } else none
  | .environment => none

theorem toOption_eq_some {α : Type} {r : Result α} {a : α} : r.toOption = some a ↔ r = .ok a := by
  cases r <;> simp [Except.toOption]

theorem applyAction_step {P : Platform} {w w' : World} {a : Action}
    (h : applyAction P w a = some w') : Step P w a w' := by
  cases a with
  | instruction i => exact toOption_eq_some.mp h
  | tick clock =>
    simp only [applyAction, Option.ite_none_right_eq_some, Option.some.injEq] at h
    exact ⟨h.1, h.2.symm⟩
  | environment => cases h

end VelaProtocol
