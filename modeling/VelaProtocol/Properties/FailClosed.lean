import VelaProtocol.Deployment.Hook

/-! The transfer hook accepts a transfer out of an account of the protocol for two reasons only. -/
namespace VelaProtocol

variable {P : HookPlatform} {clock : Clock} {ctx : TransferHook} {amount : UInt64}

/-- The authority decodes as a stream that allows the amount. -/
def Hook.StreamAuthorises (now : Int64) (ctx : TransferHook) (amount : UInt64) : Prop :=
  ∃ stream, Layout.streamMandateAccount.read ctx.owner.data = some stream ∧
    StreamAllows now stream amount

/-- The approval derived from the authority allows the amount; of a mandate it is for the current
billing period. -/
def Hook.ApprovalAuthorises (P : HookPlatform) (now : Int64) (ctx : TransferHook)
    (amount : UInt64) : Prop :=
  ∃ approval, ApprovalAllows P now ctx none amount approval ∧
    ∀ mandate, Layout.velaMandateAccount.read ctx.owner.data = some mandate →
      mandateBillingPeriod mandate = .ok (approval.periodStart, approval.periodEnd)

theorem Hook.ApprovalAllows.weaken {now : Int64} {period : Option (Int64 × Int64)}
    {approval : PullApproval} (allows : Hook.ApprovalAllows P now ctx period amount approval) :
    Hook.ApprovalAllows P now ctx none amount approval :=
  { allows with period := nofun }

theorem approvalAuthorises_of_other {now : Int64}
    (other : ctx.owner.data.take 8 ≠ Layout.VelaMandate.discriminator)
    (accepted : Hook.approvalBranch P now ctx none amount = .ok ()) :
    Hook.ApprovalAuthorises P now ctx amount := by
  obtain ⟨approval, allows⟩ := Hook.approvalBranch_eq_ok.mp accepted
  refine ⟨approval, allows, ?_⟩
  intro mandate decodes
  exact absurd (Hook.read_tagged decodes) other

theorem authorityBranch_authorises {now : Int64}
    (accepted : Hook.authorityBranch P now ctx amount = .ok ()) :
    Hook.StreamAuthorises now ctx amount ∨ Hook.ApprovalAuthorises P now ctx amount := by
  unfold Hook.authorityBranch at accepted
  split at accepted
  · rename_i empty
    refine .inr (approvalAuthorises_of_other ?_ accepted)
    have nil : ctx.owner.data = [] := List.isEmpty_iff.mp empty
    rw [nil]
    decide
  · split at accepted
    · cases accepted
    · split at accepted
      · exact .inl (Hook.streamBranch_eq_ok.mp accepted)
      · split at accepted
        · obtain ⟨mandate, decodes, accepted⟩ := Guard.orError_bind_eq_ok.mp accepted
          obtain ⟨period, computed, accepted⟩ := Guard.bind_eq_ok.mp accepted
          obtain ⟨approval, allows⟩ := Hook.approvalBranch_eq_ok.mp accepted
          refine .inr ⟨approval, allows.weaken, ?_⟩
          intro other same
          obtain rfl := Option.some.inj (decodes.symm.trans same)
          obtain ⟨start, finish⟩ := allows.period period rfl
          rw [computed, start, finish]
        · rename_i other
          exact .inr (approvalAuthorises_of_other other accepted)

/-- Whatever the bytes of the accounts: a transfer out of an account of the protocol, other than
through the vault, passes the hook only under its configuration, from a token account of that
authority, and for a stream or an approval that allows it. -/
theorem hook_fail_closed (owned : ctx.owner.owner = programId)
    (accepted : Hook.handler P clock ctx amount = .ok ()) :
    ∃ config tokenConfig source destination, Hook.Registered P ctx config tokenConfig ∧
      Hook.Moves P ctx config source destination ∧
      (Hook.exempt ctx config ∨ Hook.StreamAuthorises clock.unixTimestamp ctx amount ∨
        Hook.ApprovalAuthorises P clock.unixTimestamp ctx amount) := by
  obtain ⟨config, tokenConfig, source, destination, registered, moves, branch⟩ :=
    Hook.handler_eq_ok.mp accepted
  refine ⟨config, tokenConfig, source, destination, registered, moves, ?_⟩
  rcases branch with flow | foreign | authorised
  · exact .inl flow
  · exact absurd owned foreign
  · exact .inr (authorityBranch_authorises authorised)

open Deployment

def minuteWorld : World :=
  { streamWorld 60 1000 with
    stream := fun key =>
      if key = stream then some (initialStream (streamOffer (some 5000)) merchant 0 0 255)
      else none }

def minuteTransfer : TransferHook := hookView minuteWorld (streamAccounts.transfer stream)

theorem hook_fail_closed_minute : ∃ config tokenConfig source destination,
    Hook.Registered hookPlatform minuteTransfer config tokenConfig ∧
      Hook.Moves hookPlatform minuteTransfer config source destination ∧
      (Hook.exempt minuteTransfer config ∨ Hook.StreamAuthorises 60 minuteTransfer 600 ∨
        Hook.ApprovalAuthorises hookPlatform 60 minuteTransfer 600) := by
  have accepted : (Hook.handler hookPlatform ⟨60, 0⟩ minuteTransfer 600).toOption = some () := by
    decide +kernel
  exact hook_fail_closed rfl (toOption_eq_some.mp accepted)

end VelaProtocol
