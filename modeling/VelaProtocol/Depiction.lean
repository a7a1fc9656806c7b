import VelaProtocol.TransferHook

/-! The ledger as the transfer hook sees it: what the typed hook accepts of a stream or of a
mandate in the current layout, the hook accepts on the bytes. -/
namespace VelaProtocol

open Guard

structure AccountInfo.Stores {α : Type} (info : AccountInfo) (c : Codec α) (a : α) : Prop where
  owner : info.owner = programId
  holds : c.Holds info.data a

/-- The accounts a transfer passes to the hook, as the ledger has them. -/
structure Depicts (P : HookPlatform) (w : World) (accounts : TransferAccounts)
    (ctx : TransferHook) : Prop where
  source : ctx.sourceToken.key = accounts.source
  sourceToken : ∀ t ∈ w.tokenAccount accounts.source,
    ∃ t', P.unpackAccount ctx.sourceToken = some t' ∧ t'.mint = t.mint ∧ t'.owner = t.owner
  destination : ctx.destinationToken.key = accounts.destination
  destinationToken : ∀ t ∈ w.tokenAccount accounts.destination,
    ∃ t', P.unpackAccount ctx.destinationToken = some t' ∧ t'.mint = t.mint ∧ t'.owner = t.owner
  mint : ctx.mint.key = accounts.mint
  mintDecodes : (P.unpackMint ctx.mint).isSome = true
  authority : ctx.owner.key = accounts.authority
  stream : ∀ s ∈ w.stream accounts.authority, ctx.owner.Stores Layout.streamMandateAccount s
  mandate : ∀ account ∈ w.mandate accounts.authority, ∀ m, account.contents = .current m →
    ctx.owner.Stores Layout.velaMandateAccount m
  metas : ctx.extraAccountMetaList.key = P.extraAccountMetasAddress accounts.mint
  protocol : ctx.protocolProgram.key = programId
  vault : ctx.wrappingVault.key = accounts.wrappingVault
  configAddress : ctx.protocolConfig.key = P.configAddress
  config : ∀ c, w.protocolConfig = some (.current c) →
    ctx.protocolConfig.Stores Layout.protocolConfigAccount c
  tokenAddress : ctx.tokenConfig.key = P.tokenConfigAddress accounts.mint
  tokenConfig : ∀ c ∈ w.tokenConfig accounts.mint,
    ctx.tokenConfig.Stores Layout.tokenConfigAccount c
  approvalAddress : ctx.pullApproval.key =
    (P.findProgramAddress (.approval accounts.authority)).1
  approval : ∀ a ∈ w.pullApproval accounts.authority,
    ctx.pullApproval.Stores Layout.pullApprovalAccount a

variable {P : HookPlatform} {w : World} {accounts : TransferAccounts} {ctx : TransferHook}
  {amount : UInt64}

theorem hookStream_eq_ok {s : StreamMandate} {u : Unit} :
    hookStream w s amount = .ok u ↔ Hook.StreamAllows w.clock.unixTimestamp s amount := by
  rw [← Hook.checkStream_eq_ok (u := ()), hookStream, Hook.checkStream]
  simp only [check, orVela, bind_eq_ok, orError_eq_ok, require_eq_ok, exists_const,
    Checked.le_iff_int, Hook.checkCap_eq_ok]
  constructor
  · rintro ⟨active, elapsed, difference, nonneg, due, accrued, capped⟩
    have nonneg : 0 ≤ elapsed.toInt := nonneg
    refine ⟨active, elapsed, difference, nonneg, due, _, gross_fits nonneg _, ?_, ?_⟩
    · have value : (elapsed.toInt.toNat : Int) = elapsed.toInt := Int.toNat_of_nonneg nonneg
      rw [← value] at accrued
      exact_mod_cast accrued
    · intro cap limit
      rw [Option.mem_def] at limit
      simpa [limit, require_eq_ok] using capped
  · rintro ⟨active, elapsed, difference, nonneg, due, gross, product, accrued, capped⟩
    have nonneg : 0 ≤ elapsed.toInt := nonneg
    rw [gross_fits nonneg] at product
    obtain rfl := Option.some.inj product
    refine ⟨active, elapsed, difference, nonneg, due, ?_, ?_⟩
    · have value : (elapsed.toInt.toNat : Int) = elapsed.toInt := Int.toNat_of_nonneg nonneg
      rw [← value]
      exact_mod_cast accrued
    · cases limit : s.maxStreamed with
      | none => rfl
      | some cap => exact require_of _ (capped cap limit)

theorem hookApproval_eq_ok {authority : Pubkey} {period : Option (Int64 × Int64)} {u : Unit}
    (h : hookApproval w authority period amount = .ok u) : ∃ approval,
      w.pullApproval authority = some approval ∧ approval.mandate = authority ∧
        approval.approved = true ∧ w.clock.unixTimestamp ≤ approval.validUntil ∧
        (∀ p ∈ period, approval.periodStart = p.1 ∧ approval.periodEnd = p.2) ∧
        amount ≤ approval.approvedAmount := by
  simp only [hookApproval, check, orVela, bind_eq_ok, orError_eq_ok, require_eq_ok,
    exists_const] at h
  exact h

theorem AccountInfo.Stores.opens {α : Type} {info : AccountInfo} {c : Codec α} {tag : List UInt8}
    {a : α} (stores : info.Stores (c.tagged tag) a) (eight : tag.length = 8) :
    info.dataIsEmpty = false ∧ ¬info.data.length < 8 ∧ info.data.take 8 = tag := by
  have front := stores.holds.tag
  have long := Hook.length_of_tagged front
  rw [eight] at front long
  exact ⟨Hook.isEmpty_of_length long, by omega, front⟩

theorem authorityBranch_eq_stream {now : Int64} (nonempty : ctx.owner.dataIsEmpty = false)
    (long : ¬ctx.owner.data.length < 8)
    (front : ctx.owner.data.take 8 = Layout.StreamMandate.discriminator) :
    Hook.authorityBranch P now ctx amount = Hook.streamBranch now ctx.owner.data amount := by
  rw [Hook.authorityBranch, nonempty, if_neg Bool.false_ne_true, if_neg long, if_pos front]

theorem authorityBranch_eq_mandate {now : Int64} {m : VelaMandate} {period : Int64 × Int64}
    (nonempty : ctx.owner.dataIsEmpty = false) (long : ¬ctx.owner.data.length < 8)
    (front : ctx.owner.data.take 8 = Layout.VelaMandate.discriminator)
    (decodes : Layout.velaMandateAccount.read ctx.owner.data = some m)
    (computed : mandateBillingPeriod m = .ok period) :
    Hook.authorityBranch P now ctx amount =
      Hook.approvalBranch P now ctx (some period) amount := by
  have other : ctx.owner.data.take 8 ≠ Layout.StreamMandate.discriminator := by
    rw [front]
    decide
  rw [Hook.authorityBranch, nonempty, if_neg Bool.false_ne_true, if_neg long, if_neg other,
    if_pos front, decodes, orVela, orError_some, ok_bind, computed, ok_bind]

theorem authorityBranch_stream {now : Int64} {s : StreamMandate}
    (stores : ctx.owner.Stores Layout.streamMandateAccount s)
    (allows : Hook.StreamAllows now s amount) :
    Hook.authorityBranch P now ctx amount = .ok () := by
  obtain ⟨nonempty, long, front⟩ := stores.opens rfl
  rw [authorityBranch_eq_stream nonempty long front]
  exact Hook.streamBranch_eq_ok.mpr ⟨s, stores.holds.read, allows⟩

theorem authorityBranch_mandate {now : Int64} {m : VelaMandate} {period : Int64 × Int64}
    {approval : PullApproval} (stores : ctx.owner.Stores Layout.velaMandateAccount m)
    (computed : mandateBillingPeriod m = .ok period)
    (allows : Hook.ApprovalAllows P now ctx (some period) amount approval) :
    Hook.authorityBranch P now ctx amount = .ok () := by
  obtain ⟨nonempty, long, front⟩ := stores.opens rfl
  rw [authorityBranch_eq_mandate nonempty long front stores.holds.read computed]
  exact Hook.approvalBranch_eq_ok.mpr ⟨approval, allows⟩

/-- An authority whose bytes decide its branch: a stream, or a mandate in the current layout. -/
inductive Decided (w : World) (authority : Pubkey) : Prop
  | stream (s : StreamMandate) (found : w.stream authority = some s)
  | mandate (m : VelaMandate) (dataLen : Nat) (apart : w.stream authority = none)
      (found : w.mandate authority = some ⟨.current m, dataLen⟩)

theorem Decided.owned {authority : Pubkey} (decided : Decided w authority) :
    w.protocolOwned authority = true := by
  cases decided with
  | stream s found => simp [World.protocolOwned, found]
  | mandate m dataLen apart found => simp [World.protocolOwned, found]

theorem hookAuthority_stream {authority : Pubkey} {s : StreamMandate} {u : Unit}
    (found : w.stream authority = some s) (h : hookAuthority w authority amount = .ok u) :
    Hook.StreamAllows w.clock.unixTimestamp s amount := by
  rw [hookAuthority, found] at h
  exact hookStream_eq_ok.mp h

theorem hookAuthority_eq_mandate {authority : Pubkey} {account : MandateAccount}
    (apart : w.stream authority = none) (found : w.mandate authority = some account) :
    hookAuthority w authority amount = (do
      let mandate ← orVela (anchorVelaMandate w authority).toOption .wrongAccountType
      let period ← mandateBillingPeriod mandate
      hookApproval w authority (some period) amount) := by
  unfold hookAuthority
  simp only [apart, found]

theorem anchorVelaMandate_current {authority : Pubkey} {account : MandateAccount}
    {m : VelaMandate} (found : w.mandate authority = some account)
    (layout : account.contents = .current m) : anchorVelaMandate w authority = .ok m := by
  rw [anchorVelaMandate, found]
  simp only [layout]

theorem hookAuthority_mandate {authority : Pubkey} {account : MandateAccount} {m : VelaMandate}
    {u : Unit} (apart : w.stream authority = none) (found : w.mandate authority = some account)
    (layout : account.contents = .current m)
    (h : hookAuthority w authority amount = .ok u) :
    ∃ period, mandateBillingPeriod m = .ok period ∧
      hookApproval w authority (some period) amount = .ok u := by
  rw [hookAuthority_eq_mandate apart found, anchorVelaMandate_current found layout] at h
  obtain ⟨stored, loaded, rest⟩ := bind_eq_ok.mp h
  obtain ⟨period, computed, approved⟩ := bind_eq_ok.mp rest
  cases loaded
  exact ⟨period, computed, approved⟩

theorem authorityBranch_of_hookAuthority (depicts : Depicts P w accounts ctx)
    (decided : Decided w accounts.authority)
    (h : hookAuthority w accounts.authority amount = .ok ()) :
    Hook.authorityBranch P w.clock.unixTimestamp ctx amount = .ok () := by
  cases decided with
  | stream s found =>
    exact authorityBranch_stream (depicts.stream s found) (hookAuthority_stream found h)
  | mandate m dataLen apart found =>
    obtain ⟨period, computed, h⟩ := hookAuthority_mandate apart found rfl h
    obtain ⟨approval, present, mandate, approved, fresh, right, enough⟩ := hookApproval_eq_ok h
    have stores := depicts.approval approval present
    have key := depicts.authority
    have allows :
      Hook.ApprovalAllows P w.clock.unixTimestamp ctx (some period) amount approval := by
      refine ⟨?_, stores.owner, stores.holds.read, ?_, approved, fresh, right, enough⟩
      · rw [key]
        exact depicts.approvalAddress
      · rw [key]
        exact mandate
    exact authorityBranch_mandate (depicts.mandate _ found m rfl) computed allows

theorem handler_of_handlerTransferHook (depicts : Depicts P w accounts ctx)
    (decided : Decided w accounts.authority)
    (h : handlerTransferHook w accounts.mint accounts.source accounts.destination
      accounts.authority accounts.wrappingVault amount = .ok ()) :
    Hook.handler P w.clock ctx amount = .ok () := by
  obtain ⟨config, tokenConfig, source, destination, opens, verdict⟩ :=
    handlerTransferHook_eq_ok.mp h
  have stored := depicts.config config opens.configured
  have registered := depicts.tokenConfig tokenConfig opens.registered
  obtain ⟨source', sourceDecodes, sourceMint, sourceOwner⟩ :=
    depicts.sourceToken source opens.sourceFound
  obtain ⟨destination', destinationDecodes, destinationMint, _⟩ :=
    depicts.destinationToken destination opens.destinationFound
  have mint := depicts.mint
  refine Hook.handler_eq_ok.mpr ⟨config, tokenConfig, source', destination', ?_, ?_, ?_⟩
  · exact {
      configAddress := depicts.configAddress
      configOwner := stored.owner
      configDecodes := stored.holds.read
      hook := opens.program
      tokenAddress := by rw [mint]; exact depicts.tokenAddress
      tokenOwner := registered.owner
      tokenDecodes := registered.holds.read
      mint := opens.registeredMint.trans mint.symm
      enabled := opens.enabled
      rail := opens.rail }
  · exact {
      sourceDecodes := sourceDecodes
      mintDecodes := depicts.mintDecodes
      destinationDecodes := destinationDecodes
      metas := by rw [mint]; exact depicts.metas
      protocol := depicts.protocol
      sourceMint := by rw [mint, sourceMint, opens.sourceMint]
      destinationMint := by rw [mint, destinationMint, opens.destinationMint]
      sourceOwner := by rw [depicts.authority, sourceOwner, opens.sourceOwner]
      vault := by rw [mint, depicts.vault]; exact opens.vault }
  · rcases verdict with flow | foreign | accepted
    · refine .inl ?_
      rw [Hook.exempt, mint, depicts.source, depicts.destination]
      exact flow
    · exact absurd (decided.owned) (by rw [foreign]; decide)
    · exact .inr (.inr (authorityBranch_of_hookAuthority depicts decided accepted))

end VelaProtocol
