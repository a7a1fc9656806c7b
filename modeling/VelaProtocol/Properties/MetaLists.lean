import VelaProtocol.Deployment.MetaLists
import VelaProtocol.Properties.Governance
import VelaProtocol.Properties.Padding

/-! Both programs at once: whatever the protocol's admin and the hook's lists go through, a
transfer passes every account a list asks for, and the hook finds each where it looks. -/
namespace VelaProtocol

open Guard Monitored

variable {P : ListPlatform} {w w' : World} {s s₁ s' : HookLedger} {signed : List Pubkey}
  {ctx : ExtraAccountMetaListAccounts} {mint vault : Pubkey} {data : List UInt8}

def World.hasMint (w : World) (key : Pubkey) : Prop :=
  (w.mint key).isSome = true ∨ (w.splMint key).isSome = true

inductive ShowsConfig (info : AccountInfo) : Option LoadedProtocolConfig → Prop
  | absent (foreign : info.owner ≠ programId) : ShowsConfig info none
  | current (c : ProtocolConfig) (stores : info.Stores Layout.protocolConfigAccount c) :
      ShowsConfig info (some (.current c))
  | legacy (c : ProtocolConfigV1) (bytes : info.data = Layout.protocolConfigs.bytesOf (.inr c)) :
      ShowsConfig info (some (.legacy c))

structure ExtraAccountMetaListAccounts.Shown (P : ListPlatform) (w : World)
    (ctx : ExtraAccountMetaListAccounts) : Prop where
  config : ctx.config.key = P.configAddress → ShowsConfig ctx.config w.protocolConfig
  mint : (P.unpackMint ctx.mint).isSome = true → w.hasMint ctx.mint.key

inductive HookAction where
  | protocol (a : ProtocolAction)
  | initExtraAccountMetaList (ctx : ExtraAccountMetaListAccounts)
  | updateExtraAccountMetaList (ctx : ExtraAccountMetaListAccounts)

def HookStep (P : ListPlatform) (s : HookLedger) (a : HookAction) (s' : HookLedger) : Prop :=
  match a with
  | .protocol a => ProtocolStep P.toPlatform s.world a s'.world ∧ s'.metaList = s.metaList
  | .initExtraAccountMetaList ctx =>
    ctx.Shown P s.world ∧ initExtraAccountMetaList P s ctx = .ok s'
  | .updateExtraAccountMetaList ctx =>
    ctx.Shown P s.world ∧ updateExtraAccountMetaList P s ctx = .ok s'

def HookAction.signers : HookAction → List Pubkey
  | .protocol a => a.signers
  | .initExtraAccountMetaList ctx => [ctx.admin]
  | .updateExtraAccountMetaList ctx => [ctx.admin]

def watchHookSigners : Observe HookLedger HookAction (List Pubkey) := fun signed _ a _ =>
  a.signers ++ signed

/-- Other programs keep to their accounts and remove no mint, and nobody signs for the default
key. -/
def HookSealed (signed : List Pubkey) (s : HookLedger) (a : HookAction) (s' : HookLedger) : Prop :=
  match a with
  | .protocol a => Sealed signed s.world a s'.world ∧ Pubkey.default ∉ a.signers ∧
      (a = .outside → ∀ key, s.world.hasMint key → s'.world.hasMint key)
  | _ => True

abbrev HookRun (P : ListPlatform) :
    HookLedger × List Pubkey → HookLedger × List Pubkey → Prop :=
  Run (HookStep P) watchHookSigners HookSealed

def World.choice (w : World) : Option (Pubkey × Pubkey) :=
  w.protocolConfig.map fun c => (c.intoCurrent.wrappedUsdcMint, c.intoCurrent.wrappingVault)

inductive ChoiceStep (w : World) (signers : List Pubkey) (w' : World) : Prop
  | kept (same : w'.choice = w.choice)
  | founded (absent : w.choice = none)
      (unset : w'.choice = some (Pubkey.default, Pubkey.default))
  | chosen (key vault : Pubkey) (signs : key ∈ signers) (fresh : ¬w.hasMint key)
      (unset : w.choice.map Prod.fst = some Pubkey.default) (set : w'.choice = some (key, vault))

theorem upgraded_choice {config : ProtocolConfig} (h : upgradeProtocolConfig w = .ok config) :
    w.choice = some (config.wrappedUsdcMint, config.wrappingVault) := by
  obtain ⟨loaded, load, h⟩ := bind_eq_ok.mp h
  cases h
  rw [World.choice, loadProtocolConfig_eq_ok load]
  rfl

section Choice

variable {Q : Platform} {signers : List Pubkey}

theorem ChoiceStep.of_eq (same : w'.protocolConfig = w.protocolConfig) :
    ChoiceStep w signers w' := .kept (congrArg (Option.map _) same)

theorem initConfig_choice {ctx : InitConfig} :
    Ensures (initConfig Q w ctx) (ChoiceStep w signers) := by
  intro w' h
  obtain ⟨fresh, h⟩ := require_bind_eq_ok.mp h
  iterate 3 obtain ⟨_, _, h⟩ := bind_eq_ok.mp h
  cases h
  refine .founded ?_ rfl
  rw [World.choice, Option.isNone_iff_eq_none.mp fresh]
  rfl

theorem updateConfig_choice {ctx : UpdateConfig} :
    Ensures (updateConfig Q w ctx) (ChoiceStep w signers) := by
  intro w' h
  iterate 3 obtain ⟨_, _, h⟩ := bind_eq_ok.mp h
  obtain ⟨config, upgraded, h⟩ := bind_eq_ok.mp h
  cases h
  exact .kept (upgraded_choice upgraded).symm

theorem switch_choice {admin : Pubkey} (paused : Bool) (pausedAt : Int64) :
    Ensures (do
      let _ ← loadConfigAsAdmin w admin
      let config ← upgradeProtocolConfig w
      return w.writeProtocolConfig { config with paused := paused, pausedAt := pausedAt })
      (ChoiceStep w signers) := by
  intro w' h
  obtain ⟨_, _, h⟩ := bind_eq_ok.mp h
  obtain ⟨config, upgraded, h⟩ := bind_eq_ok.mp h
  cases h
  exact .kept (upgraded_choice upgraded).symm

theorem not_hasMint {key : Pubkey} (empty : w.dataIsEmpty key = true) : ¬w.hasMint key := by
  simp only [World.dataIsEmpty, Bool.and_eq_true, Option.isNone_iff_eq_none] at empty
  rintro (here | here)
  · rw [empty.1.1.2] at here
    cases here
  · rw [empty.2] at here
    cases here

theorem initWrappedMint_choice {ctx : InitWrappedMint} :
    Ensures (initWrappedMint Q w ctx) (ChoiceStep w [ctx.admin, ctx.wrappedUsdcMint]) := by
  intro w' h
  obtain ⟨_, _, h⟩ := bind_eq_ok.mp h
  obtain ⟨w₁, vault, h⟩ := bind_eq_ok.mp h
  obtain ⟨_, _, h⟩ := bind_eq_ok.mp h
  obtain ⟨config, upgraded, h⟩ := bind_eq_ok.mp h
  obtain ⟨unset, h⟩ := require_bind_eq_ok.mp h
  obtain ⟨w₂, created, h⟩ := bind_eq_ok.mp h
  cases h
  have vault := ensureVault_written w₁ vault
  obtain ⟨empty, _⟩ := require_bind_eq_ok.mp created
  have fresh := not_hasMint empty
  rw [World.hasMint, show w₁.mint = w.mint from vault .mint (by decide),
    show w₁.splMint = w.splMint from vault .splMint (by decide)] at fresh
  have choice : w₁.choice = w.choice :=
    congrArg (Option.map _) (vault .protocolConfig (by decide))
  refine .chosen ctx.wrappedUsdcMint (ctx.wrappingVault Q) (by simp) fresh ?_ rfl
  rw [← choice, upgraded_choice upgraded, unset]
  rfl

theorem configure_choice {i : ConfigInstruction} :
    Ensures (configure Q w i) (ChoiceStep w i.signers) := by
  intro w' h
  have apart (out : WorldField.protocolConfig ∉ i.writes) : ChoiceStep w i.signers w' :=
    .of_eq (configure_written w' h .protocolConfig out)
  cases i with
  | initConfig ctx => exact initConfig_choice w' h
  | updateConfig ctx => exact updateConfig_choice w' h
  | pauseProtocol admin => exact switch_choice true w.clock.unixTimestamp w' h
  | unpauseProtocol admin => exact switch_choice false 0 w' h
  | initWrappedMint ctx => exact initWrappedMint_choice w' h
  | initKeeperConfig ctx => exact apart (of_decide_eq_true rfl)
  | updateKeeperConfig ctx => exact apart (of_decide_eq_true rfl)
  | initTokenConfig ctx => exact apart (of_decide_eq_true rfl)
  | updateTokenConfig ctx => exact apart (of_decide_eq_true rfl)
  | initMerchantCredential ctx => exact apart (of_decide_eq_true rfl)
  | initCompDef circuit ctx => exact apart (of_decide_eq_true rfl)

theorem protocolStep_choice {a : ProtocolAction} (step : ProtocolStep Q w a w')
    (closed : Sealed signed w a w') : ChoiceStep w a.signers w' := by
  by_cases configures : ∃ i, a = .instruction (.config i)
  · obtain ⟨i, rfl⟩ := configures
    exact configure_choice w' step
  · have apart := ungoverned_writes a fun i same => configures ⟨i, same⟩
    exact .of_eq (protocolStep_written step closed .protocolConfig (apart _ (by decide)))

theorem splMint_unwritten (i : ProtocolInstruction) : WorldField.splMint ∉ i.writes := by
  cases i with
  | billing i => cases i <;> exact of_decide_eq_true rfl
  | streaming i => cases i <;> exact of_decide_eq_true rfl
  | agent i => cases i <;> exact of_decide_eq_true rfl
  | config i => cases i <;> exact of_decide_eq_true rfl
  | wrap ctx => exact of_decide_eq_true rfl
  | unwrapTokens ctx => exact of_decide_eq_true rfl

theorem protocolStep_mints {a : ProtocolAction} {key : Pubkey} (step : ProtocolStep Q w a w')
    (kept : a = .outside → ∀ key, w.hasMint key → w'.hasMint key) (stored : w.hasMint key) :
    w'.hasMint key := by
  cases a with
  | instruction i =>
    rcases stored with hooked | classic
    · obtain ⟨m, found⟩ := Option.isSome_iff_exists.mp hooked
      obtain ⟨supply, present⟩ := (protocol_booked w' step).mints key m found
      exact .inl (Option.isSome_iff_exists.mpr ⟨_, present⟩)
    · have same : w'.splMint = w.splMint := protocol_written w' step .splMint (splMint_unwritten i)
      exact .inr (same ▸ classic)
  | tick clock =>
    obtain ⟨_, rfl⟩ := step
    exact stored
  | outside => exact kept rfl key stored

end Choice

/-- The vault of a list and the choice of the protocol: they agree, or the list is older than the
choice and for another mint. -/
def VaultFits (mint own wrapped vault : Pubkey) : Prop :=
  own = vault ∨ own = Pubkey.default ∧ mint ≠ wrapped

/-- No vault without a wrapped mint, and every list of full size is one the hook wrote. -/
structure ListsSound (P : ListPlatform) (s : HookLedger) : Prop where
  unchosen : ∀ vault, s.world.choice = some (Pubkey.default, vault) → vault = Pubkey.default
  lists : ∀ mint data size, s.metaList mint = some data → P.tlv.sizeOf 8 = some size →
    size ≤ data.length → ∃ wrapped vault own, s.world.choice = some (wrapped, vault) ∧
      s.world.hasMint mint ∧ ListsVault P own data ∧ VaultFits mint own wrapped vault

theorem ChoiceStep.fits {signers : List Pubkey} {wrapped own : Pubkey}
    (step : ChoiceStep w signers w') (before : w.choice = some (wrapped, vault))
    (unchosen : wrapped = Pubkey.default → vault = Pubkey.default) (stored : w.hasMint mint)
    (fits : VaultFits mint own wrapped vault) : ∃ wrapped' vault',
      w'.choice = some (wrapped', vault') ∧ VaultFits mint own wrapped' vault' := by
  cases step with
  | kept same => exact ⟨wrapped, vault, same.trans before, fits⟩
  | founded absent _ => cases absent.symm.trans before
  | chosen key next signs fresh unset set =>
    refine ⟨key, next, set, .inr ⟨?_, ?_⟩⟩
    · rw [before] at unset
      have none := unchosen (Option.some.inj unset)
      rcases fits with same | ⟨empty, _⟩
      · exact same.trans none
      · exact empty
    · rintro rfl
      exact fresh stored

theorem ListsSound.protocol {a : ProtocolAction} (sound : ListsSound P s)
    (step : ProtocolStep P.toPlatform s.world a s'.world) (same : s'.metaList = s.metaList)
    (closed : HookSealed signed s (.protocol a) s') : ListsSound P s' := by
  obtain ⟨closed, unsigned, kept⟩ := closed
  have choice := protocolStep_choice step closed
  constructor
  case unchosen =>
    intro vault set
    cases choice with
    | kept same => exact sound.unchosen vault (same.symm.trans set)
    | founded _ unset => exact (Prod.ext_iff.mp (Option.some.inj (set.symm.trans unset))).2
    | chosen key next signs _ _ chosen =>
      have none : Pubkey.default = key :=
        (Prod.ext_iff.mp (Option.some.inj (set.symm.trans chosen))).1
      exact absurd (none ▸ signs) unsigned
  case lists =>
    intro mint data size stored sized full
    rw [same] at stored
    obtain ⟨wrapped, vault, own, before, there, lists, fits⟩ :=
      sound.lists mint data size stored sized full
    obtain ⟨wrapped', vault', after, fits'⟩ := choice.fits before
      (fun none => sound.unchosen vault (none ▸ before)) there fits
    exact ⟨wrapped', vault', own, after, protocolStep_mints step kept there, lists, fits'⟩

theorem ShowsConfig.loaded {info : AccountInfo} {stored : Option LoadedProtocolConfig}
    {config : ProtocolConfig} (shows : ShowsConfig info stored)
    (h : Hook.loadProtocolConfig P.toHookPlatform info = .ok config) :
    stored = some (.current config) := by
  obtain ⟨_, owner, read⟩ := Hook.loadProtocolConfig_eq_ok.mp h
  cases shows with
  | absent foreign => exact absurd owner foreign
  | current c stores =>
    obtain rfl := Option.some.inj (stores.holds.read.symm.trans read)
    rfl
  | legacy c bytes =>
    -- the old layout is too short for the hook
    have short := (protocolConfig_padded c 0).mpr (by decide)
    rw [List.replicate_zero, List.append_nil] at short
    change info.data =
      Layout.ProtocolConfig.discriminator ++ Layout.protocolConfigV1.encode c at bytes
    simp only [bytes, Codec.read, Layout.protocolConfigAccount, Codec.tagged, List.take_left,
      List.drop_left, if_true, short] at read
    cases read

structure ListWritten (P : ListPlatform) (s : HookLedger) (ctx : ExtraAccountMetaListAccounts)
    (s' : HookLedger) (config : ProtocolConfig) (data : List UInt8) : Prop where
  found : s.world.protocolConfig = some (.current config)
  admin : config.admin = ctx.admin
  vault : ctx.wrappingVault = config.wrappingVault
  mint : s.world.hasMint ctx.mint.key
  lists : ListsVault P ctx.wrappingVault data
  full : ∀ size, P.tlv.sizeOf 8 = some size → data.length = size
  smaller : ∀ old size, s.metaList ctx.mint.key = some old → P.tlv.sizeOf 8 = some size →
    old.length < size
  written : s' = s.setMetaList ctx.mint.key data

theorem ListResult.of_eq_ok {α : Type} {x : Result α} {a : α} :
    ListResult.of x = .ok a ↔ x = .ok a := by
  cases x with
  | error e => exact ⟨nofun, nofun⟩
  | ok b =>
    constructor <;> intro same <;> exact congrArg _ (Except.ok.inj same)

theorem openMetaList_eq_ok {u : Unit} (h : openMetaList P ctx = .ok u) :
    (P.unpackMint ctx.mint).isSome = true := by
  obtain ⟨m, unpacked, _⟩ := bind_eq_ok.mp h
  exact Option.isSome_iff_exists.mpr ⟨m, orError_eq_ok.mp unpacked⟩

theorem checkMetaListAdmin_eq_ok {u : Unit} (shown : ctx.Shown P w)
    (h : checkMetaListAdmin P ctx = .ok u) : ∃ config,
      w.protocolConfig = some (.current config) ∧ config.admin = ctx.admin ∧
        ctx.wrappingVault = config.wrappingVault ∧ ctx.config.key = P.configAddress := by
  obtain ⟨config, load, h⟩ := bind_eq_ok.mp h
  obtain ⟨_, h⟩ := require_bind_eq_ok.mp h
  obtain ⟨admin, h⟩ := require_bind_eq_ok.mp h
  have key := (Hook.loadProtocolConfig_eq_ok.mp load).1
  exact ⟨config, (shown.config key).loaded load, admin, require_eq_ok.mp h, key⟩

theorem writeMetaList_eq_ok {size : Nat} (sized : P.tlv.sizeOf 8 = some size)
    (key : ctx.config.key = P.configAddress) (h : writeMetaList P size ctx = .ok data) :
    ListsVault P ctx.wrappingVault data ∧ data.length = size := by
  obtain ⟨metas, built, h⟩ := bind_eq_ok.mp h
  have written := orError_eq_ok.mp h
  rw [key] at built
  have length := P.lawful.length _ _ _ written
  rw [List.length_replicate] at length
  exact ⟨⟨size, metas, sized, built, written⟩, length⟩

theorem listWritten_of {size : Nat} {u u' : Unit} (shown : ctx.Shown P s.world)
    (opened : openMetaList P ctx = .ok u) (checked : checkMetaListAdmin P ctx = .ok u')
    (sized : P.tlv.sizeOf 8 = some size) (wrote : writeMetaList P size ctx = .ok data)
    (smaller : ∀ old, s.metaList ctx.mint.key = some old → old.length < size) :
    ∃ config, ListWritten P s ctx (s.setMetaList ctx.mint.key data) config data := by
  obtain ⟨config, found, admin, vault, key⟩ := checkMetaListAdmin_eq_ok shown checked
  obtain ⟨lists, length⟩ := writeMetaList_eq_ok sized key wrote
  refine ⟨config, found, admin, vault, shown.mint (openMetaList_eq_ok opened), lists, ?_, ?_, rfl⟩
  · intro size' sized'
    exact length.trans (Option.some.inj (sized.symm.trans sized'))
  · intro old size' stored sized'
    exact Option.some.inj (sized.symm.trans sized') ▸ smaller old stored

theorem initExtraAccountMetaList_eq_ok (shown : ctx.Shown P s.world)
    (h : initExtraAccountMetaList P s ctx = .ok s') :
    s.metaList ctx.mint.key = none ∧ ∃ config data, ListWritten P s ctx s' config data := by
  simp only [initExtraAccountMetaList, bind_eq_ok, ListResult.of_eq_ok, orHost, orError_eq_ok,
    require_eq_ok, exists_const, pure_eq_ok] at h
  obtain ⟨u, opened, size, sized, absent, u', checked, data, wrote, rfl⟩ := h
  have none := Option.isNone_iff_eq_none.mp absent
  obtain ⟨config, written⟩ := listWritten_of (s := s) shown opened checked sized wrote
    fun old stored => by cases none.symm.trans stored
  exact ⟨none, config, data, written⟩

theorem updateExtraAccountMetaList_eq_ok (shown : ctx.Shown P s.world)
    (h : updateExtraAccountMetaList P s ctx = .ok s') :
    (s.metaList ctx.mint.key).isSome = true ∧
      ∃ config data, ListWritten P s ctx s' config data := by
  simp only [updateExtraAccountMetaList, bind_eq_ok, ListResult.of_eq_ok, orHost, orError_eq_ok,
    require_eq_ok, exists_const, pure_eq_ok] at h
  obtain ⟨u, opened, u', checked, size, sized, smaller, data, wrote, present, rfl⟩ := h
  obtain ⟨config, written⟩ := listWritten_of (s := s) shown opened checked sized wrote
    fun old stored => by rwa [stored, Option.getD_some] at smaller
  exact ⟨present, config, data, written⟩

theorem ListsSound.written {config : ProtocolConfig} (sound : ListsSound P s)
    (written : ListWritten P s ctx s' config data) : ListsSound P s' := by
  have choice : s.world.choice = some (config.wrappedUsdcMint, config.wrappingVault) := by
    rw [World.choice, written.found]
    rfl
  rw [written.written]
  constructor
  case unchosen => exact sound.unchosen
  case lists =>
    intro mint stored size listed sized full
    by_cases here : mint = ctx.mint.key
    · subst here
      obtain rfl := Option.some.inj ((s.setMetaList_self _ data).symm.trans listed)
      exact ⟨_, _, _, choice, written.mint, written.lists, .inl written.vault⟩
    · rw [HookLedger.setMetaList_of_ne here] at listed
      exact sound.lists mint stored size listed sized full

theorem ListsSound.step {a : HookAction} (sound : ListsSound P s) (step : HookStep P s a s')
    (closed : HookSealed signed s a s') : ListsSound P s' := by
  cases a with
  | protocol a => exact sound.protocol step.1 step.2 closed
  | initExtraAccountMetaList ctx =>
    obtain ⟨_, config, data, written⟩ := initExtraAccountMetaList_eq_ok step.1 step.2
    exact sound.written written
  | updateExtraAccountMetaList ctx =>
    obtain ⟨_, config, data, written⟩ := updateExtraAccountMetaList_eq_ok step.1 step.2
    exact sound.written written

def TransferHook.keys (ctx : TransferHook) : List Pubkey :=
  [ctx.sourceToken.key, ctx.mint.key, ctx.destinationToken.key, ctx.owner.key,
    ctx.extraAccountMetaList.key, ctx.protocolProgram.key, ctx.wrappingVault.key,
    ctx.protocolConfig.key, ctx.pullApproval.key, ctx.tokenConfig.key]

structure Located (P : HookPlatform) (choice : Pubkey × Pubkey) (ctx : TransferHook) :
    Prop where
  metas : ctx.extraAccountMetaList.key = P.extraAccountMetasAddress ctx.mint.key
  protocol : ctx.protocolProgram.key = programId
  config : ctx.protocolConfig.key = P.configAddress
  token : ctx.tokenConfig.key = P.tokenConfigAddress ctx.mint.key
  approval : ctx.pullApproval.key = (P.findProgramAddress (.approval ctx.owner.key)).1
  vault : ctx.mint.key = choice.1 → ctx.wrappingVault.key = choice.2

/-- What the token program makes of a list: it finds every account it asks for among those the
transfer passes, with the rights it asks for, lets none of them sign and only the approval be
written, and calls the hook with what the hook wants. -/
structure Supplied (P : ListPlatform) (config : ProtocolConfig) (data : List UInt8)
    (accounts : TransferAccounts) (extra : List AccountMeta) : Prop where
  resolved : P.tlv.addToCpiInstruction data (executeAccounts P.toHookPlatform accounts) =
    some (executeAccounts P.toHookPlatform accounts ++ extra)
  passed : ∀ a ∈ extra, ∃ b ∈ convertInstruction
    (transferHookAccountMetas (accounts.passed P.toHookPlatform config)),
      b.pubkey = a.pubkey ∧ (a.isWritable = true → b.isWritable = true)
  unsigned : ∀ a ∈ extra, a.isSigner = false
  readonly : ∀ a ∈ extra, a.isWritable = true →
    a.pubkey = (P.findProgramAddress (.approval accounts.authority)).1
  addressed : ∀ ctx : TransferHook, (∃ reserved, ctx.keys ++ reserved =
    (executeAccounts P.toHookPlatform accounts ++ extra).map AccountMeta.pubkey) →
      Located P.toHookPlatform (config.wrappedUsdcMint, config.wrappingVault) ctx

theorem granted_member {approval : Pubkey} {extra : List AccountMeta} {keys : List Pubkey}
    (granted : List.Forall₂ (Grants approval) extra keys) :
    ∀ a ∈ extra, ∃ key ∈ keys, Grants approval a key := by
  induction granted with
  | nil => exact fun a member => absurd member List.not_mem_nil
  | @cons b key _ _ first _ ih =>
    intro a member
    rcases List.mem_cons.mp member with rfl | later
    · exact ⟨key, List.mem_cons_self, first⟩
    · obtain ⟨key', among, grants⟩ := ih a later
      exact ⟨key', List.mem_cons_of_mem _ among, grants⟩

theorem granted_keys {approval : Pubkey} {extra : List AccountMeta} {keys : List Pubkey}
    (granted : List.Forall₂ (Grants approval) extra keys) :
    extra.map AccountMeta.pubkey = keys := by
  induction granted with
  | nil => rfl
  | cons first _ ih => rw [List.map_cons, first.pubkey, ih]

theorem extraKeys_passed {config : ProtocolConfig} {own : Pubkey} {accounts : TransferAccounts}
    (fits : VaultFits accounts.mint own config.wrappedUsdcMint config.wrappingVault)
    (key : Pubkey) (listed : key ∈ extraKeys P.toHookPlatform own accounts) :
    ∃ b ∈ transferHookAccountMetas (accounts.passed P.toHookPlatform config), b.pubkey = key := by
  have vault : own = config.wrappingVault ∨ own = systemProgramId := fits.imp_right And.left
  simp only [extraKeys, List.mem_cons, List.not_mem_nil, or_false] at listed
  simp only [transferHookAccountMetas, TransferAccounts.passed, List.mem_cons, List.not_mem_nil,
    or_false, exists_eq_or_imp, exists_eq_left, AccountMeta.readonly, AccountMeta.writable]
  rcases listed with rfl | rfl | rfl | rfl | rfl | rfl | rfl | rfl
  · exact .inl rfl
  · rcases vault with same | same
    · exact .inr (.inl same.symm)
    · exact .inr (.inr (.inr (.inr (.inr (.inl same.symm)))))
  · exact .inr (.inr (.inl rfl))
  · exact .inr (.inr (.inr (.inl rfl)))
  · exact .inr (.inr (.inr (.inr (.inl rfl))))
  all_goals exact .inr (.inr (.inr (.inr (.inr (.inl rfl)))))

theorem ListsVault.supplied {config : ProtocolConfig} {own : Pubkey} {accounts : TransferAccounts}
    (lists : ListsVault P own data)
    (fits : VaultFits accounts.mint own config.wrappedUsdcMint config.wrappingVault) :
    ∃ extra, Supplied P config data accounts extra := by
  obtain ⟨extra, resolved, granted⟩ := lists.resolves accounts
  have member := granted_member granted
  refine ⟨extra, resolved, ?_, ?_, ?_, ?_⟩
  · intro a among
    obtain ⟨key, listed, grants⟩ := member a among
    rw [convertInstruction_eq]
    by_cases writable : a.isWritable = true
    · have approval := grants.pubkey.trans (grants.writable writable)
      refine ⟨.writable _ false, ?_, approval.symm, fun _ => rfl⟩
      simp [transferHookAccountMetas, TransferAccounts.passed]
    · obtain ⟨b, given, same⟩ := extraKeys_passed fits key listed
      exact ⟨b, given, same.trans grants.pubkey.symm, fun right => absurd right writable⟩
  · intro a among
    obtain ⟨_, _, grants⟩ := member a among
    exact grants.signer
  · intro a among writable
    obtain ⟨_, _, grants⟩ := member a among
    exact grants.pubkey.trans (grants.writable writable)
  · rintro ctx ⟨reserved, called⟩
    rw [List.map_append, granted_keys granted] at called
    simp only [TransferHook.keys, executeAccounts, extraKeys, AccountMeta.readonly, List.map_cons,
      List.map_nil, List.cons_append, List.nil_append, List.cons.injEq] at called
    obtain ⟨_, mint, _, authority, metas, protocol, vault, configKey, approval, token, _⟩ := called
    refine ⟨mint ▸ metas, protocol, configKey, mint ▸ token, authority ▸ approval, ?_⟩
    intro wrapped
    rcases fits with same | ⟨_, other⟩
    · exact vault.trans same
    · exact absurd (mint.symm.trans wrapped) other

/-- Over any run of the two programs every list of full size asks for accounts that a transfer
passes and that the hook accepts. -/
theorem transfers_supplied {config : LoadedProtocolConfig} {size : Nat}
    (sound : ListsSound P s) (run : HookRun P (s, []) (s', signed))
    (configured : s'.world.protocolConfig = some config)
    (listed : s'.metaList mint = some data) (sized : P.tlv.sizeOf 8 = some size)
    (full : size ≤ data.length) (accounts : TransferAccounts) (own : accounts.mint = mint) :
    ∃ extra, Supplied P config.intoCurrent data accounts extra := by
  have sound' : ListsSound P s' := run.invariant (fun v _ => ListsSound P v) sound
    fun _ _ _ _ sound step closed => sound.step step closed
  obtain ⟨wrapped, vault, kept, choice, _, lists, fits⟩ :=
    sound'.lists mint data size listed sized full
  rw [World.choice, configured, Option.map_some, Option.some.injEq, Prod.mk.injEq] at choice
  obtain ⟨rfl, rfl⟩ := choice
  exact lists.supplied (own ▸ fits)

structure ListsGoverned (P : ListPlatform) (signed : List Pubkey) (s s' : HookLedger) : Prop where
  stays : ∀ mint, (s.metaList mint).isSome = true → (s'.metaList mint).isSome = true
  whole : ∀ mint data size, s.metaList mint = some data → P.tlv.sizeOf 8 = some size →
    size ≤ data.length → s'.metaList mint = some data
  written : ∀ mint, s'.metaList mint ≠ s.metaList mint → ∃ data own config,
    s'.metaList mint = some data ∧ ListsVault P own data ∧
      s'.world.protocolConfig = some config ∧ config.admin ∈ signed

theorem ListsGoverned.refl (s : HookLedger) : ListsGoverned P signed s s where
  stays _ stored := stored
  whole _ _ _ stored _ _ := stored
  written _ changed := absurd rfl changed

theorem ListsGoverned.protocol {a : ProtocolAction} (governed : ListsGoverned P signed s s₁)
    (step : ProtocolStep P.toPlatform s₁.world a s'.world) (same : s'.metaList = s₁.metaList)
    (closed : Sealed signed s₁.world a s'.world) : ListsGoverned P (a.signers ++ signed) s s' where
  stays mint stored := same ▸ governed.stays mint stored
  whole mint data size stored sized full := same ▸ governed.whole mint data size stored sized full
  written mint changed := by
    rw [same] at changed ⊢
    obtain ⟨data, own, config, now, lists, configured, signs⟩ := governed.written mint changed
    obtain ⟨config', found, kept⟩ := (protocolStep_governed step closed).config config configured
    refine ⟨data, own, config', now, lists, found, List.mem_append_right _ ?_⟩
    have admin := kept.admin
    rw [loaded_admin, loaded_admin] at admin
    exact admin ▸ signs

theorem ListsGoverned.rewritten {config : ProtocolConfig}
    (governed : ListsGoverned P signed s s₁) (written : ListWritten P s₁ ctx s' config data) :
    ListsGoverned P (ctx.admin :: signed) s s' := by
  rw [written.written]
  constructor
  case stays =>
    intro mint stored
    by_cases here : mint = ctx.mint.key
    · rw [here, HookLedger.setMetaList_self]
      rfl
    · rw [HookLedger.setMetaList_of_ne here]
      exact governed.stays mint stored
  case whole =>
    intro mint old size stored sized full
    have before := governed.whole mint old size stored sized full
    by_cases here : mint = ctx.mint.key
    · -- what has its full size is never written again
      subst here
      have smaller := written.smaller old size before sized
      omega
    · exact (HookLedger.setMetaList_of_ne here _ _).trans before
  case written =>
    intro mint changed
    by_cases here : mint = ctx.mint.key
    · subst here
      refine ⟨data, _, .current config, s₁.setMetaList_self _ _, written.lists, written.found, ?_⟩
      exact written.admin ▸ List.mem_cons_self
    · rw [HookLedger.setMetaList_of_ne here] at changed ⊢
      obtain ⟨data', own, config', now, lists, configured, signs⟩ := governed.written mint changed
      exact ⟨data', own, config', now, lists, configured, List.mem_cons_of_mem _ signs⟩

theorem ListsGoverned.step {a : HookAction} (governed : ListsGoverned P signed s s₁)
    (step : HookStep P s₁ a s') (closed : HookSealed signed s₁ a s') :
    ListsGoverned P (a.signers ++ signed) s s' := by
  cases a with
  | protocol a => exact governed.protocol step.1 step.2 closed.1
  | initExtraAccountMetaList ctx =>
    obtain ⟨_, config, data, written⟩ := initExtraAccountMetaList_eq_ok step.1 step.2
    exact governed.rewritten written
  | updateExtraAccountMetaList ctx =>
    obtain ⟨_, config, data, written⟩ := updateExtraAccountMetaList_eq_ok step.1 step.2
    exact governed.rewritten written

/-- Over any run no list goes away, one of full size never changes again, and every list that was
written is one of the eight-slot lists and has the admin's signature behind it. -/
theorem meta_lists_governed (run : HookRun P (s, []) (s', signed)) :
    ListsGoverned P signed s s' :=
  run.invariant (fun v keys => ListsGoverned P keys s v) (.refl s)
    fun _ _ _ _ governed step closed => governed.step step closed

open Deployment

def listAccounts (config : ProtocolConfig) (mint : Pubkey) : ExtraAccountMetaListAccounts where
  admin := config.admin
  config := stored hookPlatform.configAddress Layout.protocolConfigAccount (some config)
  extraAccountMetaList := hookPlatform.extraAccountMetasAddress mint
  mint := ⟨mint, token2022, List.replicate 82 0⟩
  wrappingVault := config.wrappingVault

def applyHook (s : HookLedger) : HookAction → Option HookLedger
  | .protocol a => (applyProtocol platform s.world a).map fun w => { s with world := w }
  | .initExtraAccountMetaList ctx =>
    if ((currentConfig s.world).any fun config => ctx = listAccounts config ctx.mint.key) = true ∧
        (s.world.mint ctx.mint.key).isSome = true then
      (initExtraAccountMetaList listPlatform s ctx).toOption
    else none
  | .updateExtraAccountMetaList _ => none

theorem currentConfig_eq_some {config : ProtocolConfig} (h : currentConfig w = some config) :
    w.protocolConfig = some (.current config) := by
  unfold currentConfig at h
  split at h
  · rename_i stored
    exact stored.trans (congrArg _ (congrArg _ (Option.some.inj h)))
  · cases h

theorem listAccounts_shown {config : ProtocolConfig} (current : currentConfig w = some config)
    (there : (w.mint mint).isSome = true) : (listAccounts config mint).Shown listPlatform w where
  config _ := by
    rw [currentConfig_eq_some current]
    exact .current config (stored_stores _ _ rfl)
  mint _ := .inl there

theorem applyHook_step {a : HookAction} (h : applyHook s a = some s') :
    HookStep listPlatform s a s' := by
  cases a with
  | protocol a =>
    obtain ⟨w', applied, rfl⟩ := Option.map_eq_some_iff.mp h
    have step : ProtocolStep platform s.world a w' := applyProtocol_step applied
    exact ⟨step, rfl⟩
  | initExtraAccountMetaList ctx =>
    simp only [applyHook, Option.ite_none_right_eq_some, Option.any_eq_true,
      decide_eq_true_eq] at h
    obtain ⟨⟨⟨config, current, own⟩, there⟩, applied⟩ := h
    constructor
    · rw [own]
      exact listAccounts_shown current there
    · cases result : initExtraAccountMetaList listPlatform s ctx with
      | error e =>
        rw [result] at applied
        cases applied
      | ok s₁ =>
        rw [result] at applied
        exact congrArg _ (Option.some.inj applied)
  | updateExtraAccountMetaList ctx => cases h

def InsideHook (_ : List Pubkey) (_ : HookLedger) (a : HookAction) (_ : HookLedger) : Prop :=
  match a with
  | .protocol .outside => False
  | .protocol a => Pubkey.default ∉ a.signers
  | _ => True

def listsScript : List HookAction :=
  let chosen := { config with wrappingVault := wrappedVault }
  [.initExtraAccountMetaList (listAccounts
      { config with wrappedUsdcMint := Pubkey.default, wrappingVault := Pubkey.default } mintB),
    .protocol (.instruction (.config (.initWrappedMint wrappedOffer))),
    .initExtraAccountMetaList (listAccounts chosen mintA)]

def unlisted : HookLedger where
  world := { unwrappedWorld with mint := fun key => if key = mintB then some billingMint else none }
  metaList _ := none

instance (signed : List Pubkey) (s : HookLedger) (a : HookAction) (s' : HookLedger) :
    Decidable (InsideHook signed s a s') :=
  match a with
  | .protocol .outside => isFalse id
  | .protocol (.instruction i) => inferInstanceAs (Decidable (Pubkey.default ∉ i.signers))
  | .protocol (.tick clock) =>
    inferInstanceAs (Decidable (Pubkey.default ∉ (ProtocolAction.tick clock).signers))
  | .initExtraAccountMetaList _ => isTrue trivial
  | .updateExtraAccountMetaList _ => isTrue trivial

theorem InsideHook.sealed {a : HookAction} (inside : InsideHook signed s a s') :
    HookSealed signed s a s' := by
  cases a with
  | protocol a =>
    cases a with
    | outside => exact inside.elim
    | instruction i => exact ⟨nofun, inside, nofun⟩
    | tick clock => exact ⟨nofun, inside, nofun⟩
  | initExtraAccountMetaList ctx => exact trivial
  | updateExtraAccountMetaList ctx => exact trivial

theorem inside_lists {script : List HookAction}
    (played : play applyHook watchHookSigners InsideHook (s, []) script = some (s', signed)) :
    HookRun listPlatform (s, []) (s', signed) :=
  (play_run (fun _ _ _ => applyHook_step) played).weaken fun _ _ _ _ => InsideHook.sealed

theorem unlisted_sound : ListsSound listPlatform unlisted where
  unchosen _ choice := (Prod.ext_iff.mp (Option.some.inj choice)).2.symm
  lists _ _ _ listed := nomatch listed

theorem listed_twice : ∃ s' signed dataB dataA,
    HookRun listPlatform (unlisted, []) (s', signed) ∧ s'.metaList mintB = some dataB ∧
      s'.metaList mintA = some dataA ∧ dataB.length = 296 ∧
      s'.world.choice = some (mintA, wrappedVault) ∧
      (currentConfig s'.world).isSome = true := by
  have played : (play applyHook watchHookSigners InsideHook (unlisted, []) listsScript).any
      (fun x => ((x.1.metaList mintB).any (·.length = 296) && (x.1.metaList mintA).isSome) &&
        (decide (x.1.world.choice = some (mintA, wrappedVault)) &&
          (currentConfig x.1.world).isSome)) = true := by
    decide +kernel
  simp only [Option.any_eq_true, Bool.and_eq_true, decide_eq_true_eq] at played
  obtain ⟨⟨s', signed⟩, script, ⟨⟨dataB, listedB, size⟩, second⟩, choice, current⟩ := played
  obtain ⟨dataA, listedA⟩ := Option.isSome_iff_exists.mp second
  exact ⟨s', signed, dataB, dataA, inside_lists script, listedB, listedA, size, choice, current⟩

theorem transfers_supplied_unwrapped : ∃ s' signed config data extra,
    HookRun listPlatform (unlisted, []) (s', signed) ∧
      s'.world.protocolConfig = some (.current config) ∧ config.wrappedUsdcMint = mintA ∧
      s'.metaList mintB = some data ∧
      Supplied listPlatform config data (pullContext (flatPlan 0) mintB []).transferAccounts
        extra := by
  obtain ⟨s', signed, dataB, _, run, listed, _, size, choice, current⟩ := listed_twice
  obtain ⟨config, stored⟩ := Option.isSome_iff_exists.mp current
  have configured := currentConfig_eq_some stored
  rw [World.choice, configured, Option.map_some, Option.some.injEq, Prod.mk.injEq] at choice
  have sized : listPlatform.tlv.sizeOf 8 = some 296 := by decide
  obtain ⟨extra, supplied⟩ := transfers_supplied unlisted_sound run configured listed sized
    size.ge (pullContext (flatPlan 0) mintB []).transferAccounts rfl
  exact ⟨s', signed, config, dataB, extra, run, configured, choice.1, listed, supplied⟩

theorem meta_lists_governed_twice : ∃ s' signed,
    HookRun listPlatform (unlisted, []) (s', signed) ∧ s'.metaList mintA ≠ none ∧
      ListsGoverned listPlatform signed unlisted s' := by
  obtain ⟨s', signed, _, dataA, run, _, listed, _⟩ := listed_twice
  refine ⟨s', signed, run, ?_, meta_lists_governed run⟩
  rw [listed]
  exact Option.some_ne_none dataA

end VelaProtocol
