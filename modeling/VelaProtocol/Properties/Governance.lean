import VelaProtocol.Deployment.Protocol
import VelaProtocol.Footprint

/-! Who governs the protocol: what its admin may change, what not even the admin can, and that
nobody else changes anything. -/
namespace VelaProtocol

open Guard Monitored

variable {P : Platform} {w w₁ w' : World} {signed signers : List Pubkey}

/-- The admin stays, and the wrapped mint, its vault and the hook program are chosen once. -/
structure ConfigKept (before after : ProtocolConfig) : Prop where
  admin : after.admin = before.admin
  bump : after.bump = before.bump
  wrapped : before.wrappedUsdcMint ≠ Pubkey.default →
    after.wrappedUsdcMint = before.wrappedUsdcMint ∧ after.wrappingVault = before.wrappingVault
  hook : before.transferHookProgramId ≠ Pubkey.default →
    after.transferHookProgramId = before.transferHookProgramId

structure KeeperKept (before after : KeeperConfig) : Prop where
  admin : after.admin = before.admin
  bump : after.bump = before.bump

/-- A token is switched on and off and priced by another oracle, never more. -/
def TokenKept (before after : TokenConfig) : Prop :=
  after = { before with enabled := after.enabled, oracleReference := after.oracleReference }

/-- What becomes of the configuration while these keys sign. -/
structure Governed (signed : List Pubkey) (w w' : World) : Prop where
  config : ∀ c, w.protocolConfig = some c →
    ∃ c', w'.protocolConfig = some c' ∧ ConfigKept c.intoCurrent c'.intoCurrent
  founded : w.protocolConfig = none → ∀ c', w'.protocolConfig = some c' → c'.admin ∈ signed
  keeper : ∀ c, w.keeperConfig = some c →
    ∃ c', w'.keeperConfig = some c' ∧ KeeperKept c.intoCurrent c'.intoCurrent
  keeperFounded : w.keeperConfig = none → ∀ c', w'.keeperConfig = some c' →
    c'.intoCurrent.admin ∈ signed
  token : ∀ mint t, w.tokenConfig mint = some t →
    ∃ t', w'.tokenConfig mint = some t' ∧ TokenKept t t'
  listed : ∀ mint, w.tokenConfig mint = none → ∀ t', w'.tokenConfig mint = some t' →
    t'.mint = mint ∧ t'.admin ∈ signed
  silent : ∀ c, w.protocolConfig = some c → c.admin ∉ signed →
    w'.protocolConfig = w.protocolConfig ∧ w'.keeperConfig = w.keeperConfig ∧
      w'.tokenConfig = w.tokenConfig

theorem ConfigKept.refl (c : ProtocolConfig) : ConfigKept c c :=
  ⟨rfl, rfl, fun _ => ⟨rfl, rfl⟩, fun _ => rfl⟩

theorem ConfigKept.trans {c d e : ProtocolConfig} (first : ConfigKept c d)
    (second : ConfigKept d e) : ConfigKept c e where
  admin := second.admin.trans first.admin
  bump := second.bump.trans first.bump
  wrapped set := by
    obtain ⟨mint, vault⟩ := first.wrapped set
    obtain ⟨mint', vault'⟩ := second.wrapped (mint ▸ set)
    exact ⟨mint'.trans mint, vault'.trans vault⟩
  hook set := by
    have same := first.hook set
    exact (second.hook (same ▸ set)).trans same

theorem TokenKept.trans {s t u : TokenConfig} (first : TokenKept s t) (second : TokenKept t u) :
    TokenKept s u := by
  rw [TokenKept] at *
  rw [second, first]

theorem loaded_admin (c : LoadedProtocolConfig) : c.intoCurrent.admin = c.admin := by
  cases c <;> rfl

theorem Governed.of_eq (config : w'.protocolConfig = w.protocolConfig)
    (keeper : w'.keeperConfig = w.keeperConfig) (token : w'.tokenConfig = w.tokenConfig) :
    Governed signed w w' where
  config c found := ⟨c, config.trans found, .refl _⟩
  founded none c' found := by cases none.symm.trans (config.symm.trans found)
  keeper c found := ⟨c, keeper.trans found, rfl, rfl⟩
  keeperFounded none c' found := by cases none.symm.trans (keeper.symm.trans found)
  token mint t found := ⟨t, (congrFun token mint).trans found, rfl⟩
  listed mint none t' found := by cases none.symm.trans ((congrFun token mint).symm.trans found)
  silent _ _ _ := ⟨config, keeper, token⟩

/-- What is new after two steps is new in one of them, and keeps the admin it was made by. -/
theorem founded_trans {α : Type} {admin : α → Pubkey} {before between after : Option α}
    (first : before = none → ∀ c, between = some c → admin c ∈ signed)
    (second : between = none → ∀ c, after = some c → admin c ∈ signers)
    (kept : ∀ c, between = some c → ∃ c', after = some c' ∧ admin c' = admin c)
    (fresh : before = none) (c : α) (found : after = some c) : admin c ∈ signers ++ signed := by
  cases middle : between with
  | none => exact List.mem_append_left _ (second middle c found)
  | some d =>
    obtain ⟨c', present, same⟩ := kept d middle
    obtain rfl := Option.some.inj (found.symm.trans present)
    exact List.mem_append_right _ (same ▸ first fresh d middle)

theorem Governed.trans (first : Governed signed w w₁) (second : Governed signers w₁ w') :
    Governed (signers ++ signed) w w' where
  config c found := by
    obtain ⟨d, found₁, kept⟩ := first.config c found
    obtain ⟨e, found', kept'⟩ := second.config d found₁
    exact ⟨e, found', kept.trans kept'⟩
  founded := by
    refine founded_trans first.founded second.founded fun c found => ?_
    obtain ⟨c', present, kept⟩ := second.config c found
    exact ⟨c', present, by rw [← loaded_admin, kept.admin, loaded_admin]⟩
  keeper c found := by
    obtain ⟨d, found₁, kept⟩ := first.keeper c found
    obtain ⟨e, found', kept'⟩ := second.keeper d found₁
    exact ⟨e, found', kept'.admin.trans kept.admin, kept'.bump.trans kept.bump⟩
  keeperFounded := by
    refine founded_trans first.keeperFounded second.keeperFounded fun c found => ?_
    obtain ⟨c', present, kept⟩ := second.keeper c found
    exact ⟨c', present, kept.admin⟩
  token mint t found := by
    obtain ⟨u, found₁, kept⟩ := first.token mint t found
    obtain ⟨v, found', kept'⟩ := second.token mint u found₁
    exact ⟨v, found', kept.trans kept'⟩
  listed mint none v found' := by
    cases between : w₁.tokenConfig mint with
    | none =>
      obtain ⟨own, signs⟩ := second.listed mint between v found'
      exact ⟨own, List.mem_append_left _ signs⟩
    | some u =>
      obtain ⟨own, signs⟩ := first.listed mint none u between
      obtain ⟨v', present, kept⟩ := second.token mint u between
      obtain rfl := Option.some.inj (found'.symm.trans present)
      rw [kept]
      exact ⟨own, List.mem_append_right _ signs⟩
  silent c found quiet := by
    rw [List.mem_append, not_or] at quiet
    obtain ⟨config, keeper, token⟩ := first.silent c found quiet.2
    obtain ⟨config', keeper', token'⟩ := second.silent c (config.trans found) quiet.1
    exact ⟨config'.trans config, keeper'.trans keeper, token'.trans token⟩

def governedFields : List WorldField := [.protocolConfig, .keeperConfig, .tokenConfig]

theorem Governed.of_written {fields : List WorldField} (written : Written fields w w')
    (apart : ∀ f ∈ governedFields, f ∉ fields) : Governed signed w w' :=
  .of_eq (written .protocolConfig (apart _ (by decide)))
    (written .keeperConfig (apart _ (by decide))) (written .tokenConfig (apart _ (by decide)))

theorem loadConfigAsAdmin_eq_ok {admin : Pubkey} {c : LoadedProtocolConfig}
    (h : loadConfigAsAdmin w admin = .ok c) : w.protocolConfig = some c ∧ c.admin = admin := by
  obtain ⟨loaded, load, h⟩ := bind_eq_ok.mp h
  obtain ⟨signs, h⟩ := require_bind_eq_ok.mp h
  cases h
  refine ⟨?_, signs.symm⟩
  unfold loadProtocolConfig at load
  split at load
  · cases load
  · cases load
    assumption
  · obtain ⟨_, load⟩ := require_bind_eq_ok.mp load
    cases load
    assumption

theorem upgradeProtocolConfig_kept {c : LoadedProtocolConfig} {config : ProtocolConfig}
    (found : w.protocolConfig = some c) (h : upgradeProtocolConfig w = .ok config) :
    ConfigKept c.intoCurrent config := by
  obtain ⟨loaded, load, h⟩ := bind_eq_ok.mp h
  have same : loaded = c := by
    rw [loadProtocolConfig, found] at load
    cases c with
    | legacy old => cases load; rfl
    | current old =>
      obtain ⟨_, load⟩ := require_bind_eq_ok.mp load
      cases load
      rfl
  subst same
  cases h
  exact ⟨rfl, rfl, fun _ => ⟨rfl, rfl⟩, fun set => if_neg set⟩

theorem governed_of_config {c : LoadedProtocolConfig} {config : ProtocolConfig}
    (found : w.protocolConfig = some c) (signs : c.admin ∈ signers)
    (kept : ConfigKept c.intoCurrent config) (written : Written [.splTokenAccount, .mint] w w₁) :
    Governed signers w (w₁.writeProtocolConfig config) where
  config d present := by
    obtain rfl := Option.some.inj (found.symm.trans present)
    exact ⟨.current config, rfl, kept⟩
  founded none := by cases none.symm.trans found
  keeper d present := ⟨d, (written .keeperConfig (by decide)).trans present, rfl, rfl⟩
  keeperFounded none d present := by
    cases none.symm.trans ((written .keeperConfig (by decide)).symm.trans present)
  token mint t present := ⟨t, (congrFun (written .tokenConfig (by decide)) mint).trans present, rfl⟩
  listed mint none t present := by
    cases none.symm.trans ((congrFun (written .tokenConfig (by decide)) mint).symm.trans present)
  silent d present quiet := by
    obtain rfl := Option.some.inj (found.symm.trans present)
    exact absurd signs quiet

theorem ConfigKept.with {c d e : ProtocolConfig} (kept : ConfigKept c d) (admin : e.admin = d.admin)
    (bump : e.bump = d.bump) (mint : e.wrappedUsdcMint = d.wrappedUsdcMint)
    (vault : e.wrappingVault = d.wrappingVault)
    (hook : e.transferHookProgramId = d.transferHookProgramId) : ConfigKept c e where
  admin := admin.trans kept.admin
  bump := bump.trans kept.bump
  wrapped set := ⟨mint.trans (kept.wrapped set).1, vault.trans (kept.wrapped set).2⟩
  hook set := hook.trans (kept.hook set)

theorem updateConfig_governed {ctx : UpdateConfig} :
    Ensures (updateConfig P w ctx) (Governed [ctx.admin] w) := by
  intro w' h
  iterate 2 obtain ⟨_, _, h⟩ := bind_eq_ok.mp h
  obtain ⟨c, load, h⟩ := bind_eq_ok.mp h
  obtain ⟨config, upgraded, h⟩ := bind_eq_ok.mp h
  cases h
  obtain ⟨found, admin⟩ := loadConfigAsAdmin_eq_ok load
  refine governed_of_config found (by simp [admin]) ?_ (.refl _ w)
  exact (upgradeProtocolConfig_kept found upgraded).with rfl rfl rfl rfl rfl

theorem switch_governed {admin : Pubkey} (paused : Bool) (pausedAt : Int64) :
    Ensures (do
      let _ ← loadConfigAsAdmin w admin
      let config ← upgradeProtocolConfig w
      return w.writeProtocolConfig { config with paused := paused, pausedAt := pausedAt })
      (Governed [admin] w) := by
  intro w' h
  obtain ⟨c, load, h⟩ := bind_eq_ok.mp h
  obtain ⟨config, upgraded, h⟩ := bind_eq_ok.mp h
  cases h
  obtain ⟨found, admin⟩ := loadConfigAsAdmin_eq_ok load
  refine governed_of_config found (by simp [admin]) ?_ (.refl _ w)
  exact (upgradeProtocolConfig_kept found upgraded).with rfl rfl rfl rfl rfl

theorem initConfig_governed {ctx : InitConfig} :
    Ensures (initConfig P w ctx) (Governed [ctx.admin] w) := by
  intro w' h
  obtain ⟨fresh, h⟩ := require_bind_eq_ok.mp h
  iterate 3 obtain ⟨_, _, h⟩ := bind_eq_ok.mp h
  cases h
  have none : w.protocolConfig = none := Option.isNone_iff_eq_none.mp fresh
  constructor
  · intro c found
    cases none.symm.trans found
  · intro _ c' written
    cases written
    exact List.mem_cons_self
  · exact fun c found => ⟨c, found, rfl, rfl⟩
  · intro none c' found
    cases none.symm.trans found
  · exact fun mint t found => ⟨t, found, rfl⟩
  · intro mint none t' found
    cases none.symm.trans found
  · intro c found
    cases none.symm.trans found

theorem governed_of_keeper {c : LoadedProtocolConfig} {config : KeeperConfig} {e : LogEntry}
    (found : w.protocolConfig = some c) (signs : c.admin ∈ signers)
    (kept : ∀ k, w.keeperConfig = some k → KeeperKept k.intoCurrent config)
    (own : w.keeperConfig = none → config.admin ∈ signers) :
    Governed signers w ({ w with keeperConfig := some (.current config) }.emit e) where
  config d present := ⟨d, present, .refl _⟩
  founded none := by cases none.symm.trans found
  keeper k present := ⟨.current config, rfl, kept k present⟩
  keeperFounded none k present := by
    cases present
    exact own none
  token mint t present := ⟨t, present, rfl⟩
  listed mint none t present := by cases none.symm.trans present
  silent d present quiet := by
    obtain rfl := Option.some.inj (found.symm.trans present)
    exact absurd signs quiet

theorem initKeeperConfig_governed {ctx : InitKeeperConfig} :
    Ensures (initKeeperConfig w ctx) (Governed [ctx.admin] w) := by
  intro w' h
  iterate 2 obtain ⟨_, _, h⟩ := bind_eq_ok.mp h
  obtain ⟨c, load, h⟩ := bind_eq_ok.mp h
  obtain ⟨fresh, h⟩ := require_bind_eq_ok.mp h
  cases h
  obtain ⟨found, admin⟩ := loadConfigAsAdmin_eq_ok load
  refine governed_of_keeper found (by simp [admin]) (fun k present => ?_) fun _ => ?_
  · cases (Option.isNone_iff_eq_none.mp fresh).symm.trans present
  · exact List.mem_cons_self

theorem updateKeeperConfig_governed {ctx : UpdateKeeperConfig} :
    Ensures (updateKeeperConfig w ctx) (Governed [ctx.admin] w) := by
  intro w' h
  iterate 4 obtain ⟨_, _, h⟩ := bind_eq_ok.mp h
  obtain ⟨c, load, h⟩ := bind_eq_ok.mp h
  obtain ⟨existing, upgraded, h⟩ := bind_eq_ok.mp h
  cases h
  obtain ⟨found, admin⟩ := loadConfigAsAdmin_eq_ok load
  obtain ⟨loaded, keeper, upgraded⟩ := bind_eq_ok.mp upgraded
  cases upgraded
  refine governed_of_keeper found (by simp [admin]) (fun k present => ?_) fun none => ?_
  · rw [loadKeeperConfig, present] at keeper
    cases k with
    | legacy old =>
      cases keeper
      exact ⟨rfl, rfl⟩
    | current old =>
      obtain ⟨_, keeper⟩ := require_bind_eq_ok.mp keeper
      cases keeper
      exact ⟨rfl, rfl⟩
  · rw [loadKeeperConfig, none] at keeper
    cases keeper

theorem governed_of_token {c : LoadedProtocolConfig} {mint : Pubkey} {t' : TokenConfig}
    {e : LogEntry} (found : w.protocolConfig = some c) (signs : c.admin ∈ signers)
    (kept : ∀ t, w.tokenConfig mint = some t → TokenKept t t')
    (listed : w.tokenConfig mint = none → t'.mint = mint ∧ t'.admin ∈ signers) :
    Governed signers w
      ({ w with tokenConfig := Function.update w.tokenConfig mint (some t') }.emit e) where
  config d present := ⟨d, present, .refl _⟩
  founded none := by cases none.symm.trans found
  keeper k present := ⟨k, present, rfl, rfl⟩
  keeperFounded none k present := by cases none.symm.trans present
  token other t present := by
    by_cases same : other = mint
    · subst same
      exact ⟨t', Function.update_self _ _ _, kept t present⟩
    · exact ⟨t, (Function.update_of_ne same _ _).trans present, rfl⟩
  listed other none t present := by
    by_cases same : other = mint
    · subst same
      obtain rfl : t' = t := by simpa [World.emit] using present
      exact listed none
    · cases none.symm.trans ((Function.update_of_ne same _ _).symm.trans present)
  silent d present quiet := by
    obtain rfl := Option.some.inj (found.symm.trans present)
    exact absurd signs quiet

theorem initTokenConfig_governed {ctx : InitTokenConfig} :
    Ensures (initTokenConfig w ctx) (Governed [ctx.admin] w) := by
  intro w' h
  obtain ⟨_, _, h⟩ := bind_eq_ok.mp h
  obtain ⟨fresh, h⟩ := require_bind_eq_ok.mp h
  obtain ⟨c, load, h⟩ := bind_eq_ok.mp h
  obtain ⟨_, _, h⟩ := bind_eq_ok.mp h
  cases h
  obtain ⟨found, admin⟩ := loadConfigAsAdmin_eq_ok load
  refine governed_of_token found (by simp [admin]) (fun t present => ?_) fun _ => ?_
  · cases (Option.isNone_iff_eq_none.mp fresh).symm.trans present
  · exact ⟨rfl, List.mem_cons_self⟩

theorem updateTokenConfig_governed {ctx : UpdateTokenConfig} :
    Ensures (updateTokenConfig w ctx) (Governed [ctx.admin] w) := by
  intro w' h
  obtain ⟨existing, stored, h⟩ := bind_eq_ok.mp h
  iterate 2 obtain ⟨_, _, h⟩ := bind_eq_ok.mp h
  obtain ⟨c, load, h⟩ := bind_eq_ok.mp h
  cases h
  obtain ⟨found, admin⟩ := loadConfigAsAdmin_eq_ok load
  have stored := orError_eq_ok.mp stored
  refine governed_of_token found (by simp [admin]) (fun t present => ?_) fun none => ?_
  · obtain rfl := Option.some.inj (stored.symm.trans present)
    rfl
  · cases none.symm.trans stored

theorem initWrappedMint_governed {ctx : InitWrappedMint} :
    Ensures (initWrappedMint P w ctx) (Governed [ctx.admin, ctx.wrappedUsdcMint] w) := by
  intro w' h
  obtain ⟨_, _, h⟩ := bind_eq_ok.mp h
  obtain ⟨w₁, vault, h⟩ := bind_eq_ok.mp h
  obtain ⟨c, load, h⟩ := bind_eq_ok.mp h
  obtain ⟨config, upgraded, h⟩ := bind_eq_ok.mp h
  obtain ⟨unset, h⟩ := require_bind_eq_ok.mp h
  obtain ⟨w₂, created, h⟩ := bind_eq_ok.mp h
  cases h
  have vault := ensureVault_written w₁ vault
  obtain ⟨found₁, admin⟩ := loadConfigAsAdmin_eq_ok load
  have found : w.protocolConfig = some c := (vault .protocolConfig (by decide)).symm.trans found₁
  have kept := upgradeProtocolConfig_kept found₁ upgraded
  refine governed_of_config found (by simp [admin]) ?_
    (vault.trans (createMint_written w₂ created))
  refine ⟨kept.admin, kept.bump, fun set => ?_, kept.hook⟩
  exact absurd ((kept.wrapped set).1.symm.trans unset) set

theorem configure_governed {i : ConfigInstruction} :
    Ensures (configure P w i) (Governed i.signers w) := by
  cases i with
  | initConfig ctx => exact initConfig_governed
  | updateConfig ctx => exact updateConfig_governed
  | pauseProtocol admin => exact switch_governed true w.clock.unixTimestamp
  | unpauseProtocol admin => exact switch_governed false 0
  | initKeeperConfig ctx => exact initKeeperConfig_governed
  | updateKeeperConfig ctx => exact updateKeeperConfig_governed
  | initTokenConfig ctx => exact initTokenConfig_governed
  | updateTokenConfig ctx => exact updateTokenConfig_governed
  | initWrappedMint ctx => exact initWrappedMint_governed
  | initMerchantCredential ctx =>
    exact fun w' h => .of_written (configure_written w' h) (of_decide_eq_true rfl)
  | initCompDef circuit ctx =>
    exact fun w' h => .of_written (configure_written w' h) (of_decide_eq_true rfl)

theorem ungoverned_writes (a : ProtocolAction) (other : ∀ i, a ≠ .instruction (.config i)) :
    ∀ f ∈ governedFields, f ∉ a.writes := by
  cases a with
  | instruction i =>
    cases i with
    | billing i => cases i <;> exact of_decide_eq_true rfl
    | streaming i => cases i <;> exact of_decide_eq_true rfl
    | agent i => cases i <;> exact of_decide_eq_true rfl
    | config i => exact absurd rfl (other i)
    | wrap ctx => exact of_decide_eq_true rfl
    | unwrapTokens ctx => exact of_decide_eq_true rfl
  | tick clock => exact of_decide_eq_true rfl
  | outside => exact of_decide_eq_true rfl

theorem protocolStep_governed {a : ProtocolAction} (step : ProtocolStep P w a w')
    (closed : Sealed signed w a w') : Governed a.signers w w' := by
  by_cases configures : ∃ i, a = .instruction (.config i)
  · obtain ⟨i, rfl⟩ := configures
    exact configure_governed w' step
  · exact .of_written (protocolStep_written step closed)
      (ungoverned_writes a fun i same => configures ⟨i, same⟩)

/-- Over any run the configuration stays its admin's: what was chosen once is never chosen again,
a listed token keeps its terms, and while the admin signs nothing nothing changes. -/
theorem configuration_governed (run : SealedRun P (w, []) (w', signed)) : Governed signed w w' := by
  have start : Governed [] w w := .of_eq rfl rfl rfl
  refine run.invariant (fun v keys => Governed keys w v) start ?_
  intro v keys a v' governed step closed
  exact governed.trans (protocolStep_governed step closed)

open Deployment

def Inside (_ : List Pubkey) (_ : World) (a : ProtocolAction) (_ : World) : Prop :=
  match a with
  | .outside => False
  | _ => True

instance (keys : List Pubkey) (w : World) (a : ProtocolAction) (w' : World) :
    Decidable (Inside keys w a w') :=
  match a with
  | .outside => isFalse id
  | .instruction _ => isTrue trivial
  | .tick _ => isTrue trivial

theorem Inside.sealed {a : ProtocolAction} (inside : Inside signed w a w') :
    Sealed signed w a w' := by
  rintro rfl
  exact inside.elim

theorem inside_script {script : List ProtocolAction}
    (played : play (applyProtocol platform) watchSigners Inside (w, []) script =
      some (w', signed)) : SealedRun platform (w, []) (w', signed) :=
  (play_run (fun _ _ _ => applyProtocol_step) played).weaken fun _ _ _ _ => Inside.sealed

def pausingScript : List ProtocolAction :=
  [ofBilling (offerFlat 0 100 3600 0 12 mintA), ofBilling subscribeFlat, pauseByAdmin]

theorem configuration_governed_paused : ∃ w' signed,
    SealedRun platform (world 0, []) (w', signed) ∧ (w'.protocolConfig.any (·.paused)) = true ∧
      Governed signed (world 0) w' := by
  have played : (play (applyProtocol platform) watchSigners Inside (world 0, []) pausingScript).any
      (fun x => x.1.protocolConfig.any (·.paused)) = true := by
    decide +kernel
  rw [Option.any_eq_true] at played
  obtain ⟨⟨w', signed⟩, script, paused⟩ := played
  have run := inside_script script
  exact ⟨w', signed, run, paused, configuration_governed run⟩

end VelaProtocol
