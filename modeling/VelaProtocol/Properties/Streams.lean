import VelaProtocol.Deployment.Streams

/-! What holds of every stream in every run: its status, its rates, its cap, its clock, and that
its total is what it has paid. -/
namespace VelaProtocol

variable {P : Platform} {w w' : World} {k : Pubkey} {i : StreamInstruction}
  {s mid after : StreamMandate} {now : Int64} {signer : Pubkey} {amount : UInt64}

/-- A settlement leaves the stream alone or books what accrued. -/
inductive Settling (s : StreamMandate) (now : Int64) (amount : UInt64) (mid : StreamMandate) : Prop
  | nothing (zero : amount = 0) (unchanged : mid = s)
  | booked (accrued : Accrued s now amount mid)

theorem Settling.of_settled (h : settleAccruedInPlace s now = .ok (mid, amount)) :
    Settling s now amount mid := by
  rcases settleAccruedInPlace_eq_ok.mp h with ⟨_, unchanged, zero⟩ | accrued
  · exact .nothing zero unchanged
  · exact .booked accrued

theorem ExitSettlement.settling (h : ExitSettlement s now amount mid) :
    Settling s now amount mid := by
  cases h with
  | skipped sofar early zero unchanged => exact .nothing zero unchanged
  | settled active due done => exact .of_settled done

theorem Settling.form (settling : Settling s now amount mid) :
    ∃ total last, mid = s.settle total last := by
  cases settling with
  | nothing zero unchanged => exact ⟨s.totalStreamed, s.lastSettledTs, unchanged⟩
  | booked accrued =>
    obtain ⟨total, _, settled⟩ := accrued.settled
    exact ⟨total, now, settled⟩

theorem Settling.total (settling : Settling s now amount mid) :
    mid.totalStreamed.toNat = s.totalStreamed.toNat + amount.toNat := by
  cases settling with
  | nothing zero unchanged =>
    rw [zero, unchanged]
    rfl
  | booked accrued =>
    obtain ⟨total, sum, settled⟩ := accrued.settled
    rw [settled]
    exact sum

theorem Settling.last (settling : Settling s now amount mid)
    (past : s.lastSettledTs.toInt ≤ now.toInt) :
    s.lastSettledTs.toInt ≤ mid.lastSettledTs.toInt ∧ mid.lastSettledTs.toInt ≤ now.toInt := by
  cases settling with
  | nothing zero unchanged =>
    rw [unchanged]
    exact ⟨le_refl _, past⟩
  | booked accrued =>
    obtain ⟨total, _, settled⟩ := accrued.settled
    rw [settled]
    exact ⟨past, le_refl _⟩

theorem Settling.capped (settling : Settling s now amount mid)
    (below : ∀ cap ∈ s.maxStreamed, s.totalStreamed ≤ cap) :
    ∀ cap ∈ s.maxStreamed, mid.totalStreamed ≤ cap := by
  intro cap limit
  have sum := settling.total
  have below := Checked.le_iff.mp (below cap limit)
  rw [Checked.le_iff, sum]
  cases settling with
  | nothing zero unchanged =>
    rw [zero]
    exact below
  | booked accrued =>
    have remaining : s.remaining = cap.toNat - s.totalStreamed.toNat := by
      rw [StreamMandate.remaining, Option.mem_def.mp limit]
    have payable := accrued.payable
    omega

structure StreamSound (s : StreamMandate) (now : Int) : Prop where
  pausedAt : s.pausedAt.isSome = true ↔ s.status = .paused
  positive : 0 < s.ratePerSecond
  bounded : s.ratePerSecond ≤ s.authorizedMaxRate
  capped : ∀ cap ∈ s.maxStreamed, s.totalStreamed ≤ cap
  settled : s.lastSettledTs.toInt ≤ now

theorem Settling.sound (settling : Settling s now amount mid) (sound : StreamSound s now.toInt) :
    StreamSound mid now.toInt := by
  obtain ⟨total, last, form⟩ := settling.form
  have capped := settling.capped sound.capped
  have settled := (settling.last sound.settled).2
  subst form
  exact ⟨sound.pausedAt, sound.positive, sound.bounded, capped, settled⟩

structure StreamMandate.SameDeal (s after : StreamMandate) : Prop where
  subscriber : after.subscriber = s.subscriber
  merchant : after.merchant = s.merchant
  maxStreamed : after.maxStreamed = s.maxStreamed
  minSettleInterval : after.minSettleInterval = s.minSettleInterval
  version : after.version = s.version
  mandateIndex : after.mandateIndex = s.mandateIndex
  bump : after.bump = s.bump

theorem StreamMandate.SameDeal.refl (s : StreamMandate) : s.SameDeal s :=
  ⟨rfl, rfl, rfl, rfl, rfl, rfl, rfl⟩

theorem StreamMandate.SameDeal.trans {s₁ s₂ s₃ : StreamMandate} (first : s₁.SameDeal s₂)
    (second : s₂.SameDeal s₃) : s₁.SameDeal s₃ :=
  ⟨second.subscriber.trans first.subscriber, second.merchant.trans first.merchant,
    second.maxStreamed.trans first.maxStreamed,
    second.minSettleInterval.trans first.minSettleInterval, second.version.trans first.version,
    second.mandateIndex.trans first.mandateIndex, second.bump.trans first.bump⟩

structure StreamEvolved (s : StreamMandate) (now : Int64) (amount : UInt64)
    (after : StreamMandate) : Prop where
  sound : StreamSound after now.toInt
  total : after.totalStreamed.toNat = s.totalStreamed.toNat + amount.toNat
  later : s.lastSettledTs.toInt ≤ after.lastSettledTs.toInt
  deal : s.SameDeal after

theorem StreamSound.pause (sound : StreamSound s now.toInt) :
    StreamSound (s.pause now) now.toInt := by
  refine ⟨?_, sound.positive, sound.bounded, sound.capped, sound.settled⟩
  constructor
  · intro _
    rfl
  · intro _
    rfl

theorem StreamSound.resume (sound : StreamSound s now.toInt) :
    StreamSound (s.resume now) now.toInt := by
  refine ⟨?_, sound.positive, sound.bounded, sound.capped, le_refl _⟩
  constructor
  · intro some
    cases some
  · intro paused
    cases paused

theorem StreamSound.cancel (sound : StreamSound s now.toInt) :
    StreamSound s.cancel now.toInt := by
  refine ⟨?_, sound.positive, sound.bounded, sound.capped, sound.settled⟩
  constructor
  · intro some
    cases some
  · intro paused
    cases paused

theorem StreamSound.setRate {newRate newMax : Option UInt64} (sound : StreamSound s now.toInt)
    (positive : ∀ next ∈ newRate, 0 < next)
    (bounded : (s.setRate newRate newMax).ratePerSecond ≤
      (s.setRate newRate newMax).authorizedMaxRate) :
    StreamSound (s.setRate newRate newMax) now.toInt := by
  refine ⟨sound.pausedAt, ?_, bounded, sound.capped, sound.settled⟩
  cases newRate with
  | none => exact sound.positive
  | some next => exact positive next rfl

theorem Settling.evolved (settling : Settling s now amount mid) (sound : StreamSound s now.toInt) :
    StreamEvolved s now amount mid := by
  refine ⟨settling.sound sound, settling.total, (settling.last sound.settled).1, ?_⟩
  obtain ⟨total, last, form⟩ := settling.form
  subst form
  exact ⟨rfl, rfl, rfl, rfl, rfl, rfl, rfl⟩

theorem StreamChange.evolved (change : StreamChange now signer s i amount after)
    (sound : StreamSound s now.toInt) : StreamEvolved s now amount after := by
  cases change with
  | executed settled => exact (Settling.of_settled settled).evolved sound
  | paused active settled =>
    have done := settled.settling.evolved sound
    obtain ⟨subscriber, merchant, cap, interval, version, index, bump⟩ := done.deal
    exact ⟨done.sound.pause, done.total, done.later,
      ⟨subscriber, merchant, cap, interval, version, index, bump⟩⟩
  | resumed pausedAt paused since later =>
    exact ⟨sound.resume, rfl, sound.settled, ⟨rfl, rfl, rfl, rfl, rfl, rfl, rfl⟩⟩
  | rerated active consent positive settled bounded =>
    have done := (Settling.of_settled settled).evolved sound
    obtain ⟨subscriber, merchant, cap, interval, version, index, bump⟩ := done.deal
    exact ⟨done.sound.setRate positive bounded, done.total, done.later,
      ⟨subscriber, merchant, cap, interval, version, index, bump⟩⟩
  | cancelled running settled =>
    have done := settled.settling.evolved sound
    obtain ⟨subscriber, merchant, cap, interval, version, index, bump⟩ := done.deal
    exact ⟨done.sound.cancel, done.total, done.later,
      ⟨subscriber, merchant, cap, interval, version, index, bump⟩⟩

theorem StreamChange.terminal (change : StreamChange now signer s i amount after)
    (cancelled : s.status = .cancelled) : after = s ∧ amount = 0 := by
  cases change with
  | executed settled =>
    have idle : s.Idle := .inl (by rw [cancelled]; exact nofun)
    rw [settleAccruedInPlace_idle idle] at settled
    cases settled
    exact ⟨rfl, rfl⟩
  | paused active settled => exact absurd (active.symm.trans cancelled) nofun
  | resumed pausedAt paused since later => exact absurd (paused.symm.trans cancelled) nofun
  | rerated active consent positive settled bounded =>
    exact absurd (active.symm.trans cancelled) nofun
  | cancelled running settled => exact absurd cancelled running

theorem StreamOpened.sound {ctx : CreateStreamMandate} {state : MerchantState}
    (spec : StreamOpened P w ctx w' state s) : StreamSound s w'.clock.unixTimestamp.toInt := by
  have initial := spec.initial
  rw [spec.written.clock]
  subst initial
  refine ⟨?_, spec.positive, spec.bounded, ?_, le_refl _⟩
  · constructor
    · intro some
      cases some
    · intro paused
      cases paused
  · intro cap _
    exact Checked.le_iff.mpr (Nat.zero_le _)

def StreamRun (P : Platform) : World → World → Prop :=
  Relation.ReflTransGen fun w w' => ∃ a, StreamStep P w a w'

/-- A stream that began at `w₀` is in force and has paid exactly its total since. -/
structure Streaming (P : Platform) (w₀ : World) (k : Pubkey) (w : World) (s : StreamMandate) :
    Prop where
  found : w.stream k = some s
  sound : StreamSound s w.clock.unixTimestamp.toInt
  total : w.transferred k = w₀.transferred k + s.totalStreamed.toNat
  merchant_ne : s.merchant ≠ k
  merchants : MerchantsSign P w

theorem StreamSound.later {t t' : Int} (sound : StreamSound s t) (le : t ≤ t') :
    StreamSound s t' :=
  ⟨sound.pausedAt, sound.positive, sound.bounded, sound.capped, le_trans sound.settled le⟩

theorem Streaming.apart {w₀ : World} (streaming : Streaming P w₀ k w s)
    (same : StreamApart P w w' k) : Streaming P w₀ k w' s := by
  have present : (w.stream k).isSome = true := by rw [streaming.found]; rfl
  refine ⟨same.stream.trans streaming.found,
    streaming.sound.later (Checked.le_iff_int.mp same.clock), ?_, streaming.merchant_ne,
    same.merchants streaming.merchants⟩
  rw [World.transferred, same.transfersBy present, ← World.transferred, streaming.total]

theorem Streaming.called {w₀ : World} {before : StreamMandate}
    (streaming : Streaming P w₀ k w s) (key : i.stream = k)
    (spec : StreamCalled P w i signer w' before after amount) :
    Streaming P w₀ k w' after ∧ s = before := by
  subst key
  obtain rfl := Option.some.inj (streaming.found.symm.trans spec.found)
  have evolved := spec.change.evolved streaming.sound
  obtain ⟨accounts, paid, _, _, merchants⟩ := spec.effect
  refine ⟨⟨spec.written, ?_, ?_, ?_, MerchantsSign.of_eq merchants streaming.merchants⟩, rfl⟩
  · rw [spec.clock]
    exact evolved.sound
  · rw [spec.transferred streaming.merchant_ne, streaming.total, evolved.total, Nat.add_assoc]
  · rw [evolved.deal.merchant]
    exact streaming.merchant_ne

theorem StreamOpened.not_present {ctx : CreateStreamMandate} {state : MerchantState}
    {stream : StreamMandate} (spec : StreamOpened P w ctx w' state stream) :
    w.stream ctx.mandate ≠ some s := by
  rw [spec.vacant.stream]
  exact nofun

structure StreamAdvanced (w : World) (k : Pubkey) (s : StreamMandate) (w' : World)
    (s' : StreamMandate) : Prop where
  later : s.lastSettledTs.toInt ≤ s'.lastSettledTs.toInt
  deal : s.SameDeal s'
  terminal : s.status = .cancelled → s' = s ∧ w'.transfersBy k = w.transfersBy k

theorem StreamCalled.transfersBy {before : StreamMandate}
    (spec : StreamCalled P w i signer w' before after 0) :
    w'.transfersBy i.stream = w.transfersBy i.stream := by
  obtain ⟨accounts, paid, payment, written, _⟩ := spec.effect
  rw [written.money.transfersBy]
  cases payment with
  | nothing zero unchanged => rw [unchanged]
  | transfer positive unpaused done => exact absurd positive (by decide)

theorem Streaming.step {w₀ : World} {a : StreamAction} (streaming : Streaming P w₀ k w s)
    (step : StreamStep P w a w') :
    ∃ s', Streaming P w₀ k w' s' ∧ StreamAdvanced w k s w' s' := by
  have classified := streamStepAt k step
  generalize a.call k = call at classified
  cases classified with
  | apart same =>
    have present : (w.stream k).isSome = true := by rw [streaming.found]; rfl
    exact ⟨s, streaming.apart same, le_refl _, .refl s, fun _ => ⟨rfl, same.transfersBy present⟩⟩
  | opened ctx state stream key spec =>
    subst key
    exact absurd streaming.found spec.not_present
  | called i signer before after amount key spec =>
    obtain ⟨continued, rfl⟩ := streaming.called key spec
    have evolved := spec.change.evolved streaming.sound
    refine ⟨after, continued, evolved.later, evolved.deal, ?_⟩
    intro cancelled
    obtain ⟨unchanged, zero⟩ := spec.change.terminal cancelled
    subst zero
    exact ⟨unchanged, key ▸ spec.transfersBy⟩

theorem Streaming.run {w₀ : World} (streaming : Streaming P w₀ k w s) (run : StreamRun P w w') :
    ∃ s', Streaming P w₀ k w' s' ∧ StreamAdvanced w k s w' s' := by
  induction run with
  | refl => exact ⟨s, streaming, le_refl _, .refl s, fun _ => ⟨rfl, rfl⟩⟩
  | tail _ last ih =>
    obtain ⟨s₁, streaming₁, advanced₁⟩ := ih
    obtain ⟨a, step⟩ := last
    obtain ⟨s₂, streaming₂, advanced₂⟩ := streaming₁.step step
    refine ⟨s₂, streaming₂, le_trans advanced₁.later advanced₂.later,
      advanced₁.deal.trans advanced₂.deal, ?_⟩
    intro cancelled
    obtain ⟨same, money⟩ := advanced₁.terminal cancelled
    obtain ⟨same', money'⟩ := advanced₂.terminal (same ▸ cancelled)
    exact ⟨same'.trans same, money'.trans money⟩

theorem Streaming.of_opened {ctx : CreateStreamMandate} {state : MerchantState}
    (signed : MerchantsSign P w) (spec : StreamOpened P w ctx w' state s) :
    Streaming P w' ctx.mandate w' s := by
  refine ⟨spec.created, spec.sound, ?_, spec.merchant_ne signed, spec.merchants signed⟩
  have initial := spec.initial
  rw [initial]
  rfl

/-- From its creation on, in any run, a stream is sound, its total is the sum of its transfers
since, its last settlement never goes back, and once cancelled neither it nor its transfers
change. -/
theorem stream_invariant {w₀ w₁ w₂ : World} {ctx : CreateStreamMandate}
    (signed : MerchantsSign P w) (created : createStreamMandate P w ctx = .ok w₀)
    (first : StreamRun P w₀ w₁) (rest : StreamRun P w₁ w₂) :
    ∃ s₁ s₂, w₁.stream ctx.mandate = some s₁ ∧ w₂.stream ctx.mandate = some s₂ ∧
      StreamSound s₁ w₁.clock.unixTimestamp.toInt ∧
      w₁.transferred ctx.mandate = w₀.transferred ctx.mandate + s₁.totalStreamed.toNat ∧
      s₁.lastSettledTs.toInt ≤ s₂.lastSettledTs.toInt ∧
      (s₁.status = .cancelled →
        s₂ = s₁ ∧ w₂.transfersBy ctx.mandate = w₁.transfersBy ctx.mandate) := by
  obtain ⟨state, s₀, spec⟩ := createStreamMandate_eq_ok created
  obtain ⟨s₁, streaming₁, _⟩ := (Streaming.of_opened signed spec).run first
  obtain ⟨s₂, streaming₂, advanced⟩ := streaming₁.run rest
  exact ⟨s₁, s₂, streaming₁.found, streaming₂.found, streaming₁.sound, streaming₁.total,
    advanced.later, advanced.terminal⟩

open Deployment

def streamLife : List StreamAction :=
  [tickStream 60, settleStream, tickStream 90, pauseBy subscriber, tickStream 500,
    resumeBy merchant, tickStream 600, raiseBy merchant 20, tickStream 700, cancelBy subscriber]

theorem stream_invariant_cancelled : ∃ w₀ w₁ w₂ : World, ∃ s : StreamMandate,
    StreamRun platform w₀ w₁ ∧ StreamRun platform w₁ w₂ ∧ w₂.stream stream = some s ∧
      s.status = .cancelled ∧ w₂.transferred stream = 3600 ∧ s.totalStreamed.toNat = 3600 := by
  have played : (createStreamMandate platform (streamWorld 0 1000000)
    (streamOffer none)).toOption.any
      (fun w₀ => (Monitored.play applyStreamAction (fun g _ _ _ => g) Monitored.Any (w₀, ())
        streamLife).any fun x => (Monitored.play applyStreamAction (fun g _ _ _ => g)
          Monitored.Any x [tickStream 900, settleStream]).any fun y =>
            decide (x.1.transferred stream = 3600 ∧ w₀.transferred stream = 0 ∧
              (x.1.stream stream).map StreamMandate.status = some .cancelled)) = true := by
    decide +kernel
  obtain ⟨w₀, ⟨w₁, _⟩, created, first, ends⟩ := stream_script played
  simp only [Option.any_eq_true, decide_eq_true_eq, Option.map_eq_some_iff] at ends
  obtain ⟨⟨w₂, _⟩, played₂, paid, before, s, found, cancelled⟩ := ends
  have rest := Monitored.play_run (fun _ _ _ => applyStreamAction_step) played₂
  obtain ⟨s₁, s₂, found₁, found₂, sound, total, _, terminal⟩ :=
    stream_invariant (streamWorld_merchantsSign 0 1000000) created first.forget rest.forget
  obtain rfl := Option.some.inj (found.symm.trans found₁)
  obtain ⟨same, money⟩ := terminal cancelled
  subst same
  have paid₂ : w₂.transferred stream = 3600 := by
    rw [World.transferred, show w₂.transfersBy stream = w₁.transfersBy stream from money]
    exact paid
  have total : w₁.transferred stream = w₀.transferred stream + s₂.totalStreamed.toNat := total
  exact ⟨w₀, w₁, w₂, s₂, first.forget, rest.forget, found₂, cancelled, paid₂, by omega⟩

end VelaProtocol
