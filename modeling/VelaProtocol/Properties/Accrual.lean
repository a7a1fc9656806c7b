import VelaProtocol.Properties.Streams

/-! What a stream earns second by second, against what it has paid: at most that, for any order of
calls, and within what the subscriber authorised; and how much of it an early exit forfeits. -/
namespace VelaProtocol

variable {P : Platform} {w w' : World} {k : Pubkey} {s mid after : StreamMandate} {now : Int64}
  {signer : Pubkey} {amount : UInt64} {i : StreamInstruction}

def StreamMandate.rateInForce (s : StreamMandate) : Option UInt64 :=
  if s.status = .active then some s.ratePerSecond else none

def World.rateInForce (w : World) (k : Pubkey) : Option UInt64 :=
  (w.stream k).bind StreamMandate.rateInForce

/-- The rate in force at every second, nothing while the stream is paused or cancelled. -/
abbrev RateHistory := Int → Option UInt64

def recordRate (k : Pubkey) (h : RateHistory) (w w' : World) : RateHistory :=
  Timeline.extend h w.now w'.now (w.rateInForce k)

def secondWorth (rate : Option UInt64) : Nat := rate.elim 0 UInt64.toNat

def secondActive (rate : Option UInt64) : Nat := if rate.isSome then 1 else 0

/-- Everything earned from `a` up to `b`. -/
abbrev earned (h : RateHistory) (a b : Int) : Nat := Timeline.total secondWorth h a b

abbrev activeSeconds (h : RateHistory) (a b : Int) : Nat := Timeline.total secondActive h a b

theorem secondWorth_le {rate : Option UInt64} {limit : UInt64}
    (below : ∀ r ∈ rate, r ≤ limit) : secondWorth rate ≤ limit.toNat * secondActive rate := by
  cases rate with
  | none => exact Nat.zero_le _
  | some r =>
    have le : r.toNat ≤ limit.toNat := Checked.le_iff.mp (below r rfl)
    simpa [secondWorth, secondActive] using le

theorem recordRate_call (h : RateHistory) (same : w'.clock = w.clock) :
    recordRate k h w w' = h := by
  have now : w'.now = w.now := by rw [World.now, World.now, same]
  rw [recordRate, now]
  exact Timeline.extend_empty h _ _

theorem rateInForce_of_found (found : w.stream k = some s) : w.rateInForce k = s.rateInForce := by
  rw [World.rateInForce, found]
  rfl

/-- What has been recorded since the last settlement: the rate of the stream, or nothing, and its
rate throughout if it is active. -/
structure Unsettled (h : RateHistory) (s : StreamMandate) (now : Int) : Prop where
  rate : ∀ x, s.lastSettledTs.toInt ≤ x → x < now → ∀ r ∈ h x, r = s.ratePerSecond
  active : s.status = .active → ∀ x, s.lastSettledTs.toInt ≤ x → x < now →
    h x = some s.ratePerSecond

theorem Unsettled.none_yet {h : RateHistory} {t : Int} (settled : s.lastSettledTs.toInt = t) :
    Unsettled h s t := by
  constructor
  · intro x after before
    omega
  · intro _ x after before
    omega

theorem Unsettled.later {h : RateHistory} (unsettled : Unsettled h s w.now)
    (found : w.stream k = some s) :
    Unsettled (recordRate k h w w') s w'.now := by
  have force := rateInForce_of_found found
  constructor
  · intro x after before r held
    by_cases new : w.now ≤ x
    · rw [recordRate, Timeline.extend_within new before, force, StreamMandate.rateInForce] at held
      split at held
      · cases held
        rfl
      · cases held
    · rw [recordRate, Timeline.extend_before (not_le.mp new)] at held
      exact unsettled.rate x after (not_le.mp new) r held
  · intro active x after before
    by_cases new : w.now ≤ x
    · rw [recordRate, Timeline.extend_within new before, force, StreamMandate.rateInForce,
        if_pos active]
    · rw [recordRate, Timeline.extend_before (not_le.mp new)]
      exact unsettled.active active x after (not_le.mp new)

theorem StreamSound.accrued {t : Int} (sound : StreamSound s t) (active : s.status = .active)
    (settled : settleAccruedInPlace s now = .ok (mid, amount)) : Accrued s now amount mid := by
  refine .of_settled active ?_ settled
  cases since : s.pausedAt with
  | none => rfl
  | some pausedAt =>
    have paused := sound.pausedAt.mp (by rw [since]; rfl)
    exact absurd (active.symm.trans paused) nofun

theorem Accrued.last (accrued : Accrued s now amount mid) : mid.lastSettledTs = now := by
  obtain ⟨total, _, settled⟩ := accrued.settled
  rw [settled]
  rfl

theorem ExitSettlement.rate {h : RateHistory} (settlement : ExitSettlement s now amount mid)
    (sound : StreamSound s now.toInt) (unsettled : Unsettled h s now.toInt) :
    ∀ x, mid.lastSettledTs.toInt ≤ x → x < now.toInt → ∀ r ∈ h x, r = mid.ratePerSecond := by
  intro x after before
  cases settlement with
  | skipped sofar early zero unchanged =>
    subst unchanged
    exact unsettled.rate x after before
  | settled active due done =>
    have last := (sound.accrued active done).last
    rw [last] at after
    omega

theorem StreamChange.unsettled {h : RateHistory} (sound : StreamSound s now.toInt)
    (unsettled : Unsettled h s now.toInt) (change : StreamChange now signer s i amount after) :
    Unsettled h after now.toInt := by
  cases change with
  | executed settled =>
    rcases settleAccruedInPlace_eq_ok.mp settled with ⟨_, unchanged, _⟩ | accrued
    · rw [unchanged]
      exact unsettled
    · exact .none_yet (by rw [accrued.last])
  | paused active settled => exact ⟨settled.rate sound unsettled, nofun⟩
  | resumed pausedAt paused since later => exact .none_yet rfl
  | rerated active consent positive settled bounded =>
    have last := (sound.accrued active settled).last
    exact .none_yet (congrArg Int64.toInt last)
  | cancelled running settled => exact ⟨settled.rate sound unsettled, nofun⟩

theorem Settling.earned_le {h : RateHistory} (settling : Settling s now amount mid)
    (unsettled : Unsettled h s now.toInt) :
    amount.toNat ≤ earned h s.lastSettledTs.toInt mid.lastSettledTs.toInt := by
  cases settling with
  | nothing zero unchanged =>
    rw [zero]
    exact Nat.zero_le _
  | booked accrued =>
    have worth : earned h s.lastSettledTs.toInt now.toInt = s.gross now :=
      Timeline.total_const secondWorth (unsettled.active accrued.active)
    have payable := accrued.payable
    rw [accrued.last, worth]
    omega

theorem StreamChange.earned_le {h : RateHistory} (unsettled : Unsettled h s now.toInt)
    (change : StreamChange now signer s i amount after) :
    amount.toNat ≤ earned h s.lastSettledTs.toInt after.lastSettledTs.toInt := by
  cases change with
  | executed settled => exact (Settling.of_settled settled).earned_le unsettled
  | paused active settled => exact settled.settling.earned_le unsettled
  | resumed pausedAt paused since later => exact Nat.zero_le _
  | rerated active consent positive settled bounded =>
    exact (Settling.of_settled settled).earned_le unsettled
  | cancelled running settled => exact settled.settling.earned_le unsettled

structure Metered (P : Platform) (w₀ : World) (k : Pubkey) (w : World) (h : RateHistory)
    (s : StreamMandate) : Prop where
  streaming : Streaming P w₀ k w s
  unsettled : Unsettled h s w.now

theorem Metered.apart {w₀ : World} {h : RateHistory} (metered : Metered P w₀ k w h s)
    (same : StreamApart P w w' k) : Metered P w₀ k w' (recordRate k h w w') s :=
  ⟨metered.streaming.apart same, metered.unsettled.later metered.streaming.found⟩

theorem Metered.called {w₀ : World} {h : RateHistory} (metered : Metered P w₀ k w h s)
    (key : i.stream = k) (spec : StreamCalled P w i signer w' s after amount) :
    Metered P w₀ k w' (recordRate k h w w') after := by
  refine ⟨(metered.streaming.called key spec).1, ?_⟩
  have unsettled := spec.change.unsettled metered.streaming.sound metered.unsettled
  rw [recordRate_call h spec.clock, World.now, spec.clock]
  exact unsettled

section Runs

universe u

variable {γ : Type u} {observe : Monitored.Observe World StreamAction γ}
  {allowed : γ → World → StreamAction → World → Prop}

theorem metered_run (record : γ → RateHistory) {w₀ : World} {x y : World × γ}
    (records : ∀ g w a w', record (observe g w a w') = recordRate k (record g) w w')
    (run : Monitored.Run (StreamStep P) observe allowed x y)
    (I : World → γ → StreamMandate → Prop)
    (metered : Metered P w₀ k x.1 (record x.2) s) (start : I x.1 x.2 s)
    (apart : ∀ w w' g a s, Metered P w₀ k w (record g) s → I w g s → a.call k = none →
      StreamApart P w w' k → I w' (observe g w a w') s)
    (called : ∀ w w' g a i signer before after amount, Metered P w₀ k w (record g) before →
      I w g before → a.call k = some i → i.stream = k →
      StreamCalled P w i signer w' before after amount → allowed g w a w' →
      I w' (observe g w a w') after) :
    ∃ s', Metered P w₀ k y.1 (record y.2) s' ∧ I y.1 y.2 s' := by
  refine run.invariant (fun w g => ∃ s', Metered P w₀ k w (record g) s' ∧ I w g s')
    ⟨s, metered, start⟩ ?_
  rintro w g a w' ⟨s, metered, holds⟩ step ok
  have classified := streamStepAt k step
  rw [records]
  generalize call : a.call k = target at classified
  cases classified with
  | apart same => exact ⟨s, metered.apart same, apart w w' g a s metered holds call same⟩
  | opened ctx state stream key spec =>
    subst key
    exact absurd metered.streaming.found spec.not_present
  | called i signer before after amount key spec =>
    subst key
    obtain rfl := Option.some.inj (metered.streaming.found.symm.trans spec.found)
    exact ⟨after, metered.called rfl spec,
      called w w' g a i signer s after amount metered holds call rfl spec ok⟩

end Runs

def UnsignedBy (key : Pubkey) : RateHistory → World → StreamAction → World → Prop :=
  fun _ _ a _ => ∀ i, a = .instruction i → key ∉ i.signers

abbrev RateRun (P : Platform) (k : Pubkey)
    (allowed : RateHistory → World → StreamAction → World → Prop) :
    World × RateHistory → World × RateHistory → Prop :=
  Monitored.Run (StreamStep P) (fun h w _ w' => recordRate k h w w') allowed

theorem StreamAction.eq_of_call {a : StreamAction} (call : a.call k = some i) :
    a = .instruction i := by
  cases a with
  | instruction j =>
    simp only [StreamAction.call, Option.ite_none_right_eq_some, Option.some.injEq] at call
    rw [call.2]
  | tick clock => cases call
  | environment => cases call

theorem Settling.authorized (settling : Settling s now amount mid) :
    mid.authorizedMaxRate = s.authorizedMaxRate := by
  obtain ⟨total, last, form⟩ := settling.form
  rw [form]
  rfl

theorem StreamChange.authorized (change : StreamChange now signer s i amount after)
    (unsigned : signer ≠ s.subscriber) : after.authorizedMaxRate = s.authorizedMaxRate := by
  cases change with
  | executed settled => exact (Settling.of_settled settled).authorized
  | paused active settled => exact settled.settling.authorized
  | resumed pausedAt paused since later => rfl
  | @rerated ctx _ mid active consent positive settled bounded =>
    have same := (Settling.of_settled settled).authorized
    cases offered : ctx.newAuthorizedMaxRate with
    | none => exact same
    | some next =>
      have needed : subscriberRequired s ctx.newRate ctx.newAuthorizedMaxRate :=
        .inl (by rw [offered]; rfl)
      exact absurd (consent needed) unsigned
  | cancelled running settled => exact settled.settling.authorized

structure WithinConsent (k : Pubkey) (s₁ : StreamMandate) (base : Nat) (w : World)
    (h : RateHistory) (s : StreamMandate) : Prop where
  subscriber : s.subscriber = s₁.subscriber
  limit : s.authorizedMaxRate = s₁.authorizedMaxRate
  since : s₁.lastSettledTs.toInt ≤ s.lastSettledTs.toInt
  rates : ∀ x, s₁.lastSettledTs.toInt ≤ x → x < w.now → ∀ r ∈ h x, r ≤ s₁.authorizedMaxRate
  paid : w.transferred k ≤ base +
    earned h s₁.lastSettledTs.toInt s.lastSettledTs.toInt

theorem Metered.withinConsent {w₀ : World} {h : RateHistory} (metered : Metered P w₀ k w h s) :
    WithinConsent k s (w.transferred k) w h s := by
  refine ⟨rfl, rfl, le_refl _, ?_, Nat.le_add_right _ _⟩
  intro x after before r held
  rw [metered.unsettled.rate x after before r held]
  exact metered.streaming.sound.bounded

theorem WithinConsent.apart {w₀ : World} {s₁ : StreamMandate} {base : Nat} {h : RateHistory}
    (metered : Metered P w₀ k w h s) (within : WithinConsent k s₁ base w h s)
    (same : StreamApart P w w' k) :
    WithinConsent k s₁ base w' (recordRate k h w w') s := by
  have found := metered.streaming.found
  have past : s.lastSettledTs.toInt ≤ w.now := metered.streaming.sound.settled
  refine ⟨within.subscriber, within.limit, within.since, ?_, ?_⟩
  · intro x after before r held
    by_cases new : w.now ≤ x
    · rw [recordRate, Timeline.extend_within new before, rateInForce_of_found found,
        StreamMandate.rateInForce] at held
      split at held
      · cases held
        exact within.limit ▸ metered.streaming.sound.bounded
      · cases held
    · rw [recordRate, Timeline.extend_before (not_le.mp new)] at held
      exact within.rates x after (not_le.mp new) r held
  · have unchanged : earned (recordRate k h w w') s₁.lastSettledTs.toInt s.lastSettledTs.toInt =
        earned h s₁.lastSettledTs.toInt s.lastSettledTs.toInt :=
      Timeline.total_extend_before secondWorth h past
    have present : (w.stream k).isSome = true := by rw [found]; rfl
    rw [unchanged, World.transferred, same.transfersBy present]
    exact within.paid

theorem WithinConsent.called {w₀ : World} {s₁ : StreamMandate} {base : Nat} {h : RateHistory}
    (metered : Metered P w₀ k w h s) (within : WithinConsent k s₁ base w h s)
    (key : i.stream = k) (spec : StreamCalled P w i signer w' s after amount)
    (unsigned : signer ≠ s₁.subscriber) :
    WithinConsent k s₁ base w' (recordRate k h w w') after := by
  subst key
  have sound := metered.streaming.sound
  have evolved := spec.change.evolved sound
  have paid := spec.change.earned_le metered.unsettled
  rw [recordRate_call h spec.clock]
  refine ⟨evolved.deal.subscriber.trans within.subscriber, ?_,
    le_trans within.since evolved.later, ?_, ?_⟩
  · exact (spec.change.authorized (within.subscriber ▸ unsigned)).trans within.limit
  · rw [World.now, spec.clock]
    exact within.rates
  · have split : earned h s₁.lastSettledTs.toInt after.lastSettledTs.toInt =
        earned h s₁.lastSettledTs.toInt s.lastSettledTs.toInt +
          earned h s.lastSettledTs.toInt after.lastSettledTs.toInt :=
      Timeline.total_append secondWorth h within.since evolved.later
    have before := within.paid
    rw [spec.transferred metered.streaming.merchant_ne, split]
    omega

/-- From a moment at which the stream is `s₁` on, without the subscriber's signature: at most the
authorised maximum for every active second since the last settlement, at most what those seconds
were worth, and at most what the cap still allowed. -/
theorem stream_consent {w₀ w₁ w₂ : World} {ctx : CreateStreamMandate} {h₀ h₁ h₂ : RateHistory}
    {s₁ : StreamMandate} (signed : MerchantsSign P w)
    (created : createStreamMandate P w ctx = .ok w₀)
    (first : RateRun P ctx.mandate Monitored.Any (w₀, h₀) (w₁, h₁))
    (found : w₁.stream ctx.mandate = some s₁)
    (rest : RateRun P ctx.mandate (UnsignedBy s₁.subscriber) (w₁, h₁) (w₂, h₂)) :
    w₂.transferred ctx.mandate ≤ w₁.transferred ctx.mandate +
        s₁.authorizedMaxRate.toNat * activeSeconds h₂ s₁.lastSettledTs.toInt w₂.now ∧
      w₂.transferred ctx.mandate ≤ w₁.transferred ctx.mandate +
        earned h₂ s₁.lastSettledTs.toInt w₂.now ∧
      ∀ cap ∈ s₁.maxStreamed, w₂.transferred ctx.mandate ≤ w₁.transferred ctx.mandate +
        (cap.toNat - s₁.totalStreamed.toNat) := by
  obtain ⟨state, s₀, spec⟩ := createStreamMandate_eq_ok created
  have streaming := Streaming.of_opened signed spec
  have initial : s₀.lastSettledTs.toInt = w₀.now := by
    have initial := spec.initial
    rw [initial, World.now, spec.written.clock]
    rfl
  obtain ⟨s, metered, _⟩ := metered_run id (fun _ _ _ _ => rfl) first
    (fun _ _ _ => True) ⟨streaming, .none_yet initial⟩ trivial
    (fun _ _ _ _ _ _ _ _ _ => trivial) (fun _ _ _ _ _ _ _ _ _ _ _ _ _ _ _ => trivial)
  obtain rfl := Option.some.inj (metered.streaming.found.symm.trans found)
  obtain ⟨s₂, metered₂, within, cap⟩ := metered_run id (fun _ _ _ _ => rfl) rest
    (fun w h s₂ => WithinConsent ctx.mandate s (w₁.transferred ctx.mandate) w h s₂ ∧
      s₂.maxStreamed = s.maxStreamed) metered ⟨metered.withinConsent, rfl⟩
    (fun _ _ _ _ _ metered holds _ same => ⟨holds.1.apart metered same, holds.2⟩) (by
      intro w w' h a i signer before after amount metered holds call key spec ok
      have unsigned : signer ≠ s.subscriber := by
        intro same
        exact ok i (StreamAction.eq_of_call call) (same ▸ spec.signs)
      refine ⟨holds.1.called metered key spec unsigned, ?_⟩
      exact (spec.change.evolved metered.streaming.sound).deal.maxStreamed.trans holds.2)
  have settled : s₂.lastSettledTs.toInt ≤ w₂.now := metered₂.streaming.sound.settled
  have worth : earned h₂ s.lastSettledTs.toInt s₂.lastSettledTs.toInt ≤
      earned h₂ s.lastSettledTs.toInt w₂.now :=
    Timeline.total_mono secondWorth h₂ within.since settled
  have authorised : earned h₂ s.lastSettledTs.toInt w₂.now ≤
      s.authorizedMaxRate.toNat * activeSeconds h₂ s.lastSettledTs.toInt w₂.now :=
    Timeline.total_le_mul _ fun x after before => secondWorth_le (within.rates x after before)
  have paid : w₂.transferred ctx.mandate ≤ w₁.transferred ctx.mandate +
      earned h₂ s.lastSettledTs.toInt s₂.lastSettledTs.toInt := within.paid
  refine ⟨by omega, by omega, ?_⟩
  intro limit capped
  have total := metered.streaming.total
  have total₂ := metered₂.streaming.total
  have below := Checked.le_iff.mp
    (metered₂.streaming.sound.capped limit (cap.symm ▸ capped))
  have within₁ := Checked.le_iff.mp (metered.streaming.sound.capped limit capped)
  simp only at total total₂
  omega

open Deployment

def merchantAlone : List StreamAction :=
  [pauseBy merchant, tickStream 500, resumeBy merchant, tickStream 600, raiseBy merchant 20,
    tickStream 700, cancelBy merchant]

theorem unsignedBy_instruction (key : Pubkey) (h : RateHistory) (w : World)
    (i : StreamInstruction) (w' : World) :
    i.signers.contains key = false ↔ UnsignedBy key h w (.instruction i) w' := by
  rw [List.contains_eq_mem, decide_eq_false_iff_not]
  constructor
  · rintro unsigned _ ⟨⟩
    exact unsigned
  · exact fun unsigned => unsigned i rfl

theorem unsignedBy_tick (key : Pubkey) (h : RateHistory) (w : World) (clock : Clock) (w' : World) :
    UnsignedBy key h w (.tick clock) w' := by
  intro i same
  cases same

theorem unsignedBy_environment (key : Pubkey) (h : RateHistory) (w w' : World) :
    UnsignedBy key h w .environment w' := by
  intro i same
  cases same

instance (key : Pubkey) (h : RateHistory) (w : World) (a : StreamAction) (w' : World) :
    Decidable (UnsignedBy key h w a w') :=
  match a with
  | .instruction i => decidable_of_iff _ (unsignedBy_instruction key h w i w')
  | .tick clock => isTrue (unsignedBy_tick key h w clock w')
  | .environment => isTrue (unsignedBy_environment key h w w')

theorem stream_consent_merchant : ∃ (w₁ w₂ : World) (h₂ : RateHistory),
    w₁.transferred stream = 600 ∧ w₂.transferred stream = 3600 ∧
      w₂.transferred stream ≤ w₁.transferred stream + 20 * activeSeconds h₂ 60 w₂.now ∧
      w₂.transferred stream ≤ w₁.transferred stream + earned h₂ 60 w₂.now ∧
      w₂.transferred stream ≤ w₁.transferred stream + (5000 - 600) := by
  have played : (createStreamMandate platform (streamWorld 0 1000000)
      (streamOffer (some 5000))).toOption.any
      (fun w₀ => (Monitored.play applyStreamAction (fun h w _ w' => recordRate stream h w w')
        Monitored.Any (w₀, fun _ => none) [tickStream 60, settleStream, tickStream 90]).any fun x =>
          (x.1.stream stream).any fun s => (Monitored.play applyStreamAction
            (fun h w _ w' => recordRate stream h w w') (UnsignedBy s.subscriber) x
              merchantAlone).any fun y =>
            decide (x.1.transferred stream = 600 ∧ y.1.transferred stream = 3600 ∧
              s.authorizedMaxRate = 20 ∧ s.maxStreamed = some 5000 ∧ s.totalStreamed = 600 ∧
              s.lastSettledTs = 60)) = true := by
    decide +kernel
  obtain ⟨w₀, ⟨w₁, h₁⟩, created, first, ends⟩ := stream_script played
  simp only [Option.any_eq_true, decide_eq_true_eq] at ends
  obtain ⟨s₁, found, ⟨w₂, h₂⟩, played₂, paid₁, paid₂, maximum, cap, total, last⟩ := ends
  obtain ⟨byTime, byRate, byCap⟩ := stream_consent (streamWorld_merchantsSign 0 1000000) created
    first found (Monitored.play_run (fun _ _ _ => applyStreamAction_step) played₂)
  have byCap := byCap 5000 cap
  rw [maximum, last] at byTime
  rw [last] at byRate
  rw [total] at byCap
  exact ⟨w₁, w₂, h₂, paid₁, paid₂, byTime, byRate, byCap⟩

/-- Nothing would be left behind now: the stream is not running, nothing accrued since its last
settlement, or the minimum interval is over. -/
def StreamMandate.AtRest (s : StreamMandate) (now : Int) : Prop :=
  s.status = .active →
    now = s.lastSettledTs.toInt ∨ s.lastSettledTs.toInt + s.minSettleInterval.toNat ≤ now

def StreamInstruction.exits : StreamInstruction → Bool
  | .pauseStream _ | .cancelStream _ => true
  | _ => false

/-- An action that pauses or cancels the stream at `k` finds it at rest. -/
def ExitOnTime (k : Pubkey) (w : World) (a : StreamAction) : Prop :=
  ∀ i ∈ a.call k, i.exits = true → ∀ s ∈ w.stream k, s.AtRest w.now

structure ExitRecord where
  rates : RateHistory
  onTime : Prop

def recordExits (k : Pubkey) (record : ExitRecord) (w : World) (a : StreamAction) (w' : World) :
    ExitRecord where
  rates := recordRate k record.rates w w'
  onTime := record.onTime ∧ ExitOnTime k w a

def StreamMandate.settledUntil (s : StreamMandate) (now : Int) : Int :=
  if s.status = .active then s.lastSettledTs.toInt else now

/-- An uncapped stream that has paid all it earned since `start` but `lost`. -/
structure StreamBalanced (start : Int) (h : RateHistory) (lost : Nat) (s : StreamMandate)
    (now : Int) :
    Prop where
  uncapped : s.maxStreamed = none
  started : start ≤ s.settledUntil now
  exact : s.totalStreamed.toNat + lost = earned h start (s.settledUntil now)

theorem StreamMandate.settledUntil_active (active : s.status = .active) (now : Int) :
    s.settledUntil now = s.lastSettledTs.toInt := if_pos active

theorem StreamMandate.settledUntil_stopped (stopped : s.status ≠ .active) (now : Int) :
    s.settledUntil now = now := if_neg stopped

theorem Accrued.exact (accrued : Accrued s now amount mid) (uncapped : s.maxStreamed = none) :
    amount.toNat = s.gross now := by
  have payable := accrued.payable
  have short := accrued.short
  have unlimited : s.remaining = 2 ^ 128 - 1 := by rw [StreamMandate.remaining, uncapped]
  have below : s.gross now ≤ 2 ^ 63 * 2 ^ 64 := by
    have rate := Checked.toNat_lt s.ratePerSecond
    exact Nat.mul_le_mul (by omega) (by omega)
  omega

theorem Unsettled.gross {h : RateHistory} (unsettled : Unsettled h s now.toInt)
    (active : s.status = .active) :
    earned h s.lastSettledTs.toInt now.toInt = s.gross now :=
  Timeline.total_const secondWorth (unsettled.active active)

theorem StreamBalanced.book {start : Int} {h : RateHistory} {lost : Nat}
    (balanced : StreamBalanced start h lost s now.toInt) (unsettled : Unsettled h s now.toInt)
    (sound : StreamSound s now.toInt) (accrued : Accrued s now amount mid) :
    start ≤ now.toInt ∧ mid.totalStreamed.toNat + lost = earned h start now.toInt := by
  have active := accrued.active
  have started := balanced.started
  have exact := balanced.exact
  rw [StreamMandate.settledUntil_active active] at started exact
  have split : earned h start now.toInt = earned h start s.lastSettledTs.toInt +
      earned h s.lastSettledTs.toInt now.toInt :=
    Timeline.total_append secondWorth h started sound.settled
  have booked := (Settling.booked accrued).total
  have amount := accrued.exact balanced.uncapped
  rw [split, unsettled.gross active]
  exact ⟨le_trans started sound.settled, by omega⟩

theorem StreamBalanced.settle {start : Int} {h : RateHistory} {lost : Nat}
    (balanced : StreamBalanced start h lost s now.toInt) (unsettled : Unsettled h s now.toInt)
    (sound : StreamSound s now.toInt)
    (settled : settleAccruedInPlace s now = .ok (mid, amount)) :
    StreamBalanced start h lost mid now.toInt := by
  rcases settleAccruedInPlace_eq_ok.mp settled with ⟨_, unchanged, _⟩ | accrued
  · rw [unchanged]
    exact balanced
  · obtain ⟨later, exact⟩ := balanced.book unsettled sound accrued
    have last := accrued.last
    obtain ⟨total, _, form⟩ := accrued.settled
    have active : mid.status = .active := by
      rw [form]
      exact accrued.active
    refine ⟨by rw [form]; exact balanced.uncapped, ?_, ?_⟩
    · rw [StreamMandate.settledUntil_active active, last]
      exact later
    · rw [StreamMandate.settledUntil_active active, last]
      exact exact

theorem StreamBalanced.later {start : Int} {h : RateHistory} {lost : Nat}
    (balanced : StreamBalanced start h lost s w.now) (sound : StreamSound s w.now)
    (found : w.stream k = some s) (later : w.now ≤ w'.now) :
    StreamBalanced start (recordRate k h w w') lost s w'.now := by
  obtain ⟨uncapped, started, exact⟩ := balanced
  by_cases active : s.status = .active
  · rw [StreamMandate.settledUntil_active active] at started exact
    refine ⟨uncapped, ?_, ?_⟩
    · rw [StreamMandate.settledUntil_active active]
      exact started
    · rw [StreamMandate.settledUntil_active active, exact]
      exact (Timeline.total_extend_before secondWorth h sound.settled).symm
  · rw [StreamMandate.settledUntil_stopped active] at started exact
    have nothing : w.rateInForce k = none := by
      rw [rateInForce_of_found found, StreamMandate.rateInForce, if_neg active]
    have idle : earned (recordRate k h w w') w.now w'.now = (w'.now - w.now).toNat * 0 := by
      have stopped : ∀ x, w.now ≤ x → x < w'.now → recordRate k h w w' x = none := by
        intro x after before
        rw [recordRate, Timeline.extend_within after before, nothing]
      exact Timeline.total_const secondWorth stopped
    have past : earned (recordRate k h w w') start w.now = earned h start w.now :=
      Timeline.total_extend_before secondWorth h (le_refl _)
    refine ⟨uncapped, ?_, ?_⟩
    · rw [StreamMandate.settledUntil_stopped active]
      exact le_trans started later
    · have split : earned (recordRate k h w w') start w'.now =
          earned (recordRate k h w w') start w.now +
            earned (recordRate k h w w') w.now w'.now :=
        Timeline.total_append secondWorth _ started later
      rw [StreamMandate.settledUntil_stopped active, split, idle, past, exact]
      rfl

theorem StreamBalanced.exit {start : Int} {h : RateHistory} {lost : Nat}
    (balanced : StreamBalanced start h lost s now.toInt) (unsettled : Unsettled h s now.toInt)
    (sound : StreamSound s now.toInt) (active : s.status = .active)
    (settlement : ExitSettlement s now amount mid) :
    ∃ lost', mid.maxStreamed = none ∧ start ≤ now.toInt ∧
      mid.totalStreamed.toNat + lost' = earned h start now.toInt ∧
      (lost' = 0 ↔ lost = 0 ∧ s.AtRest now.toInt) := by
  cases settlement with
  | skipped sofar early zero unchanged =>
    subst unchanged
    obtain ⟨uncapped, started, exact⟩ := balanced
    rw [StreamMandate.settledUntil_active active] at started exact
    have split : earned h start now.toInt = earned h start mid.lastSettledTs.toInt +
        earned h mid.lastSettledTs.toInt now.toInt :=
      Timeline.total_append secondWorth h started sofar
    rw [unsettled.gross active] at split
    refine ⟨lost + mid.gross now, uncapped, le_trans started sofar, by omega, ?_⟩
    have rate : mid.ratePerSecond.toNat ≠ 0 :=
      Nat.pos_iff_ne_zero.mp (Checked.lt_iff.mp sound.positive)
    have early := early active
    constructor
    · intro none
      obtain ⟨nothing, gross⟩ := Nat.add_eq_zero_iff.mp none
      refine ⟨nothing, fun _ => .inl ?_⟩
      have still := (Nat.mul_eq_zero.mp gross).resolve_right rate
      omega
    · rintro ⟨nothing, rest⟩
      have still : now.toInt = mid.lastSettledTs.toInt :=
        (rest active).resolve_right (not_le.mpr early)
      rw [nothing, StreamMandate.gross, still, Int.sub_self, Int.toNat_zero, Nat.zero_mul]
  | settled _ due done =>
    obtain ⟨later, exact⟩ := balanced.book unsettled sound (sound.accrued active done)
    refine ⟨lost, ?_, later, exact, ?_⟩
    · obtain ⟨total, last, form⟩ := (Settling.of_settled done).form
      rw [form]
      exact balanced.uncapped
    · constructor
      · intro nothing
        exact ⟨nothing, fun _ => .inr due⟩
      · rintro ⟨nothing, _⟩
        exact nothing

theorem StreamMandate.atRest_stopped (stopped : s.status ≠ .active) (now : Int) : s.AtRest now :=
  fun active => absurd active stopped

theorem StreamBalanced.called {start : Int} {h : RateHistory} {lost : Nat}
    (balanced : StreamBalanced start h lost s now.toInt) (unsettled : Unsettled h s now.toInt)
    (sound : StreamSound s now.toInt) (change : StreamChange now signer s i amount after) :
    ∃ lost', StreamBalanced start h lost' after now.toInt ∧
      (lost' = 0 ↔ lost = 0 ∧ (i.exits = true → s.AtRest now.toInt)) := by
  cases change with
  | executed settled =>
    exact ⟨lost, balanced.settle unsettled sound settled, by simp [StreamInstruction.exits]⟩
  | paused active settled =>
    obtain ⟨lost', uncapped, started, exact, none⟩ :=
      balanced.exit unsettled sound active settled
    exact ⟨lost', ⟨uncapped, started, exact⟩, by simpa [StreamInstruction.exits] using none⟩
  | resumed pausedAt paused since later =>
    obtain ⟨uncapped, started, exact⟩ := balanced
    have stopped : s.status ≠ .active := by rw [paused]; exact nofun
    rw [StreamMandate.settledUntil_stopped stopped] at started exact
    exact ⟨lost, ⟨uncapped, started, exact⟩, by simp [StreamInstruction.exits]⟩
  | rerated active consent positive settled bounded =>
    obtain ⟨uncapped, started, exact⟩ := balanced.settle unsettled sound settled
    exact ⟨lost, ⟨uncapped, started, exact⟩, by simp [StreamInstruction.exits]⟩
  | cancelled running settled =>
    by_cases active : s.status = .active
    · obtain ⟨lost', uncapped, started, exact, none⟩ :=
        balanced.exit unsettled sound active settled
      exact ⟨lost', ⟨uncapped, started, exact⟩, by simpa [StreamInstruction.exits] using none⟩
    · cases settled with
      | skipped sofar early zero unchanged =>
        subst unchanged
        obtain ⟨uncapped, started, exact⟩ := balanced
        rw [StreamMandate.settledUntil_stopped active] at started exact
        refine ⟨lost, ⟨uncapped, started, exact⟩, ?_⟩
        simp [StreamInstruction.exits, StreamMandate.atRest_stopped active]
      | settled running due done => exact absurd running active

def Accounted (start : Int) (record : ExitRecord) (s : StreamMandate) (now : Int) : Prop :=
  ∃ lost, StreamBalanced start record.rates lost s now ∧ (lost = 0 ↔ record.onTime)

theorem Accounted.apart {w₀ : World} {start : Int} {record : ExitRecord} {a : StreamAction}
    (metered : Metered P w₀ k w record.rates s) (accounted : Accounted start record s w.now)
    (call : a.call k = none) (same : StreamApart P w w' k) :
    Accounted start (recordExits k record w a w') s w'.now := by
  obtain ⟨lost, balanced, none⟩ := accounted
  have later : w.now ≤ w'.now := Checked.le_iff_int.mp same.clock
  refine ⟨lost, balanced.later metered.streaming.sound metered.streaming.found later, ?_⟩
  simp [recordExits, ExitOnTime, call, none]

theorem Accounted.called {w₀ : World} {start : Int} {record : ExitRecord} {a : StreamAction}
    (metered : Metered P w₀ k w record.rates s) (accounted : Accounted start record s w.now)
    (call : a.call k = some i) (spec : StreamCalled P w i signer w' s after amount) :
    Accounted start (recordExits k record w a w') after w'.now := by
  obtain ⟨lost, balanced, none⟩ := accounted
  obtain ⟨lost', balanced, none'⟩ :=
    balanced.called metered.unsettled metered.streaming.sound spec.change
  refine ⟨lost', ?_, ?_⟩
  · rw [recordExits, recordRate_call _ spec.clock, World.now, spec.clock]
    exact balanced
  · rw [none', none]
    simp [recordExits, ExitOnTime, call, metered.streaming.found, World.now]

/-- An uncapped stream that is no longer running has paid exactly what it earned second by second
if and only if each exit found it at rest. -/
theorem accrual_kept_iff {w₀ w₁ : World} {ctx : CreateStreamMandate} {h₀ : RateHistory}
    {record : ExitRecord} {s₁ : StreamMandate} (signed : MerchantsSign P w)
    (created : createStreamMandate P w ctx = .ok w₀) (uncapped : ctx.maxStreamed = none)
    (run : Monitored.Run (StreamStep P) (recordExits ctx.mandate) Monitored.Any
      (w₀, ⟨h₀, True⟩) (w₁, record))
    (found : w₁.stream ctx.mandate = some s₁) (stopped : s₁.status ≠ .active) :
    s₁.totalStreamed.toNat = earned record.rates w₀.now w₁.now ↔ record.onTime := by
  obtain ⟨state, s₀, spec⟩ := createStreamMandate_eq_ok created
  have streaming := Streaming.of_opened signed spec
  have initial := spec.initial
  have began : s₀.lastSettledTs.toInt = w₀.now := by
    rw [initial, World.now, spec.written.clock]
    rfl
  have balanced : StreamBalanced w₀.now h₀ 0 s₀ w₀.now := by
    have active : s₀.status = .active := by rw [initial]; rfl
    refine ⟨by rw [initial]; exact uncapped, ?_, ?_⟩
    · rw [StreamMandate.settledUntil_active active, began]
    · rw [StreamMandate.settledUntil_active active, began, earned, Timeline.total_self, initial]
      rfl
  obtain ⟨s, metered, lost, balanced, none⟩ := metered_run ExitRecord.rates
    (fun _ _ _ _ => rfl) run
    (fun w record s => Accounted w₀.now record s w.now)
    ⟨streaming, .none_yet began⟩ ⟨0, balanced, by simp⟩
    (fun _ _ _ _ _ metered accounted => accounted.apart metered)
    (fun _ _ _ _ _ _ _ _ _ metered accounted call _ spec _ =>
      accounted.called metered call spec)
  obtain rfl := Option.some.inj (metered.streaming.found.symm.trans found)
  have exact := balanced.exact
  rw [StreamMandate.settledUntil_stopped stopped] at exact
  rw [← none]
  simp only at exact
  constructor
  · intro paid
    omega
  · intro nothing
    omega

def earlyPause : List StreamAction :=
  [tickStream 60, settleStream, tickStream 90, pauseBy subscriber]

theorem accrual_kept_after_interval : ∃ (w₀ w₁ : World) (record : ExitRecord) (s₁ : StreamMandate),
    w₁.stream stream = some s₁ ∧ s₁.status = .paused ∧ w₁.transferred stream = 1200 ∧
      (s₁.totalStreamed.toNat = earned record.rates w₀.now w₁.now ↔ record.onTime) := by
  have played : (createStreamMandate platform (streamWorld 0 1000000)
      (streamOffer none)).toOption.any
      (fun w₀ => (Monitored.play applyStreamAction (recordExits stream) Monitored.Any
        (w₀, ⟨fun _ => none, True⟩) [tickStream 60, settleStream, tickStream 120,
          pauseBy subscriber]).any fun x => decide (x.1.transferred stream = 1200 ∧
            (x.1.stream stream).map StreamMandate.status = some .paused)) = true := by
    decide +kernel
  obtain ⟨w₀, ⟨w₁, record⟩, created, run, ends⟩ := stream_script played
  obtain ⟨paid, status⟩ := of_decide_eq_true ends
  obtain ⟨s₁, found, paused⟩ := Option.map_eq_some_iff.mp status
  exact ⟨w₀, w₁, record, s₁, found, paused, paid,
    accrual_kept_iff (streamWorld_merchantsSign 0 1000000) created rfl run found
      (by rw [paused]; exact nofun)⟩

/-- The merchant loses the 30 seconds since the settlement. -/
theorem accrual_lost : ¬∀ (P : Platform) (w w₀ w₁ : World) (ctx : CreateStreamMandate)
    (h : RateHistory) (s₁ : StreamMandate), MerchantsSign P w →
      createStreamMandate P w ctx = .ok w₀ → ctx.maxStreamed = none →
      RateRun P ctx.mandate Monitored.Any (w₀, fun _ => none) (w₁, h) →
      w₁.stream ctx.mandate = some s₁ → s₁.status ≠ .active →
      s₁.totalStreamed.toNat = earned h w₀.now w₁.now := by
  intro kept
  have played : (createStreamMandate platform (streamWorld 0 1000000)
      (streamOffer none)).toOption.any
      (fun w₀ => (Monitored.play applyStreamAction (fun h w _ w' => recordRate stream h w w')
        Monitored.Any (w₀, fun _ => none) earlyPause).any fun x =>
          (x.1.stream stream).any fun s => decide (s.status = .paused ∧
            s.totalStreamed.toNat = 600 ∧ earned x.2 w₀.now x.1.now = 900)) = true := by
    decide +kernel
  obtain ⟨w₀, ⟨w₁, h⟩, created, run, ends⟩ := stream_script played
  simp only [Option.any_eq_true, decide_eq_true_eq] at ends
  obtain ⟨s₁, found, paused, paid, worth⟩ := ends
  have exact := kept platform _ w₀ w₁ (streamOffer none) h s₁ (streamWorld_merchantsSign 0 1000000)
    created rfl run found (by rw [paused]; exact nofun)
  rw [paid, worth] at exact
  exact absurd exact (by decide)

end VelaProtocol
