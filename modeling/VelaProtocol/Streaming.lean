import VelaProtocol.Instructions.Streams
import VelaProtocol.Lib.Monitored
import VelaProtocol.Lib.Timeline

/-! The streaming instructions as one transition system, watched at one stream.
Everything else, the rest of the program and other programs, is an environment that leaves the
streams and what they have signed alone. -/
namespace VelaProtocol

def World.now (w : World) : Int := w.clock.unixTimestamp.toInt

/-- Merchants sign when their record is made, and nobody signs for a derived stream address. -/
def MerchantsSign (P : Platform) (w : World) : Prop :=
  ∀ key loaded, w.merchantState key = some loaded → ∀ subscriber merchant mandateIndex,
    loaded.intoCurrent.merchant ≠
      (P.findProgramAddress (.stream subscriber merchant mandateIndex)).1

/-- What everything outside streaming may do. -/
structure StreamEnvironment (P : Platform) (w w' : World) : Prop where
  clock : w.clock.unixTimestamp ≤ w'.clock.unixTimestamp
  stream : w'.stream = w.stream
  transfersBy : ∀ k, (w.stream k).isSome = true → w'.transfersBy k = w.transfersBy k
  merchants : MerchantsSign P w → MerchantsSign P w'

inductive StreamAction where
  | instruction (i : StreamInstruction)
  | tick (clock : Clock)
  | environment

def StreamStep (P : Platform) (w : World) (a : StreamAction) (w' : World) : Prop :=
  match a with
  | .instruction i => executeStreaming P w i = .ok w'
  | .tick clock => w.clock.unixTimestamp ≤ clock.unixTimestamp ∧ w' = { w with clock := clock }
  | .environment => StreamEnvironment P w w'

def StreamAction.call (k : Pubkey) : StreamAction → Option StreamInstruction
  | .instruction i => if i.stream = k then some i else none
  | _ => none

theorem StreamAction.call_self {i : StreamInstruction} {k : Pubkey} (same : i.stream = k) :
    StreamAction.call k (.instruction i) = some i := if_pos same

theorem StreamAction.call_other {i : StreamInstruction} {k : Pubkey} (other : i.stream ≠ k) :
    StreamAction.call k (.instruction i) = none := if_neg other

variable {P : Platform} {w w' : World} {k : Pubkey}

structure StreamApart (P : Platform) (w w' : World) (k : Pubkey) : Prop where
  clock : w.clock.unixTimestamp ≤ w'.clock.unixTimestamp
  stream : w'.stream k = w.stream k
  transfersBy : (w.stream k).isSome = true → w'.transfersBy k = w.transfersBy k
  merchants : MerchantsSign P w → MerchantsSign P w'

inductive StreamStepAt (P : Platform) (k : Pubkey) (w w' : World) :
    Option StreamInstruction → Prop
  | apart (same : StreamApart P w w' k) : StreamStepAt P k w w' none
  | opened (ctx : CreateStreamMandate) (state : MerchantState) (stream : StreamMandate)
      (key : ctx.mandate = k) (spec : StreamOpened P w ctx w' state stream) :
      StreamStepAt P k w w' (some (.createStreamMandate ctx))
  | called (i : StreamInstruction) (signer : Pubkey) (before after : StreamMandate)
      (amount : UInt64) (key : i.stream = k)
      (spec : StreamCalled P w i signer w' before after amount) :
      StreamStepAt P k w w' (some i)

theorem MerchantsSign.of_eq (same : w'.merchantState = w.merchantState)
    (signed : MerchantsSign P w) : MerchantsSign P w' := by
  intro key loaded found
  rw [same] at found
  exact signed key loaded found

theorem call_called {i : StreamInstruction}
    (notCreated : ∀ ctx, i ≠ .createStreamMandate ctx) (h : executeStreaming P w i = .ok w') :
    ∃ signer before after amount, StreamCalled P w i signer w' before after amount := by
  cases i with
  | createStreamMandate ctx => exact absurd rfl (notCreated ctx)
  | executeStream ctx => exact ⟨_, executeStream_eq_ok h⟩
  | pauseStream ctx => exact ⟨_, pauseStream_eq_ok h⟩
  | resumeStream ctx => exact ⟨_, resumeStream_eq_ok h⟩
  | updateStreamRate ctx => exact ⟨_, updateStreamRate_eq_ok h⟩
  | cancelStream ctx => exact ⟨_, cancelStream_eq_ok h⟩

theorem StreamPayment.transfersBy_of_ne {paid : World} {accounts : StreamTransferAccounts}
    {key merchant : Pubkey} {amount : UInt64}
    (payment : StreamPayment w accounts key merchant amount paid) (different : k ≠ key) :
    paid.transfersBy k = w.transfersBy k := by
  cases payment with
  | nothing zero unchanged => rw [unchanged]
  | transfer positive unpaused done => exact done.moved.transfersBy_of_ne different

theorem StreamPayment.clock {paid : World} {accounts : StreamTransferAccounts}
    {key merchant : Pubkey} {amount : UInt64}
    (payment : StreamPayment w accounts key merchant amount paid) : paid.clock = w.clock := by
  cases payment with
  | nothing zero unchanged => rw [unchanged]
  | transfer positive unpaused done => exact done.frame.clock

theorem StreamPayment.stream {paid : World} {accounts : StreamTransferAccounts}
    {key merchant : Pubkey} {amount : UInt64}
    (payment : StreamPayment w accounts key merchant amount paid) : paid.stream = w.stream := by
  cases payment with
  | nothing zero unchanged => rw [unchanged]
  | transfer positive unpaused done => exact done.frame.stream

section Called

variable {i : StreamInstruction} {signer : Pubkey} {before after : StreamMandate}
  {amount : UInt64} (spec : StreamCalled P w i signer w' before after amount)
include spec

theorem StreamCalled.clock : w'.clock = w.clock := by
  obtain ⟨accounts, paid, payment, written, _⟩ := spec.effect
  exact written.clock.trans payment.clock

theorem StreamCalled.stream : w'.stream = Function.update w.stream i.stream (some after) := by
  obtain ⟨accounts, paid, payment, written, _⟩ := spec.effect
  rw [written.stream, payment.stream]

theorem StreamCalled.written : w'.stream i.stream = some after := by
  rw [spec.stream, Function.update_self]

theorem StreamCalled.apart (different : k ≠ i.stream) : StreamApart P w w' k := by
  obtain ⟨accounts, paid, payment, written, merchants⟩ := spec.effect
  constructor
  · rw [spec.clock]
    exact Int64.le_refl _
  · rw [spec.stream, Function.update_of_ne different]
  · intro _
    rw [written.money.transfersBy, payment.transfersBy_of_ne different]
  · exact MerchantsSign.of_eq merchants

theorem StreamCalled.transferred (other : before.merchant ≠ i.stream) :
    w'.transferred i.stream = w.transferred i.stream + amount.toNat := by
  obtain ⟨accounts, paid, payment, written, _⟩ := spec.effect
  have money : w'.transferred i.stream = paid.transferred i.stream := by
    rw [World.transferred, World.transferred, written.money.transfersBy]
  rw [money]
  cases payment with
  | nothing zero unchanged =>
    subst zero
    rw [unchanged]
    rfl
  | transfer positive unpaused done =>
    obtain ⟨source, found, _, owner⟩ := done.source
    obtain ⟨destination, present, _, receiver⟩ := done.destination
    rcases done.moved.transfersBy_self with ⟨_, same⟩ | ⟨log, _⟩
    · rw [same] at found
      obtain rfl := Option.some.inj (found.symm.trans present)
      exact absurd (receiver.symm.trans owner) other
    · have log : paid.transfersBy i.stream =
          ⟨accounts.wrappedUsdcMint, accounts.subscriberWrappedAccount,
            accounts.merchantWrappedAccount, i.stream, amount⟩ :: w.transfersBy i.stream := log
      rw [World.transferred, World.transferred, log, List.map_cons, List.sum_cons, Nat.add_comm]

end Called

section Opened

variable {ctx : CreateStreamMandate} {state : MerchantState} {stream : StreamMandate}
  (spec : StreamOpened P w ctx w' state stream)
include spec

theorem StreamOpened.merchants (signed : MerchantsSign P w) : MerchantsSign P w' := by
  obtain ⟨counter, _, written⟩ := spec.counted
  intro key loaded found
  rw [written] at found
  by_cases same : key = ctx.merchant
  · rw [same, Function.update_self] at found
    obtain rfl := Option.some.inj found
    have signed := signed ctx.merchant (.current state) spec.loaded
    exact signed
  · rw [Function.update_of_ne same] at found
    exact signed key loaded found

theorem StreamOpened.created : w'.stream ctx.mandate = some stream := by
  rw [spec.written.stream, Function.update_self]

theorem StreamOpened.apart (different : k ≠ ctx.mandate) : StreamApart P w w' k := by
  constructor
  · rw [spec.written.clock]
    exact Int64.le_refl _
  · rw [spec.written.stream, Function.update_of_ne different]
  · intro _
    exact spec.written.money.transfersBy k
  · exact spec.merchants

theorem StreamOpened.merchant_ne (signed : MerchantsSign P w) :
    stream.merchant ≠ ctx.mandate := by
  have initial := spec.initial
  have merchant : stream.merchant = state.merchant := by rw [initial]; rfl
  rw [spec.address, merchant]
  exact signed ctx.merchant _ spec.loaded _ _ _

end Opened

theorem streamStepAt {a : StreamAction} (k : Pubkey) (step : StreamStep P w a w') :
    StreamStepAt P k w w' (a.call k) := by
  cases a with
  | instruction i =>
    by_cases created : ∃ ctx, i = .createStreamMandate ctx
    · obtain ⟨ctx, rfl⟩ := created
      obtain ⟨state, stream, spec⟩ := createStreamMandate_eq_ok step
      by_cases key : ctx.mandate = k
      · rw [StreamAction.call_self (i := .createStreamMandate ctx) (k := k) key]
        exact .opened ctx state stream key spec
      · rw [StreamAction.call_other (i := .createStreamMandate ctx) key]
        exact .apart (spec.apart (Ne.symm key))
    · obtain ⟨signer, before, after, amount, spec⟩ :=
        call_called (fun ctx same => created ⟨ctx, same⟩) step
      by_cases key : i.stream = k
      · rw [StreamAction.call_self key]
        exact .called i signer before after amount key spec
      · rw [StreamAction.call_other key]
        exact .apart (spec.apart (Ne.symm key))
  | tick clock =>
    obtain ⟨later, rfl⟩ := step
    exact .apart ⟨later, rfl, fun _ => rfl, MerchantsSign.of_eq rfl⟩
  | environment =>
    exact .apart ⟨step.clock, congrFun step.stream k, step.transfersBy k, step.merchants⟩

end VelaProtocol
