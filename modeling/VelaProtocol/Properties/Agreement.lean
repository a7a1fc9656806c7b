import VelaProtocol.Deployment.Streams
import VelaProtocol.Depiction

/-! The streaming instructions and the transfer hook agree on what a stream may pay. -/
namespace VelaProtocol

variable {P : Platform} {w w' : World} {i : StreamInstruction} {s mid : StreamMandate}
  {now : Int64} {amount other : UInt64}

theorem Accrued.allows_iff (accrued : Accrued s now amount mid) :
    Hook.StreamAllows now s other ↔ other ≤ amount := by
  have payable := accrued.payable
  have bound := Checked.toNat_lt other
  rw [Checked.le_iff, payable]
  constructor
  · intro allows
    have accrual := allows.accrued
    cases limit : s.maxStreamed with
    | none =>
      have unlimited : s.remaining = 2 ^ 128 - 1 := by rw [StreamMandate.remaining, limit]
      omega
    | some cap =>
      have remaining : s.remaining = cap.toNat - s.totalStreamed.toNat := by
        rw [StreamMandate.remaining, limit]
      have below := allows.capped cap limit
      omega
  · intro within
    refine ⟨accrued.active, accrued.short, accrued.due, by omega, ?_⟩
    intro cap limit
    have remaining : s.remaining = cap.toNat - s.totalStreamed.toNat := by
      rw [StreamMandate.remaining, Option.mem_def.mp limit]
    have below := Checked.le_iff.mp (accrued.capped cap limit)
    omega

/-- The accrual a settlement would be limited by. -/
def StreamMandate.Exceeds (s : StreamMandate) (now : Int64) (amount : UInt64) : Prop :=
  s.gross now < amount.toNat ∨
    ∃ cap ∈ s.maxStreamed, cap.toNat < s.totalStreamed.toNat + amount.toNat

theorem Hook.StreamAllows.within (allows : Hook.StreamAllows now s amount) :
    ¬s.Exceeds now amount := by
  rintro (more | ⟨cap, limit, more⟩)
  · have accrued := allows.accrued
    omega
  · have capped := allows.capped cap limit
    omega

theorem streamBranch_holds {padding : List UInt8} {u : Unit} :
    Hook.streamBranch now (Layout.streamMandateAccount.encode s ++ padding) amount = .ok u ↔
      Hook.StreamAllows now s amount := by
  have decodes : Layout.streamMandateAccount.read
      (Layout.streamMandateAccount.encode s ++ padding) = some s := Codec.Holds.read ⟨padding, rfl⟩
  rw [Hook.streamBranch_eq_ok, decodes]
  constructor
  · rintro ⟨stream, same, allows⟩
    cases same
    exact allows
  · intro allows
    exact ⟨s, rfl, allows⟩

theorem StreamChange.accrued {signer : Pubkey} {after : StreamMandate}
    (change : StreamChange now signer s i amount after) (paid : 0 < amount) :
    ∃ mid, Accrued s now amount mid := by
  have nonzero : amount ≠ 0 := by
    rintro rfl
    exact absurd paid (by decide)
  have settled : ∀ {mid}, settleAccruedInPlace s now = .ok (mid, amount) →
      ∃ mid, Accrued s now amount mid := by
    intro mid done
    rcases settleAccruedInPlace_eq_ok.mp done with ⟨_, _, zero⟩ | accrued
    · exact absurd zero nonzero
    · exact ⟨mid, accrued⟩
  cases change with
  | executed done => exact settled done
  | paused active settlement =>
    cases settlement with
    | skipped sofar early zero unchanged => exact absurd zero nonzero
    | settled active due done => exact settled done
  | resumed pausedAt paused since later => exact absurd rfl nonzero
  | rerated active consent positive done bounded => exact settled done
  | cancelled running settlement =>
    cases settlement with
    | skipped sofar early zero unchanged => exact absurd zero nonzero
    | settled active due done => exact settled done

/-- What a call settles, nothing or an amount, it transfers while its stream is stored as it was;
the hook accepts an amount of these bytes; and only then is the stream written. -/
structure TransferredBefore (w : World) (i : StreamInstruction) (s : StreamMandate) (w' : World) :
    Prop where
  paid : ∃ (signer : Pubkey) (amount : UInt64) (after : StreamMandate)
    (accounts : StreamTransferAccounts) (paid : World),
    StreamChange w.clock.unixTimestamp signer s i amount after ∧
      StreamPayment w accounts i.stream s.merchant amount paid ∧ paid.stream i.stream = some s ∧
      (∀ padding, 0 < amount → Hook.streamBranch w.clock.unixTimestamp
        (Layout.streamMandateAccount.encode s ++ padding) amount = .ok ()) ∧
      StreamWritten paid i.stream after w'

theorem StreamCalled.transferredBefore {signer : Pubkey} {after : StreamMandate}
    (spec : StreamCalled P w i signer w' s after amount) : TransferredBefore w i s w' := by
  obtain ⟨accounts, paid, payment, written, _⟩ := spec.effect
  refine ⟨signer, amount, after, accounts, paid, spec.change, payment, ?_, ?_, written⟩
  · rw [payment.stream]
    exact spec.found
  · intro padding positive
    obtain ⟨mid, accrued⟩ := spec.change.accrued positive
    rw [streamBranch_holds, accrued.allows_iff]
    exact UInt64.le_refl _

/-- Whatever a settlement computes the hook accepts of the stored bytes, and of these it accepts
nothing more; nothing beyond the accrual or the cap and nothing of a stream that is not active;
and every call transfers what it settles before it writes. -/
theorem stream_hook_agrees (s : StreamMandate) (padding : List UInt8) :
    (∀ now mid amount, settleAccruedInPlace s now = .ok (mid, amount) → 0 < amount →
      ∀ other, Hook.streamBranch now (Layout.streamMandateAccount.encode s ++ padding) other =
        .ok () ↔ other ≤ amount) ∧
    (∀ now amount, s.status ≠ .active ∨ s.Exceeds now amount →
      Hook.streamBranch now (Layout.streamMandateAccount.encode s ++ padding) amount ≠ .ok ()) ∧
    ∀ (P : Platform) (w w' : World) (i : StreamInstruction), w.stream i.stream = some s →
      executeStreaming P w i = .ok w' → TransferredBefore w i s w' := by
  refine ⟨?_, ?_, ?_⟩
  · intro now mid amount settled positive other
    rcases settleAccruedInPlace_eq_ok.mp settled with ⟨_, _, zero⟩ | accrued
    · rw [zero] at positive
      exact absurd positive (by decide)
    · rw [streamBranch_holds]
      exact accrued.allows_iff
  · intro now amount beyond accepted
    have allows := streamBranch_holds.mp accepted
    rcases beyond with stopped | exceeds
    · exact stopped allows.active
    · exact allows.within exceeds
  · intro P w w' i found ran
    by_cases created : ∃ ctx, i = .createStreamMandate ctx
    · obtain ⟨ctx, rfl⟩ := created
      obtain ⟨state, stream, spec⟩ := createStreamMandate_eq_ok ran
      exact absurd (spec.vacant.stream.symm.trans found) nofun
    · obtain ⟨signer, before, after, amount, spec⟩ :=
        call_called (fun ctx same => created ⟨ctx, same⟩) ran
      obtain rfl := Option.some.inj (found.symm.trans spec.found)
      exact spec.transferredBefore

end VelaProtocol
