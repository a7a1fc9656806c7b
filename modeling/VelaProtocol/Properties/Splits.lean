import VelaProtocol.Instructions.Streams

/-! Settling a stream often or once: the settlements over any partition of a time leave the stream
where one settlement over the whole of it does. -/
namespace VelaProtocol

open Guard

variable {s mid final : StreamMandate} {now middle : Int64} {amount : UInt64}

def settleAt (s : StreamMandate) : List Int64 → Result (StreamMandate × List UInt64)
  | [] => return (s, [])
  | now :: rest => do
    let (s, amount) ← settleAccruedInPlace s now
    let (s, amounts) ← settleAt s rest
    return (s, amount :: amounts)

/-- Each time comes at least the interval after the one before. -/
def Spaced (interval : UInt32) : Int64 → List Int64 → Prop
  | _, [] => True
  | last, now :: rest => last.toInt + interval.toNat ≤ now.toInt ∧ Spaced interval now rest

theorem exists_word {n : Nat} (fits : n < 2 ^ 64) : ∃ word : UInt64, word.toNat = n :=
  ⟨UInt64.ofNat n, UInt64.toNat_ofNat_of_lt' fits⟩

def paidInAll (amounts : List UInt64) : Nat := (amounts.map UInt64.toNat).sum

/-- What a time since the last settlement earns: its seconds at the rate, at most the rest of the
cap. -/
def StreamMandate.earned (s : StreamMandate) (now : Int64) : Nat :=
  match s.maxStreamed with
  | some cap => min (s.gross now) (cap.toNat - s.totalStreamed.toNat)
  | none => s.gross now

theorem Spaced.last {interval : UInt32} {clocks : List Int64} : ∀ {last : Int64},
    Spaced interval last (clocks ++ [now]) → last.toInt + interval.toNat ≤ now.toInt := by
  induction clocks with
  | nil => exact fun spaced => spaced.1
  | cons middle rest ih =>
    intro last spaced
    have first := spaced.1
    have others := ih spaced.2
    omega

theorem gross_lt (s : StreamMandate) (from0 : 0 ≤ s.lastSettledTs.toInt) (now : Int64) :
    s.gross now < 2 ^ 128 - 1 := by
  have bound := (Checked.toInt_bounds now).2
  have seconds : (now.toInt - s.lastSettledTs.toInt).toNat ≤ 2 ^ 63 := by omega
  have rate : s.ratePerSecond.toNat ≤ 2 ^ 64 := (Checked.toNat_lt _).le
  have product : s.gross now ≤ 2 ^ 63 * 2 ^ 64 := Nat.mul_le_mul seconds rate
  omega

theorem earned_eq (from0 : 0 ≤ s.lastSettledTs.toInt) (now : Int64) :
    min (s.gross now) s.remaining = s.earned now := by
  have below := gross_lt s from0 now
  unfold StreamMandate.remaining StreamMandate.earned
  cases s.maxStreamed with
  | none => exact Nat.min_eq_left below.le
  | some cap => rfl

theorem gross_split (s : StreamMandate) (total : UInt64)
    (first : s.lastSettledTs.toInt ≤ middle.toInt) (second : middle.toInt ≤ now.toInt) :
    s.gross now = s.gross middle + (s.settle total middle).gross now := by
  have seconds : (now.toInt - s.lastSettledTs.toInt).toNat =
      (middle.toInt - s.lastSettledTs.toInt).toNat + (now.toInt - middle.toInt).toNat := by
    omega
  exact (congrArg (· * s.ratePerSecond.toNat) seconds).trans (Nat.add_mul _ _ _)

theorem clip_split (first second cap total : Nat) :
    min (first + second) (cap - total) =
      min first (cap - total) + min second (cap - (total + min first (cap - total))) := by
  omega

theorem earned_split {total : UInt64} (first : s.lastSettledTs.toInt ≤ middle.toInt)
    (second : middle.toInt ≤ now.toInt)
    (sum : total.toNat = s.totalStreamed.toNat + s.earned middle) :
    s.earned now = s.earned middle + (s.settle total middle).earned now := by
  have gross := gross_split s total first second
  cases limit : s.maxStreamed with
  | none =>
    have later : (s.settle total middle).maxStreamed = none := limit
    simp only [StreamMandate.earned, limit, later]
    exact gross
  | some cap =>
    have later : (s.settle total middle).maxStreamed = some cap := limit
    simp only [StreamMandate.earned, limit] at sum
    simp only [StreamMandate.earned, limit, later]
    rw [gross, clip_split, ← sum]
    rfl

theorem earned_mono (first : s.lastSettledTs.toInt ≤ middle.toInt)
    (second : middle.toInt ≤ now.toInt) : s.earned middle ≤ s.earned now := by
  have gross := gross_split s 0 first second
  unfold StreamMandate.earned
  cases s.maxStreamed with
  | none => exact gross ▸ Nat.le_add_right _ _
  | some cap =>
    show min _ _ ≤ min _ _
    omega

def Pays (s : StreamMandate) (now : Int64) (final : StreamMandate) (amount : UInt64) : Prop :=
  amount.toNat = s.earned now ∧
    ∃ total : UInt64, total.toNat = s.totalStreamed.toNat + s.earned now ∧
      final = s.settle total now

theorem settles_iff (active : s.status = .active) (running : s.pausedAt = none)
    (from0 : 0 ≤ s.lastSettledTs.toInt) (capped : ∀ cap ∈ s.maxStreamed, s.totalStreamed ≤ cap)
    (due : s.lastSettledTs.toInt + s.minSettleInterval.toNat ≤ now.toInt) :
    settleAccruedInPlace s now = .ok (final, amount) ↔ Pays s now final amount := by
  have bound := (Checked.toInt_bounds now).2
  rw [settleAccruedInPlace_eq_ok]
  constructor
  · rintro (⟨idle, _⟩ | accrued)
    · exact absurd idle (StreamMandate.not_idle_iff.mpr ⟨active, running⟩)
    · have payable := accrued.payable
      rw [earned_eq from0] at payable
      exact ⟨payable, payable ▸ accrued.settled⟩
  · rintro ⟨payable, settled⟩
    refine .inr ⟨active, running, by omega, due, capped, ?_, payable ▸ settled⟩
    rw [earned_eq from0]
    exact payable

theorem settled_capped {total : UInt64} (capped : ∀ cap ∈ s.maxStreamed, s.totalStreamed ≤ cap)
    (sum : total.toNat = s.totalStreamed.toNat + s.earned now) :
    ∀ cap ∈ (s.settle total now).maxStreamed, (s.settle total now).totalStreamed ≤ cap := by
  intro cap limit
  have limit : s.maxStreamed = some cap := limit
  have below := Checked.le_iff.mp (capped cap limit)
  have least : s.earned now ≤ cap.toNat - s.totalStreamed.toNat := by
    simp only [StreamMandate.earned, limit]
    exact Nat.min_le_right _ _
  show total ≤ cap
  rw [Checked.le_iff, sum]
  omega

theorem settle_twice (from0 : 0 ≤ s.lastSettledTs.toInt)
    (capped : ∀ cap ∈ s.maxStreamed, s.totalStreamed ≤ cap)
    (first : s.lastSettledTs.toInt + s.minSettleInterval.toNat ≤ middle.toInt)
    (second : middle.toInt + s.minSettleInterval.toNat ≤ now.toInt) (n : Nat) :
    (∃ amount, settleAccruedInPlace s now = .ok (final, amount) ∧ amount.toNat = n) ↔
      ∃ mid paid amount, settleAccruedInPlace s middle = .ok (mid, paid) ∧
        settleAccruedInPlace mid now = .ok (final, amount) ∧ paid.toNat + amount.toNat = n := by
  by_cases idle : s.Idle
  · simp only [settleAccruedInPlace_idle idle, Except.ok.injEq, Prod.mk.injEq]
    constructor
    · rintro ⟨_, ⟨rfl, rfl⟩, zero⟩
      exact ⟨s, 0, 0, ⟨rfl, rfl⟩, settleAccruedInPlace_idle idle now, zero⟩
    · rintro ⟨_, _, amount, ⟨rfl, rfl⟩, settled, zero⟩
      rw [settleAccruedInPlace_idle idle, Except.ok.injEq, Prod.mk.injEq] at settled
      obtain ⟨rfl, rfl⟩ := settled
      exact ⟨0, ⟨rfl, rfl⟩, zero⟩
  obtain ⟨active, running⟩ := StreamMandate.not_idle_iff.mp idle
  have whole (amount : UInt64) :
      settleAccruedInPlace s now = .ok (final, amount) ↔ Pays s now final amount :=
    settles_iff active running from0 capped (by omega)
  have start (mid : StreamMandate) (paid : UInt64) :
      settleAccruedInPlace s middle = .ok (mid, paid) ↔ Pays s middle mid paid :=
    settles_iff active running from0 capped first
  have rest (total amount : UInt64)
      (sum : total.toNat = s.totalStreamed.toNat + s.earned middle) :
      settleAccruedInPlace (s.settle total middle) now = .ok (final, amount) ↔
        Pays (s.settle total middle) now final amount :=
    settles_iff active running (show 0 ≤ middle.toInt by omega) (settled_capped capped sum) second
  have earlier : s.lastSettledTs.toInt ≤ middle.toInt := by omega
  have later : middle.toInt ≤ now.toInt := by omega
  constructor
  · rintro ⟨amount, settled, rfl⟩
    obtain ⟨payable, total, sum, rfl⟩ := (whole amount).mp settled
    -- what is paid by the middle is part of what is paid in all
    have part := earned_mono earlier later
    have bound := Checked.toNat_lt total
    obtain ⟨paid, earned⟩ := exists_word (n := s.earned middle) (by omega)
    obtain ⟨subtotal, subsum⟩ := exists_word (n := s.totalStreamed.toNat + s.earned middle)
      (by omega)
    have split := earned_split earlier later subsum
    obtain ⟨last, owed⟩ := exists_word (n := (s.settle subtotal middle).earned now) (by omega)
    refine ⟨s.settle subtotal middle, paid, last, (start _ _).mpr ⟨earned, subtotal, subsum, rfl⟩,
      (rest _ _ subsum).mpr ⟨owed, total, ?_, rfl⟩, by omega⟩
    rw [sum, split]
    show _ = subtotal.toNat + _
    omega
  · rintro ⟨_, paid, amount, settled, resettled, rfl⟩
    obtain ⟨earned, subtotal, subsum, rfl⟩ := (start _ _).mp settled
    obtain ⟨payable, total, sum, rfl⟩ := (rest _ _ subsum).mp resettled
    have split := earned_split earlier later subsum
    have sum : total.toNat = subtotal.toNat + (s.settle subtotal middle).earned now := sum
    have bound := Checked.toNat_lt total
    obtain ⟨inAll, value⟩ := exists_word (n := s.earned now) (by omega)
    exact ⟨inAll, (whole _).mpr ⟨value, total, by omega, rfl⟩, by omega⟩

theorem settled_from {paid : UInt64} (from0 : 0 ≤ s.lastSettledTs.toInt)
    (capped : ∀ cap ∈ s.maxStreamed, s.totalStreamed ≤ cap)
    (due : s.lastSettledTs.toInt + s.minSettleInterval.toNat ≤ now.toInt)
    (settled : settleAccruedInPlace s now = .ok (mid, paid)) :
    s.Idle ∧ mid = s ∨ mid.lastSettledTs = now ∧ mid.minSettleInterval = s.minSettleInterval ∧
      ∀ cap ∈ mid.maxStreamed, mid.totalStreamed ≤ cap := by
  by_cases idle : s.Idle
  · rw [settleAccruedInPlace_idle idle, Except.ok.injEq, Prod.mk.injEq] at settled
    exact .inl ⟨idle, settled.1.symm⟩
  · obtain ⟨active, running⟩ := StreamMandate.not_idle_iff.mp idle
    obtain ⟨_, total, sum, rfl⟩ := (settles_iff active running from0 capped due).mp settled
    exact .inr ⟨rfl, rfl, settled_capped capped sum⟩

theorem settleAt_cons {clocks : List Int64} {n : Nat} :
    (∃ amounts, settleAt s (now :: clocks) = .ok (final, amounts) ∧ paidInAll amounts = n) ↔
      ∃ mid paid, settleAccruedInPlace s now = .ok (mid, paid) ∧
        ∃ amounts, settleAt mid clocks = .ok (final, amounts) ∧
          paid.toNat + paidInAll amounts = n := by
  simp only [settleAt, bind_eq_ok, Prod.exists, pure_eq_ok, Prod.mk.injEq]
  constructor
  · rintro ⟨_, ⟨mid, paid, settled, _, amounts, others, rfl, rfl⟩, sum⟩
    exact ⟨mid, paid, settled, amounts, others, sum⟩
  · rintro ⟨mid, paid, settled, amounts, others, sum⟩
    exact ⟨_, ⟨mid, paid, settled, final, amounts, others, rfl, rfl⟩, sum⟩

theorem settleAt_idle (idle : s.Idle) (clocks : List Int64) {n : Nat} :
    (∃ amounts, settleAt s clocks = .ok (final, amounts) ∧ paidInAll amounts = n) ↔
      final = s ∧ n = 0 := by
  induction clocks with
  | nil =>
    simp only [settleAt, pure_eq_ok, Prod.mk.injEq]
    constructor
    · rintro ⟨_, ⟨rfl, rfl⟩, rfl⟩
      exact ⟨rfl, rfl⟩
    · rintro ⟨rfl, rfl⟩
      exact ⟨[], ⟨rfl, rfl⟩, rfl⟩
  | cons now rest ih =>
    rw [settleAt_cons, ← ih]
    simp only [settleAccruedInPlace_idle idle, Except.ok.injEq, Prod.mk.injEq]
    constructor
    · rintro ⟨_, _, ⟨rfl, rfl⟩, amounts, others, sum⟩
      exact ⟨amounts, others, by simpa using sum⟩
    · rintro ⟨amounts, others, sum⟩
      exact ⟨s, 0, ⟨rfl, rfl⟩, amounts, others, by simpa using sum⟩

theorem settleAt_iff (clocks : List Int64) : ∀ {s : StreamMandate} {n : Nat},
    0 ≤ s.lastSettledTs.toInt → (∀ cap ∈ s.maxStreamed, s.totalStreamed ≤ cap) →
      Spaced s.minSettleInterval s.lastSettledTs (clocks ++ [now]) →
      ((∃ amounts, settleAt s (clocks ++ [now]) = .ok (final, amounts) ∧ paidInAll amounts = n) ↔
        ∃ amount, settleAccruedInPlace s now = .ok (final, amount) ∧ amount.toNat = n) := by
  induction clocks with
  | nil =>
    intro s n from0 capped spaced
    rw [List.nil_append, settleAt_cons]
    simp only [settleAt, pure_eq_ok, Prod.mk.injEq]
    constructor
    · rintro ⟨_, paid, settled, _, ⟨rfl, rfl⟩, sum⟩
      exact ⟨paid, settled, sum⟩
    · rintro ⟨paid, settled, sum⟩
      exact ⟨_, paid, settled, [], ⟨rfl, rfl⟩, sum⟩
  | cons middle rest ih =>
    intro s n from0 capped spaced
    have due := spaced.1
    have later := spaced.2.last
    rw [List.cons_append]
    by_cases idle : s.Idle
    · rw [settleAt_idle idle]
      simp only [settleAccruedInPlace_idle idle, Except.ok.injEq, Prod.mk.injEq]
      constructor
      · rintro ⟨rfl, rfl⟩
        exact ⟨0, ⟨rfl, rfl⟩, rfl⟩
      · rintro ⟨_, ⟨rfl, rfl⟩, rfl⟩
        exact ⟨rfl, rfl⟩
    · rw [settleAt_cons, settle_twice from0 capped due later]
      constructor
      · rintro ⟨mid, paid, settled, amounts, others, sum⟩
        obtain ⟨impossible, _⟩ | ⟨last, interval, under⟩ := settled_from from0 capped due settled
        · exact absurd impossible idle
        · obtain ⟨amount, final, total⟩ := (ih (by rw [last]; omega) under
            (by rw [last, interval]; exact spaced.2)).mp ⟨amounts, others, rfl⟩
          exact ⟨mid, paid, amount, settled, final, by omega⟩
      · rintro ⟨mid, paid, amount, settled, final, sum⟩
        obtain ⟨impossible, _⟩ | ⟨last, interval, under⟩ := settled_from from0 capped due settled
        · exact absurd impossible idle
        · obtain ⟨amounts, others, total⟩ := (ih (by rw [last]; omega) under
            (by rw [last, interval]; exact spaced.2)).mpr ⟨amount, final, rfl⟩
          exact ⟨mid, paid, settled, amounts, others, by omega⟩

/-- However a time is split into steps of at least the minimum interval, settling step by step
succeeds when one settlement does, leaves the same stream and pays the same. -/
theorem settlement_split (clocks : List Int64) (from0 : 0 ≤ s.lastSettledTs.toInt)
    (capped : ∀ cap ∈ s.maxStreamed, s.totalStreamed ≤ cap)
    (spaced : Spaced s.minSettleInterval s.lastSettledTs (clocks ++ [now])) :
    ((∃ r, settleAt s (clocks ++ [now]) = .ok r) ↔ ∃ r, settleAccruedInPlace s now = .ok r) ∧
      ∀ final amounts, settleAt s (clocks ++ [now]) = .ok (final, amounts) →
        (∃ amount, settleAccruedInPlace s now = .ok (final, amount) ∧
          amount.toNat = paidInAll amounts) ∧
        (s.status = .active → s.pausedAt = none → paidInAll amounts =
          match s.maxStreamed with
          | some cap => min (s.ratePerSecond.toNat * (now.toInt - s.lastSettledTs.toInt).toNat)
              (cap.toNat - s.totalStreamed.toNat)
          | none => s.ratePerSecond.toNat * (now.toInt - s.lastSettledTs.toInt).toNat) := by
  constructor
  · constructor
    · rintro ⟨⟨final, amounts⟩, stepped⟩
      obtain ⟨amount, settled, _⟩ := (settleAt_iff clocks from0 capped spaced).mp
        ⟨amounts, stepped, rfl⟩
      exact ⟨_, settled⟩
    · rintro ⟨⟨final, amount⟩, settled⟩
      obtain ⟨amounts, stepped, _⟩ := (settleAt_iff clocks from0 capped spaced).mpr
        ⟨amount, settled, rfl⟩
      exact ⟨_, stepped⟩
  · intro final amounts stepped
    obtain ⟨amount, settled, sum⟩ := (settleAt_iff clocks from0 capped spaced).mp
      ⟨amounts, stepped, rfl⟩
    refine ⟨⟨amount, settled, sum⟩, fun active running => ?_⟩
    have payable := ((settles_iff active running from0 capped spaced.last).mp settled).1
    rw [← sum, payable, Nat.mul_comm]
    rfl

def cappedStream : StreamMandate where
  version := currentAccountVersion
  subscriber := 4
  merchant := 3
  mint := 5
  ratePerSecond := 10
  authorizedMaxRate := 10
  lastSettledTs := 0
  totalStreamed := 0
  maxStreamed := some 1000
  pausedAt := none
  minSettleInterval := 30
  status := .active
  mandateIndex := 0
  bump := 255
  pendingNewRatePerSecond := 0
  pendingNewAuthorizedMaxRate := 0
  pendingEffectiveAt := 0
  pendingChangeType := 0
  pendingNonceShort := 0
  reservedV2 := 0

theorem settlement_split_at_cap : ∃ r, settleAt cappedStream [60, 120, 150] = .ok r ∧
    paidInAll r.2 = 1000 := by
  have spaced : Spaced cappedStream.minSettleInterval cappedStream.lastSettledTs
      ([60, 120] ++ [150]) := ⟨by decide, by decide, by decide, trivial⟩
  obtain ⟨once, amounts⟩ := settlement_split [60, 120] (by decide) (by decide) spaced
  obtain ⟨r, settled⟩ := once.mpr ⟨(cappedStream.settle 1000 150, 1000), by decide⟩
  exact ⟨r, settled, (amounts r.1 r.2 settled).2 rfl rfl⟩

end VelaProtocol
