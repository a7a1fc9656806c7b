import VelaProtocol.Bytes

/-! Settling a usage report writes one byte. Its place is added up by hand; here it is the place
the serialiser puts the flag, whatever the fields before it hold. -/
namespace VelaProtocol

open Codec Guard

def beforeSettled (r : UsageReport) : List UInt8 :=
  Layout.UsageReport.discriminator ++
    (Layout.pubkey.pair <| Layout.pubkey.pair <| Codec.i64.pair <| Codec.i64.pair <|
      ((Layout.bytes 32).vector maxUsageComputationCiphertexts).pair <| Codec.byte.pair <|
      (Layout.bytes 16).pair (Layout.bytes 32)).encode
      ⟨r.mandate, r.merchant, r.periodStart, r.periodEnd, r.computationCiphertext,
        r.ciphertextCount, r.nonce, r.pubKey⟩

def afterSettled (r : UsageReport) : List UInt8 :=
  (Codec.i64.pair Codec.byte).encode ⟨r.createdAt, r.bump⟩

theorem length_beforeSettled (r : UsageReport) :
    (beforeSettled r).length = Raw.settledOffset := by
  rw [beforeSettled, List.length_append, length_encode]
  rfl

theorem usageReport_split (r : UsageReport) : Layout.usageReportAccount.encode r =
    beforeSettled r ++ (if r.settled then 1 else 0) :: afterSettled r := by
  simp only [Layout.usageReportAccount, Layout.usageReport, Codec.tagged, Codec.iso, Codec.refine,
    Codec.pair, beforeSettled, afterSettled, List.append_assoc]
  rfl

theorem set_behind {front rest : List UInt8} {b : UInt8} {n : Nat} (length : front.length = n)
    (value : UInt8) : (front ++ b :: rest).set n value = front ++ value :: rest := by
  rw [← length, List.set_append_right _ _ (le_refl _), Nat.sub_self, List.set_cons_zero]

theorem set_settled (r : UsageReport) (padding : List UInt8) :
    (Layout.usageReportAccount.encode r ++ padding).set Raw.settledOffset 1 =
      Layout.usageReportAccount.encode { r with settled := true } ++ padding := by
  rw [usageReport_split, List.append_assoc, List.cons_append, set_behind (length_beforeSettled r),
    usageReport_split, List.append_assoc]
  rfl

theorem markUsageReportSettled_eq_ok {info info' : AccountInfo} :
    Raw.markUsageReportSettled info = .ok info' ↔ Raw.settledOffset < info.data.length ∧
      { info with data := info.data.set Raw.settledOffset 1 } = info' := by
  rw [Raw.markUsageReportSettled, require_bind_eq_ok, pure_eq_ok]

theorem validateUsageReport_long {P : Platform} {info : AccountInfo} {mandate merchant : Pubkey}
    {periodStart periodEnd : Int64} {u : Unit}
    (h : Raw.validateUsageReportForSettlement P info mandate merchant periodStart periodEnd =
      .ok u) : Raw.usageReportSize ≤ info.data.length := by
  simp only [Raw.validateUsageReportForSettlement, orVela, check, require_bind_eq_ok,
    orError_bind_eq_ok] at h
  obtain ⟨_, _, report, decodes, _⟩ := h
  obtain ⟨x, decoded, _⟩ := Option.map_eq_some_iff.mp decodes
  rw [encode_decode decoded, List.length_append, length_encode x.1]
  exact Nat.le_add_right _ _

structure SettlesReport (info : AccountInfo) (report : UsageReport) (padding : List UInt8) :
    Prop where
  place : info.data[Raw.settledOffset]? = some (if report.settled then 1 else 0)
  marks : ∃ info', Raw.markUsageReportSettled info = .ok info' ∧
    info'.data = Layout.usageReportAccount.encode { report with settled := true } ++ padding ∧
    Layout.usageReportAccount.read info'.data = some { report with settled := true } ∧
    (∀ i, i ≠ Raw.settledOffset → info'.data[i]? = info.data[i]?) ∧
    info'.key = info.key ∧ info'.owner = info.owner

theorem report_settles {info : AccountInfo} {report : UsageReport} {padding : List UInt8}
    (stored : info.data = Layout.usageReportAccount.encode report ++ padding) :
    SettlesReport info report padding := by
  have split : info.data =
      beforeSettled report ++ (if report.settled then 1 else 0) ::
        (afterSettled report ++ padding) := by
    rw [stored, usageReport_split, List.append_assoc, List.cons_append]
  have inside : Raw.settledOffset < info.data.length := by
    rw [split, List.length_append, length_beforeSettled, List.length_cons]
    omega
  have settled := set_settled report padding
  constructor
  · rw [split, ← length_beforeSettled report, List.getElem?_append_right (le_refl _), Nat.sub_self,
      List.getElem?_cons_zero]
  · refine ⟨_, markUsageReportSettled_eq_ok.mpr ⟨inside, rfl⟩, ?_, ?_, ?_, rfl, rfl⟩
    · rw [stored]
      exact settled
    · rw [stored, settled]
      exact Holds.read ⟨padding, rfl⟩
    · intro i other
      exact List.getElem?_set_ne (Ne.symm other)

/-- Settling flips the flag of a report and no other byte; where the flag would lie outside the
account nothing is written, and a part of a report never gets that far. -/
theorem settling_flips_flag (info : AccountInfo) :
    (∀ report padding, info.data = Layout.usageReportAccount.encode report ++ padding →
      SettlesReport info report padding) ∧
    ((∃ e, Raw.markUsageReportSettled info = .error e) ↔
      info.data.length ≤ Raw.settledOffset) ∧
    (info.data.length < Raw.usageReportSize → ∀ P mandate merchant periodStart periodEnd u,
      Raw.validateUsageReportForSettlement P info mandate merchant periodStart periodEnd ≠
        .ok u) := by
  refine ⟨fun report padding => report_settles, ?_, ?_⟩
  · cases outcome : Raw.markUsageReportSettled info with
    | error e =>
      refine ⟨fun _ => ?_, fun _ => ⟨e, rfl⟩⟩
      by_contra long
      have marked := markUsageReportSettled_eq_ok.mpr ⟨Nat.lt_of_not_le long, rfl⟩
      rw [outcome] at marked
      cases marked
    | ok info' =>
      have long := (markUsageReportSettled_eq_ok.mp outcome).1
      exact ⟨nofun, fun short => absurd long (Nat.not_lt_of_le short)⟩
  · intro short P mandate merchant periodStart periodEnd u accepted
    exact absurd (validateUsageReport_long accepted) (Nat.not_le_of_lt short)

end VelaProtocol
