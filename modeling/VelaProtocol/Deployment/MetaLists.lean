import VelaProtocol.Accounts.Records
import VelaProtocol.Deployment.Hook
import VelaProtocol.MetaLists

/-! The resolution library on bytes: a list is one entry behind the tag of the execute instruction,
an account 35 bytes of it. -/
namespace VelaProtocol.Deployment

/-- A key (0), or packed seeds and which account derives from them (128 and up). -/
structure PodEntry where
  discriminator : UInt8
  addressConfig : Bytes 32
  isSigner : Bool
  isWritable : Bool
  deriving DecidableEq

def podEntry : Codec PodEntry :=
  (Codec.byte.pair <| Layout.pubkey.pair <| Codec.bool.pair Codec.bool).iso
    (fun ⟨discriminator, addressConfig, isSigner, isWritable⟩ =>
      ⟨discriminator, addressConfig, isSigner, isWritable⟩)
    (fun e => ⟨e.discriminator, e.addressConfig, e.isSigner, e.isWritable⟩)
    fun _ => rfl

instance : Codec.Sized podEntry 35 := .iso

def executeDiscriminator : List UInt8 := [105, 37, 101, 197, 75, 251, 102, 26]

def podList : Codec (UInt32 × {xs : List PodEntry // xs.length < 2 ^ 32}) :=
  (Codec.u32.pair podEntry.counted).tagged executeDiscriminator

def podSize (count : Nat) : Nat := 16 + 35 * count

def packSeed : Seed → List UInt8
  | .literal bytes => 1 :: UInt8.ofNat bytes.length :: bytes
  | .accountKey index => [3, index]

def packSeeds (seeds : List Seed) : Option (Bytes 32) :=
  let packed := seeds.flatMap packSeed
  if packed.length ≤ 32 then
    Layout.pubkey.read (packed ++ List.replicate (32 - packed.length) 0)
  else none

def unpackSeeds : Nat → List UInt8 → Option (List Seed)
  | 0, _ => some []
  | _ + 1, [] => some []
  | n + 1, tag :: rest =>
    if tag = 0 then some []
    else match rest with
      | [] => none
      | next :: rest =>
        if tag = 1 then
          if rest.length < next.toNat then none
          else (unpackSeeds n (rest.drop next.toNat)).map
            (Seed.literal (rest.take next.toNat) :: ·)
        else if tag = 3 then (unpackSeeds n rest).map (Seed.accountKey next :: ·)
        else none

def podSeeds (config : Bytes 32) : Option (List Seed) :=
  unpackSeeds 32 (Layout.pubkey.encode config)

def derive (_program : Pubkey) : List (List UInt8) → Pubkey
  | [seed, key] =>
    let key := (Layout.pubkey.read key).getD 0
    if seed = approvalSeed then (findProgramAddress (.approval key)).1
    else if seed = tokenConfigSeed then hookPlatform.tokenConfigAddress key
    else 0
  | _ => 0

def resolvePod (entry : PodEntry) (accounts : List Pubkey) : Option AccountMeta :=
  if entry.discriminator = 0 then some ⟨entry.addressConfig, entry.isSigner, entry.isWritable⟩
  else if entry.discriminator < 128 then none
  else do
    let program ← accounts[(entry.discriminator - 128).toNat]?
    let seeds ← podSeeds entry.addressConfig
    let bytes ← seeds.mapM (Seed.value accounts)
    return ⟨derive program bytes, entry.isSigner, entry.isWritable⟩

def externalPda (index : UInt8) (seeds : List Seed) (isSigner isWritable : Bool) :
    Option PodEntry :=
  if index < 128 then
    (packSeeds seeds).bind fun config =>
      if podSeeds config = some seeds then some ⟨128 + index, config, isSigner, isWritable⟩
      else none
  else none

def initList (bytes : List UInt8) (entries : List PodEntry) : Option (List UInt8) :=
  if h : entries.length < 2 ^ 32 then
    if podSize entries.length ≤ bytes.length ∧ bytes.all (· = 0) = true then
      some (podList.encode (UInt32.ofNat (4 + 35 * entries.length), ⟨entries, h⟩) ++
        bytes.drop (podSize entries.length))
    else none
  else none

def lowerRights (base : List AccountMeta) (a : AccountMeta) : AccountMeta :=
  let same := base.filter fun b => b.pubkey = a.pubkey
  if same = [] then a
  else ⟨a.pubkey, a.isSigner && same.any AccountMeta.isSigner,
    a.isWritable && same.any AccountMeta.isWritable⟩

/-- The library, but for the loop over a list. -/
def podLibrary : TlvAccountResolution where
  ExtraAccountMeta := PodEntry
  newWithPubkey key isSigner isWritable := some ⟨0, key, isSigner, isWritable⟩
  newExternalPdaWithSeeds := externalPda
  sizeOf count := if podSize count < 2 ^ 32 then some (podSize count) else none
  init := initList
  resolve := resolvePod
  deEscalate := lowerRights
  addToCpiInstruction _ _ := none

def tlvAccountResolution : TlvAccountResolution :=
  { podLibrary with
    addToCpiInstruction := fun data accounts =>
      (podList.read data).bind fun x => podLibrary.addAll accounts x.2.1 accounts }

theorem addAll_podLibrary {base : List AccountMeta} (entries : List PodEntry) : ∀ accounts,
    tlvAccountResolution.addAll base entries accounts =
      podLibrary.addAll base entries accounts := by
  induction entries with
  | nil => exact fun _ => rfl
  | cons entry rest ih =>
    intro accounts
    exact congrArg (Option.bind (resolvePod entry (accounts.map AccountMeta.pubkey)))
      (funext fun next => ih (accounts ++ [lowerRights base next]))

theorem podList_length (n : UInt32) (xs : {xs : List PodEntry // xs.length < 2 ^ 32}) :
    (podList.encode (n, xs)).length = podSize xs.1.length := by
  have counted := Codec.length_counted (c := podEntry) xs
  have word := Codec.length_encode (c := Codec.u32) n
  simp only [podList, Codec.tagged, Codec.pair, List.length_append, counted, word,
    executeDiscriminator, List.length_cons, List.length_nil, podSize]
  omega

theorem initList_read {bytes data : List UInt8} {entries : List PodEntry}
    (written : initList bytes entries = some data) : data.length = bytes.length ∧
      ∃ n short, podList.read data = some (n, ⟨entries, short⟩) := by
  unfold initList at written
  split at written
  · rename_i short
    split at written
    · rename_i room
      obtain rfl := Option.some.inj written
      refine ⟨?_, _, short, Codec.Holds.read ⟨_, rfl⟩⟩
      rw [List.length_append, podList_length, List.length_drop]
      exact Nat.add_sub_of_le room.1
    · cases written
  · cases written

theorem external_index {index : UInt8} (small : index < 128) :
    128 + index ≠ 0 ∧ ¬128 + index < 128 ∧ 128 + index - 128 = index := by
  have bound : index.toNat < 128 := UInt8.lt_iff_toNat_lt.mp small
  have value : (128 + index).toNat = 128 + index.toNat := by
    rw [UInt8.toNat_add]
    change (128 + index.toNat) % 256 = _
    omega
  refine ⟨fun zero => ?_, fun low => ?_, ?_⟩
  · rw [zero] at value
    change 0 = _ at value
    omega
  · have low := UInt8.lt_iff_toNat_lt.mp low
    rw [value] at low
    change _ < 128 at low
    omega
  · rw [UInt8.add_comm, UInt8.add_sub_cancel]

theorem lowerRights_le (base : List AccountMeta) (a : AccountMeta) :
    (lowerRights base a).pubkey = a.pubkey ∧
      ((lowerRights base a).isSigner = true → a.isSigner = true) ∧
      ((lowerRights base a).isWritable = true → a.isWritable = true) := by
  unfold lowerRights
  dsimp only
  split
  · exact ⟨rfl, id, id⟩
  · exact ⟨rfl, fun given => (Bool.and_eq_true_iff.mp given).1,
      fun given => (Bool.and_eq_true_iff.mp given).1⟩

theorem externalPda_resolves {index : UInt8} {seeds : List Seed} {s w : Bool} {entry : PodEntry}
    (made : externalPda index seeds s w = some entry) {accounts : List Pubkey} {program : Pubkey}
    {bytes : List (List UInt8)} (found : accounts[index.toNat]? = some program)
    (values : seeds.mapM (Seed.value accounts) = some bytes) :
    resolvePod entry accounts = some ⟨derive program bytes, s, w⟩ := by
  simp only [externalPda, Option.ite_none_right_eq_some, Option.bind_eq_some_iff,
    Option.some.injEq] at made
  obtain ⟨small, config, _, unpacked, rfl⟩ := made
  obtain ⟨nonzero, high, back⟩ := external_index small
  simp only [resolvePod, if_neg nonzero, if_neg high, back, found, unpacked]
  change (seeds.mapM (Seed.value accounts)).bind _ = _
  rw [values]
  rfl

theorem tlvAccountResolution_lawful : tlvAccountResolution.Lawful derive where
  pubkey key s w entry made accounts := by
    obtain rfl := Option.some.inj made
    rfl
  pda _ _ _ _ _ made _ _ _ found values := externalPda_resolves made found values
  key base a := (lowerRights_le base a).1
  signer base a := (lowerRights_le base a).2.1
  writable base a := (lowerRights_le base a).2.2
  length _ _ _ written := (initList_read written).1
  stored entries size data _ written base := by
    obtain ⟨n, short, read⟩ := (initList_read written).2
    change (podList.read data).bind _ = _
    rw [read]
    exact (addAll_podLibrary entries base).symm

theorem read_encoded (key : Pubkey) :
    (Layout.pubkey.read (Layout.pubkey.encode key)).getD 0 = key := by
  have holds : Layout.pubkey.Holds (Layout.pubkey.encode key) key := ⟨[], by rw [List.append_nil]⟩
  rw [holds.read]
  rfl

def listPlatform : ListPlatform where
  toHookPlatform := hookPlatform
  tlv := tlvAccountResolution
  derive := derive
  lawful := tlvAccountResolution_lawful
  approval_derived owner := by
    rw [derive, read_encoded]
    rfl
  tokenConfig_derived mint := by
    rw [derive, read_encoded]
    rfl

end VelaProtocol.Deployment
