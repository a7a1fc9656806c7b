import Mathlib.Data.List.Nodup
import VelaProtocol.Deployment
import VelaProtocol.Requests

/-! Computations in flight: which output a callback can let in, and whether a request that is never
answered can be made again. -/
namespace VelaProtocol

open Monitored

def ArciumRequestState.key (request : ArciumRequestState) : RequestKey :=
  (request.flow, request.mandate, request.subject)

def ArciumRequestState.input (request : ArciumRequestState) : OffsetInput :=
  ⟨request.key, request.requestNonce⟩

/-- The seeds of every mandate address so far and the requests started and answered, newest
first, each as it was stored when it was started or found when it was answered. -/
structure RequestHistory where
  opened : List Seeds
  starts : List ArciumRequestState
  answered : List ArciumRequestState

def RequestHistory.latest (g : RequestHistory) (key : RequestKey) : Option ArciumRequestState :=
  g.starts.find? fun request => request.key = key

def watchRequests : Observe World Action RequestHistory := fun g w a w' =>
  { opened := (a.opens.map fun x => w.nextMandateSeeds x.1 x.2).toList ++ g.opened
    starts := (a.starts.bind fun x => w'.requestState x.1).toList ++ g.starts
    answered := ((a.answers w).bind fun x => w.requestState x.1).toList ++ g.answered }

abbrev RequestRun (P : Platform) : World × RequestHistory → World × RequestHistory → Prop :=
  Run (Step P) watchRequests Any

/-- No two of these requests derive one offset from different inputs. -/
def OffsetsDiffer (P : Platform) (starts : List ArciumRequestState) : Prop :=
  ∀ x ∈ starts, ∀ y ∈ starts, x.input.offset P = y.input.offset P → x.input = y.input

/-- No two offsets of these requests share a computation account, on whichever clusters. -/
def ComputationsDiffer (P : Platform) (starts : List ArciumRequestState) : Prop :=
  ∀ x ∈ starts, ∀ y ∈ starts, ∀ cluster cluster', deriveComputationPubkey P cluster
    x.computationOffset = deriveComputationPubkey P cluster' y.computationOffset →
      x.computationOffset = y.computationOffset

structure Numbered (P : Platform) (w : World) (opened : List Seeds) : Prop where
  held : ∀ k mandate, w.currentMandate k = some mandate →
    ∃ seeds ∈ opened, (P.findProgramAddress seeds).1 = k
  below : ∀ subscriber merchant index, .mandate subscriber merchant index ∈ opened →
    index.toNat < w.mandateCounter merchant

structure Tracked (P : Platform) (w : World) (g : RequestHistory) : Prop where
  numbered : Numbered P w g.opened
  /-- what a request account holds -/
  current : ∀ key request, w.requestState key = some request →
    ∃ started, g.latest key = some started ∧
      (request = started ∧ started ∉ g.answered ∨ request.status = .completed)
  shape : ∀ started ∈ g.starts, started.computationOffset = started.input.offset P
  place : ∀ started ∈ g.starts, ∃ seeds ∈ g.opened, (P.findProgramAddress seeds).1 = started.mandate
  counted : ∀ started ∈ g.starts, ∀ mandate, w.currentMandate started.mandate = some mandate →
    started.requestNonce.toNat ≤ (mandate.requestNonce started.flow).toNat
  inputs : (g.starts.map ArciumRequestState.input).Nodup
  matched : ∀ request ∈ g.answered, request ∈ g.starts
  once : g.answered.Nodup

variable {P : Platform} {w w' : World} {g : RequestHistory} {a : Action}

theorem RequestHistory.latest_mem {key : RequestKey} {request : ArciumRequestState}
    (latest : g.latest key = some request) : request ∈ g.starts ∧ request.key = key :=
  ⟨List.mem_of_find?_eq_some latest, by simpa using List.find?_some latest⟩

theorem next_unused {subscriber merchant : Pubkey} {seeds : Seeds}
    (numbered : Numbered P w g.opened) (bounded : w.mandateCounter merchant < 2 ^ 64)
    (differ : AddressesDiffer P (w.nextMandateSeeds subscriber merchant :: g.opened))
    (used : seeds ∈ g.opened) : (P.findProgramAddress seeds).1 ≠
      (P.findProgramAddress (w.nextMandateSeeds subscriber merchant)).1 := by
  intro same
  have equal := differ _ (List.mem_cons_of_mem _ used) _ List.mem_cons_self same
  rw [equal] at used
  have below := numbered.below _ _ _ used
  rw [UInt64.toNat_ofNat_of_lt' bounded] at below
  exact absurd below (lt_irrefl _)

theorem Numbered.step (numbered : Numbered P w g.opened) (step : Step P w a w') :
    Numbered P w' (watchRequests g w a w').opened := by
  have counter := (settingStep step).counter
  refine ⟨fun k mandate present => ?_, fun subscriber merchant index used => ?_⟩
  · cases counted_of_step step present with
    | on before found counters =>
      obtain ⟨seeds, used, address⟩ := numbered.held k before found
      exact ⟨seeds, List.mem_append_right _ used, address⟩
    | fresh vacant subscriber merchant opens address =>
      refine ⟨_, List.mem_append_left _ ?_, address.address.symm⟩
      simp only [opens, Option.map_some, Option.toList_some, List.mem_singleton]
  · rcases List.mem_append.mp used with new | old
    · cases opens : a.opens with
      | none => simp [opens] at new
      | some x =>
        obtain ⟨key, address⟩ := opens_step step opens
        simp only [opens, Option.map_some, Option.toList_some, List.mem_singleton,
          World.nextMandateSeeds, Seeds.mandate.injEq] at new
        obtain ⟨_, rfl, rfl⟩ := new
        rw [UInt64.toNat_ofNat_of_lt' address.bounded, address.counted]
        exact Nat.lt_succ_self _
    · exact lt_of_lt_of_le (numbered.below _ _ _ old) (counter merchant)

theorem Tracked.counters {k : Pubkey} {after : VelaMandate} (tracked : Tracked P w g)
    (step : Step P w a w') (differ : AddressesDiffer P (watchRequests g w a w').opened)
    (started : ∃ seeds ∈ g.opened, (P.findProgramAddress seeds).1 = k)
    (present : w'.currentMandate k = some after) :
    ∃ before, w.currentMandate k = some before ∧ before.CountsOn after := by
  cases counted_of_step step present with
  | on before found counters => exact ⟨before, found, counters⟩
  | fresh vacant subscriber merchant opens address =>
    obtain ⟨seeds, used, held⟩ := started
    simp only [watchRequests, opens, Option.map_some, Option.toList_some, List.singleton_append]
      at differ
    exact absurd (held.trans address.address)
      (next_unused tracked.numbered address.bounded differ used)

structure Behind (P : Platform) (w : World) (opened : List Seeds) (started : ArciumRequestState) :
    Prop where
  place : ∃ seeds ∈ opened, (P.findProgramAddress seeds).1 = started.mandate
  counted : ∀ mandate, w.currentMandate started.mandate = some mandate →
    started.requestNonce.toNat ≤ (mandate.requestNonce started.flow).toNat

theorem Tracked.behind (tracked : Tracked P w g) (step : Step P w a w')
    (differ : AddressesDiffer P (watchRequests g w a w').opened) {started : ArciumRequestState}
    (old : started ∈ g.starts) : Behind P w' (watchRequests g w a w').opened started := by
  have place := tracked.place started old
  refine ⟨?_, fun mandate present => ?_⟩
  · obtain ⟨seeds, used, address⟩ := place
    exact ⟨seeds, List.mem_append_right _ used, address⟩
  · obtain ⟨before, found, counters⟩ := tracked.counters step differ place present
    exact (tracked.counted started old before found).trans (counters started.flow)

theorem tracked_kept (tracked : Tracked P w g) (step : Step P w a w')
    (differ : AddressesDiffer P (watchRequests g w a w').opened)
    (starts : a.starts = none) (answers : a.answers w = none)
    (same : w'.requestState = w.requestState) : Tracked P w' (watchRequests g w a w') := by
  have starts_eq : (watchRequests g w a w').starts = g.starts := by simp [watchRequests, starts]
  have answered_eq : (watchRequests g w a w').answered = g.answered := by
    simp [watchRequests, answers]
  refine ⟨tracked.numbered.step step, ?_, ?_, ?_, ?_, ?_, ?_, ?_⟩
  · rw [same, answered_eq]
    simpa only [RequestHistory.latest, starts_eq] using tracked.current
  · exact starts_eq ▸ tracked.shape
  · exact fun started old => (tracked.behind step differ (starts_eq ▸ old)).place
  · exact fun started old => (tracked.behind step differ (starts_eq ▸ old)).counted
  · exact starts_eq ▸ tracked.inputs
  · rw [answered_eq, starts_eq]
    exact tracked.matched
  · exact answered_eq ▸ tracked.once

theorem tracked_started {x : OffsetInput} {accounts : QueueAccounts} {before after : VelaMandate}
    (tracked : Tracked P w g) (step : Step P w a w')
    (differ : AddressesDiffer P (watchRequests g w a w').opened)
    (starts : a.starts = some (x.key, accounts)) (answers : a.answers w = none)
    (spec : Started P w x accounts w' before after) : Tracked P w' (watchRequests g w a w') := by
  have stored : w'.requestState x.key = some (pendingRequest P w.clock.unixTimestamp x) := by
    rw [spec.stored, Function.update_self]
  generalize new_eq : pendingRequest P w.clock.unixTimestamp x = new at stored
  have key : new.key = x.key := by rw [← new_eq]; rfl
  have input : new.input = x := by rw [← new_eq]; rfl
  have starts_eq : (watchRequests g w a w').starts = new :: g.starts := by
    simp [watchRequests, starts, stored]
  have answered_eq : (watchRequests g w a w').answered = g.answered := by
    simp [watchRequests, answers]
  have unseen : new.input ∉ g.starts.map ArciumRequestState.input := by
    intro seen
    obtain ⟨old, member, same⟩ := List.mem_map.mp seen
    have place : old.key = x.key ∧ old.requestNonce = x.nonce := by
      rw [input] at same
      exact ⟨congrArg OffsetInput.key same, congrArg OffsetInput.nonce same⟩
    have mandate : old.mandate = x.key.2.1 := by rw [← place.1]; rfl
    have flow : old.flow = x.key.1 := by rw [← place.1]; rfl
    have counted := tracked.counted old member before (mandate ▸ spec.found)
    rw [flow, place.2] at counted
    exact absurd spec.later (not_lt.mpr counted)
  refine ⟨tracked.numbered.step step, ?_, ?_, ?_, ?_, ?_, ?_, ?_⟩
  · intro k request found
    rw [answered_eq]
    by_cases same : k = x.key
    · rw [same, stored, Option.some.injEq] at found
      refine ⟨new, ?_, .inl ⟨found.symm, fun answered => unseen ?_⟩⟩
      · rw [RequestHistory.latest, starts_eq, List.find?_cons_of_pos]
        simp [key, same]
      · exact List.mem_map_of_mem (tracked.matched new answered)
    · rw [spec.stored, Function.update_of_ne same] at found
      obtain ⟨started, latest, holds⟩ := tracked.current k request found
      refine ⟨started, ?_, holds⟩
      rw [RequestHistory.latest, starts_eq, List.find?_cons_of_neg]
      · exact latest
      · simpa [key] using Ne.symm same
  · rw [starts_eq]
    refine List.forall_mem_cons.mpr ⟨?_, tracked.shape⟩
    rw [input, ← new_eq]
    rfl
  · rw [starts_eq]
    refine List.forall_mem_cons.mpr ⟨?_, fun old member =>
      (tracked.behind step differ member).place⟩
    obtain ⟨seeds, used, address⟩ := tracked.numbered.held _ before spec.found
    refine ⟨seeds, List.mem_append_right _ used, address.trans ?_⟩
    rw [← new_eq]
    rfl
  · rw [starts_eq]
    refine List.forall_mem_cons.mpr
      ⟨fun mandate present => ?_, fun old member => (tracked.behind step differ member).counted⟩
    rw [← new_eq] at present ⊢
    obtain rfl := Option.some.inj (spec.written.symm.trans present)
    exact (congrArg UInt64.toNat spec.nonce).le
  · rw [starts_eq]
    exact List.nodup_cons.mpr ⟨unseen, tracked.inputs⟩
  · rw [answered_eq, starts_eq]
    exact fun request answered => List.mem_cons_of_mem _ (tracked.matched request answered)
  · exact answered_eq ▸ tracked.once

theorem tracked_answered {key : RequestKey} {accounts : CallbackAccounts}
    {request : ArciumRequestState} (tracked : Tracked P w g) (step : Step P w a w')
    (differ : AddressesDiffer P (watchRequests g w a w').opened)
    (starts : a.starts = none) (answers : a.answers w = some (key, accounts))
    (spec : Answered P w key accounts w' request) : Tracked P w' (watchRequests g w a w') := by
  have starts_eq : (watchRequests g w a w').starts = g.starts := by simp [watchRequests, starts]
  have answered_eq : (watchRequests g w a w').answered = request :: g.answered := by
    simp [watchRequests, answers, spec.pending]
  obtain ⟨started, latest, ⟨rfl, unanswered⟩ | completed⟩ :=
    tracked.current key request spec.pending
  · have own := RequestHistory.latest_mem latest
    obtain ⟨_, stored⟩ := spec.stored
    refine ⟨tracked.numbered.step step, ?_, ?_, ?_, ?_, ?_, ?_, ?_⟩
    · intro k current found
      simp only [RequestHistory.latest, starts_eq, answered_eq]
      by_cases same : k = key
      · rw [same, stored, Function.update_self, Option.some.injEq] at found
        exact ⟨request, same ▸ latest, .inr (found ▸ rfl)⟩
      · rw [stored, Function.update_of_ne same] at found
        obtain ⟨other, latest, holds⟩ := tracked.current k current found
        refine ⟨other, latest, holds.imp_left fun holds => ⟨holds.1, ?_⟩⟩
        rw [List.mem_cons, not_or]
        refine ⟨fun equal => same ?_, holds.2⟩
        rw [← (RequestHistory.latest_mem latest).2, equal, own.2]
    · exact starts_eq ▸ tracked.shape
    · exact fun started old => (tracked.behind step differ (starts_eq ▸ old)).place
    · exact fun started old => (tracked.behind step differ (starts_eq ▸ old)).counted
    · exact starts_eq ▸ tracked.inputs
    · rw [answered_eq, starts_eq]
      exact List.forall_mem_cons.mpr ⟨own.1, tracked.matched⟩
    · rw [answered_eq]
      exact List.nodup_cons.mpr ⟨unanswered, tracked.once⟩
  · rw [spec.status] at completed
    cases completed

theorem tracked_step (tracked : Tracked P w g) (step : Step P w a w')
    (differ : AddressesDiffer P (watchRequests g w a w').opened) :
    Tracked P w' (watchRequests g w a w') := by
  have classified := requestStep step
  generalize starts : a.starts = started at classified
  generalize answers : a.answers w = answered at classified
  cases classified with
  | kept same => exact tracked_kept tracked step differ starts answers same
  | started x accounts before after spec =>
    exact tracked_started tracked step differ starts answers spec
  | answered key accounts request spec =>
    exact tracked_answered tracked step differ starts answers spec

theorem tracked_run {w₀ : World} {opened : List Seeds}
    (requests : ∀ key, w₀.requestState key = none) (numbered : Numbered P w₀ opened)
    (run : RequestRun P (w₀, ⟨opened, [], []⟩) (w, g)) (differ : AddressesDiffer P g.opened) :
    Tracked P w g := by
  refine run.invariant (fun w g => AddressesDiffer P g.opened → Tracked P w g) (fun _ => ?_) ?_
    differ
  · exact ⟨numbered, fun key request found => absurd (found.symm.trans (requests key)) nofun, nofun,
      nofun, nofun, .nil, nofun, .nil⟩
  · intro w g a w' tracked step _ differ
    have before : AddressesDiffer P g.opened := fun x used y used' =>
      differ x (List.mem_append_right _ used) y (List.mem_append_right _ used')
    exact tracked_step (tracked before) step differ

/-- What a history says about every callback that succeeds now. -/
structure SingleFlight (P : Platform) (w : World) (g : RequestHistory) : Prop where
  offsets : (g.starts.map ArciumRequestState.computationOffset).Nodup
  matched : ∀ request ∈ g.answered, request ∈ g.starts
  once : g.answered.Nodup
  /-- it answers the latest start of its flow, mandate and subject, under that offset -/
  bound : ∀ a w' key accounts, Step P w a w' → a.answers w = some (key, accounts) →
    ∃ started clusterId, g.latest key = some started ∧ w.requestState key = some started ∧
      started.status = .pending ∧ started ∉ g.answered ∧
      accounts.computationAccount = deriveComputationPubkey P clusterId started.computationOffset
  /-- so an output queued for any other start is refused -/
  noReplay : ∀ a w' key accounts started clusterId, Step P w a w' →
    a.answers w = some (key, accounts) → started ∈ g.starts →
    accounts.computationAccount = deriveComputationPubkey P clusterId started.computationOffset →
      g.latest key = some started ∧ started ∉ g.answered

theorem Tracked.offsets (tracked : Tracked P w g) (differ : OffsetsDiffer P g.starts) :
    (g.starts.map ArciumRequestState.computationOffset).Nodup := by
  refine List.Nodup.map_on (fun x started y started' same => ?_) tracked.inputs.of_map
  rw [tracked.shape x started, tracked.shape y started'] at same
  exact List.inj_on_of_nodup_map tracked.inputs started started' (differ x started y started' same)

theorem Tracked.answer {key : RequestKey} {accounts : CallbackAccounts} (tracked : Tracked P w g)
    (step : Step P w a w') (answers : a.answers w = some (key, accounts)) :
    ∃ started clusterId, g.latest key = some started ∧ w.requestState key = some started ∧
      started.status = .pending ∧ started ∉ g.answered ∧ accounts.computationAccount =
        deriveComputationPubkey P clusterId started.computationOffset := by
  have classified := requestStep step
  rw [answers] at classified
  generalize a.starts = starts at classified
  cases classified with
  | answered _ _ request spec =>
    obtain ⟨started, latest, ⟨rfl, unanswered⟩ | completed⟩ :=
      tracked.current key request spec.pending
    · obtain ⟨clusterId, account⟩ := spec.computation
      exact ⟨request, clusterId, latest, spec.pending, spec.status, unanswered, account⟩
    · rw [spec.status] at completed
      cases completed

/-- Along every run from a deployment without requests: no offset is stored twice, a start is
answered at most once, and only under its own computation, while it is the latest of its key. -/
theorem requests_single_flight {w₀ : World} {opened : List Seeds}
    (requests : ∀ key, w₀.requestState key = none) (numbered : Numbered P w₀ opened)
    (run : RequestRun P (w₀, ⟨opened, [], []⟩) (w, g)) (addresses : AddressesDiffer P g.opened)
    (offsets : OffsetsDiffer P g.starts) (computations : ComputationsDiffer P g.starts) :
    SingleFlight P w g := by
  have tracked := tracked_run requests numbered run addresses
  refine ⟨tracked.offsets offsets, tracked.matched, tracked.once,
    fun a w' key accounts step answers => tracked.answer step answers, ?_⟩
  intro a w' key accounts started clusterId step answers member account
  obtain ⟨latest, cluster, first, _, _, unanswered, own⟩ := tracked.answer step answers
  have same := computations started member latest (RequestHistory.latest_mem first).1 clusterId
    cluster (account.symm.trans own)
  have equal := List.inj_on_of_nodup_map (tracked.offsets offsets) member
    (RequestHistory.latest_mem first).1 same
  rw [equal]
  exact ⟨first, unanswered⟩

open Deployment

def secondRequest : List Action :=
  [offerFlat 0 100 3600 0 10 mintA, .instruction (.subscribe (subscription (flatPlan 0) mintA)),
    tick 3600, requestFlat (flatPlan 0) 3600 1, answerFlat 3600 1 false,
    requestFlat (flatPlan 0) 3600 2]

theorem computation_low {cluster cluster' : UInt32} {offset offset' : UInt64}
    (same : deriveComputationPubkey platform cluster offset =
      deriveComputationPubkey platform cluster' offset') :
    offset.toNat % 1048576 = offset'.toNat % 1048576 := by
  have bits := congrArg BitVec.toNat same
  simp only [deriveComputationPubkey, platform, findProgramAddress, derived, List.foldl_cons,
    List.foldl_nil, BitVec.toNat_ofNat] at bits
  omega

instance (P : Platform) (opened : List Seeds) : Decidable (AddressesDiffer P opened) :=
  inferInstanceAs (Decidable (∀ x ∈ opened, ∀ y ∈ opened, _ = _ → x = y))

instance (P : Platform) (starts : List ArciumRequestState) : Decidable (OffsetsDiffer P starts) :=
  inferInstanceAs (Decidable (∀ x ∈ starts, ∀ y ∈ starts, _ = _ → _ = _))

theorem second_request_single_flight : ∃ w g, SingleFlight platform w g ∧ g.starts.length = 2 ∧
    g.answered.length = 1 := by
  have played : (play (applyAction platform) watchRequests Any (world 0, ⟨[], [], []⟩)
      secondRequest).any (fun x => AddressesDiffer platform x.2.opened ∧
        OffsetsDiffer platform x.2.starts ∧ (∀ r ∈ x.2.starts, ∀ s ∈ x.2.starts,
          r.computationOffset.toNat % 1048576 = s.computationOffset.toNat % 1048576 →
            r.computationOffset = s.computationOffset) ∧
        x.2.starts.length = 2 ∧ x.2.answered.length = 1) = true := by
    decide +kernel
  rw [Option.any_eq_true] at played
  obtain ⟨⟨w, g⟩, played, ok⟩ := played
  obtain ⟨addresses, offsets, low, starts, answered⟩ := of_decide_eq_true ok
  have numbered : Numbered platform (world 0) [] := by
    refine ⟨fun k mandate found => ?_, fun _ _ _ used => absurd used List.not_mem_nil⟩
    cases found
  refine ⟨w, g, requests_single_flight (fun _ => rfl) numbered
    (play_run (fun _ _ _ => applyAction_step) played) addresses offsets ?_, starts, answered⟩
  exact fun r started s started' _ _ same => low r started s started' (computation_low same)

/-- Steps among which no callback for this request is accepted. -/
abbrev UnansweredRun (P : Platform) (key : RequestKey) : World → World → Prop :=
  Relation.ReflTransGen fun w w' => ∃ a, Step P w a w' ∧ ∀ x ∈ a.answers w, x.1 ≠ key

theorem pending_stays {key : RequestKey} {request : ArciumRequestState}
    (pending : request.status = .pending) (dated : request.createdAt ≠ 0)
    (found : w.requestState key = some request) (run : UnansweredRun P key w w') :
    w'.requestState key = some request := by
  induction run with
  | refl => exact found
  | tail _ last stays =>
    obtain ⟨a, step, unanswered⟩ := last
    have classified := requestStep step
    generalize a.starts = starts at classified
    generalize a.answers _ = answers at classified unanswered
    cases classified with
    | kept same => exact same ▸ stays
    | started x accounts before after spec =>
      rw [spec.stored, Function.update_of_ne]
      · exact stays
      · rintro rfl
        refine spec.free ?_
        rw [World.requestOrZeroed, stays]
        exact ⟨dated, pending⟩
    | answered other accounts _ spec =>
      obtain ⟨_, stored⟩ := spec.stored
      rw [stored, Function.update_of_ne (unanswered _ rfl).symm]
      exact stays

theorem starts_free {key : RequestKey} {accounts : QueueAccounts} (step : Step P w a w')
    (starts : a.starts = some (key, accounts)) : w.requestFree key := by
  have classified := requestStep step
  rw [starts] at classified
  generalize a.answers w = answers at classified
  cases classified with
  | started x accounts before after spec => exact spec.free

theorem pending_not_free {key : RequestKey} {request : ArciumRequestState}
    (pending : request.status = .pending) (found : w.requestState key = some request) :
    w.requestFree key ↔ request.createdAt = 0 := by
  simp only [World.requestFree, World.requestOrZeroed, found, Option.getD_some, pending, and_true,
    not_not]

/-- The account of a pending request opens again without an accepted callback exactly when the
request was started at time zero, and otherwise no request for its subject is accepted any more. -/
theorem pending_request_reopens_iff {key : RequestKey} {request : ArciumRequestState}
    (found : w.requestState key = some request) (pending : request.status = .pending) :
    ((∃ w₁, UnansweredRun P key w w₁ ∧ w₁.requestFree key) ↔ request.createdAt = 0) ∧
      (request.createdAt ≠ 0 → ∀ w₁ w₂ a accounts, UnansweredRun P key w w₁ →
        Step P w₁ a w₂ → a.starts ≠ some (key, accounts)) := by
  refine ⟨⟨?_, fun undated => ⟨w, .refl, (pending_not_free pending found).mpr undated⟩⟩, ?_⟩
  · rintro ⟨w₁, run, free⟩
    by_contra dated
    exact dated ((pending_not_free pending (pending_stays pending dated found run)).mp free)
  · intro dated w₁ w₂ a accounts run step starts
    exact dated ((pending_not_free pending (pending_stays pending dated found run)).mp
      (starts_free step starts))

def firstValidation : RequestKey := (.validation, Deployment.mandate, Int64.toBitVec 3600)

def unansweredRequest : List Action :=
  [offerFlat 0 100 3600 0 10 mintA, .instruction (.subscribe (subscription (flatPlan 0) mintA)),
    tick 3600, requestFlat (flatPlan 0) 3600 1]

theorem unanswered_request : ∃ w request, Reachable platform w ∧
    w.requestState firstValidation = some request ∧ request.status = .pending ∧
      request.createdAt = 3600 := by
  have played : (runScript (world 0) unansweredRequest).any (fun w =>
      (w.requestState firstValidation).any fun request =>
        request.status = .pending ∧ request.createdAt = 3600) = true := by
    decide +kernel
  simp only [Option.any_eq_true] at played
  obtain ⟨w, ran, request, found, ok⟩ := played
  obtain ⟨pending, created⟩ := of_decide_eq_true ok
  exact ⟨w, request, runScript_reachable ⟨_, world_fresh 0, .refl⟩ ran, found, pending, created⟩

theorem unanswered_request_stuck : ∃ w, Reachable platform w ∧
    ¬∃ w₁, UnansweredRun platform firstValidation w w₁ ∧ w₁.requestFree firstValidation := by
  obtain ⟨w, request, reachable, found, pending, created⟩ := unanswered_request
  refine ⟨w, reachable, fun reopens => ?_⟩
  have zero := (pending_request_reopens_iff found pending).1.mp reopens
  rw [created] at zero
  cases zero

/-- A validation that is never answered can never be asked for again. -/
theorem unanswered_request_never_retried : ¬∀ (P : Platform) (w : World) (key : RequestKey)
    (request : ArciumRequestState), Reachable P w → w.requestState key = some request →
      request.status = .pending → ∃ w₁ w₂ a accounts, UnansweredRun P key w w₁ ∧
        Step P w₁ a w₂ ∧ a.starts = some (key, accounts) := by
  intro retried
  obtain ⟨w, request, reachable, found, pending, created⟩ := unanswered_request
  obtain ⟨w₁, w₂, a, accounts, run, step, starts⟩ :=
    retried platform w firstValidation request reachable found pending
  have dated : request.createdAt ≠ 0 := by
    rw [created]
    decide
  exact absurd (starts_free step starts)
    (mt (pending_not_free pending (pending_stays pending dated found run)).mp dated)

end VelaProtocol
