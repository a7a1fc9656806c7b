import Mathlib.Logic.Relation

/-! Journals. A journal stands newest entry first; if every step writes down what it does to a
view of the state, replaying the journal from the first view gives the last one. -/
namespace Replay

universe u v w

variable {σ : Type u} {ε : Type v} {V : Type w}

/-- The view after the entries, the oldest of them applied first. -/
def replay (apply : V → ε → V) (start : V) (entries : List ε) : V :=
  entries.foldr (fun e v => apply v e) start

section Entries

variable (apply : V → ε → V) (start : V)

@[simp] theorem replay_nil : replay apply start [] = start := rfl

@[simp] theorem replay_cons (e : ε) (entries : List ε) :
    replay apply start (e :: entries) = apply (replay apply start entries) e := rfl

theorem replay_append (new old : List ε) :
    replay apply start (new ++ old) = replay apply (replay apply start old) new :=
  List.foldr_append

theorem replay_some (entries : List ε) :
    replay (fun v e => v.map fun known => apply known e) (some start) entries =
      some (replay apply start entries) := by
  induction entries with
  | nil => rfl
  | cons e rest ih => rw [replay_cons, ih, Option.map_some, replay_cons]

end Entries

structure Journal (σ : Type u) (ε : Type v) (V : Type w) where
  entries : σ → List ε
  view : σ → V
  apply : V → ε → V

namespace Journal

variable {J : Journal σ ε V} {s s₁ s' : σ} {start : V}

/-- What was written between two states accounts for what became of the view. -/
def Records (J : Journal σ ε V) (s s' : σ) : Prop :=
  ∃ new, J.entries s' = new ++ J.entries s ∧ J.view s' = replay J.apply (J.view s) new

/-- The whole journal accounts for the view. -/
def Complete (J : Journal σ ε V) (start : V) (s : σ) : Prop :=
  J.view s = replay J.apply start (J.entries s)

theorem Records.quiet (entries : J.entries s' = J.entries s) (view : J.view s' = J.view s) :
    J.Records s s' := ⟨[], entries, view⟩

theorem Records.entry {e : ε} (entries : J.entries s' = e :: J.entries s)
    (view : J.view s' = J.apply (J.view s) e) : J.Records s s' := ⟨[e], entries, view⟩

theorem Records.refl (s : σ) : J.Records s s := .quiet rfl rfl

theorem Records.trans (first : J.Records s s₁) (second : J.Records s₁ s') : J.Records s s' := by
  obtain ⟨old, entries, view⟩ := first
  obtain ⟨new, entries', view'⟩ := second
  refine ⟨new ++ old, ?_, ?_⟩
  · rw [entries', entries, List.append_assoc]
  · rw [view', view, replay_append]

theorem Complete.records (complete : J.Complete start s) (records : J.Records s s') :
    J.Complete start s' := by
  obtain ⟨new, entries, view⟩ := records
  rw [Complete, view, entries, replay_append, ← complete]

section Select

variable {L : Type v} {log : σ → List L} {read : L → Option ε} {view : σ → V} {apply : V → ε → V}

def select (log : σ → List L) (read : L → Option ε) (view : σ → V) (apply : V → ε → V) :
    Journal σ ε V where
  entries s := (log s).filterMap read
  view := view
  apply := apply

theorem Records.told {l : L} {e : ε} (logged : log s' = l :: log s) (reads : read l = some e)
    (tells : view s' = apply (view s) e) : (select log read view apply).Records s s' := by
  refine .entry (e := e) ?_ tells
  change (log s').filterMap read = e :: (log s).filterMap read
  rw [logged, List.filterMap_cons, reads]

theorem Records.untold {new : List L} (logged : log s' = new ++ log s)
    (blind : ∀ l ∈ new, read l = none) (same : view s' = view s) :
    (select log read view apply).Records s s' := by
  refine .quiet ?_ same
  change (log s').filterMap read = (log s).filterMap read
  rw [logged, List.filterMap_append, List.filterMap_eq_nil_iff.mpr blind, List.nil_append]

end Select

/-- A journal every step keeps is complete after any run. -/
theorem Complete.run {step : σ → σ → Prop} (keeps : ∀ s s', step s s' → J.Records s s')
    (complete : J.Complete start s) (run : Relation.ReflTransGen step s s') :
    J.Complete start s' := by
  induction run with
  | refl => exact complete
  | tail _ last ih => exact ih.records (keeps _ _ last)

end Journal

end Replay
