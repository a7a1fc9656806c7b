import Mathlib.Algebra.BigOperators.Group.List.Basic
import Mathlib.Algebra.Order.Ring.Int
import Mathlib.Tactic.Common

/-! A counter that starts again once its window is over, and what it lets through in any interval
of the length of a window. -/
namespace Windows

structure Draw where
  time : Int
  amount : Nat
  limit : Nat

/-- When the window began and what was drawn in it. -/
structure Counter where
  start : Int
  spent : Nat

def Counter.roll (period : Int) (c : Counter) (time : Int) : Counter :=
  if period ≤ time - c.start then ⟨time, 0⟩ else c

def spent (p : Int → Bool) (draws : List Draw) : Nat :=
  ((draws.filter fun d => p d.time).map Draw.amount).sum

/-- The draws, newest first, that lead to a counter, each within the limit of its time. -/
inductive Drawn (period : Int) : Counter → List Draw → Prop
  | fresh (start : Int) : Drawn period ⟨start, 0⟩ []
  | draw {c : Counter} {draws : List Draw} (d : Draw) (sofar : Drawn period c draws)
      (began : c.start ≤ d.time) (last : ∀ e ∈ draws, e.time ≤ d.time)
      (fits : (c.roll period d.time).spent + d.amount ≤ d.limit) :
      Drawn period ⟨(c.roll period d.time).start, (c.roll period d.time).spent + d.amount⟩
        (d :: draws)

variable {period : Int} {c : Counter} {d : Draw} {draws : List Draw} {p q : Int → Bool} {a : Int}
  {limit : Nat}

theorem spent_cons (p : Int → Bool) (d : Draw) (draws : List Draw) :
    spent p (d :: draws) = (if p d.time then d.amount else 0) + spent p draws := by
  by_cases inside : p d.time = true
  · simp [spent, inside]
  · simp [spent, inside]

theorem spent_congr (agree : ∀ d ∈ draws, p d.time = q d.time) : spent p draws = spent q draws := by
  induction draws with
  | nil => rfl
  | cons d rest ih =>
    rw [spent_cons, spent_cons, agree d (by simp), ih fun e present => agree e (by simp [present])]

theorem spent_eq_zero (outside : ∀ d ∈ draws, p d.time = false) : spent p draws = 0 := by
  induction draws with
  | nil => rfl
  | cons d rest ih =>
    rw [spent_cons, outside d (by simp), ih fun e present => outside e (by simp [present])]
    rfl

theorem spent_mono (within : ∀ d ∈ draws, p d.time = true → q d.time = true) :
    spent p draws ≤ spent q draws := by
  induction draws with
  | nil => exact Nat.le_refl _
  | cons d rest ih =>
    have rest_le := ih fun e present => within e (by simp [present])
    rw [spent_cons, spent_cons]
    by_cases inside : p d.time = true
    · rw [if_pos inside, if_pos (within d (by simp) inside)]
      omega
    · rw [if_neg inside]
      omega

theorem spent_split (p : Int → Bool) (t : Int) (draws : List Draw) :
    spent p draws = spent (fun x => p x && decide (t ≤ x)) draws +
      spent (fun x => p x && decide (x < t)) draws := by
  induction draws with
  | nil => rfl
  | cons d rest ih =>
    rw [spent_cons, spent_cons, spent_cons, ih]
    by_cases inside : p d.time = true
    · by_cases late : t ≤ d.time
      · have early : ¬d.time < t := by omega
        simp only [inside, late, early, decide_true, decide_false, Bool.and_self, Bool.and_false,
          if_true, Bool.false_eq_true, if_false]
        omega
      · have early : d.time < t := by omega
        simp only [inside, late, early, decide_true, decide_false, Bool.and_self, Bool.and_false,
          if_true, Bool.false_eq_true, if_false]
        omega
    · simp only [Bool.not_eq_true] at inside
      simp only [inside, Bool.false_and, Bool.false_eq_true, if_false]
      omega

theorem Counter.roll_start (c : Counter) (positive : 0 < period) {time : Int}
    (began : c.start ≤ time) :
    (c.roll period time).start ≤ time ∧ time < (c.roll period time).start + period := by
  unfold Counter.roll
  split
  · constructor
    · exact le_refl _
    · show time < time + period
      omega
  · constructor
    · exact began
    · omega

/-- The window in progress holds every draw since its start and is not over at the last one. -/
theorem Drawn.window (drawn : Drawn period c draws) (positive : 0 < period) :
    (∀ d ∈ draws, d.time < c.start + period) ∧
      spent (fun x => decide (c.start ≤ x)) draws = c.spent := by
  induction drawn with
  | fresh start =>
    constructor
    · exact nofun
    · rfl
  | draw d sofar began last fits ih =>
    rename_i c draws
    obtain ⟨running, total⟩ := ih
    obtain ⟨started, finished⟩ := c.roll_start positive began
    constructor
    · intro e present
      rcases List.mem_cons.mp present with rfl | earlier
      · exact finished
      · exact lt_of_le_of_lt (last e earlier) finished
    · rw [spent_cons, if_pos (decide_eq_true started), Nat.add_comm]
      congr 1
      unfold Counter.roll
      split
      · rename_i expired
        -- A new window: every earlier draw came before it.
        apply spent_eq_zero
        intro e earlier
        have before := running e earlier
        exact decide_eq_false (show ¬d.time ≤ e.time by omega)
      · exact total

theorem Drawn.head (drawn : Drawn period c (d :: draws)) :
    (∀ e ∈ d :: draws, e.time ≤ d.time) ∧ c.spent ≤ d.limit := by
  cases drawn with
  | draw _ sofar began last fits =>
    refine ⟨?_, fits⟩
    intro e present
    rcases List.mem_cons.mp present with rfl | earlier
    · exact le_refl _
    · exact last e earlier

theorem Drawn.recent (drawn : Drawn period c draws) (positive : 0 < period)
    (bound : ∀ d ∈ draws, a ≤ d.time → d.limit ≤ limit) :
    spent (fun x => decide (a ≤ x) && decide (c.start ≤ x)) draws ≤ limit := by
  cases draws with
  | nil => exact Nat.zero_le _
  | cons d rest =>
    obtain ⟨last, fits⟩ := drawn.head
    by_cases late : a ≤ d.time
    · calc spent (fun x => decide (a ≤ x) && decide (c.start ≤ x)) (d :: rest)
          ≤ spent (fun x => decide (c.start ≤ x)) (d :: rest) :=
            spent_mono fun e _ inside => (Bool.and_eq_true_iff.mp inside).2
        _ = c.spent := (drawn.window positive).2
        _ ≤ d.limit := fits
        _ ≤ limit := bound d (by simp) late
    · have none : spent (fun x => decide (a ≤ x) && decide (c.start ≤ x)) (d :: rest) = 0 := by
        apply spent_eq_zero
        intro e present
        have before := last e present
        rw [decide_eq_false (show ¬a ≤ e.time by omega), Bool.false_and]
      rw [none]
      exact Nat.zero_le _

theorem Drawn.previous (drawn : Drawn period c draws) (positive : 0 < period)
    (reaches : c.start ≤ a + period) (bound : ∀ d ∈ draws, a ≤ d.time → d.limit ≤ limit) :
    spent (fun x => decide (a ≤ x) && decide (x < c.start)) draws ≤ limit := by
  induction drawn with
  | fresh start => exact Nat.zero_le _
  | draw d sofar began last fits ih =>
    rename_i c draws
    have bound' : ∀ e ∈ draws, a ≤ e.time → e.limit ≤ limit := fun e present =>
      bound e (by simp [present])
    have after : ¬d.time < (c.roll period d.time).start :=
      not_lt.mpr (c.roll_start positive began).1
    rw [spent_cons, decide_eq_false after, Bool.and_false, if_neg (by decide), Nat.zero_add]
    by_cases expired : period ≤ d.time - c.start
    · -- The window before began no later than the interval.
      have rolled : c.roll period d.time = ⟨d.time, 0⟩ := if_pos expired
      rw [rolled] at reaches ⊢
      have began_before : c.start ≤ a := by
        have reaches : d.time ≤ a + period := reaches
        omega
      refine le_trans (spent_mono ?_) (sofar.recent positive bound')
      intro e _ inside
      have late := of_decide_eq_true (Bool.and_eq_true_iff.mp inside).1
      rw [decide_eq_true late, decide_eq_true (le_trans began_before late)]
      rfl
    · have rolled : c.roll period d.time = c := if_neg expired
      rw [rolled] at reaches ⊢
      exact ih reaches bound'

/-- In any interval of the length of a window at most twice the largest limit is drawn. -/
theorem Drawn.spent_le (drawn : Drawn period c draws) (positive : 0 < period)
    (bound : ∀ d ∈ draws, a ≤ d.time → d.time ≤ a + period → d.limit ≤ limit) :
    spent (fun x => decide (a ≤ x) && decide (x ≤ a + period)) draws ≤ 2 * limit := by
  induction drawn with
  | fresh start => exact Nat.zero_le _
  | draw d sofar began last fits ih =>
    rename_i c draws
    by_cases inside : d.time ≤ a + period
    · have all : ∀ e ∈ d :: draws, e.time ≤ a + period := by
        intro e present
        rcases List.mem_cons.mp present with rfl | earlier
        · exact inside
        · exact le_trans (last e earlier) inside
      have bound' : ∀ e ∈ d :: draws, a ≤ e.time → e.limit ≤ limit := fun e present late =>
        bound e present late (all e present)
      have whole := Drawn.draw d sofar began last fits
      have reaches : (c.roll period d.time).start ≤ a + period :=
        le_trans (c.roll_start positive began).1 inside
      have open_ : spent (fun x => decide (a ≤ x) && decide (x ≤ a + period)) (d :: draws) =
          spent (fun x => decide (a ≤ x)) (d :: draws) :=
        spent_congr fun e present => by rw [decide_eq_true (all e present), Bool.and_true]
      rw [open_, spent_split _ (c.roll period d.time).start]
      have recent := whole.recent positive bound'
      have previous := whole.previous positive reaches bound'
      simp only at recent previous
      omega
    · rw [spent_cons, decide_eq_false inside, Bool.and_false, if_neg (by decide), Nat.zero_add]
      exact ih fun e present => bound e (by simp [present])

end Windows
