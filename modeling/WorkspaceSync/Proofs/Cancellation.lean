import Mathlib.Order.WellFounded
import WorkspaceSync.Cancellation

/-!
# Flags that are never cleared

The moments of a sync come in phases. A flag that is never cleared is set in every phase after one
in which it was found set; within a phase the moments have no fixed order.
-/

namespace WorkspaceSync

def Moment.phase : Moment → Nat
  | start => 0
  | signature _ => 1
  | prefetch => 2
  | parse _ => 3
  | parsed _ => 4
  | loaded => 5
  | imported _ => 6
  | attached => 7

namespace Cancellation

def NeverCleared (c : Cancellation) : Prop :=
  ∀ m n : Moment, m.phase < n.phase → c m = true → c n = true

/-- Where the flag is not set, it was not set in the phases before. -/
theorem NeverCleared.eq_false {c : Cancellation} (h : c.NeverCleared) {m n : Moment}
    (before : m.phase < n.phase) (hn : c n = false) : c m = false := by
  cases hm : c m with
  | false => rfl
  | true =>
    have := h m n before hm
    rw [hn] at this
    cases this

theorem neverCleared_never : never.NeverCleared := fun _ _ _ h => h

/-- A flag that goes up at one time and is looked at at others. -/
def raisedAt (raised : Nat) (time : Moment → Nat) : Cancellation := fun m => raised ≤ time m

theorem neverCleared_raisedAt {time : Moment → Nat} (raised : Nat)
    (ordered : ∀ m n : Moment, m.phase < n.phase → time m < time n) :
    (raisedAt raised time).NeverCleared := by
  intro m n before set
  have later := ordered m n before
  simp only [raisedAt, decide_eq_true_eq] at set ⊢
  omega

/-- The flags that are never cleared are those that go up at some time, or never, while the phases
come one after the other and the looks within a phase in any order. -/
theorem neverCleared_iff_raisedAt {c : Cancellation} : c.NeverCleared ↔
    ∃ raised time, (∀ m n : Moment, m.phase < n.phase → time m < time n) ∧
      c = raisedAt raised time := by
  constructor
  · intro h
    -- Within a phase the looks that find the flag set come last.
    let time : Moment → Nat := fun m => 2 * m.phase + (c m).toNat
    have ordered : ∀ m n : Moment, m.phase < n.phase → time m < time n := by
      intro m n before
      have := (c m).toNat_le
      dsimp only [time]
      omega
    have seen : ∀ {m raised}, (c m = true ↔ raised ≤ 2 * m.phase + (c m).toNat) →
        c m = raisedAt raised time m := by
      intro m raised h
      rw [Bool.eq_iff_iff, h, raisedAt, decide_eq_true_iff]
    by_cases set : ∃ m, c m = true
    · obtain ⟨first, hfirst, least⟩ := WellFounded.has_min (measure Moment.phase).wf
        {m | c m = true} set
      refine ⟨2 * first.phase + 1, time, ordered, funext fun m => seen ?_⟩
      cases hm : c m with
      | true =>
        have late : first.phase ≤ m.phase := Nat.le_of_not_lt (least m hm)
        simp only [Bool.toNat_true, true_iff]
        omega
      | false =>
        have early : m.phase ≤ first.phase := by
          by_contra late
          have := h first m (Nat.lt_of_not_le late) hfirst
          rw [hm] at this
          cases this
        simp only [Bool.false_eq_true, Bool.toNat_false, false_iff]
        omega
    · refine ⟨2 * Moment.attached.phase + 1, time, ordered, funext fun m => seen ?_⟩
      have clear : c m = false := Bool.eq_false_iff.2 fun hm => set ⟨m, hm⟩
      have bounded : m.phase ≤ Moment.attached.phase := by cases m <;> simp [Moment.phase]
      simp only [clear, Bool.false_eq_true, Bool.toNat_false, false_iff]
      omega
  · rintro ⟨raised, time, ordered, rfl⟩
    exact neverCleared_raisedAt raised ordered

end Cancellation

end WorkspaceSync
