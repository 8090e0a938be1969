/-!
# Folds of local updates

A fold whose steps each touch some keys of a state: what the last state has at a key is what the one
step that touches the key made of it. The state may have to satisfy an invariant for that.
-/

namespace WorkspaceSync.Fold

universe u v w x

variable {State : Type u} {Update : Type v} {Key : Type w} {Value : Type x}
  {step : State → Update → State}

theorem foldl_inv (Inv : State → Prop) {us : List Update} {s : State} (h : Inv s)
    (keeps : ∀ s, Inv s → ∀ u ∈ us, Inv (step s u)) : Inv (us.foldl step s) := by
  induction us generalizing s with
  | nil => exact h
  | cons u us ih =>
    apply ih (keeps s h u (by simp))
    intro s hs u hu
    exact keeps s hs u (List.mem_cons_of_mem _ hu)

/-- What one of the steps establishes and every step keeps holds at the end. -/
theorem foldl_reach (Inv : State → Prop) {us : List Update} {u : Update} (mem : u ∈ us)
    (reach : ∀ s, Inv (step s u)) (keeps : ∀ s, Inv s → ∀ u ∈ us, Inv (step s u)) (s : State) :
    Inv (us.foldl step s) := by
  obtain ⟨before, after, rfl⟩ := List.append_of_mem mem
  rw [List.foldl_append, List.foldl_cons]
  apply foldl_inv Inv (reach _)
  intro t ht v hv
  exact keeps t ht v (by simp [hv])

/-- Every step keeps the invariant, and leaves every key that it does not touch as it is. -/
structure Local (step : State → Update → State) (Inv : State → Prop)
    (view : State → Key → Value) (touches : Update → Key → Prop) (us : List Update) : Prop where
  keeps : ∀ s, Inv s → ∀ u ∈ us, Inv (step s u)
  frame : ∀ s, Inv s → ∀ u ∈ us, ∀ k, ¬ touches u k → view (step s u) k = view s k

namespace Local

variable {Inv : State → Prop} {view : State → Key → Value} {touches : Update → Key → Prop}
  {us : List Update} {s : State} {k : Key} {u : Update}

theorem tail (h : Local step Inv view touches (u :: us)) : Local step Inv view touches us where
  keeps s hs v hv := h.keeps s hs v (List.mem_cons_of_mem _ hv)
  frame s hs v hv := h.frame s hs v (List.mem_cons_of_mem _ hv)

/-- A key that no step touches stays as it is. -/
theorem foldl_frame (h : Local step Inv view touches us) (hs : Inv s)
    (untouched : ∀ u ∈ us, ¬ touches u k) : view (us.foldl step s) k = view s k := by
  induction us generalizing s with
  | nil => rfl
  | cons u us ih =>
    have rest : ∀ v ∈ us, ¬ touches v k :=
      fun v hv => untouched v (List.mem_cons_of_mem _ hv)
    rw [List.foldl_cons, ih h.tail (h.keeps s hs u (by simp)) rest]
    exact h.frame s hs u (by simp) k (untouched u (by simp))

/-- A key that one step touches is as this step made it, from what it was at first. -/
theorem foldl_touch (h : Local step Inv view touches us) (hs : Inv s)
    (once : us.Pairwise fun u v => ¬ (touches u k ∧ touches v k)) (hu : u ∈ us)
    (touched : touches u k) :
    ∃ t, Inv t ∧ view t k = view s k ∧ view (us.foldl step s) k = view (step t u) k := by
  induction us generalizing s with
  | nil => simp at hu
  | cons v us ih =>
    obtain ⟨first, once⟩ := List.pairwise_cons.1 once
    have hv := h.keeps s hs v (by simp)
    rcases List.mem_cons.1 hu with rfl | hu
    · refine ⟨s, hs, rfl, h.tail.foldl_frame hv ?_⟩
      intro w hw hk
      exact first w hw ⟨touched, hk⟩
    · obtain ⟨t, ht, start, result⟩ := ih h.tail hv once hu
      refine ⟨t, ht, ?_, result⟩
      rw [start]
      apply h.frame s hs v (by simp)
      intro hk
      exact first u hu ⟨hk, touched⟩

theorem perm {vs : List Update} (h : Local step Inv view touches us) (order : vs.Perm us) :
    Local step Inv view touches vs where
  keeps s hs v hv := h.keeps s hs v (order.mem_iff.1 hv)
  frame s hs v hv := h.frame s hs v (order.mem_iff.1 hv)

/-- Where what a step makes of a key depends on that key alone, the order of the steps does not
show at a key that no two of them touch. -/
theorem foldl_perm {vs : List Update} (h : Local step Inv view touches us) (hs : Inv s)
    (order : vs.Perm us) (once : us.Pairwise fun u v => ¬ (touches u k ∧ touches v k))
    (alone : ∀ s t, Inv s → Inv t → ∀ u ∈ us, touches u k → view s k = view t k →
      view (step s u) k = view (step t u) k) :
    view (vs.foldl step s) k = view (us.foldl step s) k := by
  have once' : vs.Pairwise fun u v => ¬ (touches u k ∧ touches v k) :=
    (order.pairwise_iff fun apart both => apart both.symm).2 once
  by_cases touched : ∃ u ∈ us, touches u k
  · obtain ⟨u, hu, hk⟩ := touched
    obtain ⟨t, ht, start, result⟩ := h.foldl_touch hs once hu hk
    obtain ⟨t', ht', start', result'⟩ :=
      (h.perm order).foldl_touch hs once' (order.mem_iff.2 hu) hk
    rw [result, result']
    exact alone t' t ht' ht u hu hk (start'.trans start.symm)
  · have untouched : ∀ u ∈ us, ¬ touches u k := fun u hu hk => touched ⟨u, hu, hk⟩
    rw [h.foldl_frame hs untouched]
    exact (h.perm order).foldl_frame hs fun u hu => untouched u (order.mem_iff.1 hu)

end Local

end WorkspaceSync.Fold
