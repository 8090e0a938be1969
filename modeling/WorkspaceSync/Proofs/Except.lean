/-!
# Computations that succeed

A computation of several parts succeeds if each part does; these lemmas take one apart.
-/

namespace WorkspaceSync

universe u v w

variable {ε : Type u} {ε' : Type v} {α β : Type w} {x : Except ε α}

theorem bind_eq_ok_iff {f : α → Except ε β} {b : β} :
    x >>= f = .ok b ↔ ∃ a, x = .ok a ∧ f a = .ok b := by
  cases x with
  | error e => exact ⟨nofun, nofun⟩
  | ok a => exact ⟨fun h => ⟨a, rfl, h⟩, fun ⟨a', same, h⟩ => Except.ok.inj same ▸ h⟩

theorem map_eq_ok_iff {f : α → β} {b : β} : x.map f = .ok b ↔ ∃ a, x = .ok a ∧ f a = b := by
  cases x <;> simp [Except.map]

theorem mapError_eq_ok_iff {f : ε → ε'} {a : α} : x.mapError f = .ok a ↔ x = .ok a := by
  cases x with
  | error e => exact ⟨nofun, nofun⟩
  | ok a' => exact ⟨fun h => congrArg _ (Except.ok.inj h), fun h => congrArg _ (Except.ok.inj h)⟩

theorem toOption_eq_some_iff {a : α} : x.toOption = some a ↔ x = .ok a := by
  cases x <;> simp [Except.toOption]

theorem forM_eq_ok {β : Type} {l : List β} {f : β → Except ε Unit} (h : ∀ b ∈ l, f b = .ok ()) :
    l.forM f = .ok () := by
  induction l with
  | nil => rfl
  | cons b l ih =>
    show (f b >>= fun _ => l.forM f) = _
    rw [h b List.mem_cons_self]
    exact ih fun c mem => h c (List.mem_cons_of_mem b mem)

/-- What every step keeps that succeeds, a fold that succeeds keeps. -/
theorem foldlM_keeps {σ β : Type} {P : σ → Prop} {step : σ → β → Except ε σ} {l : List β}
    (keeps : ∀ b ∈ l, ∀ s s', step s b = .ok s' → P s → P s') {s s' : σ}
    (folded : l.foldlM step s = .ok s') (holds : P s) : P s' := by
  induction l generalizing s with
  | nil =>
    cases folded
    exact holds
  | cons b l ih =>
    rw [List.foldlM_cons] at folded
    obtain ⟨t, first, rest⟩ := bind_eq_ok_iff.1 folded
    have kept := keeps b List.mem_cons_self s t first holds
    exact ih (fun c mem => keeps c (List.mem_cons_of_mem b mem)) rest kept

end WorkspaceSync
