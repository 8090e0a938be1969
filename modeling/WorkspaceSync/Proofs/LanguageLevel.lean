import WorkspaceSync.LanguageLevel

/-!
# Language levels are known by their texts

A text is read as a level if it spells that level, up to blanks around it, and the level is a feature
release: `parse?_eq_some_iff`. The older spelling is for releases up to 9, but a level is shown in it
only up to release 8; the text that is shown spells the level on either side. Release 0 is shown as
well, but what is shown for it is not read.
-/

namespace WorkspaceSync

namespace Text

/-! ## Numerals -/

/-- At least one digit, with or without a plus sign in front; leading zeros are fine. -/
def IsNumeral (n : Nat) (cs : List Char) : Prop :=
  ∃ digits, digits ≠ [] ∧ (∀ c ∈ digits, c.isDigit = true) ∧ Nat.ofDigitChars 10 digits 0 = n ∧
    (cs = digits ∨ cs = '+' :: digits)

theorem digitValue?_of_isDigit {c : Char} (h : c.isDigit = true) :
    digitValue? c = some (c.toNat - 48) := by
  rw [Char.isDigit, Bool.and_eq_true, decide_eq_true_eq, decide_eq_true_eq] at h
  exact if_pos h

theorem isDigit_of_digitValue? {c : Char} {d : Nat} (h : digitValue? c = some d) :
    c.isDigit = true := by
  unfold digitValue? at h
  split at h
  · rename_i between
    rw [Char.isDigit, Bool.and_eq_true, decide_eq_true_eq, decide_eq_true_eq]
    exact between
  · cases h

theorem digitsFrom?_eq {cs : List Char} (digits : ∀ c ∈ cs, c.isDigit = true) (n : Nat) :
    digitsFrom? n cs = some (Nat.ofDigitChars 10 cs n) := by
  induction cs generalizing n with
  | nil => rfl
  | cons c cs ih =>
    rw [digitsFrom?, digitValue?_of_isDigit (digits c List.mem_cons_self)]
    exact ih (fun d hd => digits d (List.mem_cons_of_mem c hd)) _

theorem isDigit_of_digitsFrom? {cs : List Char} {n m : Nat} (h : digitsFrom? n cs = some m) :
    ∀ c ∈ cs, c.isDigit = true := by
  induction cs generalizing n with
  | nil => exact nofun
  | cons c cs ih =>
    rw [digitsFrom?] at h
    split at h
    · rename_i value
      exact List.forall_mem_cons.2 ⟨isDigit_of_digitValue? value, ih h⟩
    · cases h

theorem digits?_eq_some_iff {cs : List Char} {n : Nat} : digits? cs = some n ↔
    cs ≠ [] ∧ (∀ c ∈ cs, c.isDigit = true) ∧ Nat.ofDigitChars 10 cs 0 = n := by
  cases cs with
  | nil => simp [digits?]
  | cons c cs =>
    change digitsFrom? 0 (c :: cs) = some n ↔ _
    constructor
    · intro h
      have digits := isDigit_of_digitsFrom? h
      rw [digitsFrom?_eq digits] at h
      exact ⟨List.cons_ne_nil c cs, digits, Option.some.inj h⟩
    · rintro ⟨-, digits, rfl⟩
      exact digitsFrom?_eq digits 0

theorem unsigned?_eq_some_iff {bound n : Nat} {cs : List Char} :
    unsigned? bound cs = some n ↔ IsNumeral n cs ∧ n < bound := by
  unfold unsigned?
  dsimp only
  rw [Option.filter_eq_some_iff, decide_eq_true_eq]
  apply and_congr_left
  intro _
  split
  · rename_i digits
    rw [digits?_eq_some_iff]
    constructor
    · rintro ⟨some, digit, value⟩
      exact ⟨digits, some, digit, value, .inr rfl⟩
    · rintro ⟨ds, some, digit, value, rfl | same⟩
      · exact absurd (digit '+' List.mem_cons_self) (by decide)
      · obtain rfl : digits = ds := (List.cons.inj same).2
        exact ⟨some, digit, value⟩
  · rename_i unsigned
    rw [digits?_eq_some_iff]
    constructor
    · rintro ⟨some, digit, value⟩
      exact ⟨cs, some, digit, value, .inl rfl⟩
    · rintro ⟨ds, some, digit, value, rfl | rfl⟩
      · exact ⟨some, digit, value⟩
      · exact absurd rfl (unsigned ds)

theorem IsNumeral.dot_notMem {n : Nat} {cs : List Char} (h : IsNumeral n cs) : '.' ∉ cs := by
  obtain ⟨digits, -, digit, -, rfl | rfl⟩ := h
  · intro mem
    exact absurd (digit '.' mem) (by decide)
  · intro mem
    rcases List.mem_cons.1 mem with sign | mem
    · cases sign
    · exact absurd (digit '.' mem) (by decide)

theorem isDigit_of_mem_toString {n : Nat} {c : Char} (h : c ∈ (toString n).toList) :
    c.isDigit = true := by
  rw [Nat.toString_eq_repr, Nat.toList_repr] at h
  exact Nat.isDigit_of_mem_toDigits (by decide) (by decide) h

theorem isNumeral_toString (n : Nat) : IsNumeral n (toString n).toList := by
  refine ⟨_, ?_, fun c => isDigit_of_mem_toString, ?_, .inl rfl⟩
  · rw [Nat.toString_eq_repr, Nat.toList_repr]
    exact Nat.toDigits_ne_nil
  · rw [Nat.toString_eq_repr, Nat.toList_repr]
    exact Nat.ofDigitChars_toDigits (by decide) (by decide)

theorem not_isBlank_of_isDigit {c : Char} (h : c.isDigit = true) : isBlank c = false := by
  rw [Char.isDigit, Bool.and_eq_true, decide_eq_true_eq, decide_eq_true_eq] at h
  have low : 48 ≤ c.toNat := h.1
  have high : c.toNat < 58 := Nat.lt_succ_of_le h.2
  have between : ∀ n < 58, 48 ≤ n → isBlank (Char.ofNat n) = false := by decide
  rw [← Char.ofNat_toNat c]
  exact between c.toNat high low

theorem dropStart?_eq_some_iff {start cs rest : List Char} :
    dropStart? start cs = some rest ↔ cs = start ++ rest := by
  unfold dropStart?
  split
  · rename_i begins
    obtain ⟨after, rfl⟩ := List.isPrefixOf_iff_prefix.1 begins
    rw [List.drop_left, Option.some.injEq, List.append_cancel_left_eq]
  · rename_i otherwise
    constructor
    · exact nofun
    · rintro rfl
      exact absurd (List.isPrefixOf_iff_prefix.2 (List.prefix_append start rest)) otherwise

end Text

namespace LanguageLevel

open Text

/-! ## Spellings -/

/-- Feature releases count from 1. -/
def IsFeatureRelease (l : LanguageLevel) : Prop := l.release ≠ 0

instance (l : LanguageLevel) : Decidable l.IsFeatureRelease := inferInstanceAs (Decidable (_ ≠ _))

/-- The spellings of a level, without blanks around them. -/
inductive IsSpelling (l : LanguageLevel) : List Char → Prop
  | plain {cs} (numeral : IsNumeral l.release.toNat cs) : IsSpelling l cs
  | legacy {cs} (known : l.release.toNat ≤ 9) (numeral : IsNumeral l.release.toNat cs) :
      IsSpelling l (['1', '.'] ++ cs)

theorem isFeatureRelease_iff {l : LanguageLevel} : l.IsFeatureRelease ↔ 1 ≤ l.release.toNat := by
  rw [IsFeatureRelease, Ne, ← UInt32.toNat_inj]
  exact Nat.pos_iff_ne_zero.symm

theorem ofRelease?_eq_some_iff {n : Nat} (small : n < releaseBound) {l : LanguageLevel} :
    ofRelease? n = some l ↔ l.IsFeatureRelease ∧ n = l.release.toNat := by
  have number : (UInt32.ofNat n).toNat = n := UInt32.toNat_ofNat_of_lt' small
  rw [isFeatureRelease_iff]
  unfold ofRelease?
  constructor
  · intro h
    split at h
    · rename_i positive
      obtain rfl := Option.some.inj h
      rw [number]
      exact ⟨positive, rfl⟩
    · cases h
  · rintro ⟨positive, rfl⟩
    rw [if_pos positive, UInt32.ofNat_toNat]

/-- A numeral is read as the release that it spells, since all releases are below the bound. -/
theorem release_eq_some_iff {l : LanguageLevel} {cs : List Char} {n : Nat} :
    unsigned? releaseBound cs = some n ∧ ofRelease? n = some l ↔
      l.IsFeatureRelease ∧ IsNumeral n cs ∧ n = l.release.toNat := by
  rw [unsigned?_eq_some_iff]
  constructor
  · rintro ⟨⟨numeral, small⟩, release⟩
    obtain ⟨feature, number⟩ := (ofRelease?_eq_some_iff small).1 release
    exact ⟨feature, numeral, number⟩
  · rintro ⟨feature, numeral, rfl⟩
    have small : l.release.toNat < releaseBound := l.release.toNat_lt
    exact ⟨⟨numeral, small⟩, (ofRelease?_eq_some_iff small).2 ⟨feature, rfl⟩⟩

theorem parse?_eq_some_iff {s : String} {l : LanguageLevel} :
    parse? s = some l ↔ l.IsFeatureRelease ∧ l.IsSpelling (trimChars s.toList) := by
  unfold parse?
  dsimp only
  generalize trimChars s.toList = t
  split
  · rename_i cs cut
    obtain rfl : t = ['1', '.'] ++ cs := dropStart?_eq_some_iff.1 cut
    constructor
    · intro h
      obtain ⟨n, known, release⟩ := Option.bind_eq_some_iff.1 h
      obtain ⟨value, known⟩ := Option.filter_eq_some_iff.1 known
      obtain ⟨feature, numeral, rfl⟩ := release_eq_some_iff.1 ⟨value, release⟩
      exact ⟨feature, .legacy (of_decide_eq_true known) numeral⟩
    · rintro ⟨feature, h⟩
      generalize whole : ['1', '.'] ++ cs = t at h
      cases h with
      | plain numeral =>
        rw [← whole] at numeral
        exact absurd (List.mem_cons_of_mem _ List.mem_cons_self) numeral.dot_notMem
      | legacy known numeral =>
        obtain rfl := List.append_cancel_left whole
        obtain ⟨value, release⟩ := release_eq_some_iff.2 ⟨feature, numeral, rfl⟩
        rw [value, Option.filter_some, if_pos (decide_eq_true known), Option.bind_some, release]
  · rename_i uncut
    constructor
    · intro h
      obtain ⟨n, value, release⟩ := Option.bind_eq_some_iff.1 h
      obtain ⟨feature, numeral, rfl⟩ := release_eq_some_iff.1 ⟨value, release⟩
      exact ⟨feature, .plain numeral⟩
    · rintro ⟨feature, h⟩
      cases h with
      | plain numeral =>
        obtain ⟨value, release⟩ := release_eq_some_iff.2 ⟨feature, numeral, rfl⟩
        rw [value, Option.bind_some, release]
      | legacy =>
        rw [dropStart?_eq_some_iff.2 rfl] at uncut
        cases uncut

theorem parse_eq_ok_iff {s : String} {l : LanguageLevel} :
    parse s = .ok l ↔ l.IsFeatureRelease ∧ l.IsSpelling (trimChars s.toList) := by
  rw [← parse?_eq_some_iff, parse]
  cases parse? s <;> simp

/-! ## The text of a level -/

theorem isSpelling_text (l : LanguageLevel) : l.IsSpelling l.text.toList := by
  unfold text
  split
  · rename_i legacy
    rw [String.toList_append]
    exact .legacy (Nat.le_succ_of_le (UInt32.le_iff_toNat_le.1 legacy)) (isNumeral_toString _)
  · exact .plain (isNumeral_toString _)

theorem not_isBlank_of_mem_text {l : LanguageLevel} {c : Char} (h : c ∈ l.text.toList) :
    isBlank c = false := by
  have numeral : c ∈ (toString l.release.toNat).toList → isBlank c = false :=
    fun mem => not_isBlank_of_isDigit (isDigit_of_mem_toString mem)
  unfold text at h
  split at h
  · rw [String.toList_append, List.mem_append] at h
    rcases h with start | mem
    · change c ∈ ['1', '.'] at start
      simp only [List.mem_cons, List.not_mem_nil, or_false] at start
      rcases start with rfl | rfl <;> rfl
    · exact numeral mem
  · exact numeral h

/-- What is shown for a level is read as that level, unless the level is release 0. -/
theorem parse?_text {l : LanguageLevel} (feature : l.IsFeatureRelease) : parse? l.text = some l := by
  have clear : trimChars l.text.toList = l.text.toList := by
    refine trimChars_eq_self (List.all_eq_true.2 fun c mem => ?_)
    rw [not_isBlank_of_mem_text mem, Bool.not_false]
  rw [parse?_eq_some_iff, clear]
  exact ⟨feature, isSpelling_text l⟩

theorem parse?_text_eq_none {l : LanguageLevel} (zero : ¬ l.IsFeatureRelease) :
    parse? l.text = none := by
  obtain ⟨n⟩ := l
  obtain rfl : n = 0 := Decidable.not_not.1 zero
  decide +kernel

end LanguageLevel

end WorkspaceSync
