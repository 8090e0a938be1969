import WorkspaceSync.Json.Parse
import WorkspaceSync.Json.Printer

/-!
# What is printed is read back

A value without numbers is read from its printed text, if its nesting is within the limit. The text
of a part is followed by the rest of the whole: the machine reads the part in one go and is then
where `Machine.complete` says.
-/

namespace WorkspaceSync.Json

/-! ## Strings -/

theorem toList_hexPair : ∀ n < 32,
    (hexPair n).toList = [Nat.digitChar (n / 16), Nat.digitChar (n % 16)] := by
  decide

theorem hexValue?_digitChar : ∀ n < 16, hexValue? (Nat.digitChar n) = some n := by
  decide

theorem scanHex_hexPair {n : Nat} (small : n < 32) (rest : List Char) :
    scanHex ('0' :: '0' :: ((hexPair n).toList ++ rest)) = .ok (n, rest) := by
  have high := hexValue?_digitChar (n / 16) (by omega)
  have low := hexValue?_digitChar (n % 16) (by omega)
  have zero : hexValue? '0' = some 0 := rfl
  have value : 4096 * 0 + 256 * 0 + 16 * (n / 16) + n % 16 = n := by omega
  rw [toList_hexPair n small]
  simp only [List.cons_append, List.nil_append, scanHex, high, low, zero, value]

/-- What is behind the backslash of an escape is read as a character, and skipped. -/
def Escapes (cs : List Char) (c : Char) : Prop :=
  ∀ rest, scanEscape (cs ++ rest) = .ok (c, rest) ∧ skipEscape (cs ++ rest) = .ok ((), rest)

theorem escapes_letter {c d : Char} (letter : c ≠ 'u') (escape : letterEscape? c = some d) :
    Escapes [c] d := by
  intro rest
  simp only [List.cons_append, List.nil_append, scanEscape, skipEscape, if_neg letter, escape,
    and_self]

theorem escapes_control {c : Char} (control : c.toNat < 32) :
    Escapes ('u' :: '0' :: '0' :: (hexPair c.toNat).toList) c := by
  intro rest
  have read := scanHex_hexPair control rest
  have low : ¬ (0xDC00 ≤ c.toNat ∧ c.toNat ≤ 0xDFFF) := by omega
  have high : ¬ (0xD800 ≤ c.toNat ∧ c.toNat ≤ 0xDBFF) := by omega
  constructor
  · simp only [List.cons_append, scanEscape, if_true, scanUnicode, read, if_neg low, if_neg high,
      Char.ofNat_toNat]
  · simp only [List.cons_append, skipEscape, if_true, read, Scan.mapTo]

/-- A character stands for itself or is escaped. -/
theorem escapeChar_cases (c : Char) :
    ((escapeChar c).toList = [c] ∧ c ≠ '"' ∧ c ≠ '\\' ∧ ¬ c.toNat < 0x20) ∨
      ∃ cs, (escapeChar c).toList = '\\' :: cs ∧ Escapes cs c := by
  have named : ∀ n, c.toNat = n → c = Char.ofNat n := by
    rintro n rfl
    exact (Char.ofNat_toNat c).symm
  unfold escapeChar
  split
  · rename_i quote
    exact .inr ⟨_, rfl, quote ▸ escapes_letter (by decide) rfl⟩
  · rename_i quote
    split
    · rename_i backslash
      exact .inr ⟨_, rfl, backslash ▸ escapes_letter (by decide) rfl⟩
    · rename_i backslash
      split
      · rename_i newline
        exact .inr ⟨_, rfl, newline ▸ escapes_letter (by decide) rfl⟩
      split
      · rename_i ret
        exact .inr ⟨_, rfl, ret ▸ escapes_letter (by decide) rfl⟩
      split
      · rename_i tab
        exact .inr ⟨_, rfl, tab ▸ escapes_letter (by decide) rfl⟩
      split
      · rename_i backspace
        exact .inr ⟨_, rfl, named 8 backspace ▸ escapes_letter (by decide) rfl⟩
      split
      · rename_i feed
        exact .inr ⟨_, rfl, named 12 feed ▸ escapes_letter (by decide) rfl⟩
      split
      · rename_i control
        exact .inr ⟨_, String.toList_append, escapes_control control⟩
      · rename_i plain
        exact .inl ⟨by simp, quote, backslash, plain⟩

theorem scanString_escapeChar (acc : List Char) (c : Char) (rest : List Char) :
    scanString acc ((escapeChar c).toList ++ rest) = scanString (c :: acc) rest := by
  rcases escapeChar_cases c with ⟨text, quote, backslash, plain⟩ | ⟨cs, text, escapes⟩
  · rw [text, List.cons_append, List.nil_append, scanString, if_neg plain]
    · exact quote
    · exact backslash
  · rw [text, List.cons_append, scanString]
    split
    · rename_i failed
      rw [(escapes rest).1] at failed
      cases failed
    · rename_i read
      rw [(escapes rest).1] at read
      obtain ⟨rfl, rfl⟩ := Prod.mk.inj (Except.ok.inj read)
      rfl

theorem skipString_escapeChar (c : Char) (rest : List Char) :
    skipString ((escapeChar c).toList ++ rest) = skipString rest := by
  rcases escapeChar_cases c with ⟨text, quote, backslash, plain⟩ | ⟨cs, text, escapes⟩
  · rw [text, List.cons_append, List.nil_append, skipString, if_neg plain]
    · exact quote
    · exact backslash
  · rw [text, List.cons_append, skipString]
    split
    · rename_i failed
      rw [(escapes rest).2] at failed
      cases failed
    · rename_i read
      rw [(escapes rest).2] at read
      obtain ⟨-, rfl⟩ := Prod.mk.inj (Except.ok.inj read)
      rfl

/-- The characters between the quotes. -/
def escaped (cs : List Char) : List Char := cs.flatMap fun c => (escapeChar c).toList

theorem toList_quote (s : String) : (quote s).toList = '"' :: (escaped s.toList ++ ['"']) := by
  rw [quote, String.toList_append, String.toList_append, String.toList_join, List.flatMap_map]
  rfl

theorem scanString_escaped (acc cs rest : List Char) :
    scanString acc (escaped cs ++ '"' :: rest) =
      .ok (String.ofList (acc.reverse ++ cs), rest) := by
  induction cs generalizing acc with
  | nil => rw [escaped, List.flatMap_nil, List.nil_append, scanString, List.append_nil]
  | cons c cs ih =>
    rw [escaped, List.flatMap_cons, List.append_assoc, scanString_escapeChar, ← escaped, ih,
      List.reverse_cons, List.append_assoc, List.cons_append, List.nil_append]

theorem skipString_escaped (cs rest : List Char) :
    skipString (escaped cs ++ '"' :: rest) = .ok ((), rest) := by
  induction cs with
  | nil => rw [escaped, List.flatMap_nil, List.nil_append, skipString]
  | cons c cs ih =>
    rw [escaped, List.flatMap_cons, List.append_assoc, skipString_escapeChar, ← escaped, ih]

/-! ## Tokens -/

theorem tokens_punctuation {c : Char} {t : Token} (known : punctuation? c = some t)
    (cs : List Char) : tokens (c :: cs) = t :: tokens cs := by
  have solid : ¬ isSpace c = true := by
    intro space
    simp only [isSpace, Bool.or_eq_true, beq_iff_eq] at space
    rcases space with ((rfl | rfl) | rfl) | rfl <;> cases known
  rw [tokens, if_neg solid, known]

theorem tokens_quote (s : String) (rest : List Char) :
    tokens ((quote s).toList ++ rest) = .string (.ok s) :: tokens rest := by
  have text : stringText (escaped s.toList ++ '"' :: rest) = .ok s := by
    rw [stringText, scanString_escaped, List.reverse_nil, List.nil_append, String.ofList_toList]
    rfl
  have word : punctuation? '"' = none := rfl
  rw [toList_quote, List.cons_append, List.append_assoc, List.cons_append, List.nil_append, tokens,
    if_neg (by decide), word]
  dsimp only
  rw [if_pos rfl]
  split
  · rename_i failed
    rw [skipString_escaped] at failed
    cases failed
  · rename_i read
    rw [skipString_escaped] at read
    obtain ⟨-, rfl⟩ := Prod.mk.inj (Except.ok.inj read)
    rw [text]

theorem tokens_word {c : Char} {cs rest : List Char} {j : Json}
    (scan : scanScalar? (c :: cs) = some (.ok (.ok j, rest))) (solid : isSpace c = false)
    (word : punctuation? c = none) (unquoted : c ≠ '"') :
    tokens (c :: cs) = .scalar (.ok j) :: tokens rest := by
  rw [tokens, if_neg (by rw [solid]; decide), word]
  dsimp only
  rw [if_neg unquoted]
  split
  · rename_i failed
    rw [scan] at failed
    cases failed
  · rename_i failed
    rw [scan] at failed
    cases failed
  · rename_i read
    rw [scan] at read
    obtain ⟨rfl, rfl⟩ := Prod.mk.inj (Except.ok.inj (Option.some.inj read))
    rfl

theorem tokens_null (rest : List Char) :
    tokens ((print null).toList ++ rest) = .scalar (.ok .null) :: tokens rest :=
  tokens_word rfl (by decide) (by decide) (by decide)

theorem tokens_bool (b : Bool) (rest : List Char) :
    tokens ((print (.bool b)).toList ++ rest) = .scalar (.ok (.bool b)) :: tokens rest := by
  cases b with
  | false => exact tokens_word rfl (by decide) (by decide) (by decide)
  | true => exact tokens_word rfl (by decide) (by decide) (by decide)

/-! ## Values -/

/-- A value without numbers, in which arrays and objects are nested to a depth at most. -/
inductive Plain : Nat → Json → Prop
  | null {d} : Plain d .null
  | bool {d b} : Plain d (.bool b)
  | string {d s} : Plain d (.string s)
  | array {d items} (parts : ∀ j ∈ items, Plain d j) : Plain (d + 1) (.array items)
  | object {d members} (parts : ∀ m ∈ members, Plain d m.2) : Plain (d + 1) (.object members)

namespace Machine

/-- Takes in the tokens of a text. -/
def run (m : Machine) (cs : List Char) : Except SyntaxError Machine := (tokens cs).foldlM step m

theorem run_punctuation {m : Machine} {c : Char} {t : Token} (known : punctuation? c = some t)
    (cs : List Char) : run m (c :: cs) = step m t >>= fun m' => run m' cs := by
  rw [run, tokens_punctuation known, List.foldlM_cons]
  rfl

/-- The stages at which a value may come. -/
inductive Awaits : Stage → Prop
  | value : Awaits .value
  | firstItem : Awaits .firstItem
  | nextItem : Awaits .nextItem

theorem step_of_awaits {stage : Stage} (awaits : Awaits stage) (stack : List Frame) (t : Token)
    (begins : t ≠ .closeArray) : step ⟨stack, stage⟩ t = stepValue stack t := by
  cases awaits with
  | value => rfl
  | firstItem => cases t <;> first | rfl | exact absurd rfl begins
  | nextItem => cases t <;> first | rfl | exact absurd rfl begins

/-- The machine reads a printed value in one go, wherever one may come and if `d` more frames may be
opened; what the value becomes a part of is up to `complete`. -/
def Reads (d : Nat) (j : Json) : Prop :=
  ∀ (stack : List Frame) (stage : Stage) (rest : List Char), Awaits stage →
    stack.length + d ≤ maxDepth →
      run ⟨stack, stage⟩ ((print j).toList ++ rest) = run (complete j stack) rest

theorem reads_scalar {d : Nat} {j : Json}
    (scan : ∀ rest, tokens ((print j).toList ++ rest) = .scalar (.ok j) :: tokens rest) :
    Reads d j := by
  intro stack stage rest awaits _
  rw [run, scan, List.foldlM_cons, step_of_awaits awaits stack (.scalar (.ok j)) nofun]
  rfl

theorem reads_string {d : Nat} (s : String) : Reads d (.string s) := by
  intro stack stage rest awaits _
  rw [run, print, tokens_quote, List.foldlM_cons,
    step_of_awaits awaits stack (.string (.ok s)) nofun]
  rfl

theorem run_printItems {d : Nat} {stack : List Frame} (room : stack.length + (d + 1) ≤ maxDepth)
    (rest : List Char) {items : List Json} (parts : ∀ j ∈ items, Reads d j) (some : items ≠ [])
    {stage : Stage} (awaits : Awaits stage) (acc : List Json) :
    run ⟨.array acc :: stack, stage⟩ ((printItems items).toList ++ ']' :: rest) =
      run (complete (.array (acc.reverse ++ items)) stack) rest := by
  induction items generalizing stage acc with
  | nil => exact absurd rfl some
  | cons j items ih =>
    have first : ∀ rest', run ⟨.array acc :: stack, stage⟩ ((print j).toList ++ rest') =
        run ⟨.array (j :: acc) :: stack, .afterValue⟩ rest' := by
      intro rest'
      apply parts j List.mem_cons_self _ _ _ awaits
      rw [List.length_cons]
      omega
    -- A closing bracket or a comma follows, and the comma has another item after it.
    cases items with
    | nil =>
      rw [printItems, first, run_punctuation (t := .closeArray) rfl]
      simp only [step, stepAfter, close, List.reverse_cons]
      rfl
    | cons k items =>
      have later := ih (fun i hi => parts i (List.mem_cons_of_mem _ hi)) nofun .nextItem (j :: acc)
      rw [List.reverse_cons, List.append_assoc, List.singleton_append] at later
      rw [printItems, String.toList_append, String.toList_append, List.append_assoc,
        List.append_assoc, first, ← later]
      exact run_punctuation (t := .comma) rfl _

/-- The stages at which the name of a member may come. -/
inductive AwaitsName : Stage → Prop
  | firstName : AwaitsName .firstName
  | nextName : AwaitsName .nextName

theorem run_member {d : Nat} {stack : List Frame} (room : stack.length + (d + 1) ≤ maxDepth)
    (rest : List Char) (name : String) {j : Json} (part : Reads d j)
    {stage : Stage} (awaits : AwaitsName stage) (acc : List (String × Json)) :
    run ⟨.object acc :: stack, stage⟩
        ((quote name).toList ++ ':' :: ((print j).toList ++ rest)) =
      run ⟨.object ((name, j) :: acc) :: stack, .afterValue⟩ rest := by
  have named : step ⟨.object acc :: stack, stage⟩ (.string (.ok name)) =
      .ok ⟨.object acc :: stack, .colon name⟩ := by
    cases awaits <;> rfl
  have value : run ⟨.member acc name :: stack, .value⟩ ((print j).toList ++ rest) =
      run ⟨.object ((name, j) :: acc) :: stack, .afterValue⟩ rest := by
    apply part _ _ _ .value
    rw [List.length_cons]
    omega
  rw [run, tokens_quote, List.foldlM_cons, named, ← value]
  exact run_punctuation (t := .colon) rfl _

theorem run_printMembers {d : Nat} {stack : List Frame}
    (room : stack.length + (d + 1) ≤ maxDepth) (rest : List Char) {members : List (String × Json)}
    (parts : ∀ m ∈ members, Reads d m.2) (some : members ≠ []) {stage : Stage}
    (awaits : AwaitsName stage) (acc : List (String × Json)) :
    run ⟨.object acc :: stack, stage⟩ ((printMembers members).toList ++ '\x7d' :: rest) =
      run (complete (.object (acc.reverse ++ members)) stack) rest := by
  induction members generalizing stage acc with
  | nil => exact absurd rfl some
  | cons m members ih =>
    obtain ⟨name, j⟩ := m
    have part : Reads d j := parts (name, j) List.mem_cons_self
    have first := fun rest' => run_member room rest' name part awaits acc
    cases members with
    | nil =>
      rw [printMembers, String.toList_append, String.toList_append, List.append_assoc,
        List.append_assoc]
      refine (first _).trans ?_
      rw [run_punctuation (t := .closeObject) rfl]
      simp only [step, stepAfter, close, List.reverse_cons]
      rfl
    | cons k members =>
      have later := ih (fun i hi => parts i (List.mem_cons_of_mem _ hi)) nofun .nextName
        ((name, j) :: acc)
      rw [List.reverse_cons, List.append_assoc, List.singleton_append] at later
      rw [printMembers, String.toList_append, String.toList_append, String.toList_append,
        String.toList_append, List.append_assoc, List.append_assoc, List.append_assoc,
        List.append_assoc]
      refine (first _).trans ?_
      rw [← later]
      exact run_punctuation (t := .comma) rfl _

theorem reads_of_plain {d : Nat} {j : Json} (plain : Plain d j) : Reads d j := by
  induction plain with
  | null => exact reads_scalar tokens_null
  | bool => exact reads_scalar (tokens_bool _)
  | string => exact reads_string _
  | @array d items _ ih =>
    intro stack stage rest awaits room
    have opened : stepValue stack .openArray = .ok ⟨.array [] :: stack, .firstItem⟩ :=
      if_neg (by omega)
    rw [print, String.toList_append, String.toList_append, List.append_assoc]
    refine (run_punctuation (t := .openArray) rfl _).trans ?_
    rw [step_of_awaits awaits stack .openArray nofun, opened]
    cases items with
    | nil => exact run_punctuation (t := .closeArray) rfl _
    | cons j items => exact run_printItems room rest ih nofun .firstItem []
  | @object d members _ ih =>
    intro stack stage rest awaits room
    have opened : stepValue stack .openObject = .ok ⟨.object [] :: stack, .firstName⟩ :=
      if_neg (by omega)
    rw [print, String.toList_append, String.toList_append, List.append_assoc]
    refine (run_punctuation (t := .openObject) rfl _).trans ?_
    rw [step_of_awaits awaits stack .openObject nofun, opened]
    cases members with
    | nil => exact run_punctuation (t := .closeObject) rfl _
    | cons m members => exact run_printMembers room rest ih nofun .firstName []

end Machine

/-- The printed text of a value is read as that value. -/
theorem parse_print {j : Json} (plain : Plain Machine.maxDepth j) : parse (print j) = .ok j := by
  have read := Machine.reads_of_plain plain [] .value [] .value (by decide)
  rw [List.append_nil] at read
  have whole : (tokens (print j).toList).foldlM Machine.step Machine.start =
      .ok (Machine.complete j []) := read.trans (by rw [Machine.run, tokens]; rfl)
  rw [parse, ofTokens, whole]
  rfl

end WorkspaceSync.Json
