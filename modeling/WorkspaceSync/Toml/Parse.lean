import WorkspaceSync.Toml.Scalar

/-!
# Reading TOML documents

Values nest to a limited depth, on which their reader recurs; lists of values are read by a loop
that goes on as long as the text gets shorter. A document is a sequence of lines.
-/

namespace WorkspaceSync.Toml

/-- The deepest nesting of values, and one more than the longest key. -/
def maxDepth : Nat := 80

/-! ## Keys -/

def isBareKeyChar (c : Char) : Bool :=
  isDigit c || ('a' ≤ c && c ≤ 'z') || ('A' ≤ c && c ≤ 'Z') || c == '-' || c == '_'

def scanSimpleKey (cs : List Char) : Option (String × List Char) :=
  match cs with
  | [] => none
  | c :: _ =>
    if c = '"' || c = '\x27' then scanLineString cs
    else
      let name := cs.takeWhile isBareKeyChar
      if name.isEmpty then none else some (String.ofList name, cs.drop name.length)

/-- The parts of a key, dots between them and blanks around them. -/
def scanKeyParts (acc : List String) (cs : List Char) : Option (List String × List Char) :=
  match scanSimpleKey (skipBlanks cs) with
  | none => none
  | some (part, rest) =>
    match skipBlanks rest with
    | '.' :: rest' =>
      if rest'.length < cs.length then scanKeyParts (part :: acc) rest' else none
    | rest' => some ((part :: acc).reverse, rest')
termination_by cs.length

/-- The path and the last part of a key. -/
def scanKey (cs : List Char) : Option ((List String × String) × List Char) :=
  match scanKeyParts [] cs with
  | none => none
  | some (parts, rest) =>
    match parts.getLast? with
    | some key => if parts.length < maxDepth then some ((parts.dropLast, key), rest) else none
    | none => none

/-! ## Values -/

/-- The characters of a comment after its sign. -/
def skipCommentBody (cs : List Char) : List Char := cs.dropWhile isPlain

theorem skipCommentBody_length (cs : List Char) : (skipCommentBody cs).length ≤ cs.length :=
  (List.dropWhile_sublist isPlain).length_le

/-- Blanks, line ends and comments that end with their line. -/
def skipFiller (cs : List Char) : Option (List Char) :=
  match hw : skipWhite cs with
  | '#' :: rest =>
    match hn : skipNewline? (skipCommentBody rest) with
    | none => none
    | some rest' =>
      have : rest'.length < cs.length := by
        have h₁ := skipWhite_length cs
        have h₂ := skipCommentBody_length rest
        have h₃ := skipNewline?_length hn
        rw [hw, List.length_cons] at h₁
        omega
      skipFiller rest'
  | rest => some rest
termination_by cs.length

/-- Reads parts separated by commas up to a closing bracket; `trailing` tells whether a comma may
stand before it. -/
def scanSeparated {α : Type} (part : List Char → Option (α × List Char))
    (filler : List Char → Option (List Char)) (closing : Char) (trailing : Bool)
    (acc : List α) (cs : List Char) : Option (List α × List Char) :=
  match filler cs with
  | none => none
  | some cs₁ =>
    if cs₁.head? = some closing && (trailing || acc.isEmpty) then some (acc.reverse, cs₁.drop 1)
    else
      match part cs₁ with
      | none => none
      | some (a, cs₂) =>
        match filler cs₂ with
        | some (c :: cs₃) =>
          if c = closing then some ((a :: acc).reverse, cs₃)
          else if c = ',' && cs₃.length < cs.length then
            scanSeparated part filler closing trailing (a :: acc) cs₃
          else none
        | _ => none
termination_by cs.length
decreasing_by
  rename_i h
  simp only [Bool.and_eq_true, decide_eq_true_eq] at h
  exact h.2

/-- A key, the sign between and a value. -/
def scanPair (value : List Char → Option (Value × List Char)) (cs : List Char) :
    Option ((List String × String × Value) × List Char) := do
  let ((path, key), cs) ← scanKey cs
  let cs ← expect ['='] cs
  let (v, cs) ← value (skipBlanks cs)
  pure ((path, key, v), skipBlanks cs)

/-- The inline table of pairs. -/
def inlineTable (pairs : List (List String × String × Value)) : Option Value :=
  (pairs.foldlM (fun (t : Table) p => t.insertInline p.2.1 p.2.2 p.1) .explicit).map .inlineTable

/-- A value that nests less deeply than a bound. -/
def scanValue : (depth : Nat) → List Char → Option (Value × List Char)
  | 0, _ => none
  | depth + 1, cs =>
    match cs with
    | '[' :: rest =>
      if depth = 0 then none
      else
        (scanSeparated (scanValue depth) skipFiller ']' true [] rest).map fun (vs, rest) =>
          (.array vs, rest)
    | '\x7b' :: rest =>
      if depth = 0 then none
      else do
        let (pairs, rest) ← scanSeparated (scanPair (scanValue depth)) (some ∘ skipBlanks) '\x7d'
          false [] rest
        let v ← inlineTable pairs
        pure (v, rest)
    | cs => scanScalar cs

/-! ## Documents -/

/-- The rest after a line end. The last line needs none. -/
def skipLastNewline? : List Char → Option (List Char)
  | [] => some []
  | cs => skipNewline? cs

theorem skipLastNewline?_length {cs rest : List Char} (h : skipLastNewline? cs = some rest) :
    rest.length ≤ cs.length := by
  unfold skipLastNewline? at h
  split at h
  · cases h; simp
  · exact Nat.le_of_lt (skipNewline?_length h)

/-- The end of a line after blanks and a comment. -/
def skipLineTail (cs : List Char) : Option (List Char) :=
  match skipBlanks cs with
  | '#' :: rest => skipLastNewline? (skipCommentBody rest)
  | rest => skipLastNewline? rest

/-- A header between brackets. -/
def scanHeader (cs : List Char) : Option (Line × List Char) :=
  match cs with
  | '[' :: cs => do
    let ((path, key), cs) ← scanKey cs
    let cs ← expect [']', ']'] cs
    let cs ← skipLineTail cs
    pure (.elementHeader path key, cs)
  | cs => do
    let ((path, key), cs) ← scanKey cs
    let cs ← expect [']'] cs
    let cs ← skipLineTail cs
    pure (.header path key, cs)

/-- A key and a value on a line. -/
def scanEntry (cs : List Char) : Option (Line × List Char) := do
  let ((path, key, v), cs) ← scanPair (scanValue maxDepth) cs
  let cs ← skipLineTail cs
  pure (.entry path key v, cs)

/-- The lines of a document that say something. -/
def scanLines (acc : List Line) (cs : List Char) : Option (List Line) :=
  match hw : skipWhite cs with
  | [] => some acc.reverse
  | '#' :: rest =>
    match hn : skipLastNewline? (skipCommentBody rest) with
    | none => none
    | some rest' =>
      have : rest'.length < cs.length := by
        have h₁ := skipWhite_length cs
        have h₂ := skipCommentBody_length rest
        have h₃ := skipLastNewline?_length hn
        rw [hw, List.length_cons] at h₁
        omega
      scanLines acc rest'
  | '[' :: rest =>
    match scanHeader rest with
    | some (line, rest') =>
      if rest'.length < cs.length then scanLines (line :: acc) rest' else none
    | none => none
  | rest =>
    match scanEntry rest with
    | some (line, rest') =>
      if rest'.length < cs.length then scanLines (line :: acc) rest' else none
    | none => none
termination_by cs.length

/-- The table that a document describes; a byte order mark at its start does not count. -/
def parse (s : String) : Option Table := do
  let cs := match s.toList with
    | '\ufeff' :: cs => cs
    | cs => cs
  let lines ← scanLines [] cs
  let d ← Document.ofLines lines
  pure d.root

end WorkspaceSync.Toml
