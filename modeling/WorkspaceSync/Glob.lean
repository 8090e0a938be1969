/-!
# Glob patterns

`?` stands for one character, `*` for any number of them within a name, `**` for any number of whole
names, and brackets for one character of a set or outside it; none but `**` matches a separator. A
match is sought from left to right, the shortest text for each wildcard first, and given up for good
when a single character is wanted and none is left.
-/

namespace WorkspaceSync

inductive GlobError where
  | wildcards
  | recursiveWildcards
  | invalidRange
  deriving DecidableEq, Repr

namespace GlobError

def message : GlobError → String
  | wildcards => "wildcards are either regular `*` or recursive `**`"
  | recursiveWildcards => "recursive wildcards must form a single path component"
  | invalidRange => "invalid range pattern"

end GlobError

namespace Glob

/-- The characters between two ones, which may be the same. -/
structure CharRange where
  first : Char
  last : Char
  deriving DecidableEq, Repr

inductive Token where
  | char (c : Char)
  | any
  | within (ranges : List CharRange)
  | except (ranges : List CharRange)
  | sequence
  | recursive
  deriving DecidableEq, Repr

/-- The ranges between brackets: a hyphen between two characters makes a range of them. -/
def charRanges : List Char → List CharRange
  | a :: '-' :: b :: rest => ⟨a, b⟩ :: charRanges rest
  | a :: rest => ⟨a, a⟩ :: charRanges rest
  | [] => []

/-- What stands up to a closing bracket and after it; the first character is never the bracket. -/
def takeClass : List Char → Option (List Char × List Char)
  | [] => none
  | c :: cs =>
    if ']' ∈ cs then
      some (c :: cs.takeWhile (· ≠ ']'), (cs.dropWhile (· ≠ ']')).drop 1)
    else none

/-- The token of a class whose opening bracket has been read, and what follows it. -/
def bracket : List Char → Except GlobError (Token × List Char)
  | '!' :: cs =>
    match takeClass cs with
    | some (cls, rest) => .ok (.except (charRanges cls), rest)
    | none => .error .invalidRange
  | cs =>
    match takeClass cs with
    | some (cls, rest) => .ok (.within (charRanges cls), rest)
    | none => .error .invalidRange

theorem takeClass_length {cs cls rest : List Char} (h : takeClass cs = some (cls, rest)) :
    rest.length < cs.length := by
  unfold takeClass at h
  split at h
  · cases h
  · split at h
    · obtain ⟨-, rfl⟩ := Prod.mk.inj (Option.some.inj h)
      rename_i c cs _
      have := (List.dropWhile_sublist (l := cs) (· ≠ ']')).length_le
      simp only [List.length_drop, List.length_cons]
      omega
    · cases h

theorem bracket_length {cs rest : List Char} {t : Token} (h : bracket cs = .ok (t, rest)) :
    rest.length < cs.length := by
  unfold bracket at h
  split at h <;> split at h
  · rename_i hc
    obtain ⟨-, rfl⟩ := Prod.mk.inj (Except.ok.inj h)
    exact Nat.lt_succ_of_lt (takeClass_length hc)
  · cases h
  · rename_i hc
    obtain ⟨-, rfl⟩ := Prod.mk.inj (Except.ok.inj h)
    exact takeClass_length hc
  · cases h

/-- Reads a pattern; `nameStart` tells whether a name begins here, `done` holds the tokens so far in
reverse. A second `**` in a row adds nothing. -/
def tokenize (nameStart : Bool) (done : List Token) (cs : List Char) :
    Except GlobError (List Token) :=
  match cs with
  | [] => .ok done.reverse
  | '?' :: rest => tokenize false (.any :: done) rest
  | '*' :: '*' :: '*' :: _ => .error .wildcards
  | '*' :: '*' :: rest =>
    let done' := if 1 < done.length ∧ done.head? = some .recursive then done
      else .recursive :: done
    if nameStart then
      match rest with
      | [] => .ok done'.reverse
      | '/' :: rest => tokenize true done' rest
      | _ => .error .recursiveWildcards
    else .error .recursiveWildcards
  | '*' :: rest => tokenize false (.sequence :: done) rest
  | '[' :: rest =>
    match h : bracket rest with
    | .error e => .error e
    | .ok (t, rest') =>
      have := bracket_length h
      tokenize false (t :: done) rest'
  | c :: rest => tokenize (c = '/') (.char c :: done) rest
termination_by cs.length
decreasing_by all_goals simp only [List.length_cons]; omega

/-- How an attempt to match ends; an exhausted text cannot match by giving a wildcard more. -/
inductive Outcome where
  | matched
  | mismatched
  | exhausted
  deriving DecidableEq, Repr

def inRanges (ranges : List CharRange) (c : Char) : Bool :=
  ranges.any fun r => r.first ≤ c && c ≤ r.last

/-- Whether a token for one character accepts it. -/
def Token.accepts (t : Token) (c : Char) : Bool :=
  match t with
  | .char d => c = d
  | .any => c ≠ '/'
  | .within ranges => c ≠ '/' && inRanges ranges c
  | .except ranges => c ≠ '/' && !inRanges ranges c
  | .sequence | .recursive => false

/-- Gives a wildcard ever more of the text, from one character on, until the rest of the pattern
does not mismatch. -/
def extend (recursive : Bool) (next : List Char → Outcome) : List Char → Outcome
  | [] => next []
  | c :: cs =>
    if recursive then
      if c = '/' then
        match next cs with
        | .mismatched => extend recursive next cs
        | o => o
      else extend recursive next cs
    else if c = '/' then .mismatched
    else
      match next cs with
      | .mismatched => extend recursive next cs
      | o => o

/-- Matches tokens against a whole text. -/
def run : List Token → List Char → Outcome
  | [], [] => .matched
  | [], _ :: _ => .mismatched
  | .sequence :: ts, cs =>
    match run ts cs with
    | .mismatched => extend false (run ts) cs
    | o => o
  | .recursive :: ts, cs =>
    match run ts cs with
    | .mismatched => extend true (run ts) cs
    | o => o
  | _ :: _, [] => .exhausted
  | t :: ts, c :: cs => if t.accepts c then run ts cs else .mismatched

end Glob

structure Glob where
  source : String
  tokens : List Glob.Token
  deriving DecidableEq, Repr

namespace Glob

def compile (source : String) : Except GlobError Glob :=
  (tokenize true [] source.toList).map (⟨source, ·⟩)

def isMatch (g : Glob) (path : String) : Bool := run g.tokens path.toList = .matched

end Glob

end WorkspaceSync
