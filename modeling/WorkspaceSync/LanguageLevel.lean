import WorkspaceSync.Text.Blank
import WorkspaceSync.Text.Numeral

/-!
# Language levels

A source language level is the number of a feature release. Up to release 8 it is written `1.N`,
later `N`; both spellings are read, the older one up to release 9. Any number makes a level, but
releases count from 1, and no text is read as release 0.
-/

namespace WorkspaceSync

open Text

structure LanguageLevel where
  release : UInt32
  deriving DecidableEq

namespace LanguageLevel

instance : Ord LanguageLevel := ⟨compareOn (·.release.toNat)⟩

instance : Std.TransOrd LanguageLevel :=
  inferInstanceAs (Std.TransCmp (compareOn fun l : LanguageLevel => l.release.toNat))

def max (a b : LanguageLevel) : LanguageLevel := if (compare a b).isLE then b else a

/-- The level where nothing asks for one. -/
def baseline : LanguageLevel := ⟨7⟩

/-- The level of a release; releases count from 1. -/
def ofRelease? (n : Nat) : Option LanguageLevel :=
  if 1 ≤ n then some ⟨UInt32.ofNat n⟩ else none

def text (l : LanguageLevel) : String :=
  if l.release ≤ 8 then "1." ++ toString l.release.toNat else toString l.release.toNat

instance : ToString LanguageLevel := ⟨text⟩

/-- Releases are below 2 ^ 32. -/
def releaseBound : Nat := 0x100000000

/-- Reads either spelling, surrounded by blanks or not. -/
def parse? (s : String) : Option LanguageLevel :=
  let t := trimChars s.toList
  match dropStart? ['1', '.'] t with
  | some legacy => ((unsigned? releaseBound legacy).filter (· ≤ 9)).bind ofRelease?
  | none => (unsigned? releaseBound t).bind ofRelease?

/-- Why a text is no level. -/
structure ParseError where
  text : String
  deriving DecidableEq, Repr

def ParseError.message (e : ParseError) : String := s!"'{e.text}' is not a Java language level"

def parse (s : String) : Except ParseError LanguageLevel :=
  match parse? s with
  | some l => .ok l
  | none => .error ⟨s⟩

end LanguageLevel

end WorkspaceSync
