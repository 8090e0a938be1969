/-!
# White space

The Unicode property `White_Space`, and trimming by it. `trimChars_eq_self` is the law that callers
use: characters without a blank are their own trimming.
-/

namespace WorkspaceSync.Text

/-- The code points of the Unicode property `White_Space`. -/
def isBlank (c : Char) : Bool :=
  let n := c.toNat
  (0x09 ≤ n && n ≤ 0x0D) || n == 0x20 || n == 0x85 || n == 0xA0 || n == 0x1680 ||
  (0x2000 ≤ n && n ≤ 0x200A) || n == 0x2028 || n == 0x2029 || n == 0x202F || n == 0x205F ||
  n == 0x3000

/-- A text without the blanks at its two ends. -/
def trimChars (cs : List Char) : List Char :=
  ((cs.dropWhile isBlank).reverse.dropWhile isBlank).reverse

def trim (s : String) : String := String.ofList (trimChars s.toList)

@[simp] theorem toList_trim (s : String) : (trim s).toList = trimChars s.toList := by simp [trim]

private theorem dropWhile_eq_self {cs : List Char} (h : cs.all (!isBlank ·) = true) :
    cs.dropWhile isBlank = cs := by
  cases cs with
  | nil => rfl
  | cons c cs => simp_all

theorem trimChars_eq_self {cs : List Char} (h : cs.all (!isBlank ·) = true) :
    trimChars cs = cs := by
  rw [trimChars, dropWhile_eq_self h, dropWhile_eq_self (by simpa using h), List.reverse_reverse]

end WorkspaceSync.Text
