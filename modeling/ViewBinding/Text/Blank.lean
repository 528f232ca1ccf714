/-!
# White space

Which characters are white space, and the operations on texts that look at nothing else: taking
white space out, trimming it off both ends, cutting a text down to its first line.
-/

namespace ViewBinding.Text

/-- Whether `c` is white space: the Unicode property `White_Space`. -/
def isBlank (c : Char) : Bool :=
  let n := c.toNat
  (9 ≤ n && n ≤ 13) || n == 0x20 || n == 0x85 || n == 0xA0 || n == 0x1680
    || (0x2000 ≤ n && n ≤ 0x200A) || n == 0x2028 || n == 0x2029 || n == 0x202F
    || n == 0x205F || n == 0x3000

/-- Whether `c` is white space between tokens: a space or a control character that moves on. -/
def isSpace (c : Char) : Bool :=
  c == ' ' || (9 ≤ c.toNat && c.toNat ≤ 13)

/-- The text without its white space. -/
def compact (cs : List Char) : List Char :=
  cs.filter fun c => !isBlank c

@[simp] theorem compact_nil : compact [] = [] := rfl

theorem compact_cons (c : Char) (cs : List Char) :
    compact (c :: cs) = if isBlank c then compact cs else c :: compact cs := by
  cases h : isBlank c <;> simp [compact, h]

@[simp] theorem compact_append (cs ds : List Char) :
    compact (cs ++ ds) = compact cs ++ compact ds := by
  simp [compact]

@[simp] theorem compact_compact (cs : List Char) : compact (compact cs) = compact cs := by
  simp [compact]

theorem compact_eq_nil_iff {cs : List Char} : compact cs = [] ↔ ∀ c ∈ cs, isBlank c := by
  simp [compact]

/-- The text without the white space at its two ends. -/
def trim (cs : List Char) : List Char :=
  ((cs.dropWhile isBlank).reverse.dropWhile isBlank).reverse

/-- The text up to its first line feed. -/
def firstLine (cs : List Char) : List Char :=
  cs.takeWhile (· ≠ '\n')

end ViewBinding.Text
