/-!
# White space

`isBlank` is the class of white space that is dropped around a version or a number: the Unicode
white space characters together with the four information separators U+001C to U+001F.
`trim` drops a run of it at both ends of a text and nothing inside.

Contents

* `isBlank` — the class;
* `trim` — a text without the blanks at its two ends; `trim_of_ends` is about a text with none.
-/

namespace Subgraph.Text

/-- White space: tab to carriage return, the information separators, the space, next line, the
no-break space and the spaces and separators of the general punctuation block. -/
def isBlank (c : Char) : Bool :=
  let n := c.toNat
  (9 ≤ n && n ≤ 13) || (28 ≤ n && n ≤ 32) || n == 0x85 || n == 0xA0 || n == 0x1680 ||
    (0x2000 ≤ n && n ≤ 0x200A) || n == 0x2028 || n == 0x2029 || n == 0x202F || n == 0x205F ||
    n == 0x3000

/-- White space of the ASCII range, without the information separators. -/
def isAsciiBlank (c : Char) : Bool :=
  (9 ≤ c.toNat && c.toNat ≤ 13) || c.toNat == 32

/-- `cs` without the characters of `p` at its end. -/
def trimEndBy (p : Char → Bool) (cs : List Char) : List Char :=
  (cs.reverse.dropWhile p).reverse

/-- `cs` without the characters of `p` at its two ends. -/
def trimBy (p : Char → Bool) (cs : List Char) : List Char :=
  trimEndBy p (cs.dropWhile p)

/-- `cs` without white space at its two ends. -/
def trim (cs : List Char) : List Char := trimBy isBlank cs

/-! ## Small facts -/

@[simp] theorem trimBy_nil (p : Char → Bool) : trimBy p [] = [] := rfl

/-- A text whose first and last characters are outside the class is left as it is. -/
theorem trimBy_of_ends {p : Char → Bool} {cs : List Char}
    (hh : ∀ c ∈ cs.head?, p c = false) (hl : ∀ c ∈ cs.getLast?, p c = false) :
    trimBy p cs = cs := by
  cases cs with
  | nil => rfl
  | cons c r =>
    have hc : p c = false := hh c (by simp)
    have hd : (c :: r).dropWhile p = c :: r := by simp [hc]
    unfold trimBy trimEndBy
    rw [hd]
    cases hr : (c :: r).reverse with
    | nil => simp at hr
    | cons d t =>
      have hd' : p d = false := hl d (by
        rw [← List.head?_reverse, hr]; simp)
      rw [List.dropWhile_cons_of_neg (by simp [hd']), ← hr, List.reverse_reverse]

/-- Trimming with white space, for a text that neither starts nor ends with it. -/
theorem trim_of_ends {cs : List Char} (hh : ∀ c ∈ cs.head?, isBlank c = false)
    (hl : ∀ c ∈ cs.getLast?, isBlank c = false) : trim cs = cs :=
  trimBy_of_ends hh hl

end Subgraph.Text
