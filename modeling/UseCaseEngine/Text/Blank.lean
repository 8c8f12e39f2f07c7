/-!
# White space

`isBlank` is the Unicode property `White_Space`; `trim` removes it from both ends of a text.

* `isBlank_of_isWhitespace`: the property contains the six characters that are white space in ASCII.
* `trimChars_eq_nil_iff`: nothing is left of a text exactly when every character of it is blank.
-/

namespace UseCaseEngine.Text

/-- The characters with the Unicode property `White_Space`. -/
def isBlank (c : Char) : Bool :=
  let n := c.toNat
  (0x9 ≤ n && n ≤ 0xd) || n == 0x20 || n == 0x85 || n == 0xa0 || n == 0x1680
    || (0x2000 ≤ n && n ≤ 0x200a) || n == 0x2028 || n == 0x2029 || n == 0x202f || n == 0x205f
    || n == 0x3000

theorem isBlank_of_isWhitespace {c : Char} (h : c.isWhitespace = true) : isBlank c = true := by
  simp only [Char.isWhitespace, Bool.or_eq_true, decide_eq_true_eq] at h
  rcases h with ((h | h) | h) | h <;> subst h <;> decide

/-- The characters left when blank ones are removed from both ends. -/
def trimChars (cs : List Char) : List Char :=
  ((cs.dropWhile isBlank).reverse.dropWhile isBlank).reverse

/-- The text without the blank characters at its ends. -/
def trim (s : String) : String := String.ofList (trimChars s.toList)

theorem trimChars_eq_nil_iff (cs : List Char) : trimChars cs = [] ↔ ∀ c ∈ cs, isBlank c := by
  have nil_iff : ∀ xs : List Char, xs.dropWhile isBlank = [] ↔ ∀ c ∈ xs, isBlank c := by
    intro xs
    induction xs with
    | nil => simp
    | cons x xs ih => by_cases hx : isBlank x = true <;> simp [hx, ih]
  unfold trimChars
  rw [List.reverse_eq_nil_iff, nil_iff]
  constructor
  · intro h
    apply (nil_iff cs).mp
    cases hd : cs.dropWhile isBlank with
    | nil => rfl
    | cons x xs =>
      have hx : ¬ isBlank x = true := by
        have := List.head_dropWhile_not (p := isBlank) (l := cs) (by simp [hd])
        simpa [hd] using this
      exact absurd (h x (by simp [hd])) hx
  · intro h c hc
    exact h c ((List.dropWhile_sublist isBlank).subset (by simpa using hc))

/-- The text is empty once trimmed. -/
def isBlankText (s : String) : Bool := (trim s).isEmpty

end UseCaseEngine.Text
