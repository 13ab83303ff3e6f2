/-! White space: the characters that separate tokens and are trimmed from the ends of a text.
Besides the ASCII blanks these are the four information separators, NEL, and the space and line
separators of Unicode. The zero-width space and the byte order mark are not among them. -/

namespace ServerDeploy

/-- White space as it is skipped and trimmed everywhere in this library. -/
def isBlank (c : Char) : Bool :=
  let n := c.toNat
  (9 ≤ n && n ≤ 13) || (0x1c ≤ n && n ≤ 0x20) || n == 0x85 || n == 0xa0 || n == 0x1680 ||
    (0x2000 ≤ n && n ≤ 0x200a) || n == 0x2028 || n == 0x2029 || n == 0x202f || n == 0x205f ||
    n == 0x3000

/-- The text from its first character that is not white space. -/
def skipBlanks : List Char → List Char :=
  List.dropWhile isBlank

/-- White space removed at both ends. -/
def trimBlanks (cs : List Char) : List Char :=
  (skipBlanks (skipBlanks cs).reverse).reverse

theorem skipBlanks_cons_blank {c : Char} {cs : List Char} (h : isBlank c = true) :
    skipBlanks (c :: cs) = skipBlanks cs := by
  simp [skipBlanks, h]

theorem skipBlanks_cons_of_not_blank {c : Char} {cs : List Char} (h : isBlank c = false) :
    skipBlanks (c :: cs) = c :: cs := by
  simp [skipBlanks, h]

theorem length_skipBlanks_le (cs : List Char) : (skipBlanks cs).length ≤ cs.length :=
  (List.dropWhile_sublist _).length_le

/-- What remains after skipping does not begin with white space. -/
theorem isBlank_of_skipBlanks_eq_cons {c : Char} {cs rest : List Char}
    (h : skipBlanks cs = c :: rest) : isBlank c = false := by
  induction cs with
  | nil => simp [skipBlanks] at h
  | cons d cs ih =>
    cases hd : isBlank d with
    | true => exact ih (by rwa [skipBlanks_cons_blank hd] at h)
    | false =>
      rw [skipBlanks_cons_of_not_blank hd] at h
      rw [← (List.cons.inj h).1, hd]

end ServerDeploy
