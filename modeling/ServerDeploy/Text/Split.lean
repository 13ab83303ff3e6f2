import ServerDeploy.Text.Blank

/-! Cutting texts at separators and joining them again. -/

namespace ServerDeploy

/-- The parts of a text between the occurrences of a separator; at least one, possibly empty. -/
def splitAtChar (sep : Char) : List Char → List (List Char)
  | [] => [[]]
  | c :: cs =>
    if c = sep then [] :: splitAtChar sep cs
    else match splitAtChar sep cs with
      | [] => [[c]]
      | part :: parts => (c :: part) :: parts

/-- The parts joined with a separator between them. -/
def joinWith (sep : Char) : List (List Char) → List Char
  | [] => []
  | [part] => part
  | part :: parts => part ++ sep :: joinWith sep parts

theorem splitAtChar_ne_nil (sep : Char) (cs : List Char) : splitAtChar sep cs ≠ [] := by
  cases cs with
  | nil => simp [splitAtChar]
  | cons c cs =>
    simp only [splitAtChar]
    split
    · simp
    · split <;> simp

/-- Joining the parts gives the text back. -/
theorem joinWith_splitAtChar (sep : Char) (cs : List Char) :
    joinWith sep (splitAtChar sep cs) = cs := by
  induction cs with
  | nil => rfl
  | cons c cs ih =>
    have hne := splitAtChar_ne_nil sep cs
    simp only [splitAtChar]
    split
    · next h =>
      subst h
      cases hp : splitAtChar c cs with
      | nil => exact absurd hp hne
      | cons part parts => simpa [joinWith, hp] using ih
    · cases hp : splitAtChar sep cs with
      | nil => exact absurd hp hne
      | cons part parts =>
        rw [hp] at ih
        cases parts with
        | nil => simpa [joinWith] using ih
        | cons q qs => simpa [joinWith] using ih

theorem not_mem_of_mem_splitAtChar {sep : Char} {cs part : List Char}
    (h : part ∈ splitAtChar sep cs) : sep ∉ part := by
  induction cs generalizing part with
  | nil =>
    simp only [splitAtChar, List.mem_singleton] at h
    simp [h]
  | cons c cs ih =>
    simp only [splitAtChar] at h
    split at h
    · rcases List.mem_cons.mp h with h | h
      · simp [h]
      · exact ih h
    · next hc =>
      split at h
      · simp only [List.mem_singleton] at h
        simp [h, Ne.symm hc]
      · next part' parts hp =>
        rcases List.mem_cons.mp h with h | h
        · subst h
          simp only [List.mem_cons, not_or]
          exact ⟨Ne.symm hc, ih (by simp [hp])⟩
        · exact ih (by simp [hp, h])

/-- The text before the first separator and, if there is one, the text after it. -/
def cutAtChar (sep : Char) (cs : List Char) : List Char × Option (List Char) :=
  match cs.dropWhile (· != sep) with
  | [] => (cs, none)
  | _ :: after => (cs.takeWhile (· != sep), some after)

/-- Every occurrence of the pair `a b`, from the left and without overlap, replaced by `c`. -/
def replacePair (a b c : Char) : List Char → List Char
  | x :: y :: rest =>
    if x = a ∧ y = b then c :: replacePair a b c rest else x :: replacePair a b c (y :: rest)
  | rest => rest

/-- The words of a text: its longest runs without white space. -/
def words (cs : List Char) : List (List Char) :=
  let flush (word : List Char) (rest : List (List Char)) :=
    if word.isEmpty then rest else word :: rest
  let (word, rest) := cs.foldr
    (fun c (word, rest) => if isBlank c then ([], flush word rest) else (c :: word, rest))
    (([], []) : List Char × List (List Char))
  flush word rest

/-- The parts of a text between the occurrences of a separator. -/
def splitText (sep : Char) (s : String) : List String :=
  (splitAtChar sep s.toList).map String.ofList

end ServerDeploy
