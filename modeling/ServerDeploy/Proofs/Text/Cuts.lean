import ServerDeploy.Text.Split

/-! Where a text is cut at its first separator, and how replacing a pair of characters goes on from
left to right. -/

namespace ServerDeploy

theorem all_ne_of_not_mem {sep : Char} {cs : List Char} (h : sep ∉ cs) :
    ∀ c ∈ cs, (c != sep) = true := by
  intro c hc
  apply bne_iff_ne.2
  rintro rfl
  exact h hc

theorem cutAtChar_of_not_mem {sep : Char} {cs : List Char} (h : sep ∉ cs) :
    cutAtChar sep cs = (cs, none) := by
  have hdrop : cs.dropWhile (· != sep) = [] := by
    have happend : (cs ++ []).dropWhile (· != sep) = [] :=
      List.dropWhile_append_of_pos (all_ne_of_not_mem h)
    rwa [List.append_nil] at happend
  unfold cutAtChar
  rw [hdrop]

theorem cutAtChar_append {sep : Char} {cs : List Char} (h : sep ∉ cs) (rest : List Char) :
    cutAtChar sep (cs ++ sep :: rest) = (cs, some rest) := by
  have hall := all_ne_of_not_mem h
  unfold cutAtChar
  rw [List.dropWhile_append_of_pos hall, List.takeWhile_append_of_pos hall]
  simp

theorem takeWhile_ne_append_dropWhile (sep : Char) (cs : List Char) :
    cs.takeWhile (· != sep) ++ cs.dropWhile (· != sep) = cs := List.takeWhile_append_dropWhile

theorem not_mem_takeWhile_ne (sep : Char) (cs : List Char) : sep ∉ cs.takeWhile (· != sep) :=
  fun hmem => by simpa using List.all_eq_true.1 List.all_takeWhile sep hmem

theorem not_mem_of_cutAtChar {sep : Char} {cs key : List Char} (h : cutAtChar sep cs = (key, none)) :
    key = cs ∧ sep ∉ cs := by
  have hall := takeWhile_ne_append_dropWhile sep cs
  have hnot := not_mem_takeWhile_ne sep cs
  unfold cutAtChar at h
  split at h
  · next hdrop =>
    cases h
    rw [hdrop, List.append_nil] at hall
    rw [hall] at hnot
    exact ⟨rfl, hnot⟩
  · cases h

theorem eq_append_of_cutAtChar {sep : Char} {cs key rest : List Char}
    (h : cutAtChar sep cs = (key, some rest)) : cs = key ++ sep :: rest ∧ sep ∉ key := by
  have hall := takeWhile_ne_append_dropWhile sep cs
  have hfirst := List.head?_dropWhile_not (· != sep) cs
  unfold cutAtChar at h
  split at h
  · cases h
  · next c after hdrop =>
    cases h
    rw [hdrop] at hall hfirst
    obtain rfl : c = sep := by simpa using hfirst
    exact ⟨hall.symm, not_mem_takeWhile_ne c cs⟩

theorem joinWith_ne_nil {sep : Char} {part : List Char} (h : part ≠ []) {parts : List (List Char)} :
    joinWith sep (part :: parts) ≠ [] := by
  cases parts with
  | nil => exact h
  | cons next parts =>
    intro hnil
    exact h (List.append_eq_nil_iff.1 hnil).1

theorem replacePair_cons_cons (a b c x y : Char) (rest : List Char) :
    replacePair a b c (x :: y :: rest) =
      if x = a ∧ y = b then c :: replacePair a b c rest else x :: replacePair a b c (y :: rest) := rfl

theorem replacePair_of_ne {a b c x : Char} (h : x ≠ a) (cs : List Char) :
    replacePair a b c (x :: cs) = x :: replacePair a b c cs := by
  cases cs with
  | nil => rfl
  | cons y rest => rw [replacePair_cons_cons, if_neg fun hpair => h hpair.1]

theorem replacePair_of_next {a b : Char} (c : Char) {cs : List Char} (h : b ∉ cs.head?) :
    replacePair a b c (a :: cs) = a :: replacePair a b c cs := by
  cases cs with
  | nil => rfl
  | cons y rest =>
    have hy : y ≠ b := by simpa using h
    rw [replacePair_cons_cons, if_neg fun hpair => hy hpair.2]

theorem replacePair_pair (a b c : Char) (cs : List Char) :
    replacePair a b c (a :: b :: cs) = c :: replacePair a b c cs := by
  rw [replacePair_cons_cons, if_pos ⟨rfl, rfl⟩]

end ServerDeploy
